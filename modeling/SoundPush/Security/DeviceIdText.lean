/-
`DeviceIdText` -- device ids as text (`to_hex` and `from_hex` of `identity.rs`).

Reading takes the text two bytes at a time and leaves each pair to the number parser
of the standard library, which takes a plus sign in front of digits. So a pair of a
plus sign and a digit reads as the digit, and apart from such pairs a text that reads
as an id is the id's own text, in either case (`from_hex_exact_iff`). The parser is
followed on the bytes; a byte of a longer character is no digit.
-/
import SoundPush.Discovery.Beacon

set_option autoImplicit false

namespace SoundPush

/-! ## 1. Ascii texts -/

theorem as_bytes_eq (s : String) : as_bytes s = s.toList.flatMap String.utf8EncodeChar := by
  unfold as_bytes
  rw [String.toUTF8_eq_toByteArray, ← String.utf8Encode_toList, List.utf8Encode]
  simp

theorem as_bytes_inj {s t : String} (h : as_bytes s = as_bytes t) : s = t := by
  have hs := from_utf8_as_bytes s
  rw [h, from_utf8_as_bytes] at hs
  exact (Option.some_inj.1 hs).symm

def byte_char (b : UInt8) : Char := Char.ofNat b.toNat

/-- Bytes below 128 are the bytes of a text of as many characters. -/
theorem as_bytes_ascii {bytes : Bytes} (h : ∀ b ∈ bytes, b.toNat < 128) :
    as_bytes (String.ofList (bytes.map byte_char)) = bytes := by
  rw [as_bytes_eq, String.toList_ofList, List.flatMap_map]
  induction bytes with
  | nil => rfl
  | cons b bytes ih =>
      have hb := h b List.mem_cons_self
      have hchar : String.utf8EncodeChar (byte_char b) = [b] := by
        have hall :
            ∀ n : Fin 128, String.utf8EncodeChar (Char.ofNat n.val) = [UInt8.ofNat n.val] := by
          decide +kernel
        have hn := hall ⟨b.toNat, hb⟩
        rwa [UInt8.ofNat_toNat] at hn
      rw [List.flatMap_cons, hchar, ih fun b hb => h b (List.mem_cons_of_mem _ hb)]
      rfl

theorem toList_of_ascii {s : String} (h : ∀ b ∈ as_bytes s, b.toNat < 128) :
    s.toList = (as_bytes s).map byte_char := by
  have hs := as_bytes_inj (as_bytes_ascii h)
  conv_lhs => rw [← hs]
  rw [String.toList_ofList]

/-! ## 2. Digits -/

def is_hex_byte (b : UInt8) : Bool := (hex_digit b).isSome

/-- The value of a digit. -/
def nibble (b : UInt8) : Nat := (hex_digit b).getD 0

def to_ascii_lowercase (c : Char) : Char :=
  if 'A' ≤ c ∧ c ≤ 'Z' then Char.ofNat (c.toNat + 32) else c

theorem hex_byte_facts {b : UInt8} (h : is_hex_byte b = true) :
    b.toNat < 128 ∧ nibble b < 16 ∧ b ≠ 43 ∧
      (nibble b).digitChar = to_ascii_lowercase (byte_char b) := by
  have hall : ∀ n : Fin 256, is_hex_byte (UInt8.ofNat n.val) = true →
      (UInt8.ofNat n.val).toNat < 128 ∧ nibble (UInt8.ofNat n.val) < 16 ∧ UInt8.ofNat n.val ≠ 43 ∧
        (nibble (UInt8.ofNat n.val)).digitChar =
          to_ascii_lowercase (byte_char (UInt8.ofNat n.val)) := by
    decide +kernel
  have hb := hall ⟨b.toNat, b.toNat_lt⟩
  rw [UInt8.ofNat_toNat] at hb
  exact hb h

theorem hex_digit_of_hex_byte {b : UInt8} (h : is_hex_byte b = true) :
    hex_digit b = some (nibble b) := by
  obtain ⟨d, hd⟩ := Option.isSome_iff_exists.1 h
  rw [nibble, hd, Option.getD_some]

/-- What digits spell. -/
def spell (digits : List Nat) : Nat := digits.foldl (fun n d => n * 16 + d) 0

theorem spell_concat (digits : List Nat) (d : Nat) :
    spell (digits ++ [d]) = spell digits * 16 + d := by
  simp [spell]

theorem spell_lt {digits : List Nat} (h : ∀ d ∈ digits, d < 16) :
    spell digits < 16 ^ digits.length := by
  induction digits using List.reverseRecOn with
  | nil => decide
  | append_singleton digits d ih =>
      have hd := h d (by simp)
      have ih := ih fun d hd => h d (List.mem_append_left _ hd)
      rw [spell_concat, List.length_append, List.length_singleton, Nat.pow_succ]
      omega

/-- Digits are written back. -/
theorem hex_spell {digits : List Nat} (h : ∀ d ∈ digits, d < 16) :
    hex digits.length (spell digits) = digits.map Nat.digitChar := by
  induction digits using List.reverseRecOn with
  | nil => rfl
  | append_singleton digits d ih =>
      have hd := h d (by simp)
      have hhigh : (spell digits * 16 + d) / 16 = spell digits := by omega
      have hlow : (spell digits * 16 + d) % 16 = d := by omega
      rw [spell_concat, List.length_append, List.length_singleton, hex, hhigh, hlow,
        ih fun d hd => h d (List.mem_append_left _ hd), List.map_append]
      rfl

/-- The digits that are written of a number. -/
def hex_digits : Nat → Nat → List Nat
  | 0, _ => []
  | n + 1, x => hex_digits n (x / 16) ++ [x % 16]

theorem hex_eq (n x : Nat) : hex n x = (hex_digits n x).map Nat.digitChar := by
  induction n generalizing x with
  | zero => rfl
  | succ n ih =>
      rw [hex, hex_digits, ih, List.map_append]
      rfl

theorem length_hex_digits (n x : Nat) : (hex_digits n x).length = n := by
  induction n generalizing x with
  | zero => rfl
  | succ n ih => rw [hex_digits, List.length_append, ih, List.length_singleton]

theorem hex_digits_lt {n x d : Nat} (h : d ∈ hex_digits n x) : d < 16 := by
  induction n generalizing x with
  | zero => cases h
  | succ n ih =>
      rcases List.mem_append.1 h with h | h
      · exact ih h
      · rw [List.mem_singleton.1 h]
        exact Nat.mod_lt x (by decide)

theorem spell_hex_digits (n x : Nat) : spell (hex_digits n x) = x % 16 ^ n := by
  induction n generalizing x with
  | zero => simp [hex_digits, spell, Nat.mod_one]
  | succ n ih =>
      rw [hex_digits, spell_concat, ih, Nat.pow_succ, Nat.mul_comm (16 ^ n), Nat.mod_mul]
      omega

/-! ## 3. Pairs -/

/-- The text is made of pairs of digits, of which the first may be a plus sign. -/
def paired : Bytes → Bool
  | [] => true
  | [_] => false
  | a :: b :: rest => (a = 43 || is_hex_byte a) && is_hex_byte b && paired rest

theorem unhex_isSome (bytes : Bytes) : (unhex bytes).isSome = paired bytes := by
  induction bytes using paired.induct with
  | case1 => rfl
  | case2 => rfl
  | case3 a b rest ih =>
      rw [paired, ← ih, unhex, from_str_radix_16]
      by_cases ha : a = 43
      · subst ha
        cases hb : hex_digit b <;> cases hr : unhex rest <;> simp [is_hex_byte, hb]
      · cases hd : hex_digit a <;> cases hb : hex_digit b <;> cases hr : unhex rest <;>
          simp [is_hex_byte, ha, hd, hb]

theorem length_unhex {bytes : Bytes} {values : List Nat} (h : unhex bytes = some values) :
    2 * values.length = bytes.length := by
  induction bytes using paired.induct generalizing values with
  | case1 =>
      obtain rfl := Option.some_inj.1 h
      rfl
  | case2 => cases h
  | case3 a b rest ih =>
      rw [unhex] at h
      cases hpair : from_str_radix_16 a b with
      | none => simp [hpair] at h
      | some value =>
          cases hrest : unhex rest with
          | none => simp [hpair, hrest] at h
          | some values' =>
              simp [hpair, hrest] at h
              have ih := ih hrest
              rw [← h]
              simp only [List.length_cons]
              omega

/-- What the bytes of the pairs spell is what the digits spell. -/
theorem unhex_digits {bytes : Bytes} (hpaired : paired bytes = true)
    (h : ∀ b ∈ bytes, is_hex_byte b = true) :
    ∃ values, unhex bytes = some values ∧ 2 * values.length = bytes.length ∧
      ∀ n, values.foldl (fun n b => n * 256 + b) n =
        (bytes.map nibble).foldl (fun n d => n * 16 + d) n := by
  induction bytes using paired.induct with
  | case1 => exact ⟨[], rfl, rfl, fun n => rfl⟩
  | case2 => cases hpaired
  | case3 a b rest ih =>
      simp only [List.forall_mem_cons] at h
      obtain ⟨ha, hb, hrest⟩ := h
      simp only [paired, Bool.and_eq_true] at hpaired
      obtain ⟨values, hvalues, hlen, hfold⟩ := ih hpaired.2 hrest
      have hpair : from_str_radix_16 a b = some (nibble a * 16 + nibble b) := by
        rw [from_str_radix_16, if_neg (hex_byte_facts ha).2.2.1, hex_digit_of_hex_byte ha,
          hex_digit_of_hex_byte hb]
        rfl
      refine ⟨(nibble a * 16 + nibble b) :: values, ?_, ?_, ?_⟩
      · rw [unhex, hpair, hvalues]
        rfl
      · simp only [List.length_cons]
        omega
      · intro n
        simp only [List.foldl_cons, List.map_cons, hfold]
        congr 1
        omega

theorem is_hex_byte_of_paired {bytes : Bytes} (hpaired : paired bytes = true)
    (hplus : (43 : UInt8) ∉ bytes) : ∀ b ∈ bytes, is_hex_byte b = true := by
  induction bytes using paired.induct with
  | case1 => simp
  | case2 => cases hpaired
  | case3 a b rest ih =>
      simp only [paired, Bool.and_eq_true, Bool.or_eq_true, decide_eq_true_eq] at hpaired
      simp only [List.mem_cons, not_or] at hplus
      obtain ⟨⟨ha, hb⟩, hrest⟩ := hpaired
      simp only [List.forall_mem_cons]
      exact ⟨ha.resolve_left (Ne.symm hplus.1), hb, ih hrest hplus.2.2⟩

theorem ascii_of_paired {bytes : Bytes} (hpaired : paired bytes = true) :
    ∀ b ∈ bytes, b.toNat < 128 := by
  induction bytes using paired.induct with
  | case1 => simp
  | case2 => cases hpaired
  | case3 a b rest ih =>
      simp only [paired, Bool.and_eq_true, Bool.or_eq_true, decide_eq_true_eq] at hpaired
      obtain ⟨⟨ha, hb⟩, hrest⟩ := hpaired
      simp only [List.forall_mem_cons]
      refine ⟨?_, (hex_byte_facts hb).1, ih hrest⟩
      rcases ha with rfl | ha
      · decide
      · exact (hex_byte_facts ha).1

theorem paired_of_hex {bytes : Bytes} (heven : 2 ∣ bytes.length)
    (h : ∀ b ∈ bytes, is_hex_byte b = true) : paired bytes = true := by
  induction bytes using paired.induct with
  | case1 => rfl
  | case2 => simp at heven
  | case3 a b rest ih =>
      simp only [List.forall_mem_cons] at h
      simp only [List.length_cons] at heven
      rw [paired, h.1, h.2.1, ih (by omega) h.2.2, Bool.or_true]
      rfl

/-! ## 4. Ids -/

namespace DeviceId

/-- Thirty-two digits are read as the id they spell. -/
theorem from_hex_digits {s : String} (hlen : (as_bytes s).length = 32)
    (h : ∀ b ∈ as_bytes s, is_hex_byte b = true) :
    from_hex s = some ⟨BitVec.ofNat 128 (spell ((as_bytes s).map nibble))⟩ := by
  obtain ⟨values, hvalues, hcount, hfold⟩ :=
    unhex_digits (paired_of_hex (by rw [hlen]; decide) h) h
  have hsixteen : values.length = 16 := by omega
  unfold from_hex
  change (unhex (as_bytes s)).bind _ = _
  rw [hvalues, Option.bind_some, if_pos hsixteen, hfold 0]
  rfl

/-- The text of an id that digits spell is these digits. -/
theorem to_hex_spell {digits : List Nat} (hlen : digits.length = 32) (h : ∀ d ∈ digits, d < 16) :
    to_hex ⟨BitVec.ofNat 128 (spell digits)⟩ = String.ofList (digits.map Nat.digitChar) := by
  have hlt : spell digits < 2 ^ 128 := by
    have hspell := spell_lt h
    rw [hlen] at hspell
    exact hspell
  rw [to_hex, BitVec.toNat_ofNat, Nat.mod_eq_of_lt hlt, ← hlen, hex_spell h]

theorem nibbles_lt {bytes : Bytes} (h : ∀ b ∈ bytes, is_hex_byte b = true) :
    ∀ d ∈ bytes.map nibble, d < 16 := by
  intro d hd
  obtain ⟨b, hb, rfl⟩ := List.mem_map.1 hd
  exact (hex_byte_facts (h b hb)).2.1

/-- Digits come back in lower case. -/
theorem to_hex_from_hex {s : String} {id : DeviceId} (hlen : (as_bytes s).length = 32)
    (h : ∀ b ∈ as_bytes s, is_hex_byte b = true) (hid : from_hex s = some id) :
    id.to_hex.toList = s.toList.map to_ascii_lowercase := by
  rw [from_hex_digits hlen h] at hid
  obtain rfl := Option.some_inj.1 hid
  rw [to_hex_spell (by rw [List.length_map, hlen]) (nibbles_lt h), String.toList_ofList,
    toList_of_ascii fun b hb => (hex_byte_facts (h b hb)).1, List.map_map, List.map_map]
  exact List.map_congr_left fun b hb => (hex_byte_facts (h b hb)).2.2.2

theorem digit_byte {d : Nat} (h : d < 16) :
    ∃ b, byte_char b = d.digitChar ∧ is_hex_byte b = true ∧ nibble b = d := by
  have hall : ∀ d : Fin 16, ∃ n : Fin 256, byte_char (UInt8.ofNat n.val) = Nat.digitChar d.val ∧
      is_hex_byte (UInt8.ofNat n.val) = true ∧ nibble (UInt8.ofNat n.val) = d.val := by
    decide +kernel
  obtain ⟨n, hn⟩ := hall ⟨d, h⟩
  exact ⟨_, hn⟩

/-- The bytes of written digits. -/
theorem digit_bytes {digits : List Nat} (h : ∀ d ∈ digits, d < 16) :
    ∃ bytes : Bytes, bytes.map byte_char = digits.map Nat.digitChar ∧
      (∀ b ∈ bytes, is_hex_byte b = true) ∧ bytes.map nibble = digits := by
  induction digits with
  | nil => exact ⟨[], rfl, by simp, rfl⟩
  | cons d digits ih =>
      obtain ⟨b, hchar, hhex, hnibble⟩ := digit_byte (h d List.mem_cons_self)
      obtain ⟨bytes, hchars, hhexes, hnibbles⟩ := ih fun d hd => h d (List.mem_cons_of_mem _ hd)
      refine ⟨b :: bytes, ?_, ?_, ?_⟩
      · rw [List.map_cons, List.map_cons, hchar, hchars]
      · simp only [List.forall_mem_cons]
        exact ⟨hhex, hhexes⟩
      · rw [List.map_cons, hnibble, hnibbles]

/-- The text of an id reads back. -/
theorem from_hex_to_hex (id : DeviceId) : from_hex id.to_hex = some id := by
  have hlt : ∀ d ∈ hex_digits 32 id.bytes.toNat, d < 16 := fun d hd => hex_digits_lt hd
  obtain ⟨bytes, hchars, hhex, hnibbles⟩ := digit_bytes hlt
  have htext : as_bytes id.to_hex = bytes := by
    rw [to_hex, hex_eq, ← hchars]
    exact as_bytes_ascii fun b hb => (hex_byte_facts (hhex b hb)).1
  have hlen : bytes.length = 32 := by
    rw [← List.length_map (f := nibble), hnibbles, length_hex_digits]
  have hread := from_hex_digits (s := id.to_hex) (by rw [htext, hlen]) (by rw [htext]; exact hhex)
  have hpow : 16 ^ 32 = 2 ^ 128 := by decide
  rw [hread, htext, hnibbles, spell_hex_digits, hpow, Nat.mod_eq_of_lt id.bytes.isLt,
    BitVec.ofNat_toNat, BitVec.setWidth_eq]

/-- Sixteen pairs that read as bytes, with a plus sign in one. -/
def Signed (s : String) : Prop :=
  (as_bytes s).length = 32 ∧ paired (as_bytes s) = true ∧ (43 : UInt8) ∈ as_bytes s

instance (s : String) : Decidable (Signed s) := inferInstanceAs (Decidable (_ ∧ _ ∧ _))

/-- What reads as an id at all. -/
theorem from_hex_isSome (s : String) :
    (from_hex s).isSome = true ↔ (as_bytes s).length = 32 ∧ paired (as_bytes s) = true := by
  have hfrom : from_hex s = (unhex (as_bytes s)).bind fun bytes =>
      if bytes.length = 16 then
        some ⟨BitVec.ofNat 128 (bytes.foldl (fun n b => n * 256 + b) 0)⟩
      else none := rfl
  rw [hfrom, ← unhex_isSome]
  cases hvalues : unhex (as_bytes s) with
  | none => simp
  | some values =>
      have hlen := length_unhex hvalues
      by_cases hsixteen : values.length = 16
      · simp [hsixteen]
        omega
      · simp [hsixteen]
        omega

/-- The text of an id has no plus sign. -/
theorem plus_not_mem_to_hex (id : DeviceId) : '+' ∉ id.to_hex.toList := by
  rw [to_hex, String.toList_ofList, hex_eq]
  intro hmem
  obtain ⟨d, hd, hplus⟩ := List.mem_map.1 hmem
  have hall : ∀ d : Fin 16, Nat.digitChar d.val ≠ '+' := by decide
  exact hall ⟨d, hex_digits_lt hd⟩ hplus

/-- **Ids as text.** A text is read only as the id whose text it is, in either case, unless it is
sixteen pairs with a plus sign in one of them; and the text of every id is read as that id. -/
theorem from_hex_exact_iff (s : String) :
    ((∀ id, from_hex s = some id → id.to_hex.toList = s.toList.map to_ascii_lowercase) ↔
        ¬ Signed s) ∧
      ∀ id : DeviceId, from_hex id.to_hex = some id := by
  refine ⟨?_, from_hex_to_hex⟩
  constructor
  · rintro hexact ⟨hlen, hpaired, hplus⟩
    obtain ⟨id, hid⟩ := Option.isSome_iff_exists.1 ((from_hex_isSome s).2 ⟨hlen, hpaired⟩)
    apply plus_not_mem_to_hex id
    rw [hexact id hid, toList_of_ascii (ascii_of_paired hpaired), List.map_map]
    exact List.mem_map.2 ⟨43, hplus, by decide⟩
  · intro hunsigned id hid
    obtain ⟨hlen, hpaired⟩ := (from_hex_isSome s).1 (by rw [hid]; rfl)
    have hplus : (43 : UInt8) ∉ as_bytes s := fun hplus => hunsigned ⟨hlen, hpaired, hplus⟩
    exact to_hex_from_hex hlen (is_hex_byte_of_paired hpaired hplus) hid

/-- A sign is read away. -/
theorem from_hex_plus :
    from_hex "+f000000000000000000000000000000" = some ⟨0x0f000000000000000000000000000000⟩ ∧
      (to_hex ⟨0x0f000000000000000000000000000000⟩).toList ≠
        "+f000000000000000000000000000000".toList.map to_ascii_lowercase := by
  decide +kernel

end DeviceId

end SoundPush
