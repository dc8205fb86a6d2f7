/-
`CrashText` -- what is removed from the text of a crash report (`redact` of
`sp-engine/src/crash.rs`).

The text is read in one pass that collects hexadecimal digits, dots and colons into
tokens; a token is replaced when it looks like an address, after the dots and colons
at its ends were taken off. That is too much for an address that is compressed at an
end or holds a dotted quad: without its leading colons `::ffff:1.2.3.4` has one colon
left, and it is kept as it is. An address is replaced in any surroundings if it is
IPv4, or if two colons and six characters are left of it (`redact_address`).

How addresses are printed is the standard library's: dotted decimals, and lower-case
hexadecimal groups with the longest run of zeros left out.
-/
import SoundPush.Discovery.Candidates
import SoundPush.Engine.Settings
import SoundPush.Lib.Tokens
import Mathlib.Data.List.DropRight

set_option autoImplicit false

namespace SoundPush

/-! ## 1. Redaction -/

/-- What a token is made of. -/
def token_char (c : Char) : Bool := is_ascii_hexdigit c || c = '.' || c = ':'

def dot_or_colon (c : Char) : Bool := c = '.' || c = ':'

/-- `token.trim_matches(|c| c == '.' || c == ':')`. -/
def trim_token (token : List Char) : List Char :=
  (token.dropWhile dot_or_colon).rdropWhile dot_or_colon

/-- `str::find`. -/
def find_text (pat text : List Char) : Option Nat :=
  (List.range (text.length + 1)).find? fun i => pat.isPrefixOf (text.drop i)

/-- "a.b.c.d". -/
def looks_ipv4 (host : List Char) : Bool :=
  (host.splitOn '.').length = 4 &&
    (host.splitOn '.').all fun p => p ≠ [] && p.length ≤ 3 && p.all Char.isDigit

/-- What stands for the host in a trimmed token: all of it, or "a.b.c.d" of "a.b.c.d:port". -/
def token_host (t : List Char) : List Char :=
  if t.count ':' = 1 then (t.splitOn ':').headD t else t

/-- The trimmed token is an address, with a port or without. -/
def is_address (t : List Char) : Bool :=
  looks_ipv4 (token_host t) || (2 ≤ t.count ':' && t.all token_char && 6 ≤ t.length)

def is_hex_run (t : List Char) : Bool := 16 ≤ t.length && t.all is_ascii_hexdigit

def flush_token (token : List Char) : List Char :=
  if token = [] then []
  else
    let t := trim_token token
    let lead := token.take ((find_text t token).getD 0)
    let trail := token.drop (lead.length + t.length)
    lead ++
      (if is_address t then "<ip>".toList
        else if is_hex_run t then t.take 8 ++ ['…'] else t) ++ trail

/-- `str::replace`, for a pattern that is not empty. -/
def replace_text (pat new : List Char) : Nat → List Char → List Char
  | 0, text => text
  | _, [] => []
  | n + 1, c :: rest =>
      if pat.isPrefixOf (c :: rest) then
        new ++ replace_text pat new n ((c :: rest).drop pat.length)
      else c :: replace_text pat new n rest

/-- The home directories that the environment names are written as a tilde. -/
def replace_homes (homes : List (List Char)) (text : List Char) : List Char :=
  homes.foldl (fun text home =>
    if 3 < (home.map Char.utf8Size).sum then replace_text home ['~'] text.length text
    else text) text

/-- Remove addresses, long hex identifiers and the home directory from free text. -/
def redact (homes : List (List Char)) (text : List Char) : List Char :=
  Tokens.scan token_char flush_token (replace_homes homes text)

/-! ## 2. How addresses are printed -/

/-- `{}` of a number. -/
def decimal (n : Nat) : List Char := Nat.toDigits 10 n

/-- `{:x}` of a number. -/
def lower_hex (n : Nat) : List Char := Nat.toDigits 16 n

/-- `Display` of an IPv4 address. -/
def display_v4 (v4 : BitVec 32) : List Char :=
  ['.'].intercalate ((List.range 4).map fun i => decimal (octet v4 i))

/-- `Ipv6Addr::segments`. -/
def segments (v6 : BitVec 128) : List Nat :=
  (List.range 8).map fun i => (v6.extractLsb' (112 - 16 * i) 16).toNat

/-- The first of the longest runs of zeros: where it starts, and how long it is. -/
def longest_zeroes (segments : List Nat) : Nat × Nat :=
  (segments.zipIdx.foldl (fun ((longest, current) : (Nat × Nat) × (Nat × Nat)) (segment, i) =>
    if segment = 0 then
      let current := (if current.2 = 0 then i else current.1, current.2 + 1)
      (if longest.2 < current.2 then current else longest, current)
    else (longest, (0, 0))) ((0, 0), (0, 0))).1

/-- Groups with colons between them. -/
def fmt_subslice (chunk : List Nat) : List Char := [':'].intercalate (chunk.map lower_hex)

/-- `Display` of an IPv6 address. -/
def display_v6 (v6 : BitVec 128) : List Char :=
  if v6.extractLsb' 32 96 = 0xFFFF#96 then
    "::ffff:".toList ++ display_v4 (v6.extractLsb' 0 32)
  else
    let zeroes := longest_zeroes (segments v6)
    if 1 < zeroes.2 then
      fmt_subslice ((segments v6).take zeroes.1) ++ "::".toList ++
        fmt_subslice ((segments v6).drop (zeroes.1 + zeroes.2))
    else fmt_subslice (segments v6)

def display_ip : IpAddr → List Char
  | .V4 v4 => display_v4 v4
  | .V6 v6 => display_v6 v6

/-- An address as it is printed: alone, with a port, and in brackets with or without either. -/
inductive Printed where
  | Bare (ip : IpAddr)
  | V4Port (v4 : BitVec 32) (port : UInt16)
  | Bracketed (ip : IpAddr) (scope : Option UInt32) (port : Option UInt16)

namespace Printed

def ip : Printed → IpAddr
  | .Bare ip => ip
  | .V4Port v4 _ => .V4 v4
  | .Bracketed ip _ _ => ip

/-- The printed address itself. -/
def address (x : Printed) : List Char := display_ip x.ip

def text : Printed → List Char
  | .Bare ip => display_ip ip
  | .V4Port v4 port => display_v4 v4 ++ ':' :: decimal port.toNat
  | .Bracketed ip scope port =>
      '[' :: (display_ip ip ++ ((scope.map fun s => '%' :: decimal s.toNat).getD [] ++
        ']' :: (port.map fun p => ':' :: decimal p.toNat).getD []))

end Printed

/-- What is left of an address without the colons at its ends is long enough to be seen: two colons
and six characters. An IPv4 address always is. -/
def Recognised : IpAddr → Prop
  | .V4 _ => True
  | .V6 v6 => 2 ≤ (trim_token (display_v6 v6)).count ':' ∧ 6 ≤ (trim_token (display_v6 v6)).length

/-! ## 3. Printed numbers -/

section Numbers

theorem digit_hexdigit {c : Char} (h : c.isDigit = true) : is_ascii_hexdigit c = true := by
  have hrange : 48 ≤ c.toNat ∧ c.toNat ≤ 57 := by
    unfold Char.isDigit at h
    rw [Bool.and_eq_true, decide_eq_true_iff, decide_eq_true_iff] at h
    exact h
  unfold is_ascii_hexdigit
  simp [hrange]

theorem digitChar_hexdigit {n : Nat} (h : n < 16) : is_ascii_hexdigit n.digitChar = true := by
  have hall : ∀ i : Fin 16, is_ascii_hexdigit (Nat.digitChar i.val) = true := by decide
  exact hall ⟨n, h⟩

theorem lower_hex_hexdigit {n : Nat} : ∀ c ∈ lower_hex n, is_ascii_hexdigit c = true := by
  unfold lower_hex
  induction n using Nat.strongRecOn with
  | ind n ih =>
      intro c hc
      by_cases hn : n < 16
      · rw [Nat.toDigits_of_lt_base hn, List.mem_singleton] at hc
        rw [hc]
        exact digitChar_hexdigit hn
      · rw [Nat.toDigits_of_base_le (by decide) (by omega), List.mem_append,
          List.mem_singleton] at hc
        obtain hc | rfl := hc
        · exact ih (n / 16) (by omega) c hc
        · exact digitChar_hexdigit (Nat.mod_lt n (by decide))

theorem decimal_digit {n : Nat} : ∀ c ∈ decimal n, c.isDigit = true :=
  fun _ hc => Nat.isDigit_of_mem_toDigits (by decide) (by decide) hc

theorem length_lower_hex {n : Nat} (h : n < 65536) : (lower_hex n).length ≤ 4 :=
  (Nat.length_toDigits_le_iff (by decide) (by decide)).2 h

theorem length_decimal {n k : Nat} (hk : 0 < k) (h : n < 10 ^ k) : (decimal n).length ≤ k :=
  (Nat.length_toDigits_le_iff (by decide) hk).2 h

theorem decimal_ne_nil (n : Nat) : decimal n ≠ [] := Nat.toDigits_ne_nil

theorem hexdigit_not_dot_or_colon {c : Char} (h : is_ascii_hexdigit c = true) :
    dot_or_colon c = false := by
  unfold dot_or_colon
  by_cases hdot : c = '.'
  · rw [hdot] at h
    exact absurd h (by decide)
  · by_cases hcolon : c = ':'
    · rw [hcolon] at h
      exact absurd h (by decide)
    · simp [hdot, hcolon]

theorem hexdigit_ne_colon {c : Char} (h : is_ascii_hexdigit c = true) : c ≠ ':' := by
  rintro rfl
  exact absurd h (by decide)

theorem hexdigit_ne_dot {c : Char} (h : is_ascii_hexdigit c = true) : c ≠ '.' := by
  rintro rfl
  exact absurd h (by decide)

theorem hexdigit_token_char {c : Char} (h : is_ascii_hexdigit c = true) : token_char c = true := by
  unfold token_char
  rw [h]
  rfl

/-- A text of digits has neither dots nor colons. -/
theorem decimal_plain (n : Nat) : '.' ∉ decimal n ∧ ':' ∉ decimal n :=
  ⟨fun h => hexdigit_ne_dot (digit_hexdigit (decimal_digit _ h)) rfl,
    fun h => hexdigit_ne_colon (digit_hexdigit (decimal_digit _ h)) rfl⟩

end Numbers

/-! ## 4. What is done to one token -/

section Token

variable {token t : List Char}

theorem trim_token_inside (token : List Char) : trim_token token <:+: token := by
  have hback := List.rdropWhile_prefix dot_or_colon (token.dropWhile dot_or_colon)
  exact hback.isInfix.trans (List.dropWhile_suffix _).isInfix

/-- What occurs in a text is found in it. -/
theorem find_text_of_inside (h : t <:+: token) :
    ∃ i, find_text t token = some i ∧ t <+: token.drop i ∧ i ≤ token.length := by
  obtain ⟨before, after, rfl⟩ := h
  cases hfind : find_text t (before ++ t ++ after) with
  | none =>
      unfold find_text at hfind
      rw [List.find?_eq_none] at hfind
      have hlen : before.length < (before ++ t ++ after).length + 1 := by
        rw [List.length_append, List.length_append]
        omega
      have hno := hfind before.length (List.mem_range.2 hlen)
      rw [List.append_assoc, List.drop_left] at hno
      exact absurd (List.isPrefixOf_iff_prefix.2 (List.prefix_append t after)) hno
  | some i =>
      unfold find_text at hfind
      have hi := List.mem_range.1 (List.mem_of_find?_eq_some hfind)
      have hpre := List.find?_some hfind
      exact ⟨i, rfl, List.isPrefixOf_iff_prefix.1 hpre, by omega⟩

/-- A token is what is written around it and the trimmed token between. -/
theorem flush_token_eq (h : token ≠ []) :
    ∃ lead trail, token = lead ++ trim_token token ++ trail ∧
      flush_token token = lead ++ (if is_address (trim_token token) then "<ip>".toList
        else if is_hex_run (trim_token token) then (trim_token token).take 8 ++ ['…']
        else trim_token token) ++ trail := by
  obtain ⟨i, hfind, ⟨rest, hrest⟩, hi⟩ := find_text_of_inside (trim_token_inside token)
  have hlead : (token.take i).length = i := by
    rw [List.length_take]
    omega
  have htrail : token.drop (i + (trim_token token).length) = rest := by
    rw [← List.drop_drop, ← hrest, List.drop_left]
  refine ⟨token.take i, rest, ?_, ?_⟩
  · rw [List.append_assoc, hrest, List.take_append_drop]
  · unfold flush_token
    rw [if_neg h]
    dsimp only
    rw [hfind, Option.getD_some, hlead, htrail]

/-- A text that begins and ends with a digit is not trimmed. -/
theorem trim_token_self {c d : Char} {l l' : List Char} (hhead : t = c :: l)
    (hlast : t = l' ++ [d]) (hc : is_ascii_hexdigit c = true) (hd : is_ascii_hexdigit d = true) :
    trim_token t = t := by
  have hdrop : t.dropWhile dot_or_colon = t := by
    rw [hhead, List.dropWhile_cons_of_neg]
    rw [hexdigit_not_dot_or_colon hc]
    exact Bool.false_ne_true
  unfold trim_token
  rw [hdrop, hlast, List.rdropWhile_concat_neg]
  rw [hexdigit_not_dot_or_colon hd]
  exact Bool.false_ne_true

/-- A token that is an address as it stands. -/
theorem flush_token_address (hne : token ≠ []) (htrim : trim_token token = token)
    (h : is_address token = true) : flush_token token = "<ip>".toList := by
  obtain ⟨lead, trail, hsplit, hflush⟩ := flush_token_eq hne
  rw [htrim] at hsplit hflush
  have hlen := congrArg List.length hsplit
  rw [List.length_append, List.length_append] at hlen
  have hlead : lead = [] := List.length_eq_zero_iff.1 (by omega)
  have htrail : trail = [] := List.length_eq_zero_iff.1 (by omega)
  rw [hflush, if_pos h, hlead, htrail, List.nil_append, List.append_nil]

/-- A token that is neither an address nor a long number is kept. -/
theorem flush_token_kept (h : is_address (trim_token token) = false)
    (hhex : is_hex_run (trim_token token) = false) : flush_token token = token := by
  by_cases hne : token = []
  · rw [hne]
    rfl
  · obtain ⟨lead, trail, hsplit, hflush⟩ := flush_token_eq hne
    rw [hflush, if_neg (by rw [h]; exact Bool.false_ne_true),
      if_neg (by rw [hhex]; exact Bool.false_ne_true)]
    exact hsplit.symm

/-- The host is a part of the token. -/
theorem token_host_inside (t : List Char) : token_host t <:+: t := by
  unfold token_host
  by_cases h : t.count ':' = 1
  · rw [if_pos h]
    have hmem : ':' ∈ t := List.count_pos_iff.1 (by omega)
    obtain ⟨l, r, rfl, hl⟩ := List.eq_append_cons_of_mem hmem
    rw [List.splitOn_append_cons_self_of_not_mem hl, List.headD_cons]
    exact List.infix_append_left
  · rw [if_neg h]

/-- What has no dots is not an IPv4 address. -/
theorem looks_ipv4_of_no_dot {host : List Char} (h : '.' ∉ host) : looks_ipv4 host = false := by
  unfold looks_ipv4
  rw [List.splitOn_eq_singleton h]
  have hone : decide ([host].length = 4) = false := rfl
  rw [hone, Bool.false_and]

end Token

/-! ## 5. IPv4 addresses -/

section V4

variable (v4 : BitVec 32)

theorem octet_lt (i : Nat) : octet v4 i < 256 := BitVec.isLt _

theorem display_v4_mem {c : Char} (h : c ∈ display_v4 v4) : c.isDigit = true ∨ c = '.' := by
  simp only [display_v4, List.range_succ, List.range_zero, List.nil_append, List.cons_append,
    List.map_cons, List.map_nil, List.intercalate_cons_cons, List.intercalate_singleton,
    List.mem_append, List.mem_singleton] at h
  obtain (h | rfl) | (h | rfl) | (h | rfl) | h := h
  all_goals first
    | exact .inl (decimal_digit c h)
    | exact .inr rfl

theorem display_v4_no_colon : ':' ∉ display_v4 v4 := by
  intro h
  obtain h | h := display_v4_mem v4 h
  · exact absurd h (by decide)
  · exact absurd h (by decide)

/-- It begins and ends with a digit. -/
theorem display_v4_ends : (∃ c l, display_v4 v4 = c :: l ∧ is_ascii_hexdigit c = true) ∧
    ∃ l d, display_v4 v4 = l ++ [d] ∧ is_ascii_hexdigit d = true := by
  obtain ⟨c, l, hfirst⟩ := List.exists_cons_of_ne_nil (decimal_ne_nil (octet v4 0))
  obtain ⟨l', d, hlast⟩ := List.eq_nil_or_concat (decimal (octet v4 3)) |>.resolve_left
    (decimal_ne_nil _)
  rw [List.concat_eq_append] at hlast
  have hdisplay : display_v4 v4 = decimal (octet v4 0) ++ (['.'] ++ (decimal (octet v4 1) ++
      (['.'] ++ (decimal (octet v4 2) ++ (['.'] ++ decimal (octet v4 3)))))) := by
    simp [display_v4, List.range_succ, List.intercalate_cons_cons]
  constructor
  · refine ⟨c, _, by rw [hdisplay, hfirst]; rfl,
      digit_hexdigit (decimal_digit (n := octet v4 0) c ?_)⟩
    rw [hfirst]
    exact List.mem_cons_self
  · refine ⟨decimal (octet v4 0) ++ (['.'] ++ (decimal (octet v4 1) ++ (['.'] ++
      (decimal (octet v4 2) ++ (['.'] ++ l'))))), d, by rw [hdisplay, hlast]; simp,
      digit_hexdigit (decimal_digit (n := octet v4 3) d ?_)⟩
    rw [hlast]
    exact List.mem_append_right _ List.mem_cons_self

theorem looks_ipv4_display : looks_ipv4 (display_v4 v4) = true := by
  have hsplit : (display_v4 v4).splitOn '.' = (List.range 4).map fun i => decimal (octet v4 i) := by
    refine List.splitOn_intercalate '.' (fun l hl => ?_) (by simp [List.range_succ])
    obtain ⟨i, -, rfl⟩ := List.mem_map.1 hl
    exact (decimal_plain _).1
  unfold looks_ipv4
  rw [hsplit, List.length_map, List.length_range, Bool.and_eq_true]
  refine ⟨rfl, List.all_eq_true.2 fun p hp => ?_⟩
  obtain ⟨i, -, rfl⟩ := List.mem_map.1 hp
  have hlen : (decimal (octet v4 i)).length ≤ 3 :=
    length_decimal (by decide) (Nat.lt_trans (octet_lt v4 i) (by decide))
  have hdigits : (decimal (octet v4 i)).all Char.isDigit = true :=
    List.all_eq_true.2 fun c hc => decimal_digit c hc
  simp [decimal_ne_nil, hlen, hdigits]

theorem flush_v4 : flush_token (display_v4 v4) = "<ip>".toList := by
  obtain ⟨⟨c, l, hhead, hc⟩, l', d, hlast, hd⟩ := display_v4_ends v4
  refine flush_token_address (by rw [hhead]; exact List.cons_ne_nil _ _)
    (trim_token_self hhead hlast hc hd) ?_
  have hhost : token_host (display_v4 v4) = display_v4 v4 := by
    unfold token_host
    rw [List.count_eq_zero_of_not_mem (display_v4_no_colon v4)]
    rfl
  unfold is_address
  rw [hhost, looks_ipv4_display, Bool.true_or]

theorem flush_v4_port (port : Nat) :
    flush_token (display_v4 v4 ++ ':' :: decimal port) = "<ip>".toList := by
  obtain ⟨⟨c, l, hhead, hc⟩, -⟩ := display_v4_ends v4
  obtain ⟨l', d, hlast⟩ := List.eq_nil_or_concat (decimal port) |>.resolve_left (decimal_ne_nil _)
  rw [List.concat_eq_append] at hlast
  have hd : is_ascii_hexdigit d = true := digit_hexdigit (decimal_digit (n := port) d (by
    rw [hlast]
    exact List.mem_append_right _ List.mem_cons_self))
  have hfirst : display_v4 v4 ++ ':' :: decimal port = c :: (l ++ ':' :: decimal port) := by
    rw [hhead, List.cons_append]
  have hend : display_v4 v4 ++ ':' :: decimal port = (display_v4 v4 ++ ':' :: l') ++ [d] := by
    rw [hlast, List.append_assoc, List.cons_append]
  refine flush_token_address (by simp) (trim_token_self hfirst hend hc hd) ?_
  have hcount : (display_v4 v4 ++ ':' :: decimal port).count ':' = 1 := by
    rw [List.count_append, List.count_cons_self,
      List.count_eq_zero_of_not_mem (display_v4_no_colon v4),
      List.count_eq_zero_of_not_mem (decimal_plain port).2]
  unfold is_address token_host
  rw [if_pos hcount, List.splitOn_append_cons_self_of_not_mem (display_v4_no_colon v4),
    List.headD_cons, looks_ipv4_display, Bool.true_or]

end V4

/-! ## 6. IPv6 addresses -/

section V6

theorem fmt_subslice_cons_cons (g g' : Nat) (l : List Nat) :
    fmt_subslice (g :: g' :: l) = lower_hex g ++ ':' :: fmt_subslice (g' :: l) := by
  unfold fmt_subslice
  rw [List.map_cons, List.map_cons, List.intercalate_cons_cons]
  simp

theorem fmt_subslice_mem {l : List Nat} {c : Char} (h : c ∈ fmt_subslice l) :
    is_ascii_hexdigit c = true ∨ c = ':' := by
  induction l with
  | nil => exact absurd h List.not_mem_nil
  | cons g l ih =>
      cases l with
      | nil => exact .inl (lower_hex_hexdigit c (by simpa [fmt_subslice] using h))
      | cons g' l =>
          rw [fmt_subslice_cons_cons, List.mem_append, List.mem_cons] at h
          obtain h | h | h := h
          · exact .inl (lower_hex_hexdigit c h)
          · exact .inr h
          · exact ih h

/-- Between two colons stand at most four digits. -/
theorem length_of_infix_fmt {t : List Char} (ht : ':' ∉ t) {l : List Nat}
    (hl : ∀ g ∈ l, g < 65536) (h : t <:+: fmt_subslice l) : t.length ≤ 4 := by
  induction l with
  | nil => exact h.length_le.trans (Nat.zero_le 4)
  | cons g l ih =>
      have hg := length_lower_hex (hl g List.mem_cons_self)
      cases l with
      | nil =>
          have hsingle : fmt_subslice [g] = lower_hex g := by simp [fmt_subslice]
          rw [hsingle] at h
          exact h.length_le.trans hg
      | cons g' l =>
          rw [fmt_subslice_cons_cons] at h
          obtain h | h := Tokens.infix_of_infix_sep ht h
          · exact h.length_le.trans hg
          · exact ih (fun x hx => hl x (List.mem_cons_of_mem _ hx)) h

variable (v6 : BitVec 128)

theorem segments_lt : ∀ g ∈ segments v6, g < 65536 := by
  intro g hg
  obtain ⟨i, -, rfl⟩ := List.mem_map.1 hg
  exact BitVec.isLt _

/-- An address with a dotted quad: without its leading colons it has one colon. -/
theorem trim_mapped (v4 : BitVec 32) :
    trim_token ("::ffff:".toList ++ display_v4 v4) = "ffff:".toList ++ display_v4 v4 := by
  obtain ⟨-, l, d, hlast, hd⟩ := display_v4_ends v4
  have hdrop : ("::ffff:".toList ++ display_v4 v4).dropWhile dot_or_colon =
      "ffff:".toList ++ display_v4 v4 := rfl
  unfold trim_token
  rw [hdrop, hlast, ← List.append_assoc, List.rdropWhile_concat_neg]
  rw [hexdigit_not_dot_or_colon hd]
  exact Bool.false_ne_true

theorem count_mapped (v4 : BitVec 32) : ("ffff:".toList ++ display_v4 v4).count ':' = 1 := by
  rw [List.count_append, List.count_eq_zero_of_not_mem (display_v4_no_colon v4)]
  rfl

theorem display_v6_mapped {v6 : BitVec 128} (h : v6.extractLsb' 32 96 = 0xFFFF#96) :
    display_v6 v6 = "::ffff:".toList ++ display_v4 (v6.extractLsb' 0 32) := if_pos h

/-- Any other address is its groups, or two lists of them with two colons between. -/
theorem display_v6_groups {v6 : BitVec 128} (h : v6.extractLsb' 32 96 ≠ 0xFFFF#96) :
    ∃ before after : List Nat, (∀ g ∈ before, g < 65536) ∧ (∀ g ∈ after, g < 65536) ∧
      (display_v6 v6 = fmt_subslice before ∨
        display_v6 v6 = fmt_subslice before ++ ':' :: ':' :: fmt_subslice after) := by
  have hlt := segments_lt v6
  unfold display_v6
  rw [if_neg h]
  dsimp only
  generalize longest_zeroes (segments v6) = zeroes
  by_cases hlong : 1 < zeroes.2
  · rw [if_pos hlong]
    refine ⟨(segments v6).take zeroes.1, (segments v6).drop (zeroes.1 + zeroes.2),
      fun g hg => hlt g (List.mem_of_mem_take hg), fun g hg => hlt g (List.mem_of_mem_drop hg),
      .inr ?_⟩
    simp
  · rw [if_neg hlong]
    exact ⟨segments v6, [], hlt, fun _ hg => absurd hg List.not_mem_nil, .inl rfl⟩

/-- It has no dots. -/
theorem display_v6_mem {v6 : BitVec 128} (h : v6.extractLsb' 32 96 ≠ 0xFFFF#96) {c : Char}
    (hc : c ∈ display_v6 v6) : is_ascii_hexdigit c = true ∨ c = ':' := by
  obtain ⟨before, after, -, -, hdisplay | hdisplay⟩ := display_v6_groups h
  · rw [hdisplay] at hc
    exact fmt_subslice_mem hc
  · rw [hdisplay, List.mem_append, List.mem_cons, List.mem_cons] at hc
    obtain hc | hc | hc | hc := hc
    · exact fmt_subslice_mem hc
    · exact .inr hc
    · exact .inr hc
    · exact fmt_subslice_mem hc

/-- Every character of a printed address belongs to the token. -/
theorem display_v6_token : ∀ c ∈ display_v6 v6, token_char c = true := by
  intro c hc
  by_cases h : v6.extractLsb' 32 96 = 0xFFFF#96
  · rw [display_v6_mapped h, List.mem_append] at hc
    obtain hc | hc := hc
    · have hall : "::ffff:".toList.all token_char = true := by decide
      exact List.all_eq_true.1 hall c hc
    · obtain hdigit | rfl := display_v4_mem _ hc
      · exact hexdigit_token_char (digit_hexdigit hdigit)
      · rfl
  · obtain hhex | rfl := display_v6_mem h hc
    · exact hexdigit_token_char hhex
    · rfl

/-- What is left of an address is kept when it is not long enough to be seen. -/
theorem flush_v6_kept (h : ¬ Recognised (.V6 v6)) :
    flush_token (display_v6 v6) = display_v6 v6 := by
  by_cases hmapped : v6.extractLsb' 32 96 = 0xFFFF#96
  · rw [display_v6_mapped hmapped]
    generalize v6.extractLsb' 0 32 = v4
    have hhost : token_host ("ffff:".toList ++ display_v4 v4) = "ffff".toList := by
      unfold token_host
      rw [if_pos (count_mapped v4)]
      change (("ffff".toList ++ ':' :: display_v4 v4).splitOn ':').headD _ = _
      rw [List.splitOn_append_cons_self_of_not_mem (by decide), List.headD_cons]
    apply flush_token_kept
    · rw [trim_mapped]
      unfold is_address
      rw [hhost, looks_ipv4_of_no_dot (by decide), count_mapped]
      rfl
    · have hcolon : is_ascii_hexdigit ':' = false := by decide
      rw [trim_mapped]
      unfold is_hex_run
      simp [hcolon]
  · generalize ht : trim_token (display_v6 v6) = t
    have hpart : t <:+: display_v6 v6 := by
      rw [← ht]
      exact trim_token_inside _
    apply flush_token_kept
    · rw [ht]
      have hdot : '.' ∉ token_host t := by
        intro hmem
        have hin := hpart.subset ((token_host_inside t).subset hmem)
        obtain hhex | hcolon := display_v6_mem hmapped hin
        · exact hexdigit_ne_dot hhex rfl
        · exact absurd hcolon (by decide)
      have hshort : ¬ (2 ≤ t.count ':' ∧ 6 ≤ t.length) := by
        rw [← ht]
        exact h
      unfold is_address
      rw [looks_ipv4_of_no_dot hdot, Bool.false_or, Bool.and_assoc, Bool.and_eq_false_iff]
      by_cases hcount : 2 ≤ t.count ':'
      · right
        simp [show ¬ 6 ≤ t.length from fun hlen => hshort ⟨hcount, hlen⟩]
      · left
        exact decide_eq_false hcount
    · rw [ht, ← Bool.not_eq_true]
      intro hrun
      unfold is_hex_run at hrun
      rw [Bool.and_eq_true, decide_eq_true_iff, List.all_eq_true] at hrun
      have hcolon : ':' ∉ t := fun hmem => hexdigit_ne_colon (hrun.2 _ hmem) rfl
      -- a run of digits lies within one group
      have hfour : t.length ≤ 4 := by
        obtain ⟨before, after, hbefore, hafter, hdisplay | hdisplay⟩ := display_v6_groups hmapped
        · rw [hdisplay] at hpart
          exact length_of_infix_fmt hcolon hbefore hpart
        · rw [hdisplay] at hpart
          obtain hpart | hpart := Tokens.infix_of_infix_sep hcolon hpart
          · exact length_of_infix_fmt hcolon hbefore hpart
          · have hpart' : t <:+: [] ++ ':' :: fmt_subslice after := hpart
            obtain hpart | hpart := Tokens.infix_of_infix_sep hcolon hpart'
            · exact hpart.length_le.trans (Nat.zero_le 4)
            · exact length_of_infix_fmt hcolon hafter hpart
      omega

/-- An address that is seen is replaced, with its colons left at the ends. -/
theorem flush_v6_replaced (h : Recognised (.V6 v6)) :
    ∃ lead trail, flush_token (display_v6 v6) = lead ++ "<ip>".toList ++ trail ∧
      lead.length < (display_v6 v6).length ∧ trail.length < (display_v6 v6).length := by
  have htrim : 6 ≤ (trim_token (display_v6 v6)).length := h.2
  have hne : display_v6 v6 ≠ [] := by
    intro hnil
    rw [hnil] at htrim
    exact absurd htrim (by decide)
  obtain ⟨lead, trail, hsplit, hflush⟩ := flush_token_eq hne
  have haddress : is_address (trim_token (display_v6 v6)) = true := by
    have hall : (trim_token (display_v6 v6)).all token_char = true :=
      List.all_eq_true.2 fun c hc =>
        display_v6_token v6 c ((trim_token_inside _).subset hc)
    unfold is_address
    simp [hall, h.1, h.2]
  rw [if_pos haddress] at hflush
  have hlen := congrArg List.length hsplit
  rw [List.length_append, List.length_append] at hlen
  exact ⟨lead, trail, hflush, by omega, by omega⟩

end V6

/-! ## 7. Printed addresses in a text -/

section Surrounded

/-- A short token without dots and with one colon at most is kept. -/
theorem flush_short_kept {token : List Char} (hdot : '.' ∉ token) (hcount : token.count ':' ≤ 1)
    (hlen : token.length < 16) : flush_token token = token := by
  have hpart := trim_token_inside token
  have hfew : ¬ 2 ≤ (trim_token token).count ':' := by
    have := hpart.sublist.count_le ':'
    omega
  have hshort : ¬ 16 ≤ (trim_token token).length := by
    have := hpart.length_le
    omega
  apply flush_token_kept
  · unfold is_address
    rw [looks_ipv4_of_no_dot fun h => hdot (hpart.subset ((token_host_inside _).subset h)),
      decide_eq_false hfew]
    rfl
  · unfold is_hex_run
    rw [decide_eq_false hshort, Bool.false_and]

theorem scan_decimal {n : Nat} (h : n < 10 ^ 10) :
    Tokens.scan token_char flush_token (decimal n) = decimal n := by
  rw [Tokens.scan_token fun c hc => hexdigit_token_char (digit_hexdigit (decimal_digit c hc))]
  refine flush_short_kept (decimal_plain n).1 ?_ ?_
  · rw [List.count_eq_zero_of_not_mem (decimal_plain n).2]
    exact Nat.zero_le 1
  · have := length_decimal (by decide) h
    omega

theorem scan_port (port : UInt16) :
    Tokens.scan token_char flush_token (':' :: decimal port.toNat) = ':' :: decimal port.toNat := by
  have hlen : (decimal port.toNat).length ≤ 5 :=
    length_decimal (by decide) (Nat.lt_trans port.toNat_lt (by decide))
  have hdigit := fun c hc =>
    hexdigit_token_char (digit_hexdigit (decimal_digit (n := port.toNat) c hc))
  rw [Tokens.scan_token (List.forall_mem_cons.2 ⟨rfl, hdigit⟩)]
  refine flush_short_kept ?_ ?_ ?_
  · rw [List.mem_cons, not_or]
    exact ⟨by decide, (decimal_plain _).1⟩
  · rw [List.count_cons_self, List.count_eq_zero_of_not_mem (decimal_plain _).2]
  · rw [List.length_cons]
    omega

theorem display_ip_token (ip : IpAddr) : ∀ c ∈ display_ip ip, token_char c = true := by
  intro c hc
  match ip, hc with
  | .V4 v4, hc =>
      obtain hdigit | rfl := display_v4_mem v4 hc
      · exact hexdigit_token_char (digit_hexdigit hdigit)
      · rfl
  | .V6 v6, hc => exact display_v6_token v6 c hc

/-- Scope and port stand as they were, the address between them is one token. -/
theorem scan_bracketed (ip : IpAddr) (scope : Option UInt32) (port : Option UInt16) :
    Tokens.scan token_char flush_token (Printed.Bracketed ip scope port).text =
      '[' :: (flush_token (display_ip ip) ++
        ((scope.map fun s => '%' :: decimal s.toNat).getD [] ++
          ']' :: (port.map fun p => ':' :: decimal p.toNat).getD [])) := by
  have hport : Tokens.scan token_char flush_token
      ((port.map fun p => ':' :: decimal p.toNat).getD []) =
        (port.map fun p => ':' :: decimal p.toNat).getD [] := by
    cases port with
    | none => rfl
    | some p => exact scan_port p
  have haddress := Tokens.scan_token (f := flush_token) (display_ip_token ip)
  have hclose := Tokens.scan_append_sep (f := flush_token)
    (show token_char ']' = false by decide)
  have hopen : ∀ w, Tokens.scan token_char flush_token ('[' :: w) =
      '[' :: Tokens.scan token_char flush_token w :=
    Tokens.scan_append_sep (show token_char '[' = false by decide) []
  change Tokens.scan token_char flush_token ('[' :: _) = _
  rw [hopen]
  refine congrArg ('[' :: ·) ?_
  cases scope with
  | none =>
      rw [Option.map_none, Option.getD_none, List.nil_append, hclose, haddress, hport]
  | some s =>
      have hscope : s.toNat < 10 ^ 10 := Nat.lt_trans s.toNat_lt (by decide)
      rw [Option.map_some, Option.getD_some, List.cons_append,
        Tokens.scan_append_sep (show token_char '%' = false by decide), hclose,
        scan_decimal hscope, haddress, hport]

/-- What an address that is seen becomes. -/
theorem flush_recognised {ip : IpAddr} (h : Recognised ip) :
    ∃ lead trail, flush_token (display_ip ip) = lead ++ "<ip>".toList ++ trail ∧
      lead.length < (display_ip ip).length ∧ trail.length < (display_ip ip).length := by
  match ip, h with
  | .V4 v4, _ =>
      obtain ⟨⟨c, l, hhead, -⟩, -⟩ := display_v4_ends v4
      have hpos : 0 < (display_v4 v4).length := by
        rw [hhead]
        exact Nat.succ_pos _
      exact ⟨[], [], by rw [List.nil_append, List.append_nil]; exact flush_v4 v4, hpos, hpos⟩
  | .V6 v6, h => exact flush_v6_replaced v6 h

/-- A printed address that is seen has dots, or more colons than a port. -/
theorem display_marked {ip : IpAddr} (h : Recognised ip) :
    '.' ∈ display_ip ip ∨ 2 ≤ (display_ip ip).count ':' := by
  match ip, h with
  | .V4 v4, _ =>
      left
      change '.' ∈ display_v4 v4
      simp [display_v4, List.range_succ, List.intercalate_cons_cons]
  | .V6 v6, h =>
      right
      exact h.1.trans ((trim_token_inside _).sublist.count_le ':')

/-- A word stays out of a text that a character parts, if it is in neither part. -/
theorem not_infix_sep {a l r : List Char} {c : Char} (hc : c ∉ a) (hl : ¬ a <:+: l)
    (hr : ¬ a <:+: r) : ¬ a <:+: l ++ c :: r :=
  fun h => (Tokens.infix_of_infix_sep hc h).elim hl hr

theorem not_infix_of_length_lt {a l : List Char} (h : l.length < a.length) : ¬ a <:+: l :=
  fun hin => absurd hin.length_le (Nat.not_le.2 h)

/-- Nor is it in a text that holds what stands for an address. -/
theorem not_infix_replaced {a lead rest : List Char} (ha : ∀ c ∈ a, token_char c = true)
    (hlead : lead.length < a.length) (hrest : ¬ a <:+: rest) :
    ¬ a <:+: lead ++ "<ip>".toList ++ rest := by
  have hout : ∀ c, token_char c = false → c ∉ a := by
    intro c hc hmem
    rw [ha c hmem] at hc
    exact Bool.false_ne_true hc.symm
  have hnil : ¬ a <:+: [] := not_infix_of_length_lt (Nat.lt_of_le_of_lt (Nat.zero_le _) hlead)
  have hclose : ¬ a <:+: [] ++ '>' :: rest := not_infix_sep (hout '>' (by decide)) hnil hrest
  have hp : ¬ a <:+: [] ++ 'p' :: ([] ++ '>' :: rest) :=
    not_infix_sep (hout 'p' (by decide)) hnil hclose
  have hi : ¬ a <:+: [] ++ 'i' :: ([] ++ 'p' :: ([] ++ '>' :: rest)) :=
    not_infix_sep (hout 'i' (by decide)) hnil hp
  have hopen := not_infix_sep (hout '<' (by decide)) (not_infix_of_length_lt hlead) hi
  rw [List.append_assoc]
  exact hopen

/-- A number, or a port with its colon, is no address. -/
theorem not_infix_number {ip : IpAddr} (h : Recognised ip) {text : List Char} (hdot : '.' ∉ text)
    (hcount : text.count ':' ≤ 1) : ¬ display_ip ip <:+: text := by
  intro hin
  obtain hmark | hmark := display_marked h
  · exact hdot (hin.subset hmark)
  · have := hin.sublist.count_le ':'
    omega

theorem not_infix_decimal {ip : IpAddr} (h : Recognised ip) (n : Nat) :
    ¬ display_ip ip <:+: decimal n := by
  refine not_infix_number h (decimal_plain n).1 ?_
  rw [List.count_eq_zero_of_not_mem (decimal_plain n).2]
  exact Nat.zero_le 1

/-- The address is not in what stands for it. -/
theorem not_infix_scan {x : Printed} (h : Recognised x.ip) :
    ¬ x.address <:+: Tokens.scan token_char flush_token x.text := by
  obtain ⟨lead, trail, hflush, hlead, htrail⟩ := flush_recognised h
  have htoken := display_ip_token x.ip
  -- The address is one token; a separator cannot stand inside it, so it lies in one of the pieces
  -- between separators.
  have hout : ∀ c, token_char c = false → c ∉ x.address := by
    intro c hc hmem
    rw [htoken c hmem] at hc
    exact Bool.false_ne_true hc.symm
  cases x with
  | Bare ip =>
      change ¬ display_ip ip <:+: Tokens.scan _ _ (display_ip ip)
      change flush_token (display_ip ip) = _ at hflush
      rw [Tokens.scan_token (display_ip_token ip), hflush]
      exact not_infix_replaced htoken hlead (not_infix_of_length_lt htrail)
  | V4Port v4 port =>
      have hall : ∀ c ∈ display_v4 v4 ++ ':' :: decimal port.toNat, token_char c = true := by
        intro c hc
        rw [List.mem_append, List.mem_cons] at hc
        obtain hc | rfl | hc := hc
        · exact htoken c hc
        · rfl
        · exact hexdigit_token_char (digit_hexdigit (decimal_digit c hc))
      change ¬ display_v4 v4 <:+: Tokens.scan _ _ (display_v4 v4 ++ ':' :: decimal port.toNat)
      rw [Tokens.scan_token hall, flush_v4_port]
      have hpos := Nat.lt_of_le_of_lt (Nat.zero_le _) hlead
      have hnone : ¬ display_v4 v4 <:+: [] ++ "<ip>".toList ++ [] :=
        not_infix_replaced htoken hpos (not_infix_of_length_lt hpos)
      exact hnone
  -- Here the scope and the port are left in the text, after the address: neither is long enough,
  -- or has the right signs in it, to be the address.
  | Bracketed ip scope port =>
      have hport : ¬ display_ip ip <:+: (port.map fun p => ':' :: decimal p.toNat).getD [] := by
        cases port with
        | none => exact not_infix_of_length_lt (Nat.lt_of_le_of_lt (Nat.zero_le _) hlead)
        | some p =>
            refine not_infix_number h ?_ ?_
            · rw [Option.map_some, Option.getD_some, List.mem_cons, not_or]
              exact ⟨by decide, (decimal_plain _).1⟩
            · rw [Option.map_some, Option.getD_some, List.count_cons_self,
                List.count_eq_zero_of_not_mem (decimal_plain _).2]
      have hrest : ¬ display_ip ip <:+: trail ++
          ((scope.map fun s => '%' :: decimal s.toNat).getD [] ++
            ']' :: (port.map fun p => ':' :: decimal p.toNat).getD []) := by
        cases scope with
        | none =>
            exact not_infix_sep (hout ']' (by decide)) (not_infix_of_length_lt htrail) hport
        | some s =>
            exact not_infix_sep (hout '%' (by decide)) (not_infix_of_length_lt htrail)
              (not_infix_sep (hout ']' (by decide)) (not_infix_decimal h _) hport)
      have hinner := not_infix_replaced htoken hlead hrest
      rw [scan_bracketed]
      change ¬ display_ip ip <:+: [] ++ '[' :: _
      refine not_infix_sep (hout '[' (by decide))
        (not_infix_of_length_lt (Nat.lt_of_le_of_lt (Nat.zero_le _) hlead)) ?_
      change flush_token (display_ip ip) = _ at hflush
      rw [hflush, List.append_assoc (lead ++ _)]
      exact hinner

/-- An address that is not seen stays. -/
theorem scan_kept {x : Printed} (h : ¬ Recognised x.ip) :
    x.address <:+: Tokens.scan token_char flush_token x.text := by
  have hkept : flush_token (display_ip x.ip) = display_ip x.ip := by
    cases hip : x.ip with
    | V4 v4 =>
        rw [hip] at h
        exact absurd trivial h
    | V6 v6 =>
        rw [hip] at h
        exact flush_v6_kept v6 h
  cases x with
  | Bare ip =>
      change display_ip ip <:+: Tokens.scan _ _ (display_ip ip)
      change flush_token (display_ip ip) = display_ip ip at hkept
      rw [Tokens.scan_token (display_ip_token ip), hkept]
  | V4Port v4 port => exact absurd trivial h
  | Bracketed ip scope port =>
      rw [scan_bracketed]
      change flush_token (display_ip ip) = display_ip ip at hkept
      rw [hkept]
      exact List.infix_cons List.infix_append_left

/-- **Redaction.** Whatever stands around it, a printed address is replaced by something that does
not contain it if and only if it is IPv4 or keeps two colons and six characters when the colons at
its ends are taken off. -/
theorem redact_address (homes : List (List Char)) (x : Printed) {u v : List Char}
    (hu : ∀ c ∈ u.getLast?, token_char c = false) (hv : ∀ c ∈ v.head?, token_char c = false)
    (hhomes : ∀ text ∈ [u ++ x.text ++ v, u, v], replace_homes homes text = text) :
    (∃ y, redact homes (u ++ x.text ++ v) = redact homes u ++ y ++ redact homes v ∧
      ¬ x.address <:+: y) ↔ Recognised x.ip := by
  have hbetween : redact homes (u ++ x.text ++ v) =
      redact homes u ++ Tokens.scan token_char flush_token x.text ++ redact homes v := by
    unfold redact
    rw [hhomes _ (by simp), hhomes u (by simp), hhomes v (by simp)]
    exact Tokens.scan_between rfl hu hv
  constructor
  · rintro ⟨y, hy, hout⟩
    by_contra h
    rw [hbetween] at hy
    have hsame := List.append_cancel_left (List.append_cancel_right hy)
    rw [← hsame] at hout
    exact hout (scan_kept h)
  · exact fun h => ⟨_, hbetween, not_infix_scan h⟩

end Surrounded

namespace Sample

/-- The address and port of a peer on the home network. -/
theorem redact_address_home :
    (∃ y, redact [] ("dial ".toList ++ (Printed.V4Port 0xC0A80114 47650).text ++ " failed".toList) =
        redact [] "dial ".toList ++ y ++ redact [] " failed".toList ∧
      ¬ (Printed.V4Port 0xC0A80114 47650).address <:+: y) ↔
    Recognised (Printed.V4Port 0xC0A80114 47650).ip :=
  redact_address [] (.V4Port 0xC0A80114 47650)
    (by
      intro c hc
      obtain rfl : ' ' = c := Option.some.inj hc
      rfl)
    (by
      intro c hc
      obtain rfl : ' ' = c := Option.some.inj hc
      rfl)
    (by
      intro text _
      rfl)

/-- The address of a network: its two colons at the end are taken off before colons are counted. -/
def network : Printed := .Bare (.V6 0x20010db8000000000000000000000000)

theorem network_kept :
    ¬ ∃ y, redact [] ("peer ".toList ++ network.text ++ " is gone".toList) =
        redact [] "peer ".toList ++ y ++ redact [] " is gone".toList ∧
      ¬ network.address <:+: y := by
  rintro ⟨y, hy, hout⟩
  have hkept : redact [] ("peer ".toList ++ network.text ++ " is gone".toList) =
      redact [] "peer ".toList ++ network.address ++ redact [] " is gone".toList := by
    decide +kernel
  rw [hkept] at hy
  rw [← List.append_cancel_left (List.append_cancel_right hy)] at hout
  exact hout List.infix_rfl

end Sample

end SoundPush
