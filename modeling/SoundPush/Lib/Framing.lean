/-
`Framing` -- incremental decoders of frames that say their length in a header.

A `Framing` reads a header of fixed size: it is an error, or it gives the length
of the payload and what frame the payload makes. A `Decoder` is a program that
keeps bytes it has not used, takes more bytes, and hands out the next frame as
the framing says. A reader feeds it one chunk after another and drains it after
each; it stops at the first error.

What a reader has got does not depend on how the bytes were cut (`read_all_eq`):
the frames of what was encoded, in order (`read_all_frames`); an error as soon as
a bad header is complete (`read_all_rejects`); and never more left over than a
frame that is not complete yet (`read_all_bound`).
-/
import Mathlib.Data.List.Induction
import Mathlib.Data.List.Forall2
import Mathlib.Tactic.Common

set_option autoImplicit false

/-- Frames of `φ` over `β`: a header and a payload whose length the header gives. -/
structure Framing (β φ ε : Type*) where
  header : Nat
  /-- the largest payload -/
  limit : Nat
  /-- the length of the payload, and the frame it makes, from a complete header -/
  read : List β → Except ε (Nat × (List β → φ))
  header_pos : 0 < header
  read_le : ∀ {h len make}, read h = .ok (len, make) → len ≤ limit

namespace Framing

variable {β φ ε : Type*} (F : Framing β φ ε)

/-- The next frame, if it is complete, and what is left of the bytes. -/
def next (buf : List β) : Except ε (Option φ) × List β :=
  if buf.length < F.header then (.ok none, buf)
  else
    match F.read (buf.take F.header) with
    | .error e => (.error e, buf)
    | .ok (len, make) =>
        if buf.length < F.header + len then (.ok none, buf)
        else (.ok (some (make ((buf.drop F.header).take len))), buf.drop (F.header + len))

/-- `w` is an encoding of the frame: whatever follows it is left alone. -/
def Encodes (f : φ) (w : List β) : Prop := ∀ rest, F.next (w ++ rest) = (.ok (some f), rest)

variable {F} {buf buf' : List β} {f : φ} {e : ε}

theorem next_of_short (h : buf.length < F.header) : F.next buf = (.ok none, buf) := if_pos h

theorem next_of_error (hlen : F.header ≤ buf.length) (h : F.read (buf.take F.header) = .error e) :
    F.next buf = (.error e, buf) := by
  unfold next
  rw [if_neg (by omega), h]

theorem next_of_ok {len : Nat} {make : List β → φ} (hlen : F.header ≤ buf.length)
    (h : F.read (buf.take F.header) = .ok (len, make)) :
    F.next buf =
      if buf.length < F.header + len then (.ok none, buf)
      else (.ok (some (make ((buf.drop F.header).take len))), buf.drop (F.header + len)) := by
  unfold next
  rw [if_neg (by omega), h]

/-- A frame that came out used up its header and its payload. -/
theorem next_eq_some (h : F.next buf = (.ok (some f), buf')) :
    ∃ len make, F.header + len ≤ buf.length ∧ F.read (buf.take F.header) = .ok (len, make) ∧
      f = make ((buf.drop F.header).take len) ∧ buf' = buf.drop (F.header + len) := by
  by_cases hshort : buf.length < F.header
  · rw [next_of_short hshort] at h
    cases h
  · cases hread : F.read (buf.take F.header) with
    | error e =>
        rw [next_of_error (by omega) hread] at h
        cases h
    | ok p =>
        obtain ⟨len, make⟩ := p
        rw [next_of_ok (by omega) hread] at h
        by_cases hpart : buf.length < F.header + len
        · rw [if_pos hpart] at h
          cases h
        · rw [if_neg hpart] at h
          obtain ⟨hf, rfl⟩ := Prod.mk.inj h
          refine ⟨len, make, by omega, rfl, ?_, rfl⟩
          exact (Option.some.inj (Except.ok.inj hf)).symm

theorem next_eq_error (h : F.next buf = (.error e, buf')) :
    F.header ≤ buf.length ∧ F.read (buf.take F.header) = .error e ∧ buf' = buf := by
  by_cases hshort : buf.length < F.header
  · rw [next_of_short hshort] at h
    cases h
  · cases hread : F.read (buf.take F.header) with
    | error e =>
        rw [next_of_error (by omega) hread] at h
        obtain ⟨he, rfl⟩ := Prod.mk.inj h
        exact ⟨by omega, Except.error.inj he ▸ rfl, rfl⟩
    | ok p =>
        obtain ⟨len, make⟩ := p
        rw [next_of_ok (by omega) hread] at h
        split at h <;> cases h

/-- While no frame is complete, nothing is used and little is there. -/
theorem next_eq_none (h : F.next buf = (.ok none, buf')) :
    buf' = buf ∧ buf.length < F.header + F.limit := by
  by_cases hshort : buf.length < F.header
  · rw [next_of_short hshort] at h
    exact ⟨(Prod.mk.inj h).2.symm, by omega⟩
  · cases hread : F.read (buf.take F.header) with
    | error e =>
        rw [next_of_error (by omega) hread] at h
        cases h
    | ok p =>
        obtain ⟨len, make⟩ := p
        have hle := F.read_le hread
        rw [next_of_ok (by omega) hread] at h
        by_cases hpart : buf.length < F.header + len
        · rw [if_pos hpart] at h
          exact ⟨(Prod.mk.inj h).2.symm, by omega⟩
        · rw [if_neg hpart] at h
          cases h

theorem next_lt (h : F.next buf = (.ok (some f), buf')) : buf'.length < buf.length := by
  obtain ⟨len, make, hlen, _, _, rfl⟩ := next_eq_some h
  have hpos := F.header_pos
  rw [List.length_drop]
  omega

/-- Bytes that come later change nothing about a frame that is complete. -/
theorem next_append_some (h : F.next buf = (.ok (some f), buf')) (more : List β) :
    F.next (buf ++ more) = (.ok (some f), buf' ++ more) := by
  obtain ⟨len, make, hlen, hread, rfl, rfl⟩ := next_eq_some h
  have htake : (buf ++ more).take F.header = buf.take F.header :=
    List.take_append_of_le_length (by omega)
  have hbody : ((buf ++ more).drop F.header).take len = (buf.drop F.header).take len := by
    rw [List.drop_append_of_le_length (by omega),
      List.take_append_of_le_length (by rw [List.length_drop]; omega)]
  rw [next_of_ok (by rw [List.length_append]; omega) (htake ▸ hread),
    if_neg (by rw [List.length_append]; omega), hbody, List.drop_append_of_le_length (by omega)]

theorem next_append_error (h : F.next buf = (.error e, buf')) (more : List β) :
    F.next (buf ++ more) = (.error e, buf ++ more) := by
  obtain ⟨hlen, hread, _⟩ := next_eq_error h
  have htake : (buf ++ more).take F.header = buf.take F.header :=
    List.take_append_of_le_length hlen
  exact next_of_error (by rw [List.length_append]; omega) (htake ▸ hread)

/-- A header and as many bytes as it says encode a frame. -/
theorem encodes_of_read {hdr payload : List β} {make : List β → φ} (hlen : hdr.length = F.header)
    (hread : F.read hdr = .ok (payload.length, make)) :
    F.Encodes (make payload) (hdr ++ payload) := by
  intro rest
  have htake : (hdr ++ payload ++ rest).take F.header = hdr := by
    rw [List.append_assoc, ← hlen, List.take_left]
  have hdrop : (hdr ++ payload ++ rest).drop F.header = payload ++ rest := by
    rw [List.append_assoc, ← hlen, List.drop_left]
  rw [next_of_ok (by simp only [List.length_append]; omega) (htake.symm ▸ hread),
    if_neg (by simp only [List.length_append]; omega), ← List.drop_drop, hdrop, List.take_left,
    List.drop_left]

/-! ## Frames on their way -/

/-- The beginning of an encoding is no frame yet. -/
theorem next_of_cut {w rest : List β} (h : F.Encodes f (w ++ rest)) (hrest : rest ≠ []) :
    F.next w = (.ok none, w) := by
  have hall := h []
  rw [List.append_nil] at hall
  rcases hnext : F.next w with ⟨e | g, w'⟩
  · rw [next_append_error hnext rest] at hall
    cases hall
  · cases g with
    | none => rw [(next_eq_none hnext).1]
    | some g =>
        rw [next_append_some hnext rest] at hall
        exact absurd (List.append_eq_nil_iff.1 (Prod.mk.inj hall).2).2 hrest

/-- Between a writer of whole frames and their reader, wherever the bytes are cut: what the reader
has is the beginning of no frame or the next one that was written. -/
theorem next_of_stream {unread : List φ} {w : φ → List β} (hw : ∀ f ∈ unread, F.Encodes f (w f))
    {cut ahead : List β} (hcut : F.next cut = (.ok none, cut))
    (h : buf ++ ahead = (unread.map w).flatten ++ cut) :
    F.next buf = (.ok none, buf) ∨
      ∃ f rest buf', unread = f :: rest ∧ F.next buf = (.ok (some f), buf') ∧
        buf' ++ ahead = (rest.map w).flatten ++ cut := by
  -- what the reader would get, had everything arrived
  have hall : F.next (buf ++ ahead) = (.ok none, cut) ∧ unread = [] ∨
      ∃ f rest, unread = f :: rest ∧
        F.next (buf ++ ahead) = (.ok (some f), (rest.map w).flatten ++ cut) := by
    rw [h]
    cases unread with
    | nil => exact .inl ⟨hcut, rfl⟩
    | cons f rest =>
        refine .inr ⟨f, rest, rfl, ?_⟩
        rw [List.map_cons, List.flatten_cons, List.append_assoc]
        exact hw f List.mem_cons_self _
  rcases hnext : F.next buf with ⟨e | g, buf'⟩
  · exfalso
    obtain ⟨hnone, -⟩ | ⟨f, rest, -, hsome⟩ := hall
    · rw [next_append_error hnext ahead] at hnone
      cases hnone
    · rw [next_append_error hnext ahead] at hsome
      cases hsome
  · cases g with
    | none => exact .inl (by rw [(next_eq_none hnext).1])
    | some g =>
        refine .inr ?_
        obtain ⟨hnone, -⟩ | ⟨f, rest, hunread, hsome⟩ := hall
        · rw [next_append_some hnext ahead] at hnone
          cases hnone
        · rw [next_append_some hnext ahead] at hsome
          obtain ⟨hf, hbuf⟩ := Prod.mk.inj hsome
          obtain rfl := Option.some.inj (Except.ok.inj hf)
          exact ⟨_, rest, buf', hunread, rfl, hbuf⟩

end Framing

/-- A program that decodes a framing: it keeps the bytes it has not used, and hands out frames as
the framing says. -/
structure Decoder {β φ ε : Type*} (F : Framing β φ ε) (σ : Type*) where
  buf : σ → List β
  extend : σ → List β → σ
  next : σ → Except ε (Option φ) × σ
  buf_extend : ∀ s data, buf (extend s data) = buf s ++ data
  next_fst : ∀ s, (next s).1 = (F.next (buf s)).1
  buf_next : ∀ s, buf (next s).2 = (F.next (buf s)).2

/-- A reader: the frames it has got, the error it stopped at, and its decoder. -/
structure Reader (φ ε σ : Type*) where
  got : List φ
  error : Option ε
  decoder : σ

namespace Reader

variable {φ ε σ : Type*}

/-- The reader as it is when it had got `fs` before. -/
def after (fs : List φ) (r : Reader φ ε σ) : Reader φ ε σ := ⟨fs ++ r.got, r.error, r.decoder⟩

@[simp] theorem after_got (fs : List φ) (r : Reader φ ε σ) : (r.after fs).got = fs ++ r.got := rfl

@[simp] theorem after_error (fs : List φ) (r : Reader φ ε σ) : (r.after fs).error = r.error := rfl

@[simp] theorem after_decoder (fs : List φ) (r : Reader φ ε σ) :
    (r.after fs).decoder = r.decoder := rfl

@[simp] theorem after_nil (r : Reader φ ε σ) : r.after [] = r := rfl

@[simp] theorem after_after (fs fs' : List φ) (r : Reader φ ε σ) :
    (r.after fs').after fs = r.after (fs ++ fs') := by
  unfold after
  rw [List.append_assoc]

end Reader

namespace Decoder

variable {β φ ε σ : Type*} {F : Framing β φ ε} (D : Decoder F σ)

/-- The bytes themselves as a decoder. -/
def raw (F : Framing β φ ε) : Decoder F (List β) where
  buf s := s
  extend s data := s ++ data
  next := F.next
  buf_extend _ _ := rfl
  next_fst _ := rfl
  buf_next _ := rfl

theorem next_eq (s : σ) : F.next (D.buf s) = ((D.next s).1, D.buf (D.next s).2) :=
  Prod.ext (D.next_fst s).symm (D.buf_next s).symm

/-- Take frames until none is complete, or one is an error. -/
def drain (s : σ) : Reader φ ε σ :=
  match _ : D.next s with
  | (.ok (some f), s') => (drain s').after [f]
  | (.ok none, s') => ⟨[], none, s'⟩
  | (.error e, s') => ⟨[], some e, s'⟩
termination_by (D.buf s).length
decreasing_by
  have hnext := D.next_eq s
  rw [‹D.next s = _›] at hnext
  exact Framing.next_lt hnext

/-- What one read does: its bytes are fed, and the decoder is drained. Nothing is read after an
error. -/
def read (r : Reader φ ε σ) (chunk : List β) : Reader φ ε σ :=
  match r.error with
  | some _ => r
  | none => (D.drain (D.extend r.decoder chunk)).after r.got

def read_all (s : σ) (chunks : List (List β)) : Reader φ ε σ :=
  chunks.foldl D.read ⟨[], none, s⟩

/-! ## Draining -/

variable {D} {s s' : σ} {f : φ} {e : ε}

theorem drain_of_some (h : D.next s = (.ok (some f), s')) :
    D.drain s = (D.drain s').after [f] := by
  rw [drain]
  split
  · next f' t heq =>
      rw [h] at heq
      obtain ⟨hf, rfl⟩ := Prod.mk.inj heq
      rw [Option.some.inj (Except.ok.inj hf)]
  · next heq => rw [h] at heq; cases heq
  · next heq => rw [h] at heq; cases heq

theorem drain_of_none (h : D.next s = (.ok none, s')) : D.drain s = ⟨[], none, s'⟩ := by
  rw [drain]
  split
  · next heq => rw [h] at heq; cases heq
  · next heq =>
      rw [h] at heq
      rw [(Prod.mk.inj heq).2]
  · next heq => rw [h] at heq; cases heq

theorem drain_of_error (h : D.next s = (.error e, s')) : D.drain s = ⟨[], some e, s'⟩ := by
  rw [drain]
  split
  · next heq => rw [h] at heq; cases heq
  · next heq => rw [h] at heq; cases heq
  · next e' t heq =>
      rw [h] at heq
      obtain ⟨he, rfl⟩ := Prod.mk.inj heq
      rw [Except.error.inj he]

/-- Draining sees nothing of a decoder but its bytes. -/
theorem drain_eq_raw (s : σ) :
    (D.drain s).got = ((raw F).drain (D.buf s)).got ∧
      (D.drain s).error = ((raw F).drain (D.buf s)).error ∧
      D.buf (D.drain s).decoder = ((raw F).drain (D.buf s)).decoder := by
  fun_induction D.drain s with
  | case1 s f s' hs ih =>
      have hraw : (raw F).next (D.buf s) = (.ok (some f), D.buf s') := by
        have hnext := D.next_eq s
        rwa [hs] at hnext
      rw [drain_of_some hraw]
      exact ⟨congrArg (f :: ·) ih.1, ih.2⟩
  | case2 s s' hs =>
      have hraw : (raw F).next (D.buf s) = (.ok none, D.buf s') := by
        have hnext := D.next_eq s
        rwa [hs] at hnext
      rw [drain_of_none hraw]
      exact ⟨rfl, rfl, rfl⟩
  | case3 s e s' hs =>
      have hraw : (raw F).next (D.buf s) = (.error e, D.buf s') := by
        have hnext := D.next_eq s
        rwa [hs] at hnext
      rw [drain_of_error hraw]
      exact ⟨rfl, rfl, rfl⟩

/-- What is left when no frame is complete any more is less than the largest frame. -/
theorem drain_bound (s : σ) (h : (D.drain s).error = none) :
    (D.buf (D.drain s).decoder).length < F.header + F.limit := by
  fun_induction D.drain s with
  | case1 s f s' hs ih => exact ih h
  | case2 s s' hs =>
      have hnext := D.next_eq s
      rw [hs] at hnext
      obtain ⟨heq, hlt⟩ := Framing.next_eq_none hnext
      rw [heq]
      exact hlt
  | case3 s e s' hs => cases h

/-- Draining leaves no more than there was. -/
theorem drain_le (s : σ) : (D.buf (D.drain s).decoder).length ≤ (D.buf s).length := by
  fun_induction D.drain s with
  | case1 s f s' hs ih =>
      have hnext := D.next_eq s
      rw [hs] at hnext
      exact Nat.le_trans ih (Nat.le_of_lt (Framing.next_lt hnext))
  | case2 s s' hs =>
      have hnext := D.next_eq s
      rw [hs] at hnext
      exact Nat.le_of_eq (congrArg List.length (Framing.next_eq_none hnext).1)
  | case3 s e s' hs =>
      have hnext := D.next_eq s
      rw [hs] at hnext
      exact Nat.le_of_eq (congrArg List.length (Framing.next_eq_error hnext).2.2)

/-! ## Reading -/

variable {buf : List β}

theorem raw_drain_frames {fs : List φ} {ws : List (List β)} (h : List.Forall₂ F.Encodes fs ws)
    (rest : List β) :
    (raw F).drain (ws.flatten ++ rest) = ((raw F).drain rest).after fs := by
  induction h with
  | nil => rfl
  | @cons f w fs ws hf _ ih =>
      have hnext : (raw F).next (w ++ (ws.flatten ++ rest)) = (.ok (some f), ws.flatten ++ rest) :=
        hf _
      rw [List.flatten_cons, List.append_assoc, drain_of_some hnext, ih, Reader.after_after]
      rfl

/-- Draining in two goes, the bytes of the second coming later. -/
theorem raw_drain_append (buf more : List β) :
    (((raw F).drain buf).error = none →
      (raw F).drain (buf ++ more) =
        ((raw F).drain (((raw F).drain buf).decoder ++ more)).after ((raw F).drain buf).got) ∧
    (∀ e, ((raw F).drain buf).error = some e →
      ((raw F).drain (buf ++ more)).got = ((raw F).drain buf).got ∧
        ((raw F).drain (buf ++ more)).error = some e) := by
  fun_induction (raw F).drain buf with
  | case1 buf f buf' hs ih =>
      have hnext : (raw F).next (buf ++ more) = (.ok (some f), buf' ++ more) :=
        Framing.next_append_some hs more
      rw [drain_of_some hnext]
      refine ⟨fun hok => ?_, fun e he => ?_⟩
      · rw [ih.1 hok, Reader.after_after]
        rfl
      · obtain ⟨hgot, herr⟩ := ih.2 e he
        exact ⟨congrArg (f :: ·) hgot, herr⟩
  | case2 buf buf' hs =>
      obtain ⟨rfl, _⟩ := Framing.next_eq_none hs
      exact ⟨fun _ => (Reader.after_nil _).symm, nofun⟩
  | case3 buf e buf' hs =>
      have hnext : (raw F).next (buf ++ more) = (.error e, buf ++ more) :=
        Framing.next_append_error hs more
      refine ⟨nofun, fun e' he => ?_⟩
      rw [drain_of_error hnext]
      exact ⟨rfl, he⟩

/-- A reader has got what one drain of all its bytes gets. -/
structure Reads (F : Framing β φ ε) (D : Decoder F σ) (bytes : List β) (r : Reader φ ε σ) :
    Prop where
  got : r.got = ((raw F).drain bytes).got
  error : r.error = ((raw F).drain bytes).error
  left : r.error = none → D.buf r.decoder = ((raw F).drain bytes).decoder

theorem Reads.read {bytes : List β} {r : Reader φ ε σ} (h : Reads F D bytes r) (chunk : List β) :
    Reads F D (bytes ++ chunk) (D.read r chunk) := by
  obtain ⟨happ, hstop⟩ := raw_drain_append (F := F) bytes chunk
  unfold Decoder.read
  cases herr : r.error with
  | some e =>
      obtain ⟨hgot, hsame⟩ := hstop e (h.error.symm.trans herr)
      refine ⟨h.got.trans hgot.symm, herr.trans hsame.symm, fun hn => ?_⟩
      rw [herr] at hn
      cases hn
  | none =>
      have hall := happ (h.error.symm.trans herr)
      have hbuf : D.buf (D.extend r.decoder chunk) = ((raw F).drain bytes).decoder ++ chunk := by
        rw [D.buf_extend, h.left herr]
      obtain ⟨hgot, hsame, hleft⟩ := D.drain_eq_raw (D.extend r.decoder chunk)
      rw [hbuf] at hgot hsame hleft
      rw [← h.got] at hall
      refine ⟨?_, ?_, fun _ => ?_⟩
      · rw [hall, Reader.after_got, Reader.after_got, hgot]
      · rw [hall, Reader.after_error, Reader.after_error, hsame]
      · rw [hall, Reader.after_decoder, Reader.after_decoder, hleft]

/-- However the bytes are cut. -/
theorem read_all_eq (hs : D.buf s = []) (chunks : List (List β)) :
    Reads F D chunks.flatten (D.read_all s chunks) := by
  induction chunks using List.reverseRecOn with
  | nil =>
      have hnone : (raw F).next [] = (.ok none, []) := Framing.next_of_short F.header_pos
      refine ⟨?_, ?_, fun _ => ?_⟩
      · rw [List.flatten_nil, drain_of_none hnone]
        rfl
      · rw [List.flatten_nil, drain_of_none hnone]
        rfl
      · rw [List.flatten_nil, drain_of_none hnone]
        exact hs
  | append_singleton chunks chunk ih =>
      unfold read_all
      rw [List.flatten_append, List.flatten_singleton, List.foldl_append]
      exact ih.read chunk

/-- From the encodings of some frames and the beginning of another, the reader gets the frames,
and the beginning stays. -/
theorem read_all_frames (hs : D.buf s = []) {fs : List φ} {ws : List (List β)}
    (hw : List.Forall₂ F.Encodes fs ws) {rest : List β} (hrest : F.next rest = (.ok none, rest))
    {chunks : List (List β)} (hc : chunks.flatten = ws.flatten ++ rest) :
    (D.read_all s chunks).got = fs ∧ (D.read_all s chunks).error = none ∧
      D.buf (D.read_all s chunks).decoder = rest := by
  have h := read_all_eq hs chunks
  have hdrain := raw_drain_frames hw rest
  have hnone : (raw F).next rest = (.ok none, rest) := hrest
  rw [drain_of_none hnone, ← hc] at hdrain
  have herr : (D.read_all s chunks).error = none := by
    rw [h.error, hdrain, Reader.after_error]
  refine ⟨?_, herr, ?_⟩
  · rw [h.got, hdrain, Reader.after_got, List.append_nil]
  · rw [h.left herr, hdrain, Reader.after_decoder]

/-- A header that is an error stops the reader, whether or not more has come. -/
theorem read_all_rejects (hs : D.buf s = []) {fs : List φ} {ws : List (List β)}
    (hw : List.Forall₂ F.Encodes fs ws) {bad more : List β} (hlen : bad.length = F.header)
    (hbad : F.read bad = .error e) {chunks : List (List β)}
    (hc : chunks.flatten = ws.flatten ++ (bad ++ more)) :
    (D.read_all s chunks).got = fs ∧ (D.read_all s chunks).error = some e := by
  have h := read_all_eq hs chunks
  have hdrain := raw_drain_frames hw (bad ++ more)
  have htake : (bad ++ more).take F.header = bad := by
    rw [← hlen, List.take_left]
  have herror : (raw F).next (bad ++ more) = (.error e, bad ++ more) :=
    Framing.next_of_error (by rw [List.length_append]; omega) (htake.symm ▸ hbad)
  rw [drain_of_error herror, ← hc] at hdrain
  constructor
  · rw [h.got, hdrain, Reader.after_got, List.append_nil]
  · rw [h.error, hdrain, Reader.after_error]

/-- Between two reads less than one largest frame is kept; while a read is used, that and the
read. -/
theorem read_all_bound (hs : D.buf s = []) {n : Nat} {chunks : List (List β)}
    (hn : ∀ c ∈ chunks, c.length ≤ n) :
    ((D.read_all s chunks).error = none →
        (D.buf (D.read_all s chunks).decoder).length < F.header + F.limit) ∧
      (D.buf (D.read_all s chunks).decoder).length < F.header + F.limit + n := by
  have hpos := F.header_pos
  induction chunks using List.reverseRecOn with
  | nil =>
      unfold read_all
      dsimp only [List.foldl_nil]
      rw [hs, List.length_nil]
      omega
  | append_singleton chunks chunk ih =>
      obtain ⟨hok, hall⟩ := ih fun c hc => hn c (List.mem_append_left _ hc)
      have hchunk := hn chunk (List.mem_append_right _ (List.mem_singleton_self _))
      unfold read_all at hok hall ⊢
      rw [List.foldl_append, List.foldl_cons, List.foldl_nil]
      generalize chunks.foldl D.read ⟨[], none, s⟩ = r at hok hall
      unfold Decoder.read
      cases herr : r.error with
      | some e =>
          refine ⟨fun hn => ?_, hall⟩
          rw [herr] at hn
          cases hn
      | none =>
          refine ⟨fun hn => drain_bound _ hn, ?_⟩
          have hle := drain_le (D := D) (D.extend r.decoder chunk)
          rw [D.buf_extend, List.length_append] at hle
          have hbefore := hok herr
          rw [Reader.after_decoder]
          omega

end Decoder
