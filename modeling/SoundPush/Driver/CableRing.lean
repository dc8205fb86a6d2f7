/-
`CableRing` -- what the cable guarantees, in every order of its two sides' steps.

The ring holds the frames between the two counters (`Cable.Ring`), the writer is busy
with the slots after them (`Cable.WriterAt`), and the reader with some of them
(`Cable.ReaderAt`). No step of one side takes what the other relies on, because each
counter only grows and the sides never meet at a slot (`apart`); so the order in which
a processor shows one side the stores of the other between two interlocked accesses
does not matter.

Every frame that is offered ends as one that was played or in one of the counts of
what was lost.
-/
import Mathlib.Data.List.Chain
import SoundPush.Driver.Cable

set_option autoImplicit false

namespace SoundPush

/-! ## 1. What holds of it -/

/-- What a reader with `Format` gets for a frame. -/
def convert (Format : SP_PCM_FORMAT) (frame : SP_PCM_FORMAT × Bytes) : Bytes :=
  StoreFrame Format (LoadFrame frame.1 frame.2)

/-- The frames from `read` on, `available` of them. -/
def frames_from (written : List (SP_PCM_FORMAT × Bytes)) (read available : Nat) :
    List (SP_PCM_FORMAT × Bytes) := (written.drop read).take available

/-- Silence in a format. -/
def silence (Format : SP_PCM_FORMAT) (frames : Nat) : Bytes :=
  List.replicate (frames * Format.BlockAlign) 0

/-- **A read.** It plays frames as they were written, and silence where it has none. -/
structure ReadCall.Served (written : List (SP_PCM_FORMAT × Bytes)) (call : ReadCall) : Prop where
  plays : call.Destination =
    (frames_from written call.read call.available).flatMap (convert call.Format) ++
      silence call.Format (call.Frames - call.available)
  written : call.read + call.available ≤ call.write ∧ call.write ≤ written.length
  most : call.available ≤ call.Frames
  /-- nothing is older than the backlog allows -/
  fresh : call.write ≤ call.read + kMaxQueuedFrames

/-- A read that ran out of audio. -/
def ReadCall.Short (call : ReadCall) : Prop := call.available < call.Frames

/-- The last read ran out of audio. -/
def CableLog.Short (log : CableLog) : Prop := ∃ call ∈ log.reads.getLast?, call.Short

/-- The frames that the reads have played. -/
def CableLog.played (log : CableLog) : Nat := (log.reads.map ReadCall.available).sum

/-- The ring: the frames that are not read yet are in their slots. -/
structure Cable.Ring (c : Cable) (log : CableLog) : Prop where
  length : log.written.length = c.WriteFrame
  ordered : c.ReadFrame ≤ c.WriteFrame
  room : c.WriteFrame ≤ c.ReadFrame + kCapacityFrames
  holds : ∀ n frame, log.written[n]? = some frame → c.ReadFrame ≤ n → ∀ side < 2,
    c.Samples (cable_slot n side) = (LoadFrame frame.1 frame.2).sample side
  valid : ∀ frame ∈ log.written, SpIsValidFormat frame.1 ∧ frame.2.length = frame.1.BlockAlign

/-- Where the writer is: every frame offered is written, about to be, or counted as lost. -/
inductive Cable.WriterAt (c : Cable) (log : CableLog) : CableWriter → Prop
  | idle : log.offered = log.written.length + c.DroppedFrames → WriterAt c log .Idle
  | called {Source : Bytes} {Frames : Nat} {Format : SP_PCM_FORMAT} : SpIsValidFormat Format →
      Source.length = Frames * Format.BlockAlign →
      log.offered = log.written.length + c.DroppedFrames →
      WriterAt c log (.Called Source Frames Format)
  | storing {Source : Bytes} {Format : SP_PCM_FORMAT} {frames stored : Nat} :
      SpIsValidFormat Format → frames * Format.BlockAlign ≤ Source.length →
      log.offered = log.written.length + frames + c.DroppedFrames →
      c.WriteFrame + frames ≤ c.ReadFrame + kCapacityFrames → stored ≤ 2 * frames →
      (∀ k < stored, c.Samples (cable_slot (c.WriteFrame + k / 2) (k % 2)) =
        (LoadFrame Format (block_at Source Format (k / 2))).sample (k % 2)) →
      WriterAt c log (.Storing Source Format c.WriteFrame frames stored)

/-- Where the reader is: every frame behind it was played, skipped or thrown away. -/
inductive Cable.ReaderAt (c : Cable) (log : CableLog) : CableReader → Prop
  | idle : log.played + c.SkippedFrames + log.discarded = c.ReadFrame →
      (log.Short → c.Primed = false) → ReaderAt c log .Idle
  | starting {write : Nat} : log.played + c.SkippedFrames + log.discarded = c.ReadFrame →
      c.ReadFrame ≤ write → write ≤ c.WriteFrame → (log.Short → c.Primed = false) →
      ReaderAt c log (.Starting write)
  | started : log.played + c.SkippedFrames + log.discarded = c.ReadFrame →
      (log.Short → c.Primed = false) → ReaderAt c log .Started
  | silent {Frames : Nat} {Format : SP_PCM_FORMAT} {write : Nat} :
      log.played + c.SkippedFrames + log.discarded = c.ReadFrame → 0 < Frames →
      c.ReadFrame ≤ write → write ≤ c.WriteFrame → write < c.ReadFrame + kPrimeFrames →
      c.Primed = false → ReaderAt c log (.Silent Frames Format write c.ReadFrame)
  | loading {Frames : Nat} {Format : SP_PCM_FORMAT} {write read available loaded : Nat}
      {left : BitVec 32} {Destination : Bytes} :
      log.played + c.SkippedFrames + log.discarded = read → c.ReadFrame ≤ read →
      read + available ≤ write → write ≤ c.WriteFrame → write ≤ read + kMaxQueuedFrames →
      available ≤ Frames → loaded ≤ 2 * available →
      (loaded % 2 = 1 → ∀ frame ∈ log.written[read + loaded / 2]?,
        left = (LoadFrame frame.1 frame.2).1) →
      Destination = (frames_from log.written read (loaded / 2)).flatMap (convert Format) →
      (log.Short → read + kPrimeFrames ≤ write) →
      ReaderAt c log (.Loading Frames Format write read available loaded left Destination)

/-- The reads that have returned. -/
structure CableLog.Sound (log : CableLog) (ReadFrame : Nat) : Prop where
  served : ∀ call ∈ log.reads, call.Served log.written
  in_order : log.reads.Pairwise fun call later => call.read + call.available ≤ later.read
  behind : ∀ call ∈ log.reads, call.read + call.available ≤ ReadFrame
  primes : log.reads.IsChain fun call next => call.Short →
    next.available = 0 ∨ next.read + kPrimeFrames ≤ next.write

structure CableState.Sound (s : CableState) : Prop where
  ring : s.cable.Ring s.log
  writer : s.cable.WriterAt s.log s.writer
  reader : s.cable.ReaderAt s.log s.reader
  log : s.log.Sound s.cable.ReadFrame

section
variable {n m side other : Nat}

/-- Frames that are less than the capacity apart have their own slots. -/
theorem cable_slot_ne (hlt : n < m) (hnear : m < n + kCapacityFrames) (hside : side < 2)
    (hother : other < 2) : cable_slot n side ≠ cable_slot m other := by
  unfold cable_slot
  unfold kCapacityFrames at *
  intro h
  have hmod : n % 16384 = m % 16384 := by omega
  omega

/-- And so have the two samples of a frame. -/
theorem cable_slot_side (h : cable_slot n side = cable_slot n other) : side = other := by
  unfold cable_slot at h
  omega

theorem ULONG64_sub_eq {write read : Nat} (h : read ≤ write)
    (hroom : write ≤ read + kCapacityFrames) : ULONG64_sub write read = write - read := by
  unfold ULONG64_sub
  unfold kCapacityFrames at hroom
  omega

end

section
variable {written more : List (SP_PCM_FORMAT × Bytes)} {read available : Nat}

theorem frames_from_append (h : read + available ≤ written.length) :
    frames_from (written ++ more) read available = frames_from written read available := by
  unfold frames_from
  rw [List.drop_append_of_le_length (by omega), List.take_append_of_le_length]
  rw [List.length_drop]
  omega

theorem frames_from_succ {frame : SP_PCM_FORMAT × Bytes}
    (h : written[read + available]? = some frame) :
    frames_from written read (available + 1) = frames_from written read available ++ [frame] := by
  unfold frames_from
  rw [List.take_add_one, List.getElem?_drop, h, Option.toList_some]

theorem ReadCall.Served.append {call : ReadCall} (h : call.Served written) :
    call.Served (written ++ more) where
  plays := by
    rw [frames_from_append (h.written.1.trans h.written.2)]
    exact h.plays
  written := ⟨h.written.1, by rw [List.length_append]; have := h.written.2; omega⟩
  most := h.most
  fresh := h.fresh

end

@[simp] theorem blocks_length (Source : Bytes) (Format : SP_PCM_FORMAT) (frames : Nat) :
    (blocks Source Format frames).length = frames := by
  simp [blocks]

theorem blocks_get {Source : Bytes} {Format : SP_PCM_FORMAT} {frames i : Nat}
    {frame : SP_PCM_FORMAT × Bytes} (h : (blocks Source Format frames)[i]? = some frame) :
    i < frames ∧ frame = (Format, block_at Source Format i) := by
  unfold blocks at h
  rw [List.getElem?_map, Option.map_eq_some_iff] at h
  obtain ⟨j, hj, rfl⟩ := h
  obtain ⟨hi, hj⟩ := List.getElem?_eq_some_iff.1 hj
  rw [List.getElem_range] at hj
  rw [List.length_range] at hi
  exact ⟨hi, by rw [hj]⟩

/-- The blocks of a source are as long as the format says. -/
theorem block_at_length {Source : Bytes} {Format : SP_PCM_FORMAT} {frames i : Nat}
    (h : frames * Format.BlockAlign ≤ Source.length) (hi : i < frames) :
    (block_at Source Format i).length = Format.BlockAlign := by
  unfold block_at
  rw [List.length_take, List.length_drop]
  have hle : (i + 1) * Format.BlockAlign ≤ frames * Format.BlockAlign :=
    Nat.mul_le_mul_right _ hi
  rw [Nat.add_mul, Nat.one_mul] at hle
  omega

/-! ## 2. The writer's steps -/

section
variable {s : CableState} {Source : Bytes} {Frames frames stored : Nat} {Format : SP_PCM_FORMAT}

namespace Cable

/-- The slots of the reader's frames are left alone. -/
theorem Ring.store {c : Cable} {log : CableLog} (h : c.Ring log) {frame side : Nat}
    (hframe : c.WriteFrame ≤ frame) (hroom : frame < c.ReadFrame + kCapacityFrames)
    (hside : side < 2) (sample : BitVec 32) :
    Ring { c with Samples := Function.update c.Samples (cable_slot frame side) sample } log where
  length := h.length
  ordered := h.ordered
  room := h.room
  valid := h.valid
  holds n f hf hn side' hside' := by
    have hlt : n < c.WriteFrame := by
      rw [← h.length]
      exact (List.getElem?_eq_some_iff.1 hf).1
    have hnear : frame < n + kCapacityFrames := hroom.trans_le (Nat.add_le_add_right hn _)
    have hne := cable_slot_ne (hlt.trans_le hframe) hnear hside' hside
    change Function.update _ _ _ _ = _
    rw [Function.update_of_ne hne]
    exact h.holds n f hf hn side' hside'

/-- The reader does not see what the writer does before it publishes. -/
theorem ReaderAt.store {c : Cable} {log : CableLog} {reader : CableReader}
    (h : c.ReaderAt log reader)
    (Samples : Nat → BitVec 32) (offered dropped : Nat) :
    ReaderAt { c with Samples := Samples, DroppedFrames := dropped }
      { log with offered := offered } reader := by
  cases h with
  | idle hall hshort => exact .idle hall hshort
  | starting hall hread hwrite hshort => exact .starting hall hread hwrite hshort
  | started hall hshort => exact .started hall hshort
  | silent hall hframes hread hwrite hprime hprimed =>
      exact .silent (c := { c with Samples := Samples, DroppedFrames := dropped })
        hall hframes hread hwrite hprime hprimed
  | loading hall hread hrange hwrite hfresh hmost hloaded hleft hplays hprime =>
      exact .loading hall hread hrange hwrite hfresh hmost hloaded hleft hplays hprime

/-- A step of the writer's loop stores one more sample of its source. -/
theorem WriterAt.store {c : Cable} {log : CableLog} (hring : c.Ring log)
    (h : c.WriterAt log (.Storing Source Format c.WriteFrame frames stored))
    (hmore : stored < 2 * frames) :
    let slot := cable_slot (c.WriteFrame + stored / 2) (stored % 2)
    let frame := LoadFrame Format (block_at Source Format (stored / 2))
    let c' := { c with Samples := Function.update c.Samples slot (frame.sample (stored % 2)) }
    c'.Ring log ∧ c'.WriterAt log (.Storing Source Format c.WriteFrame frames (stored + 1)) := by
  intro slot frame c'
  cases h with
  | storing hvalid hsource hoffered hroom hstored hheld =>
      have hside : stored % 2 < 2 := Nat.mod_lt _ (by omega)
      refine ⟨hring.store (by omega) (by omega) hside _, ?_⟩
      refine .storing (c := c') hvalid hsource hoffered hroom (by omega) fun k hk => ?_
      change Function.update _ _ _ _ = _
      by_cases hnow : k = stored
      · rw [hnow, Function.update_self]
      · -- the samples stored before keep their slots
        have hne : cable_slot (c.WriteFrame + k / 2) (k % 2) ≠ slot := by
          rcases Nat.lt_or_ge (k / 2) (stored / 2) with hlt | hge
          · refine cable_slot_ne (by omega) ?_ (Nat.mod_lt _ (by omega)) hside
            have := hring.ordered
            omega
          · have hsame : k / 2 = stored / 2 := by omega
            intro heq
            rw [hsame] at heq
            have := cable_slot_side heq
            omega
        rw [Function.update_of_ne hne]
        exact hheld k (by omega)

/-- The writer publishes what it has stored. -/
theorem WriterAt.publish {c : Cable} {log : CableLog} (hring : c.Ring log)
    (h : c.WriterAt log (.Storing Source Format c.WriteFrame frames (2 * frames))) :
    let c' := { c with WriteFrame := c.WriteFrame + frames }
    let log' := { log with written := log.written ++ blocks Source Format frames }
    c'.Ring log' ∧ c'.WriterAt log' .Idle := by
  intro c' log'
  cases h with
  | storing hvalid hsource hoffered hroom hstored hheld =>
      have hlength : log'.written.length = c.WriteFrame + frames := by
        rw [List.length_append, blocks_length, hring.length]
      refine ⟨⟨hlength, hring.ordered.trans (Nat.le_add_right _ _), hroom, ?_, ?_⟩, .idle ?_⟩
      · intro n f hf hn side hside
        rcases Nat.lt_or_ge n log.written.length with hlt | hge
        · rw [List.getElem?_append_left hlt] at hf
          exact hring.holds n f hf hn side hside
        · rw [List.getElem?_append_right hge] at hf
          obtain ⟨hi, rfl⟩ := blocks_get hf
          rw [hring.length] at hge hi ⊢
          have hsample := hheld (2 * (n - c.WriteFrame) + side) (by omega)
          -- Sample `2 * i + side` of the call is the sample `side` of its frame `i`.
          have hhalf : (2 * (n - c.WriteFrame) + side) / 2 = n - c.WriteFrame := by omega
          have hmod : (2 * (n - c.WriteFrame) + side) % 2 = side := by omega
          rw [hhalf, hmod, Nat.add_sub_cancel' hge] at hsample
          exact hsample
      · intro f hf
        rcases List.mem_append.1 hf with hold | hnew
        · exact hring.valid f hold
        · obtain ⟨i, hi⟩ := List.getElem?_of_mem hnew
          obtain ⟨hlt, rfl⟩ := blocks_get hi
          exact ⟨hvalid, block_at_length hsource hlt⟩
      · rw [hlength, hoffered, hring.length]

/-- The reader does not mind that there is more. -/
theorem ReaderAt.publish {c : Cable} {log : CableLog} {reader : CableReader} (hring : c.Ring log)
    (h : c.ReaderAt log reader) (frames : Nat) (more : List (SP_PCM_FORMAT × Bytes)) :
    ReaderAt { c with WriteFrame := c.WriteFrame + frames }
      { log with written := log.written ++ more } reader := by
  have hgrows {write : Nat} (hwrite : write ≤ c.WriteFrame) : write ≤ c.WriteFrame + frames :=
    hwrite.trans (Nat.le_add_right _ _)
  cases h with
  | idle hall hshort => exact .idle hall hshort
  | starting hall hread hwrite hshort => exact .starting hall hread (hgrows hwrite) hshort
  | started hall hshort => exact .started hall hshort
  | silent hall hframes hread hwrite hprime hprimed =>
      exact .silent (c := { c with WriteFrame := c.WriteFrame + frames })
        hall hframes hread (hgrows hwrite) hprime hprimed
  | @loading _ _ _ read available loaded _ _ hall hread hrange hwrite hfresh hmost hloaded hleft
      hplays hprime =>
      have hin : read + available ≤ log.written.length := by
        rw [hring.length]
        exact hrange.trans hwrite
      refine .loading hall hread hrange (hgrows hwrite) hfresh hmost hloaded ?_ ?_ hprime
      · intro hodd f hf
        refine hleft hodd f ?_
        rwa [List.getElem?_append_left (by omega)] at hf
      · rw [frames_from_append (by omega)]
        exact hplays

end Cable

theorem CableLog.Sound.publish {log : CableLog} {ReadFrame : Nat} (h : log.Sound ReadFrame)
    (more : List (SP_PCM_FORMAT × Bytes)) :
    CableLog.Sound { log with written := log.written ++ more } ReadFrame where
  served call hcall := (h.served call hcall).append
  in_order := h.in_order
  behind := h.behind
  primes := h.primes

end

namespace CableState

/-- The writer takes as much as there is room for. -/
theorem writer_looks_sound {s : CableState} {Source : Bytes} {Frames : Nat} {Format : SP_PCM_FORMAT}
    (h : s.Sound) (hwriter : s.writer = .Called Source Frames Format) :
    (s.writer_looks Source Frames Format).Sound := by
  obtain ⟨hring, hat, hreader, hlog⟩ := h
  rw [hwriter] at hat
  cases hat with
  | called hvalid hsource hoffered =>
      -- The counters are free running 64-bit words; with at most a ring between them their
      -- wrapped difference is the true one.
      have hspace : (if ULONG64_sub s.cable.WriteFrame s.cable.ReadFrame ≥ kCapacityFrames then 0
          else kCapacityFrames - ULONG64_sub s.cable.WriteFrame s.cable.ReadFrame) =
          s.cable.ReadFrame + kCapacityFrames - s.cable.WriteFrame := by
        rw [ULONG64_sub_eq hring.ordered hring.room]
        have := hring.ordered
        split <;> omega
      have hroom := hring.room
      unfold writer_looks
      dsimp only
      rw [hspace]
      split
      -- More than there is room for: the rest is dropped here and now, and counted.
      · rename_i hfull
        refine ⟨⟨hring.length, hring.ordered, hring.room, hring.holds, hring.valid⟩, ?_,
          hreader.store _ _ _, ⟨hlog.served, hlog.in_order, hlog.behind, hlog.primes⟩⟩
        have hfits := Nat.mul_le_mul_right Format.BlockAlign hfull.le
        refine .storing (c := { s.cable with DroppedFrames := _ }) hvalid (hfits.trans hsource.ge)
          ?_ ?_ (Nat.zero_le _) fun k hk => absurd hk (Nat.not_lt_zero k)
        · change s.log.offered + Frames = s.log.written.length + _ + (s.cable.DroppedFrames + _)
          omega
        · change s.cable.WriteFrame + _ ≤ s.cable.ReadFrame + kCapacityFrames
          omega
      · rename_i hfits
        refine ⟨⟨hring.length, hring.ordered, hring.room, hring.holds, hring.valid⟩, ?_,
          hreader.store _ _ _, ⟨hlog.served, hlog.in_order, hlog.behind, hlog.primes⟩⟩
        refine .storing hvalid hsource.ge ?_ ?_ (Nat.zero_le _)
          fun k hk => absurd hk (Nat.not_lt_zero k)
        · change s.log.offered + Frames = s.log.written.length + _ + s.cable.DroppedFrames
          omega
        · change s.cable.WriteFrame + _ ≤ s.cable.ReadFrame + kCapacityFrames
          omega

theorem writer_stores_sound {s : CableState} {Source : Bytes} {Format : SP_PCM_FORMAT}
    {write frames stored : Nat} (h : s.Sound)
    (hwriter : s.writer = .Storing Source Format write frames stored) :
    (s.writer_stores Source Format write frames stored).Sound := by
  obtain ⟨hring, hat, hreader, hlog⟩ := h
  rw [hwriter] at hat
  have hwrite : write = s.cable.WriteFrame := by
    cases hat with
    | storing _ _ _ _ _ _ => rfl
  subst hwrite
  unfold writer_stores
  split
  · rename_i hmore
    obtain ⟨hring', hat'⟩ := hat.store hring hmore
    exact ⟨hring', hat', hreader.store _ _ _, hlog⟩
  · rename_i hdone
    have hall : stored = 2 * frames := by
      cases hat with
      | storing _ _ _ _ hstored _ => omega
    subst hall
    obtain ⟨hring', hat'⟩ := hat.publish hring
    exact ⟨hring', hat', hreader.publish hring frames _, hlog.publish _⟩

end CableState

/-! ## 3. The reader's steps -/

namespace Cable

section
variable {c : Cable} {log : CableLog} {writer : CableWriter}

/-- The writer does not mind that the reader has moved on. -/
theorem WriterAt.moves {c' : Cable} {log' : CableLog} (h : c.WriterAt log writer)
    (hsamples : c'.Samples = c.Samples) (hwrite : c'.WriteFrame = c.WriteFrame)
    (hread : c.ReadFrame ≤ c'.ReadFrame) (hdropped : c'.DroppedFrames = c.DroppedFrames)
    (hlog : log'.written = log.written ∧ log'.offered = log.offered) : c'.WriterAt log' writer := by
  obtain ⟨hwritten, hoffers⟩ := hlog
  cases h with
  | idle hoffered => exact .idle (by rw [hoffers, hwritten, hdropped, hoffered])
  | called hvalid hsource hoffered =>
      exact .called hvalid hsource (by rw [hoffers, hwritten, hdropped, hoffered])
  | storing hvalid hsource hoffered hroom hstored hheld =>
      rw [← hwrite]
      refine .storing hvalid hsource (by rw [hoffers, hwritten, hdropped, hoffered])
        (by omega) hstored fun k hk => ?_
      rw [hsamples, hwrite]
      exact hheld k hk

theorem Ring.moves {c' : Cable} {log' : CableLog} (h : c.Ring log)
    (hsamples : c'.Samples = c.Samples) (hwrite : c'.WriteFrame = c.WriteFrame)
    (hread : c.ReadFrame ≤ c'.ReadFrame) (hbehind : c'.ReadFrame ≤ c.WriteFrame)
    (hwritten : log'.written = log.written) : c'.Ring log' where
  length := by rw [hwritten, hwrite, h.length]
  ordered := by rw [hwrite]; exact hbehind
  room := by
    rw [hwrite]
    have := h.room
    omega
  holds n f hf hn side hside := by
    rw [hwritten] at hf
    rw [hsamples]
    exact h.holds n f hf (hread.trans hn) side hside
  valid := by rw [hwritten]; exact h.valid

end

end Cable

theorem CableLog.Sound.behind_of_le {log : CableLog} {ReadFrame further : Nat}
    (h : log.Sound ReadFrame) (hle : ReadFrame ≤ further) : log.Sound further :=
  { h with behind := fun call hcall => (h.behind call hcall).trans hle }

/-- A read returns. -/
theorem CableLog.Sound.returns {log : CableLog} {ReadFrame : Nat} (h : log.Sound ReadFrame)
    {call : ReadCall} (hserved : call.Served log.written) (hread : ReadFrame ≤ call.read)
    (hprimes : log.Short → call.available = 0 ∨ call.read + kPrimeFrames ≤ call.write) :
    CableLog.Sound { log with reads := log.reads ++ [call] } (call.read + call.available) where
  served := by
    intro c hc
    rcases List.mem_append.1 hc with hold | hnew
    · exact h.served c hold
    · rw [List.mem_singleton.1 hnew]
      exact hserved
  in_order := by
    refine List.pairwise_append.2 ⟨h.in_order, List.pairwise_singleton _ _, fun c hc later hl => ?_⟩
    rw [List.mem_singleton.1 hl]
    exact (h.behind c hc).trans hread
  behind := by
    intro c hc
    rcases List.mem_append.1 hc with hold | hnew
    · exact (h.behind c hold).trans (hread.trans (Nat.le_add_right _ _))
    · rw [List.mem_singleton.1 hnew]
  primes := by
    refine List.isChain_append.2
      ⟨h.primes, List.isChain_singleton _, fun c hc next hnext hshort => ?_⟩
    obtain rfl : call = next := by simpa using hnext
    exact hprimes ⟨c, hc, hshort⟩

theorem CableLog.played_concat (log : CableLog) (call : ReadCall) :
    CableLog.played { log with reads := log.reads ++ [call] } = log.played + call.available := by
  simp [played]

theorem CableLog.short_concat {log : CableLog} {call : ReadCall}
    (h : CableLog.Short { log with reads := log.reads ++ [call] }) : call.Short := by
  obtain ⟨last, hlast, hshort⟩ := h
  obtain rfl : call = last := by simpa using hlast
  exact hshort

/-- The loop of `Read` begins. -/
theorem Cable.ReaderAt.begins {c : Cable} {log : CableLog} {Frames write read queued : Nat}
    {Format : SP_PCM_FORMAT} (hall : log.played + c.SkippedFrames + log.discarded = read)
    (hread : c.ReadFrame ≤ read) (hqueued : read + queued = write) (hwrite : write ≤ c.WriteFrame)
    (hfresh : queued ≤ kMaxQueuedFrames) (hprime : log.Short → kPrimeFrames ≤ queued) :
    c.ReaderAt log (.Loading Frames Format write read
      (if queued < Frames then queued else Frames) 0 0 []) := by
  refine .loading hall hread ?_ hwrite ?_ ?_ (Nat.zero_le _) ?_ rfl fun hshort => ?_
  · split <;> omega
  · omega
  · split <;> omega
  · intro hodd
    omega
  · have := hprime hshort
    omega

namespace CableState

/-- A read looks at the counters, and gives up what is too old. -/
theorem reader_looks_sound {s : CableState} {Frames : Nat} {Format : SP_PCM_FORMAT} (h : s.Sound)
    (hreader : s.reader = .Idle) (hframes : 0 < Frames) : (s.reader_looks Frames Format).Sound := by
  obtain ⟨hring, hwriter, hat, hlog⟩ := h
  rw [hreader] at hat
  cases hat with
  | idle hall hshort =>
      have hordered := hring.ordered
      have hring' (skipped : Nat) :
          Cable.Ring { s.cable with SkippedFrames := skipped, Primed := true } s.log :=
        ⟨hring.length, hring.ordered, hring.room, hring.holds, hring.valid⟩
      have hwriter' (skipped : Nat) :
          Cable.WriterAt { s.cable with SkippedFrames := skipped, Primed := true } s.log s.writer :=
        hwriter.moves rfl rfl le_rfl rfl ⟨rfl, rfl⟩
      unfold reader_looks
      dsimp only
      rw [ULONG64_sub_eq hordered hring.room]
      by_cases hlate : s.cable.WriteFrame - s.cable.ReadFrame > kMaxQueuedFrames
      · -- what is left is enough to play
        have hfull : ¬ (!s.cable.Primed && decide (kPrimeFrames < kPrimeFrames)) = true := by simp
        have hmost : kPrimeFrames ≤ kMaxQueuedFrames := by decide
        simp only [if_pos hlate, if_neg hfull]
        refine ⟨hring' _, hwriter' _, .begins ?_ ?_ ?_ le_rfl hmost fun _ => le_rfl, hlog⟩
        · change s.log.played + (s.cable.SkippedFrames + _) + s.log.discarded = _
          omega
        · change s.cable.ReadFrame ≤ _
          omega
        · omega
      · simp only [if_neg hlate]
        split
        · -- silence until enough audio is queued to play smoothly
          rename_i hwaits
          rw [Bool.and_eq_true, Bool.not_eq_true', decide_eq_true_eq] at hwaits
          have hfew : s.cable.WriteFrame < s.cable.ReadFrame + kPrimeFrames := by omega
          exact ⟨hring, hwriter, .silent hall hframes hordered le_rfl hfew hwaits.1, hlog⟩
        · rename_i hplays
          rw [Bool.and_eq_true, Bool.not_eq_true', decide_eq_true_eq] at hplays
          refine ⟨hring' _, hwriter' _, .begins hall le_rfl (by omega) le_rfl (by omega) ?_, hlog⟩
          intro hran
          exact Nat.le_of_not_lt fun hfew => hplays ⟨hshort hran, hfew⟩

/-- A sample is loaded: it is the one that was written. -/
theorem loaded_sample {s : CableState} {read available write loaded : Nat}
    (hring : s.cable.Ring s.log)
    (hread : s.cable.ReadFrame ≤ read) (hrange : read + available ≤ write)
    (hwrite : write ≤ s.cable.WriteFrame) (hmore : loaded < 2 * available) :
    ∃ frame, s.log.written[read + loaded / 2]? = some frame ∧
      ∀ side < 2, s.cable.Samples (cable_slot (read + loaded / 2) side) =
        (LoadFrame frame.1 frame.2).sample side := by
  have hin : read + loaded / 2 < s.log.written.length := by
    rw [hring.length]
    omega
  refine ⟨_, List.getElem?_eq_getElem hin, ?_⟩
  exact hring.holds _ _ (List.getElem?_eq_getElem hin) (hread.trans (Nat.le_add_right _ _))

theorem reader_returns_sound {s : CableState} {call : ReadCall} {cable : Cable} (h : s.Sound)
    (hserved : call.Served s.log.written) (hread : s.cable.ReadFrame ≤ call.read)
    (hprimes : s.log.Short → call.available = 0 ∨ call.read + kPrimeFrames ≤ call.write)
    (hcable : cable.Samples = s.cable.Samples ∧ cable.WriteFrame = s.cable.WriteFrame ∧
      cable.DroppedFrames = s.cable.DroppedFrames)
    (hall : s.log.played + cable.SkippedFrames + s.log.discarded = call.read)
    (hshort : call.Short → cable.Primed = false) : (s.reader_returns call cable).Sound := by
  obtain ⟨hring, hwriter, hat, hlog⟩ := h
  obtain ⟨hsamples, hwrite, hdropped⟩ := hcable
  have hforward : s.cable.ReadFrame ≤ call.read + call.available :=
    hread.trans (Nat.le_add_right _ _)
  have hbehind : call.read + call.available ≤ s.cable.WriteFrame := by
    have := hserved.written
    have := hring.length
    omega
  refine ⟨hring.moves hsamples hwrite hforward hbehind rfl,
    hwriter.moves hsamples hwrite hforward hdropped ⟨rfl, rfl⟩, .idle ?_ fun hran => ?_,
    hlog.returns hserved hread hprimes⟩
  · have hplayed := s.log.played_concat call
    unfold reader_returns
    dsimp only
    rw [hplayed]
    omega
  · exact hshort (CableLog.short_concat hran)

theorem reader_loads_sound {s : CableState} {Frames : Nat} {Format : SP_PCM_FORMAT}
    {write read available loaded : Nat} {left : BitVec 32} {Destination : Bytes} (h : s.Sound)
    (hreader : s.reader = .Loading Frames Format write read available loaded left Destination) :
    (s.reader_loads Frames Format write read available loaded left Destination).Sound := by
  have hsound := h
  obtain ⟨hring, hwriter, hat, hlog⟩ := h
  rw [hreader] at hat
  cases hat with
  | loading hall hread hrange hwrite hfresh hmost hloaded hleft hplays hprime =>
      unfold reader_loads
      split
      · rename_i hmore
        obtain ⟨frame, hframe, hsample⟩ := loaded_sample hring hread hrange hwrite hmore
        dsimp only
        split
        · -- the left sample waits for the right one
          rename_i heven
          have hhalf : (loaded + 1) / 2 = loaded / 2 := by omega
          refine ⟨hring, hwriter, .loading hall hread hrange hwrite hfresh hmost (by omega) ?_ ?_
            hprime, hlog⟩
          · intro _ f hf
            rw [hhalf, hframe, Option.mem_some] at hf
            rw [heven, hsample 0 (by omega), hf]
            rfl
          · rw [hhalf]
            exact hplays
        -- The right sample completes the frame, which goes to the destination.
        · rename_i hodd
          have hodd' : loaded % 2 = 1 := by omega
          have hhalf : (loaded + 1) / 2 = loaded / 2 + 1 := by omega
          refine ⟨hring, hwriter, .loading hall hread hrange hwrite hfresh hmost (by omega) ?_ ?_
            hprime, hlog⟩
          · intro hnow
            omega
          · have hpair : (left, s.cable.Samples (cable_slot (read + loaded / 2) (loaded % 2))) =
                LoadFrame frame.1 frame.2 := by
              rw [hodd', hsample 1 (by omega), hleft hodd' frame (by rw [hframe]; rfl)]
              rfl
            rw [hhalf, frames_from_succ hframe, List.flatMap_append, ← hplays, hpair,
              List.flatMap_singleton]
            rfl
      -- All that was found is loaded. The rest of the destination is silence, and a short read is
      -- an underrun, after which playing starts over.
      · have hdone : loaded / 2 = available := by omega
        rw [hdone] at hplays
        have hserved : ReadCall.Served s.log.written
            ⟨Frames, Format, write, read, available,
              Destination ++ silence Format (Frames - available)⟩ :=
          ⟨by rw [hplays], ⟨hrange, hwrite.trans hring.length.ge⟩, hmost, hfresh⟩
        dsimp only
        split
        · exact reader_returns_sound hsound hserved hread (fun hran => .inr (hprime hran))
            ⟨rfl, rfl, rfl⟩ hall fun _ => rfl
        · rename_i henough
          exact reader_returns_sound hsound hserved hread (fun hran => .inr (hprime hran))
            ⟨rfl, rfl, rfl⟩ hall fun hshort => absurd hshort henough

end CableState

/-! ## 4. Every order of the steps -/

namespace CableState

variable {s : CableState}

/-- A step of the call that the writer has under way. -/
theorem Sound.writer_goes (h : s.Sound) : (s.step .WriterGoes).Sound := by
  cases hwriter : s.writer with
  | Idle => simpa only [step, hwriter] using h
  | Called Source Frames Format =>
      simpa only [step, hwriter] using writer_looks_sound h hwriter
  | Storing Source Format write frames stored =>
      simpa only [step, hwriter] using writer_stores_sound h hwriter

/-- A step of the call that the reader has under way. -/
theorem Sound.reader_goes (h : s.Sound) : (s.step .ReaderGoes).Sound := by
  have hsound := h
  obtain ⟨hring, hwriter, hat, hlog⟩ := h
  cases hreader : s.reader with
  | Idle => simpa only [step, hreader] using hsound
  -- A start throws away what was queued before it: the reader begins at the writer's counter.
  | Starting write =>
      rw [hreader] at hat
      cases hat with
      | starting hall hread hwrite hshort =>
          simp only [step, hreader]
          refine ⟨hring.moves rfl rfl hread hwrite rfl, hwriter.moves rfl rfl hread rfl ⟨rfl, rfl⟩,
            .started ?_ hshort, ?_⟩
          · change s.log.played + s.cable.SkippedFrames + (s.log.discarded + _) = write
            omega
          · exact ⟨hlog.served, hlog.in_order, (hlog.behind_of_le hread).behind, hlog.primes⟩
  | Started =>
      rw [hreader] at hat
      cases hat with
      | started hall hshort =>
          simp only [step, hreader]
          exact ⟨hring.moves rfl rfl le_rfl hring.ordered rfl,
            hwriter.moves rfl rfl le_rfl rfl ⟨rfl, rfl⟩, .idle hall fun _ => rfl, hlog⟩
  | Silent Frames Format write read =>
      rw [hreader] at hat
      cases hat with
      | silent hall hframes hread hwrite hfew hprimed =>
          simp only [step, hreader]
          have hserved : ReadCall.Served s.log.written
              ⟨Frames, Format, write, s.cable.ReadFrame, 0, silence Format Frames⟩ := by
            refine ⟨?_, ⟨hread, hwrite.trans hring.length.ge⟩, Nat.zero_le _, ?_⟩
            · simp [frames_from]
            · have hless : kPrimeFrames ≤ kMaxQueuedFrames := by decide
              dsimp only
              omega
          exact reader_returns_sound hsound hserved le_rfl (fun _ => .inl rfl) ⟨rfl, rfl, rfl⟩ hall
            fun _ => hprimed
  | Loading Frames Format write read available loaded left Destination =>
      simpa only [step, hreader] using reader_loads_sound hsound hreader

theorem start_sound (Samples : Nat → BitVec 32) : (start Samples).Sound where
  ring :=
    { length := rfl, ordered := le_rfl, room := Nat.zero_le _
      holds := fun _ _ h => by cases h
      valid := fun _ h => absurd h List.not_mem_nil }
  writer := .idle rfl
  reader := .idle rfl fun _ => rfl
  log :=
    { served := fun _ h => absurd h List.not_mem_nil
      in_order := .nil
      behind := fun _ h => absurd h List.not_mem_nil
      primes := .nil }

theorem Sound.step (h : s.Sound) {event : CableEvent} (hcan : s.can event) :
    (s.step event).Sound := by
  have hsound := h
  obtain ⟨hring, hwriter, hat, hlog⟩ := h
  cases event with
  | Write Source Frames Format =>
      obtain ⟨hidle, hsource⟩ := hcan
      rw [hidle] at hwriter
      cases hwriter with
      | idle hoffered =>
          simp only [CableState.step]
          split
          · exact hsound
          · rename_i hvalid
            rw [not_or, not_not] at hvalid
            split
            · exact ⟨hring, .called hvalid.2 hsource hoffered, hat, hlog⟩
            · exact hsound
  | Read Frames Format =>
      simp only [CableState.step]
      split
      · exact hsound
      · rename_i hvalid
        rw [not_or] at hvalid
        exact reader_looks_sound hsound hcan (Nat.pos_of_ne_zero hvalid.1)
  | StartReader =>
      have hidle : s.reader = .Idle := hcan
      rw [hidle] at hat
      cases hat with
      | idle hall hshort =>
          exact ⟨hring, hwriter, .starting hall hring.ordered le_rfl hshort, hlog⟩
  -- Stopping clears `ReaderActive` only; the counters stay where they are.
  | StopReader =>
      have hidle : s.reader = .Idle := hcan
      rw [hidle] at hat
      cases hat with
      | idle hall hshort =>
          refine ⟨hring.moves rfl rfl le_rfl hring.ordered rfl,
            hwriter.moves rfl rfl le_rfl rfl ⟨rfl, rfl⟩, ?_, hlog⟩
          simp only [CableState.step, hidle]
          exact .idle hall hshort
  | WriterGoes => exact hsound.writer_goes
  | ReaderGoes => exact hsound.reader_goes

end CableState

theorem cable_state_sound {s : CableState} (h : cable.Reachable s) : s.Sound := by
  refine h.invariant (P := CableState.Sound) ?_ fun s event hs hcan => hs.step hcan
  rintro s ⟨Samples, rfl⟩
  exact CableState.start_sound Samples

/-- The slot of the sample that the writer stores next. -/
def CableState.stores (s : CableState) : Option Nat :=
  match s.writer with
  | .Storing _ _ write frames stored =>
      if stored < 2 * frames then some (cable_slot (write + stored / 2) (stored % 2)) else none
  | _ => none

/-- The slot of the sample that the reader loads next. -/
def CableState.loads (s : CableState) : Option Nat :=
  match s.reader with
  | .Loading _ _ _ read available loaded _ _ =>
      if loaded < 2 * available then some (cable_slot (read + loaded / 2) (loaded % 2)) else none
  | _ => none

/-- The writer and the reader are never at the same sample. -/
theorem CableState.Sound.apart {s : CableState} (h : s.Sound) {slot slot' : Nat}
    (hstores : slot ∈ s.stores) (hloads : slot' ∈ s.loads) : slot ≠ slot' := by
  obtain ⟨hring, hwriter, hreader, -⟩ := h
  unfold CableState.stores at hstores
  unfold CableState.loads at hloads
  generalize s.writer = writer at hwriter hstores
  generalize s.reader = reader at hreader hloads
  cases hwriter with
  | idle _ => cases hstores
  | called _ _ _ => cases hstores
  | storing _ _ _ hroom _ _ =>
      cases hreader with
      | loading _ hread hrange hwrite _ _ _ _ _ _ =>
          dsimp only at hstores hloads
          split at hstores
          · split at hloads
            · obtain rfl := Option.some.inj hstores
              obtain rfl := Option.some.inj hloads
              have hordered := hring.ordered
              exact (cable_slot_ne (by omega) (by omega) (Nat.mod_lt _ (by omega))
                (Nat.mod_lt _ (by omega))).symm
            · cases hloads
          · cases hstores
      | idle _ _ => cases hloads
      | starting _ _ _ _ => cases hloads
      | started _ _ => cases hloads
      | silent _ _ _ _ _ _ => cases hloads

/-! ## 5. What a microphone gets -/

/-- The frames of a format, in that format. -/
theorem convert_same {Format : SP_PCM_FORMAT} {frame : SP_PCM_FORMAT × Bytes}
    (hvalid : SpIsValidFormat frame.1 ∧ frame.2.length = frame.1.BlockAlign)
    (hsame : frame.1 = Format) : convert Format frame = frame.2 := by
  subst hsame
  exact StoreFrame_LoadFrame hvalid.1 hvalid.2

/-- **Delivery.** In every order of the two sides' steps: the ring never holds more than it has room
for, the two sides are never at the same sample, and each read has played what was written, in order
and each frame at most once, and silence where there was nothing; in one format, to the bit. -/
theorem cable_delivers {s : CableState} (h : cable.Reachable s) :
    (s.cable.ReadFrame ≤ s.cable.WriteFrame ∧
      s.cable.WriteFrame ≤ s.cable.ReadFrame + kCapacityFrames) ∧
    (∀ slot ∈ s.stores, ∀ slot' ∈ s.loads, slot ≠ slot') ∧
    (∀ call ∈ s.log.reads, call.Served s.log.written ∧
      ((∀ frame ∈ frames_from s.log.written call.read call.available, frame.1 = call.Format) →
        call.Destination = (frames_from s.log.written call.read call.available).flatMap Prod.snd ++
          silence call.Format (call.Frames - call.available))) ∧
    s.log.reads.Pairwise fun call later => call.read + call.available ≤ later.read := by
  have hsound := cable_state_sound h
  refine ⟨⟨hsound.ring.ordered, hsound.ring.room⟩, fun _ hstores _ hloads =>
    hsound.apart hstores hloads, fun call hcall => ⟨hsound.log.served call hcall, fun hsame => ?_⟩,
    hsound.log.in_order⟩
  have hbytes : (frames_from s.log.written call.read call.available).flatMap (convert call.Format) =
      (frames_from s.log.written call.read call.available).flatMap Prod.snd := by
    refine List.flatMap_congr fun frame hframe => convert_same ?_ (hsame frame hframe)
    exact hsound.ring.valid frame (List.mem_of_mem_drop (List.mem_of_mem_take hframe))
  rw [(hsound.log.served call hcall).plays, hbytes]

/-- **Losses.** Between two calls, each frame that was offered to a reader has been played, is still
queued, or is in one of the counts of what was lost; and after a read that ran out of audio nothing
is played before enough is queued. -/
theorem cable_accounts {s : CableState} (h : cable.Reachable s) :
    (s.writer = .Idle → s.reader = .Idle →
      s.log.offered = s.log.played + s.cable.DroppedFrames + s.cable.SkippedFrames +
        s.log.discarded + (s.cable.WriteFrame - s.cable.ReadFrame)) ∧
    s.log.reads.IsChain fun call next => call.Short →
      next.available = 0 ∨ next.read + kPrimeFrames ≤ next.write := by
  obtain ⟨hring, hwriter, hreader, hlog⟩ := cable_state_sound h
  refine ⟨fun hwidle hridle => ?_, hlog.primes⟩
  rw [hwidle] at hwriter
  rw [hridle] at hreader
  cases hwriter with
  | idle hoffered =>
      cases hreader with
      | idle hall _ =>
          have := hring.length
          have := hring.ordered
          omega

/-! ## 6. Calls come to their end -/

theorem writer_goes {s : CableState} (hs : cable.Reachable s) {Source : Bytes}
    {Format : SP_PCM_FORMAT} {write frames stored : Nat}
    (hw : s.writer = .Storing Source Format write frames stored) :
    cable.Reachable (s.writer_stores Source Format write frames stored) := by
  have hnext := hs.next (e := .WriterGoes) (by simp [cable, CableState.can, hw])
  change cable.Reachable (s.step .WriterGoes) at hnext
  unfold CableState.step at hnext
  rw [hw] at hnext
  exact hnext

theorem reader_goes {s : CableState} (hs : cable.Reachable s) {Frames : Nat}
    {Format : SP_PCM_FORMAT} {write read available loaded : Nat} {left : BitVec 32}
    {Destination : Bytes}
    (hr : s.reader = .Loading Frames Format write read available loaded left Destination) :
    cable.Reachable
    (s.reader_loads Frames Format write read available loaded left Destination) := by
  have hnext := hs.next (e := .ReaderGoes) (by simp [cable, CableState.can, hr])
  change cable.Reachable (s.step .ReaderGoes) at hnext
  unfold CableState.step at hnext
  rw [hr] at hnext
  exact hnext

/-- A `Write` that has begun to store publishes all its frames. -/
theorem writer_finishes {s : CableState} (hs : cable.Reachable s) {Source : Bytes}
    {Format : SP_PCM_FORMAT} {write frames stored : Nat}
    (hw : s.writer = .Storing Source Format write frames stored) (hle : stored ≤ 2 * frames) :
    ∃ Samples, cable.Reachable
      { s with
        cable := { s.cable with Samples := Samples, WriteFrame := write + frames }
        writer := .Idle
        log.written := s.log.written ++ blocks Source Format frames } := by
  obtain ⟨left, hleft⟩ := Nat.exists_eq_add_of_le hle
  -- by the number of samples that are left
  induction left generalizing s stored with
  | zero =>
      have hnext := writer_goes hs hw
      rw [CableState.writer_stores, if_neg (by omega)] at hnext
      exact ⟨s.cable.Samples, hnext⟩
  | succ left ih =>
      have hnext := writer_goes hs hw
      rw [CableState.writer_stores, if_pos (by omega)] at hnext
      have hrest := ih hnext rfl (by omega) (by omega)
      exact hrest

/-- A `Read` that has begun to load returns with all that it found. -/
theorem reader_finishes {s : CableState} (hs : cable.Reachable s) {Frames : Nat}
    {Format : SP_PCM_FORMAT} {write read available loaded : Nat} {left : BitVec 32}
    {Destination : Bytes}
    (hr : s.reader = .Loading Frames Format write read available loaded left Destination)
    (hle : loaded ≤ 2 * available) :
    ∃ played, cable.Reachable
      (s.reader_returns ⟨Frames, Format, write, read, available, played⟩ <|
        if available < Frames then
          { s.cable with Underruns := s.cable.Underruns + 1, Primed := false }
        else s.cable) := by
  obtain ⟨rest, hrest⟩ := Nat.exists_eq_add_of_le hle
  -- On how many samples are left to load.
  induction rest generalizing s loaded left Destination with
  | zero =>
      have hnext := reader_goes hs hr
      rw [CableState.reader_loads, if_neg (by omega)] at hnext
      dsimp only at hnext
      refine ⟨Destination ++ List.replicate ((Frames - available) * Format.BlockAlign) 0, ?_⟩
      split at hnext
      · next hshort =>
          rw [if_pos hshort]
          exact hnext
      · next hall =>
          rw [if_neg hall]
          exact hnext
  | succ rest ih =>
      have hnext := reader_goes hs hr
      rw [CableState.reader_loads, if_pos (by omega)] at hnext
      dsimp only at hnext
      split at hnext
      · have hends := ih hnext rfl (by omega) (by omega)
        exact hends
      · have hends := ih hnext rfl (by omega) (by omega)
        exact hends

section
variable {s : CableState} {Frames : Nat} {Format : SP_PCM_FORMAT} (queued : Nat)

/-- A `Read` of a backlog that is not too old. -/
theorem read_looks (hs : cable.Reachable s) (hidle : s.reader = .Idle) (hframes : 0 < Frames)
    (hvalid : SpIsValidFormat Format) (hqueued : s.cable.WriteFrame = s.cable.ReadFrame + queued)
    (hfresh : queued ≤ kMaxQueuedFrames) :
    cable.Reachable (if !s.cable.Primed && decide (queued < kPrimeFrames) then
        { s with reader := .Silent Frames Format s.cable.WriteFrame s.cable.ReadFrame }
      else
        { s with
          cable := { s.cable with Primed := true }
          reader := .Loading Frames Format s.cable.WriteFrame s.cable.ReadFrame
            (min queued Frames) 0 0 [] }) := by
  have hring := (cable_state_sound hs).ring
  have hsub : ULONG64_sub s.cable.WriteFrame s.cable.ReadFrame = queued := by
    rw [ULONG64_sub_eq hring.ordered hring.room]
    omega
  have hmin : (if queued < Frames then queued else Frames) = min queued Frames := by
    split <;> omega
  have hcalled : ¬ (Frames = 0 ∨ ¬ SpIsValidFormat Format) := by
    rintro (hzero | hbad)
    · omega
    · exact hbad hvalid
  have hnext : cable.Reachable (s.step (.Read Frames Format)) :=
    Machine.Reachable.next (M := cable) (e := .Read Frames Format) hs hidle
  rw [CableState.step, if_neg hcalled, CableState.reader_looks] at hnext
  dsimp only at hnext
  rw [hsub, if_neg (Nat.not_lt.2 hfresh), if_neg (Nat.not_lt.2 hfresh),
    if_neg (Nat.not_lt.2 hfresh), hmin] at hnext
  exact hnext

/-- One that finds enough returns with it. -/
theorem read_returns (hs : cable.Reachable s) (hidle : s.reader = .Idle) (hframes : 0 < Frames)
    (hvalid : SpIsValidFormat Format) (hqueued : s.cable.WriteFrame = s.cable.ReadFrame + queued)
    (hfresh : queued ≤ kMaxQueuedFrames)
    (hprimed : s.cable.Primed = true ∨ kPrimeFrames ≤ queued) :
    ∃ played, cable.Reachable
      (s.reader_returns
        ⟨Frames, Format, s.cable.WriteFrame, s.cable.ReadFrame, min queued Frames, played⟩ <|
        if min queued Frames < Frames then
          { s.cable with Underruns := s.cable.Underruns + 1, Primed := false }
        else { s.cable with Primed := true }) := by
  have hnext := read_looks queued hs hidle hframes hvalid hqueued hfresh
  rw [if_neg] at hnext
  · obtain ⟨played, hends⟩ := reader_finishes hnext rfl (Nat.zero_le _)
    exact ⟨played, hends⟩
  · rcases hprimed with hp | hp
    · simp [hp]
    · simp [Nat.not_lt.2 hp]

/-- One that finds too little after an underrun returns with silence. -/
theorem read_waits (hs : cable.Reachable s) (hidle : s.reader = .Idle) (hframes : 0 < Frames)
    (hvalid : SpIsValidFormat Format) (hqueued : s.cable.WriteFrame = s.cable.ReadFrame + queued)
    (hprimed : s.cable.Primed = false) (hlow : queued < kPrimeFrames) :
    cable.Reachable (s.reader_returns
      ⟨Frames, Format, s.cable.WriteFrame, s.cable.ReadFrame, 0, silence Format Frames⟩
      s.cable) := by
  have hfresh : queued ≤ kMaxQueuedFrames := by
    unfold kPrimeFrames at hlow
    unfold kMaxQueuedFrames
    omega
  have hnext := read_looks queued hs hidle hframes hvalid hqueued hfresh
  rw [if_pos (by simp [hprimed, hlow])] at hnext
  exact hnext.next (e := .ReaderGoes) CableReader.noConfusion

end

/-! ## 7. A run -/

namespace Sample

def stereo : SP_PCM_FORMAT := ⟨2, 2, 4⟩

/-- Thirty milliseconds, of which three frames are not silence. -/
def thirty_ms : Bytes := [1, 2, 3, 4, 5, 6, 7, 8, 9, 10, 11, 12] ++ List.replicate 5748 0

/-- A reader starts, and is given all of it. -/
def cable_state : CableState :=
  cable.exec (.start fun _ => 0)
    [.StartReader, .ReaderGoes, .ReaderGoes, .Write thirty_ms 1440 stereo, .WriterGoes]

theorem cable_state_reached : cable.Reachable cable_state := by
  have hlength : thirty_ms.length = 1440 * stereo.BlockAlign := by
    unfold thirty_ms
    rw [List.length_append, List.length_replicate]
    rfl
  have hadmits : cable.Admits (.start fun _ => 0)
      [.StartReader, .ReaderGoes, .ReaderGoes, .Write thirty_ms 1440 stereo, .WriterGoes] :=
    ⟨rfl, CableReader.noConfusion, CableReader.noConfusion, ⟨rfl, hlength⟩,
      CableWriter.noConfusion, trivial⟩
  have hinit : cable.init (.start fun _ => 0) := ⟨_, rfl⟩
  exact ⟨_, Machine.run_of_admits hinit hadmits⟩

/-- Then it reads three frames, more than there are, and once more. -/
theorem three_reads : ∃ s, cable.Reachable s ∧ s.writer = .Idle ∧ s.reader = .Idle ∧
    s.log.written = blocks thirty_ms stereo 1440 ∧ s.log.offered = 1440 ∧
    s.cable.WriteFrame = 1440 ∧ s.cable.ReadFrame = 1440 ∧
    ∃ first second third, s.log.reads =
      [⟨3, stereo, 1440, 0, 3, first⟩, ⟨2000, stereo, 1440, 3, 1437, second⟩,
        ⟨3, stereo, 1440, 1440, 0, third⟩] := by
  have hvalid : SpIsValidFormat stereo := by decide
  obtain ⟨Samples, hwritten⟩ := writer_finishes cable_state_reached rfl (Nat.zero_le _)
  obtain ⟨first, hfirst⟩ := read_returns 1440 hwritten rfl (Nat.succ_pos 2) hvalid rfl
    (by decide) (.inr (by decide))
  obtain ⟨second, hsecond⟩ := read_returns 1437 hfirst rfl (Nat.succ_pos 1999) hvalid
    rfl (by decide) (.inl rfl)
  -- nothing is left, and the reader waits for more
  have hthird := read_waits 0 hsecond rfl (Nat.succ_pos 2) hvalid rfl rfl (by decide)
  exact ⟨_, hthird, rfl, rfl, List.nil_append _, rfl, rfl, rfl, first, second, _, rfl⟩

end Sample

/-- The first read gets the frames that were written first. -/
theorem cable_delivers_sample : ∃ s, cable.Reachable s ∧ s.cable.ReadFrame ≤ s.cable.WriteFrame ∧
    s.log.reads.head?.map ReadCall.Destination = some [1, 2, 3, 4, 5, 6, 7, 8, 9, 10, 11, 12] := by
  obtain ⟨s, hs, -, -, hwritten, -, -, -, first, second, third, hreads⟩ := Sample.three_reads
  obtain ⟨⟨hordered, -⟩, -, hserved, -⟩ := cable_delivers hs
  refine ⟨s, hs, hordered, ?_⟩
  rw [hreads, hwritten] at hserved
  have hframes : frames_from (blocks Sample.thirty_ms Sample.stereo 1440) 0 3 =
      [(Sample.stereo, [1, 2, 3, 4]), (Sample.stereo, [5, 6, 7, 8]),
        (Sample.stereo, [9, 10, 11, 12])] := by
    unfold frames_from blocks
    rw [List.drop_zero, ← List.map_take, List.take_range]
    rfl
  have hfirst := (hserved _ List.mem_cons_self).2
  dsimp only at hfirst
  rw [hframes] at hfirst
  rw [hreads]
  refine congrArg some ((hfirst fun frame hframe => ?_).trans rfl)
  revert frame
  decide

/-- All that was offered has been played; and the read after the one that ran out of audio plays
nothing, or finds enough. -/
theorem cable_accounts_sample : ∃ s second third, cable.Reachable s ∧ s.log.offered = 1440 ∧
    s.log.played + s.cable.DroppedFrames + s.cable.SkippedFrames + s.log.discarded = 1440 ∧
    s.log.reads.tail = [second, third] ∧ second.Short ∧
    (third.available = 0 ∨ third.read + kPrimeFrames ≤ third.write) := by
  obtain ⟨s, hs, hwriter, hreader, -, hoffered, hwrite, hread, first, second, third, hreads⟩ :=
    Sample.three_reads
  obtain ⟨hcounts, hprimes⟩ := cable_accounts hs
  have hcounts := hcounts hwriter hreader
  rw [hoffered, hwrite, hread, Nat.sub_self, Nat.add_zero] at hcounts
  have htail := congrArg List.tail hreads
  rw [hreads, List.isChain_cons_cons, List.isChain_cons_cons] at hprimes
  have hshort : ReadCall.Short ⟨2000, Sample.stereo, 1440, 3, 1437, second⟩ := by
    change 1437 < 2000
    omega
  exact ⟨s, _, _, hs, hoffered, hcounts.symm, htail, hshort, hprimes.2.1 hshort⟩

end SoundPush
