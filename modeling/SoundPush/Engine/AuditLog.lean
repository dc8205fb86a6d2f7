/-
`AuditLog` -- the log of security events (`audit.rs`): what a restart reads back.

The running log holds the newest entries of the retention time; its file grows by a
line for each entry and is written anew when it would reach twice the limit, and so
it holds entries the running log has dropped already. `Holds` says what both are of
everything recorded since the log was last cleared, and every operation keeps it.

How entries are written as JSON is not modelled: the writer and the reader are
parameters, and results ask of them that an entry is one line that reads back.
-/
import SoundPush.Engine.Settings
import SoundPush.Lib.Newest

set_option autoImplicit false

namespace SoundPush

/-! ## 1. Entries -/

inductive AuditKind where
  | PairingAttempt
  | PairingSucceeded
  | PairingRejected
  | PairingRateLimited
  | DeviceForgotten
  | DeviceBlocked
  | DeviceUnblocked
  | PermissionChanged
  | RouteApproved
  | RouteDenied
  | RouteStarted
  | RouteStopped
  | ConnectionRefused
  | LogCleared
  deriving DecidableEq, Repr

structure AuditEntry where
  time_unix : Nat
  kind : AuditKind
  peer_name : String
  peer_code : String
  route : Option RouteKind
  detail : String
  deriving DecidableEq, Repr

def MAX_ENTRIES : Nat := 1000
def RETENTION_SECS : Nat := 30 * 24 * 3600
def MAX_FIELD_CHARS : Nat := 128

/-- `char::is_control`. -/
def is_control (c : Char) : Bool := c.toNat < 0x20 || (0x7F ≤ c.toNat && c.toNat < 0xA0)

def clip (text : String) : String :=
  String.ofList ((text.toList.filter fun c => !is_control c).take MAX_FIELD_CHARS)

namespace AuditEntry

def new (time_unix : Nat) (kind : AuditKind) : AuditEntry :=
  ⟨time_unix, kind, "", "", none, ""⟩

/-- The entry as it is kept. -/
def clipped (entry : AuditEntry) : AuditEntry :=
  { entry with peer_name := clip entry.peer_name, detail := clip entry.detail }

@[simp] theorem clipped_time (entry : AuditEntry) : entry.clipped.time_unix = entry.time_unix := rfl

/-- Not older than the retention time. -/
def kept (now : Nat) (entry : AuditEntry) : Bool := now - RETENTION_SECS ≤ entry.time_unix

theorem kept_self (entry : AuditEntry) : entry.kept entry.time_unix = true := by
  simp [kept]

theorem kept_of_le {now later : Nat} (h : now ≤ later) (entry : AuditEntry)
    (hk : entry.kept later = true) : entry.kept now = true := by
  simp [kept] at hk ⊢
  omega

end AuditEntry

/-! ## 2. The file -/

abbrev Text := List Char

/-- `line.strip_suffix('\r').unwrap_or(line)`. -/
def strip_cr (line : Text) : Text := if line.getLast? = some '\r' then line.dropLast else line

/-- The lines of a text whose first line has begun with `begun`. -/
def lines_from (begun : Text) : Text → List Text
  | [] => if begun = [] then [] else [begun]
  | c :: text =>
      if c = '\n' then strip_cr begun :: lines_from [] text else lines_from (begun ++ [c]) text

/-- `str::lines`. -/
def lines (text : Text) : List Text := lines_from [] text

example : lines "a\r\n\nb".toList = ["a".toList, [], "b".toList] := by decide

/-- The lines that are not blank. -/
def filled_lines (text : Text) : List Text := (lines text).filter fun line => trim line ≠ []

/-- A line without breaks, put in front of a text. -/
theorem lines_from_line {line : Text} (hline : '\n' ∉ line) (begun text : Text) :
    lines_from begun (line ++ '\n' :: text) = strip_cr (begun ++ line) :: lines text := by
  induction line generalizing begun with
  | nil => simp [lines_from, lines]
  | cons c line ih =>
      rw [List.mem_cons, not_or] at hline
      rw [List.cons_append, lines_from, if_neg (Ne.symm hline.1), ih hline.2, List.append_assoc]
      rfl

/-- How entries are written and read. -/
structure Json where
  to_string : AuditEntry → Option Text
  from_str : Text → Option AuditEntry

namespace Json

variable (json : Json)

/-- The entry is written as one line, and that line reads back as the entry. -/
def OneLine (entry : AuditEntry) : Prop :=
  ∃ line, json.to_string entry = some line ∧ json.from_str line = some entry ∧
    '\n' ∉ line ∧ '\r' ∉ line ∧ trim line ≠ []

/-- The text `compact` writes. -/
def text_of (entries : List AuditEntry) : Text :=
  (entries.filterMap json.to_string).flatMap fun line => line ++ ['\n']

theorem text_of_concat (entries : List AuditEntry) {entry : AuditEntry} {line : Text}
    (h : json.to_string entry = some line) :
    json.text_of (entries ++ [entry]) = json.text_of entries ++ (line ++ ['\n']) := by
  simp [text_of, List.filterMap_append, h]

/-- A line for each entry. -/
theorem length_lines_text_of {entries : List AuditEntry}
    (h : ∀ entry ∈ entries, json.OneLine entry) :
    (lines (json.text_of entries)).length = entries.length := by
  induction entries with
  | nil => rfl
  | cons entry entries ih =>
      obtain ⟨line, hto, -, hn, -⟩ := h entry List.mem_cons_self
      have htext : json.text_of (entry :: entries) = line ++ '\n' :: json.text_of entries := by
        simp [text_of, hto]
      rw [htext, lines, lines_from_line hn, List.length_cons, List.length_cons,
        ih fun e he => h e (List.mem_cons_of_mem _ he)]

/-- Written entries read back, line by line. -/
theorem read_text_of (entries : List AuditEntry) (h : ∀ entry ∈ entries, json.OneLine entry) :
    (filled_lines (json.text_of entries)).length = entries.length ∧
      (filled_lines (json.text_of entries)).filterMap json.from_str = entries := by
  induction entries with
  | nil => exact ⟨rfl, rfl⟩
  | cons entry entries ih =>
      obtain ⟨line, hto, hfrom, hn, hr, hfilled⟩ := h entry List.mem_cons_self
      obtain ⟨ihlen, ihread⟩ := ih fun e he => h e (List.mem_cons_of_mem _ he)
      have hstrip : strip_cr line = line := by
        unfold strip_cr
        rw [if_neg]
        intro hlast
        exact hr (List.mem_of_getLast? hlast)
      have htext : json.text_of (entry :: entries) = line ++ '\n' :: json.text_of entries := by
        simp [text_of, hto]
      have hlines : filled_lines (json.text_of (entry :: entries)) =
          line :: filled_lines (json.text_of entries) := by
        rw [htext]
        unfold filled_lines
        rw [lines, lines_from_line hn, List.nil_append, hstrip, List.filter_cons, if_pos]
        simpa using hfilled
      rw [hlines]
      simp [ihlen, ihread, hfrom]

end Json

/-- How an operation on the file went; one that failed may leave anything behind. -/
inductive Outcome where
  | done
  | failed (left : Option Text)

/-- How the operations on the file go. -/
structure FileOps where
  reads : Bool
  remove : Outcome
  write : Outcome

namespace FileOps

/-- All of them succeed. -/
def succeed : FileOps := ⟨true, .done, .done⟩

end FileOps

/-! ## 3. The log -/

structure AuditLog where
  /-- The file at the log's path. -/
  file : Option Text
  /-- Oldest first. -/
  entries : List AuditEntry
  max_entries : Nat
  lines_on_disk : Nat

namespace AuditLog

/-- `while entries.len() > max { entries.pop_front(); }`. -/
def trim_front (max : Nat) : List AuditEntry → List AuditEntry
  | [] => []
  | entry :: entries =>
      if max < (entry :: entries).length then trim_front max entries else entry :: entries

theorem trim_front_eq (max : Nat) (entries : List AuditEntry) :
    trim_front max entries = entries.rtake max := by
  induction entries with
  | nil => simp [trim_front]
  | cons entry entries ih =>
      rw [trim_front]
      split
      · rw [ih, List.rtake, List.rtake, List.length_cons,
          show entries.length + 1 - max = entries.length - max + 1 from by simp at *; omega,
          List.drop_succ_cons]
      · rw [List.rtake_of_length_le (by omega)]

def compact (json : Json) (ops : FileOps) (log : AuditLog) : AuditLog :=
  match ops.write with
  | .done =>
      { log with file := some (json.text_of log.entries), lines_on_disk := log.entries.length }
  | .failed left => { log with file := left }

/-- A line of the file, as `open` takes it. -/
def load_line (json : Json) (cutoff max_entries : Nat) (entries : List AuditEntry) (line : Text) :
    List AuditEntry :=
  match json.from_str line with
  -- damaged lines are skipped
  | none => entries
  | some entry =>
      if cutoff ≤ entry.time_unix then
        let entries := entries ++ [entry]
        if max_entries < entries.length then entries.tail else entries
      else entries

/-- What `open` keeps of the lines of the file. -/
def load (json : Json) (cutoff max_entries : Nat) (text : List Text) : List AuditEntry :=
  text.foldl (load_line json cutoff max_entries) []

def open_with_limit (json : Json) (ops : FileOps) (file : Option Text)
    (now_unix max_entries : Nat) : AuditLog :=
  let text := if ops.reads then file.getD [] else []
  let cutoff := now_unix - RETENTION_SECS
  let filled := filled_lines text
  let log : AuditLog := ⟨file, load json cutoff max_entries filled, max_entries, filled.length⟩
  if filled.length ≠ log.entries.length then log.compact json ops else log

/-- `AuditLog::open`. -/
def open_log (json : Json) (ops : FileOps) (file : Option Text) (now_unix : Nat) : AuditLog :=
  open_with_limit json ops file now_unix MAX_ENTRIES

def append (ops : FileOps) (line : Text) (log : AuditLog) : AuditLog :=
  match ops.write with
  | .done =>
      { log with
        file := some (log.file.getD [] ++ (line ++ ['\n']))
        lines_on_disk := log.lines_on_disk + 1 }
  | .failed left => { log with file := left }

def record (json : Json) (ops : FileOps) (log : AuditLog) (entry : AuditEntry) : AuditLog :=
  let entry := entry.clipped
  let cutoff := entry.time_unix - RETENTION_SECS
  let entries := log.entries.dropWhile fun e => e.time_unix < cutoff
  match json.to_string entry with
  | none => { log with entries := entries }
  | some line =>
      let log : AuditLog := { log with entries := trim_front log.max_entries (entries ++ [entry]) }
      if 2 * log.max_entries ≤ log.lines_on_disk + 1 then log.compact json ops
      else log.append ops line

/-- Delete every entry; the flag says whether the file could be removed. -/
def clear (json : Json) (ops : FileOps) (log : AuditLog) (now_unix : Nat) : AuditLog × Bool :=
  match ops.remove with
  | .failed left => ({ log with file := left }, false)
  | .done =>
      let log : AuditLog := { log with file := none, entries := [], lines_on_disk := 0 }
      (log.record json ops (.new now_unix .LogCleared), true)

/-! ## 4. What the log and its file hold -/

/-- `open` keeps the newest entries of the retention time. -/
theorem load_eq (json : Json) (now max_entries : Nat) (text : List Text) :
    load json (now - RETENTION_SECS) max_entries text =
      (text.filterMap json.from_str).newest max_entries (AuditEntry.kept now) := by
  induction text using List.reverseRecOn with
  | nil => simp [load, List.newest]
  | append_singleton text line ih =>
      unfold load at ih ⊢
      rw [List.foldl_append, ih, List.foldl_cons, List.foldl_nil, List.filterMap_append, load_line]
      cases hread : json.from_str line with
      | none => simp [hread]
      | some entry =>
          by_cases htime : now - RETENTION_SECS ≤ entry.time_unix
          · have hkept : entry.kept now = true := decide_eq_true htime
            simp only [htime, if_true, List.filterMap_cons, hread, List.filterMap_nil]
            rw [List.tail_if_longer List.length_newest_le, List.newest, List.newest,
              List.rtake_rtake_concat, List.filter_append, List.filter_cons, if_pos hkept,
              List.filter_nil]
          · have hkept : ¬ entry.kept now = true := by simpa [AuditEntry.kept] using htime
            simp [hread, htime, hkept, List.newest]

/-- Entries as they were recorded up to a time: in order, and each a line that reads back. -/
structure Past (json : Json) (history : List AuditEntry) (now : Nat) : Prop where
  sorted : history.Pairwise fun a b => a.time_unix ≤ b.time_unix
  before : ∀ entry ∈ history, entry.time_unix ≤ now
  lines : ∀ entry ∈ history, json.OneLine entry

variable {json : Json} {history disk : List AuditEntry} {now later max : Nat} {log : AuditLog}

theorem Past.nil : Past json [] now :=
  ⟨List.Pairwise.nil, by simp, by simp⟩

theorem Past.mono (h : Past json history now) (hle : now ≤ later) : Past json history later :=
  ⟨h.sorted, fun entry he => (h.before entry he).trans hle, h.lines⟩

theorem Past.concat (h : Past json history now) {entry : AuditEntry} (hle : now ≤ entry.time_unix)
    (hline : json.OneLine entry) : Past json (history ++ [entry]) entry.time_unix := by
  refine ⟨?_, ?_, ?_⟩
  · rw [List.pairwise_append]
    refine ⟨h.sorted, List.pairwise_singleton _ _, ?_⟩
    intro a ha b hb
    rw [List.mem_singleton.1 hb]
    exact (h.before a ha).trans hle
  · intro e he
    rcases List.mem_append.1 he with he | he
    · exact (h.before e he).trans hle
    · rw [List.mem_singleton.1 he]
  · intro e he
    rcases List.mem_append.1 he with he | he
    · exact h.lines e he
    · rwa [List.mem_singleton.1 he]

theorem Past.settles (h : Past json history now) (t : Nat) :
    history.Settles (AuditEntry.kept t) := by
  apply h.sorted.imp
  intro a b hab ha
  simp [AuditEntry.kept] at ha ⊢
  omega

/-- The running log holds the newest entries of the retention time, of what is in the file as of all
that was recorded; the file holds fewer than twice the limit. -/
structure Holds (json : Json) (history disk : List AuditEntry) (now max : Nat) (log : AuditLog) :
    Prop where
  limit : log.max_entries = max
  file : log.file.getD [] = json.text_of disk
  lines : log.lines_on_disk = disk.length
  short : disk.length < 2 * max
  of_disk : log.entries = disk.newest max (AuditEntry.kept now)
  of_history : log.entries = history.newest max (AuditEntry.kept now)
  sublist : disk.Sublist history

/-- A file that was just written anew. -/
theorem compact_holds (json : Json) (log : AuditLog) (hmax : 0 < max)
    (hlimit : log.max_entries = max)
    (h : log.entries = history.newest max (AuditEntry.kept now)) :
    (log.compact json .succeed).Holds json history log.entries now max ∧
      (log.compact json .succeed).entries = log.entries := by
  have hlen : log.entries.length ≤ max := by
    rw [h]
    exact List.length_newest_le
  have hkept : ∀ e ∈ log.entries, e.kept now = true := by
    rw [h]
    exact fun e he => List.of_mem_newest he
  refine ⟨⟨hlimit, rfl, rfl, by omega, (List.newest_of_forall hkept hlen).symm, h, ?_⟩, rfl⟩
  rw [h]
  exact List.newest_sublist _ _ _

/-- One more entry. -/
theorem Holds.record (h : log.Holds json history disk now max) (hmax : 0 < max)
    (hpast : Past json history now) {entry : AuditEntry} (hle : now ≤ entry.time_unix)
    (hline : json.OneLine entry.clipped) :
    ∃ disk', (log.record json .succeed entry).Holds json (history ++ [entry.clipped]) disk'
      entry.time_unix max := by
  obtain ⟨line, hto, -⟩ := hline
  -- what is left of the entries, with the new one, said of the file and of the history
  have hnew {all : List AuditEntry} (hall : all.Sublist history)
      (h : log.entries = all.newest max (AuditEntry.kept now)) :
      trim_front max ((log.entries.dropWhile fun e =>
          e.time_unix < entry.clipped.time_unix - RETENTION_SECS) ++ [entry.clipped]) =
        (all ++ [entry.clipped]).newest max (AuditEntry.kept entry.time_unix) := by
    have hsettles := (hpast.settles entry.time_unix).sublist hall
    have hdrop : (fun e : AuditEntry =>
        decide (e.time_unix < entry.clipped.time_unix - RETENTION_SECS)) =
          fun e => !e.kept entry.time_unix := by
      funext e
      rw [AuditEntry.clipped_time, AuditEntry.kept, ← decide_not, decide_eq_decide]
      exact Nat.not_le.symm
    rw [trim_front_eq, hdrop, h,
      (hsettles.sublist (List.newest_sublist _ _ _)).dropWhile_eq_filter,
      List.newest_concat hsettles (AuditEntry.kept_of_le hle) entry.clipped.kept_self]
  unfold AuditLog.record
  simp only [hto, h.limit]
  split
  · exact ⟨_, (compact_holds json _ hmax rfl (hnew (List.Sublist.refl _) h.of_history)).1⟩
  · rename_i hroom
    rw [h.lines] at hroom
    refine ⟨disk ++ [entry.clipped], rfl, ?_, ?_, ?_, ?_, ?_, ?_⟩
    · simp [append, FileOps.succeed, h.file, json.text_of_concat disk hto]
    · simp [append, FileOps.succeed, h.lines]
    · rw [List.length_append, List.length_singleton]
      omega
    · exact hnew h.sublist h.of_disk
    · exact hnew (List.Sublist.refl _) h.of_history
    · exact h.sublist.append (List.Sublist.refl _)

theorem holds_nothing (json : Json) (now : Nat) (log : AuditLog) (hmax : 0 < max)
    (h : log.max_entries = max)
    (hfile : log.file = none) (hentries : log.entries = []) (hlines : log.lines_on_disk = 0) :
    log.Holds json [] [] now max := by
  have hempty : log.entries = [].newest max (AuditEntry.kept now) := by
    simp [hentries, List.newest]
  refine ⟨h, ?_, hlines, ?_, hempty, hempty, List.Sublist.refl _⟩
  · rw [hfile]
    rfl
  · simpa using hmax

/-- Clearing, whatever was there. -/
theorem clear_holds (hmax : 0 < max) (h : log.max_entries = max)
    (hline : json.OneLine (AuditEntry.new now .LogCleared).clipped) :
    ∃ disk', (log.clear json .succeed now).1.Holds json [(AuditEntry.new now .LogCleared).clipped]
      disk' now max := by
  have hnothing := holds_nothing json now
    { log with file := none, entries := [], lines_on_disk := 0 } hmax h rfl rfl rfl
  exact hnothing.record hmax Past.nil (Nat.le_refl now) hline

/-- Opening the log again. -/
theorem Holds.reopen (h : log.Holds json history disk now max) (hmax : 0 < max)
    (hpast : Past json history now) (hle : now ≤ later) :
    (∃ disk', (open_with_limit json .succeed log.file later max).Holds json history disk' later
        max) ∧
      (open_with_limit json .succeed log.file later max).entries =
        log.entries.filter (AuditEntry.kept later) := by
  obtain ⟨hlines, hread⟩ :=
    json.read_text_of disk fun e he => hpast.lines e (h.sublist.subset he)
  have hstricter := AuditEntry.kept_of_le hle
  have hloaded : load json (later - RETENTION_SECS) max (filled_lines (log.file.getD [])) =
      disk.newest max (AuditEntry.kept later) := by
    rw [load_eq, h.file, hread]
  have hdisk : disk.newest max (AuditEntry.kept later) =
      log.entries.filter (AuditEntry.kept later) := by
    rw [h.of_disk, List.filter_newest ((hpast.settles later).sublist h.sublist) hstricter]
  have hhistory : disk.newest max (AuditEntry.kept later) =
      history.newest max (AuditEntry.kept later) := by
    rw [hdisk, h.of_history, List.filter_newest (hpast.settles later) hstricter]
  have hcount : (filled_lines (log.file.getD [])).length = disk.length := by
    rw [h.file, hlines]
  unfold open_with_limit
  simp only [FileOps.succeed, if_true, hloaded, hcount]
  split
  · have hcompact := compact_holds json
      ⟨log.file, disk.newest max (AuditEntry.kept later), max, disk.length⟩ hmax rfl hhistory
    exact ⟨⟨_, hcompact.1⟩, hcompact.2.trans hdisk⟩
  · exact ⟨⟨disk, rfl, h.file, rfl, h.short, rfl, hhistory, h.sublist⟩, hdisk⟩

/-! ## 5. Runs -/

/-- What happens to a log; it can be closed and opened again. -/
inductive Op where
  | record (entry : AuditEntry)
  | clear (now_unix : Nat)
  | reopen (now_unix : Nat)

namespace Op

def time : Op → Nat
  | record entry => entry.time_unix
  | clear now_unix => now_unix
  | reopen now_unix => now_unix

/-- The entry the operation writes. -/
def writes : Op → Option AuditEntry
  | record entry => some entry.clipped
  | clear now_unix => some (AuditEntry.new now_unix .LogCleared).clipped
  | reopen _ => none

/-- What is recorded with the operation. -/
def extend (history : List AuditEntry) : Op → List AuditEntry
  | record entry => history ++ [entry.clipped]
  | clear now_unix => [(AuditEntry.new now_unix .LogCleared).clipped]
  | reopen _ => history

end Op

def step (json : Json) (log : AuditLog) : Op → AuditLog
  | .record entry => log.record json .succeed entry
  | .clear now_unix => (log.clear json .succeed now_unix).1
  | .reopen now_unix => open_with_limit json .succeed log.file now_unix log.max_entries

/-- The log after a sequence of operations on a log that was not there before. -/
def run (json : Json) (start max : Nat) (ops : List Op) : AuditLog :=
  ops.foldl (step json) (open_with_limit json .succeed none start max)

/-- What was recorded since the log was last cleared, oldest first. -/
def recorded (ops : List Op) : List AuditEntry := ops.foldl Op.extend []

/-- When the last of the operations was. -/
def last_time (start : Nat) (ops : List Op) : Nat := ops.foldl (fun _ op => op.time) start

theorem last_time_mem (start : Nat) (ops : List Op) :
    last_time start ops ∈ start :: ops.map Op.time := by
  induction ops using List.reverseRecOn with
  | nil => simp [last_time]
  | append_singleton ops op _ => simp [last_time]

/-- One operation. -/
theorem Holds.step (h : log.Holds json history disk now max) (hmax : 0 < max)
    (hpast : Past json history now) (op : Op) (hle : now ≤ op.time)
    (hline : ∀ entry, op.writes = some entry → json.OneLine entry) (ops : List Op)
    (hhistory : history = recorded ops) :
    (∃ disk', (log.step json op).Holds json (recorded (ops ++ [op])) disk' op.time max) ∧
      Past json (recorded (ops ++ [op])) op.time := by
  subst hhistory
  unfold recorded at hpast h ⊢
  rw [List.foldl_append, List.foldl_cons, List.foldl_nil]
  cases op with
  | record entry =>
      have hone := hline _ rfl
      exact ⟨h.record hmax hpast hle hone, hpast.concat hle hone⟩
  | clear now_unix =>
      have hone := hline _ rfl
      exact ⟨clear_holds hmax h.limit hone, Past.nil.concat (Nat.le_refl _) hone⟩
  | reopen now_unix =>
      refine ⟨?_, hpast.mono hle⟩
      have hreopen := (h.reopen hmax hpast hle).1
      rw [← h.limit] at hreopen ⊢
      exact hreopen

theorem run_holds (hmax : 0 < max) (start : Nat) (ops : List Op)
    (horder : (start :: ops.map Op.time).Pairwise (· ≤ ·))
    (hline : ∀ op ∈ ops, ∀ entry, op.writes = some entry → json.OneLine entry) :
    (∃ disk, (run json start max ops).Holds json (recorded ops) disk (last_time start ops) max) ∧
      Past json (recorded ops) (last_time start ops) := by
  induction ops using List.reverseRecOn with
  | nil => exact ⟨⟨[], holds_nothing json start _ hmax rfl rfl rfl rfl⟩, Past.nil⟩
  | append_singleton ops op ih =>
      rw [List.map_append, ← List.cons_append, List.pairwise_append] at horder
      obtain ⟨⟨disk, hholds⟩, hpast⟩ :=
        ih horder.1 fun op' hop' => hline op' (List.mem_append_left _ hop')
      have hle : last_time start ops ≤ op.time :=
        horder.2.2 _ (last_time_mem start ops) _ (by simp)
      have hstep := hholds.step hmax hpast op hle (hline op (by simp)) ops rfl
      have hrun : run json start max (ops ++ [op]) = (run json start max ops).step json op := by
        simp [run]
      have hlast : last_time start (ops ++ [op]) = op.time := by simp [last_time]
      rw [hrun, hlast]
      exact hstep

/-- After any operations on a log that was not there before, at times that do not go back, each
entry being one line that reads back: opening the log again later gives what the running log held,
less what has become too old; the running log holds the newest of the entries recorded since the
last clearing; and its file has fewer than twice as many lines as the limit. -/
theorem reload_equivalent (json : Json) (start max : Nat) (ops : List Op) (hmax : 0 < max)
    (horder : (start :: ops.map Op.time).Pairwise (· ≤ ·))
    (hline : ∀ op ∈ ops, ∀ entry, op.writes = some entry → json.OneLine entry) :
    (∀ now, last_time start ops ≤ now →
      (open_with_limit json .succeed (run json start max ops).file now max).entries =
          (run json start max ops).entries.filter (AuditEntry.kept now) ∧
        (open_with_limit json .succeed (run json start max ops).file now max).entries =
          (recorded ops).newest max (AuditEntry.kept now)) ∧
      (run json start max ops).entries =
        (recorded ops).newest max (AuditEntry.kept (last_time start ops)) ∧
      (lines ((run json start max ops).file.getD [])).length < 2 * max := by
  obtain ⟨⟨disk, hholds⟩, hpast⟩ := run_holds hmax start ops horder hline
  refine ⟨fun now hle => ?_, hholds.of_history, ?_⟩
  · have hreopen := (hholds.reopen hmax hpast hle).2
    refine ⟨hreopen, ?_⟩
    rw [hreopen, hholds.of_history,
      List.filter_newest (hpast.settles now) (AuditEntry.kept_of_le hle)]
  · rw [hholds.file]
    rw [json.length_lines_text_of fun e he => hpast.lines e (hholds.sublist.subset he)]
    exact hholds.short

end AuditLog

namespace Sample

def forgotten : AuditEntry := ⟨7, .DeviceForgotten, "Phone", "SP-1234-5678-9ABC", none, ""⟩
def blocked : AuditEntry := ⟨8, .DeviceBlocked, "Phone", "SP-1234-5678-9ABC", none, ""⟩

/-- How the two entries are written. -/
def audit_line (entry : AuditEntry) : Text :=
  let kind := if entry.kind = .DeviceBlocked then "deviceBlocked" else "deviceForgotten"
  ("\x7b\"timeUnix\":" ++ entry.time_unix.repr ++ ",\"kind\":\"" ++ kind ++
    "\",\"peerName\":\"" ++ entry.peer_name ++ "\",\"peerCode\":\"" ++ entry.peer_code ++
    "\",\"detail\":\"" ++ entry.detail ++ "\"\x7d").toList

def audit_json : Json :=
  ⟨fun entry => some (audit_line entry),
    fun line => [forgotten, blocked].find? fun entry => audit_line entry = line⟩

theorem audit_json_one_line (entry : AuditEntry) (h : entry = forgotten ∨ entry = blocked) :
    audit_json.OneLine entry := by
  refine ⟨audit_line entry, rfl, ?_⟩
  rcases h with rfl | rfl
  · decide +kernel
  · decide +kernel

end Sample

namespace AuditLog

/-- A log with room for one entry: of two, the newer one is read back. -/
theorem reload_newer :
    (open_with_limit Sample.audit_json .succeed (run Sample.audit_json 5 1
      [.record Sample.forgotten, .reopen 7, .record Sample.blocked]).file 9 1).entries =
        [Sample.blocked] := by
  refine ((reload_equivalent Sample.audit_json 5 1
    [.record Sample.forgotten, .reopen 7, .record Sample.blocked]
    (by decide) (by decide) ?_).1 9 (by decide)).2.trans (by decide +kernel)
  intro op hop entry hentry
  apply Sample.audit_json_one_line
  simp only [List.mem_cons, List.not_mem_nil, or_false] at hop
  rcases hop with rfl | rfl | rfl
  · exact .inl ((Option.some.inj hentry).symm.trans (by decide +kernel))
  · cases hentry
  · exact .inr ((Option.some.inj hentry).symm.trans (by decide +kernel))

end AuditLog

end SoundPush
