import SegmentedJournal.Proofs.Exhaustion
/-!
# Entries that a replay hands out

`Replay.Delivers state entry` says that one of the reads from a state on, each of which hands
something out, hands the entry out.  Where nothing is armed this depends only on the files:
`Replay.Hands files entry n current pending` says it of the log being read and the logs still to be
opened (`Delivers.hands`, `Hands.delivers`).  So whether a journal returns an entry
(`Journal.Returns`) is read off the logs of its files (`Journal.returns_iff`).

An entry that was handed out before some logs were changed is handed out still, if the logs up to
some place are the same and the log at that place has the entry, and those before it from its
start on (`Hands.of_prefix`, `Hands.of_frames`).
-/

namespace SegmentedJournal

open Medium (Keeps)

namespace Replay

variable {files files' : PathMap Bytes} {entry found : Entry} {n : UInt64}
  {current : Option SegmentReader} {reader behind : SegmentReader} {pending rest : List Segment}
  {state state' : Replay × Medium Memory} {replay' : Replay} {medium after : Medium Memory}

/-! ### Reads one after the other -/

/-- One of the reads from here on hands the entry out, and so do those before it with others. -/
inductive Delivers : Replay × Medium Memory → Entry → Prop where
  /-- The next read does. -/
  | now {state state' : Replay × Medium Memory} {entry : Entry}
      (h : read state = .ok (some entry) state') : Delivers state entry
  /-- The next read hands out another one. -/
  | later {state state' : Replay × Medium Memory} {entry other : Entry}
      (h : read state = .ok (some other) state') (hrest : Delivers state' entry) :
      Delivers state entry

/-- What is delivered depends on what the next read does. -/
theorem Delivers.of_read_eq (h : Delivers state' entry) (hread : read state = read state') :
    Delivers state entry := by
  cases h with
  | now h => exact .now (hread.trans h)
  | later h hrest => exact .later (hread.trans h) hrest

/-- Reading on from a number, in the log at hand and in those still to be opened, hands the entry
out. -/
inductive Hands (files : PathMap Bytes) (entry : Entry) :
    UInt64 → Option SegmentReader → List Segment → Prop where
  /-- The log at hand yields it. -/
  | now {n : UInt64} {reader behind : SegmentReader} {pending : List Segment}
      (hyield : yield n reader = .entry entry behind) (hnext : n + 1 ≠ 0) :
      Hands files entry n (some reader) pending
  /-- The log at hand yields another one. -/
  | later {n : UInt64} {other : Entry} {reader behind : SegmentReader} {pending : List Segment}
      (hyield : yield n reader = .entry other behind) (hnext : n + 1 ≠ 0)
      (hrest : Hands files entry (n + 1) (some behind) pending) :
      Hands files entry n (some reader) pending
  /-- The log at hand yields nothing more. -/
  | exhausted {n : UInt64} {reader : SegmentReader} {pending : List Segment}
      (hyield : yield n reader = .exhausted) (hrest : Hands files entry n none pending) :
      Hands files entry n (some reader) pending
  /-- The next log is opened. -/
  | opened {n : UInt64} {log : Segment} {contents : Bytes} {pending : List Segment}
      (hstart : ¬ n < log.start) (hget : files.get? log.location = some contents)
      (hrest : Hands files entry n (some { segment := log, rest := contents }) pending) :
      Hands files entry n none (log :: pending)

/-- What a log yields has the number that was expected, which is below the log's stop. -/
theorem of_yield (h : yield n reader = .entry entry behind) :
    entry.sequence = n ∧ n < reader.segment.stop ∧ behind.segment = reader.segment := by
  unfold yield at h
  split at h
  · cases h
  next hstop =>
  rcases SegmentReader.seek_cases n reader with
    ⟨other, next, hseek, hle, hsegment, -⟩ | ⟨result, next, hseek, hresult, -⟩
  · rw [hseek] at h
    dsimp only at h
    split at h
    · cases h
    · next hnot =>
      cases h
      exact ⟨UInt64.le_antisymm (UInt64.not_lt.1 hnot) hle, UInt64.not_le.1 hstop, hsegment⟩
  · rw [hseek] at h
    rcases hresult with rfl | ⟨error, rfl, -⟩
    · cases h
    · dsimp only at h
      split at h <;> cases h

/-- No entry below the expected number is handed out. -/
theorem Hands.le_sequence (h : Hands files entry n current pending) : n ≤ entry.sequence := by
  induction h with
  | now hyield hnext => exact UInt64.le_of_eq (of_yield hyield).1.symm
  | later hyield hnext hrest ih =>
      exact UInt64.le_trans (UInt64.le_of_lt (Action.lt_add_one hnext)) ih
  | exhausted hyield hrest ih => exact ih
  | opened hstart hget hrest ih => exact ih

/-- An entry that is handed out is below the stop of one of the logs. -/
theorem Hands.exists_lt_stop (h : Hands files entry n current pending) :
    (∃ reader ∈ current, entry.sequence < reader.segment.stop) ∨
      ∃ log ∈ pending, entry.sequence < log.stop := by
  induction h with
  | now hyield hnext =>
      obtain ⟨rfl, hlt, -⟩ := of_yield hyield
      exact .inl ⟨_, rfl, hlt⟩
  | later hyield hnext hrest ih =>
      refine ih.imp_left ?_
      rintro ⟨_, ⟨⟩, hlt⟩
      exact ⟨_, rfl, (of_yield hyield).2.2 ▸ hlt⟩
  | exhausted hyield hrest ih =>
      refine ih.imp_left ?_
      rintro ⟨_, hnone, -⟩
      cases hnone
  | opened hstart hget hrest ih =>
      rcases ih with ⟨_, ⟨⟩, hlt⟩ | ⟨log, hlog, hlt⟩
      · exact .inr ⟨_, List.mem_cons_self, hlt⟩
      · exact .inr ⟨log, List.mem_cons_of_mem _ hlog, hlt⟩

/-! ### What reads do where nothing is armed -/

theorem eq_of_deliver {replay : Replay} {result : Option Entry}
    (h : deliver entry (replay, medium) = .ok result (replay', after)) :
    result = some entry ∧ replay' = { replay with next := replay.next + 1 } ∧
      replay.next + 1 ≠ 0 ∧ after = medium := by
  unfold deliver Action.successor at h
  by_cases hnext : replay.next + 1 = 0
  · simp only [if_pos hnext] at h
    cases h
  · simp only [if_neg hnext] at h
    cases h
    exact ⟨rfl, rfl, hnext, rfl⟩

/-- A step of a replay hands out an entry and leaves the files alone; what is handed out behind it
is handed out from where it began. -/
def Passes (files : PathMap Bytes) (n : UInt64) (current : Option SegmentReader)
    (pending : List Segment) (found : Entry) (state : Replay × Medium Memory) : Prop :=
  state.2.storage.files = files ∧
    ∀ entry, found = entry ∨ Hands files entry state.1.next state.1.current state.1.pending →
      Hands files entry n current pending

theorem passes_readOn {state : Replay × Medium Memory}
    (hrest : readPending n pending medium = .ok (some found) state →
      Passes files n none pending found state)
    (hfiles : medium.storage.files = files)
    (h : readOn n reader pending medium = .ok (some found) state) :
    Passes files n (some reader) pending found state := by
  unfold readOn at h
  cases hyield : yield n reader with
  | entry other behind =>
      rw [hyield] at h
      obtain ⟨hfound, hreplay, hnext, hsame⟩ := eq_of_deliver h
      cases hfound
      refine ⟨hsame ▸ hfiles, fun entry hentry => ?_⟩
      rw [hreplay] at hentry
      rcases hentry with rfl | hbehind
      · exact .now hyield hnext
      · exact .later hyield hnext hbehind
  | exhausted =>
      rw [hyield] at h
      obtain ⟨hsame, hhands⟩ := hrest h
      exact ⟨hsame, fun entry hentry => .exhausted hyield (hhands entry hentry)⟩
  | torn =>
      rw [hyield] at h
      cases h
  | refused error behind =>
      rw [hyield] at h
      cases h

theorem passes_readPending {state : Replay × Medium Memory} (hfiles : medium.storage.files = files)
    (h : readPending n pending medium = .ok (some found) state) :
    Passes files n none pending found state := by
  induction pending generalizing medium with
  | nil => cases h
  | cons log pending ih =>
      unfold readPending at h
      split at h
      · cases h
      · next hstart =>
        cases hload : (SegmentReader.load log :
            Action JournalError (Medium Memory) SegmentReader) medium with
        | error error after =>
            rw [hload] at h
            cases h
        | ok reader opened =>
            rw [hload] at h
            obtain ⟨contents, hget, rfl, hsame⟩ := SegmentReader.exists_of_load hload
            obtain ⟨hafter, hhands⟩ := passes_readOn (ih (hsame.trans hfiles))
              (hsame.trans hfiles) h
            exact ⟨hafter, fun entry hentry => .opened hstart (hfiles ▸ hget) (hhands entry hentry)⟩

/-- A read hands out an entry and passes on to what is handed out behind it. -/
theorem passes_read (hfiles : state.2.storage.files = files)
    (h : read state = .ok (some found) state') :
    Passes files state.1.next state.1.current state.1.pending found state' := by
  obtain ⟨⟨pending, current, n⟩, medium⟩ := state
  cases current with
  | none => exact passes_readPending hfiles h
  | some reader => exact passes_readOn (passes_readPending hfiles) hfiles h

/-- What is delivered is handed out by the files. -/
theorem Delivers.hands (h : Delivers state entry) (hfiles : state.2.storage.files = files) :
    Hands files entry state.1.next state.1.current state.1.pending := by
  induction h with
  | now h => exact (passes_read hfiles h).2 _ (.inl rfl)
  | later h hrest ih =>
      obtain ⟨hsame, hhands⟩ := passes_read hfiles h
      exact hhands _ (.inr (ih hsame))

theorem read_of_entry (hyield : yield n reader = .entry entry behind) (hnext : n + 1 ≠ 0) :
    read ({ pending, current := some reader, next := n }, medium) =
      .ok (some entry) ({ pending, current := some behind, next := n + 1 }, medium) := by
  rw [read_of_current, readOn, hyield]
  exact deliver_of_ne_zero entry pending medium hnext

/-- Once the next log was opened it is read as one at hand is. -/
theorem read_of_load {log : Segment} (hstart : ¬ n < log.start)
    (hload : (SegmentReader.load log : Action JournalError (Medium Memory) SegmentReader) medium =
      .ok reader after) :
    read ({ pending := log :: pending, next := n }, medium) =
      read ({ pending, current := some reader, next := n }, after) := by
  rw [read_of_no_current, readPending, if_neg hstart, hload, read_of_current]
  rfl

/-- Where nothing is armed, what the files hand out is delivered. -/
theorem Hands.delivers (h : Hands files entry n current pending)
    (hfiles : medium.storage.files = files) (hquiet : medium.armed = 0) :
    Delivers ({ pending, current, next := n }, medium) entry := by
  induction h generalizing medium with
  | now hyield hnext => exact .now (read_of_entry hyield hnext)
  | later hyield hnext hrest ih =>
      exact .later (read_of_entry hyield hnext) (ih hfiles hquiet)
  | @exhausted n reader pending hyield hrest ih =>
      refine (ih hfiles hquiet).of_read_eq ?_
      rw [read_of_current, readOn, hyield, read_of_no_current]
  | @opened n log contents pending hstart hget hrest ih =>
      obtain ⟨_, opened, hload, rfl, hkeeps⟩ :=
        (SegmentReader.ensures_load (hfiles ▸ hget)).exists_ok
          fun _ _ hfoiled => hfoiled.2.toFired.elim hquiet
      exact (ih (hkeeps.files_eq.trans hfiles) (hkeeps.quiet hquiet)).of_read_eq
        (read_of_load hstart hload)

/-- A replay is opened if the first of the logs does not start above the number. -/
theorem start_of_snapshot {journal : Journal} {snapshot : Snapshot} {withIncomplete : Bool}
    {seen : Medium Memory} (hsnapshot : journal.snapshot medium = .ok snapshot seen)
    (hfirst : ∀ first ∈ (logsFrom snapshot n withIncomplete).head?, ¬ n < first.start) :
    start journal n withIncomplete medium =
      .ok { pending := logsFrom snapshot n withIncomplete, next := n } seen := by
  rw [start, Action.bind_of_ok hsnapshot]
  generalize logsFrom snapshot n withIncomplete = pending at hfirst ⊢
  cases pending with
  | nil => rfl
  | cons first pending =>
      simp only [List.head?_cons, if_neg (hfirst first rfl)]
      rfl

theorem logsFrom_append (checkpoints before behind : List Segment) (current : Option Segment) :
    logsFrom ⟨checkpoints, before ++ behind, current⟩ n true =
      before.filter (fun log => n < log.stop) ++
        logsFrom ⟨checkpoints, behind, current⟩ n true := by
  simp only [logsFrom, if_true, List.append_assoc, List.filter_append]

theorem logsFrom_cons {log : Segment} {checkpoints behind : List Segment}
    {current : Option Segment} (h : n < log.stop) :
    logsFrom ⟨checkpoints, log :: behind, current⟩ n true =
      log :: logsFrom ⟨checkpoints, behind, current⟩ n true := by
  simp only [logsFrom, if_true, List.cons_append, List.filter_cons, decide_eq_true h]

/-! ### Files that were changed -/

/-- Logs that have the same octets still hand the entry out, or they lead on to a number that is not
above it; so it is handed out if whatever comes behind them hands it out from there. -/
theorem Hands.of_prefix {shared rest' : List Segment}
    (h : Hands files entry n current (shared ++ rest))
    (hsame : ∀ log ∈ shared, files'.get? log.location = files.get? log.location)
    (hjoin : ∀ x, n ≤ x → x ≤ entry.sequence → Hands files' entry x none rest') :
    Hands files' entry n current (shared ++ rest') := by
  generalize hpending : shared ++ rest = pending at h
  induction h generalizing shared with
  | now hyield hnext => exact .now hyield hnext
  | later hyield hnext hrest ih =>
      refine .later hyield hnext (ih hsame (fun x hx => hjoin x ?_) hpending)
      exact UInt64.le_trans (UInt64.le_of_lt (Action.lt_add_one hnext)) hx
  | exhausted hyield hrest ih => exact .exhausted hyield (ih hsame hjoin hpending)
  | opened hstart hget hrest ih =>
      cases shared with
      | nil => exact hjoin _ (UInt64.le_refl _) hrest.le_sequence
      | cons log shared =>
          obtain ⟨rfl, hshared⟩ := List.cons.inj hpending
          refine .opened hstart ((hsame _ List.mem_cons_self).trans hget) ?_
          exact ih (fun log hlog => hsame log (List.mem_cons_of_mem _ hlog)) hjoin hshared

/-- A log that does not stop before it hands out an entry of the frames it begins with. -/
theorem Hands.of_frames (files : PathMap Bytes) (reader : SegmentReader) (pending : List Segment)
    {ledger : Ledger} {p x i m : Nat} {tail : Bytes} (hfits : ledger.Fits) (hpx : p ≤ x)
    (hxi : x ≤ i) (him : i < m) (hm : m < UInt64.size)
    (hstop : i < reader.segment.stop.toNat) (hrest : reader.rest = ledger.frames p m ++ tail) :
    Hands files (ledger.entry i) (UInt64.ofNat x) (some reader) pending := by
  induction hd : i - x generalizing p x reader with
  | zero =>
      obtain rfl : x = i := by omega
      obtain ⟨next, hyield, -⟩ := yield_frames reader hfits hpx him hm hstop hrest
      exact .now hyield (Action.ofNat_add_one_ne_zero (by omega))
  | succ d ih =>
      obtain ⟨next, hyield, hsegment, hnext⟩ :=
        yield_frames reader hfits hpx (by omega) hm (by omega) hrest
      refine .later hyield (Action.ofNat_add_one_ne_zero (by omega)) ?_
      rw [Action.ofNat_add_one]
      exact ih next (Nat.le_refl _) (by omega) (hsegment ▸ hstop) hnext (by omega)

end Replay

/-! ### What a journal returns -/

namespace Journal

open Replay (Delivers Hands logsFrom)

variable {journal : Journal} {checkpoints checkpoints' complete complete' : List Segment}
  {current current' : Option Segment} {log : Segment} {contents : Bytes} {start : UInt64}
  {entry : Entry} {medium after : Medium Memory}

/-- A replay of the journal from a number on, with the current log, delivers the entry. -/
def Returns (journal : Journal) (start : UInt64) (medium : Medium Memory) (entry : Entry) : Prop :=
  ∃ replay opened, Replay.start journal start true medium = .ok replay opened ∧
    Delivers (replay, opened) entry

/-- Where nothing is armed, the journal returns what the logs of its files hand out. -/
theorem returns_iff (hlists : journal.Lists medium.storage.files checkpoints complete current)
    (hquiet : medium.armed = 0) :
    journal.Returns start medium entry ↔ Hands medium.storage.files entry start none
      (logsFrom ⟨checkpoints, complete, current⟩ start true) := by
  obtain ⟨_, seen, hsnapshot, rfl, hkeeps⟩ :=
    (ensures_snapshot hlists (Medium.tame_of_armed hquiet).honest).exists_ok
      fun _ _ hfoiled => hfoiled.2.toFired.elim hquiet
  constructor
  · rintro ⟨replay, opened, hstart, hdelivers⟩
    obtain ⟨rfl, rfl⟩ := Replay.opened_of_start hsnapshot hstart
    exact hdelivers.hands hkeeps.files_eq
  · intro hhands
    refine ⟨_, seen, Replay.start_of_snapshot hsnapshot fun first hfirst => ?_,
      hhands.delivers hkeeps.files_eq (hkeeps.quiet hquiet)⟩
    generalize logsFrom _ _ _ = pending at hhands hfirst
    cases hhands with
    | opened hstart _ _ =>
        cases hfirst
        exact hstart

/-- What a journal returns is below the stop of one of its logs. -/
theorem Returns.exists_lt_stop (h : journal.Returns start medium entry)
    (hlists : journal.Lists medium.storage.files checkpoints complete current)
    (hquiet : medium.armed = 0) :
    ∃ log, journal.Has medium.storage.files .log log ∧ entry.sequence < log.stop := by
  rcases ((returns_iff hlists hquiet).1 h).exists_lt_stop with ⟨_, hnone, -⟩ | ⟨log, hlog, hlt⟩
  · cases hnone
  · refine ⟨log, ?_, hlt⟩
    have hlisted := (List.mem_filter.1 hlog).1
    rw [if_pos rfl, List.mem_append, Option.mem_toList] at hlisted
    rcases hlisted with hlisted | hlisted
    · exact ((hlists.mem_complete log).1 hlisted).1
    · exact ((hlists.mem_current log).1 hlisted).1

/-- An entry that a journal returned from a log's start on is returned still if the log has it, and
those before it, and the logs before that one are the same. -/
theorem Returns.of_log {ledger : Ledger} {i m : Nat} {tail : Bytes}
    (h : journal.Returns log.start medium (ledger.entry i))
    (hlists : journal.Lists medium.storage.files checkpoints complete current)
    (hlists' : journal.Lists after.storage.files checkpoints' complete' current')
    (hquiet : medium.armed = 0) (hquiet' : after.armed = 0) (hlog : log ∈ complete')
    (hsame : ∀ other, other.precedes log = true → (other ∈ complete' ↔ other ∈ complete) ∧
      (other ∈ complete →
        after.storage.files.get? other.location = medium.storage.files.get? other.location))
    (hget : after.storage.files.get? log.location =
      some (ledger.frames log.start.toNat m ++ tail))
    (hfits : ledger.Fits) (him : i < m) (hm : m < UInt64.size) (hstop : i < log.stop.toNat) :
    journal.Returns log.start after (ledger.entry i) := by
  have hhands := (returns_iff hlists hquiet).1 h
  refine (returns_iff hlists' hquiet').2 ?_
  have hi : (ledger.entry i).sequence.toNat = i := ledger.toNat_sequence (by omega)
  have hle := UInt64.le_iff_toNat_le.1 hhands.le_sequence
  -- The logs before it are those that were before it.
  obtain ⟨before, behind, rfl⟩ := List.append_of_mem hlog
  have hearlier := eq_filter_of_precedes hlists.complete_sorted hlists'.complete_sorted
    fun other hprecedes => (hsame other hprecedes).1
  have hpast : log.start < log.stop := UInt64.lt_iff_toNat_lt.2 (by omega)
  rw [eq_filter_append hlists.complete_sorted log, Replay.logsFrom_append, ← hearlier] at hhands
  rw [Replay.logsFrom_append, Replay.logsFrom_cons hpast]
  refine hhands.of_prefix (fun other hother => ?_) fun x hx hxi => ?_
  · have hother := (List.mem_filter.1 hother).1
    rw [hearlier, List.mem_filter] at hother
    exact (hsame other hother.2).2 hother.1
  · -- The log has every entry from its start on.
    rw [UInt64.le_iff_toNat_le] at hxi
    have hfound := Hands.of_frames after.storage.files
      { segment := log, rest := ledger.frames log.start.toNat m ++ tail }
      (logsFrom ⟨checkpoints', behind, current'⟩ log.start true) hfits
      (UInt64.le_iff_toNat_le.1 hx) (hi ▸ hxi) him hm hstop rfl
    rw [UInt64.ofNat_toNat] at hfound
    exact .opened (UInt64.not_lt.2 hx) hget hfound

end Journal

end SegmentedJournal
