import SegmentedJournal.Proofs.Unhindered
/-!
# Histories that nothing hinders

The course of a writer that writes and flushes where nothing is armed goes with the cut of its
history into runs (`Course.Tracked`), step by step and as a whole (`Course.Tracked.run`).  Nothing
fails, everything is acknowledged, and once the writer is closed each run is in a log of its own
(`Course.Tracked.step_close`), so that the logs lead from any number of the history on to its end
(`Course.Tracked.exists_leads_close`).

A writer starts so on any journal that does not go past its number (`Course.exists_tracked_begun`).
On an empty medium the files are the runs of the cut, and nothing else (`Course.get?_run_closed`),
as long as the number behind the last entry is below `unknownStop`.  The log of an entry with the
number before that is removed when it is to be completed (`Course.no_file_at_last`).
-/

namespace SegmentedJournal

open Memory (Stream)

namespace Course

variable {journal : Journal} {ledger : Ledger} {base : PathMap Bytes} {publishing : Publishing}
  {cut : Cut} {course : Course} {moves : List Move} {b n s : Nat}

theorem run_concat (course : Course) (moves : List Move) (move : Move) :
    course.run (moves ++ [move]) = (course.run moves).step move := by
  rw [run, List.foldl_append]
  rfl

theorem acked_step_flush (course : Course) : (course.step .flush).acked = course.acked := by
  unfold step
  dsimp only
  split <;> rfl

theorem acked_step_close (course : Course) : (course.step .close).acked = course.acked := by
  unfold step
  dsimp only
  split <;> rfl

/-- The course of a writer that is tracked, where everything was acknowledged. -/
structure Tracked (journal : Journal) (ledger : Ledger) (base : PathMap Bytes)
    (publishing : Publishing) (s b n : Nat) (cut : Cut) (course : Course) : Prop where
  /-- The writer and the cut of its history. -/
  tracks : Writer.Tracks journal ledger base publishing s b n cut course.writer course.medium
  /-- The whole history was acknowledged. -/
  acked_eq : course.acked = ledger.entries s n
  /-- Nothing failed. -/
  failures_eq : course.failures = []

namespace Tracked

theorem le (h : course.Tracked journal ledger base publishing s b n cut) : s ≤ n :=
  Nat.le_trans h.tracks.tiled.runs.le h.tracks.tiled.le

theorem step_write {entry : Entry}
    (h : course.Tracked journal ledger base publishing s b n cut) (ends : List Entry → Bool)
    (hpayload : entry.payload = ledger n) (hbound : n + 1 < unknownStop.toNat) :
    (course.step (.write entry)).Tracked journal ledger base publishing s b (n + 1)
      (cut.step ends (.write entry)) := by
  obtain ⟨q, ⟨writer, medium⟩, hwrite, rfl, htracks⟩ :=
    (h.tracks.ensures_write ends hpayload).exists_ok fun _ _ h => h
  simp only [Course.step, hwrite]
  refine ⟨htracks hbound, ?_, h.failures_eq⟩
  rw [h.acked_eq, hpayload, Ledger.entries_succ h.le]
  rfl

theorem step_flush (h : course.Tracked journal ledger base publishing s b n cut)
    (hpos : 0 < journal.config.maxLogBytes.toNat) :
    ∃ b', (course.step .flush).Tracked journal ledger base publishing s b' n
      (cut.step (publishing.endsRun journal.config.maxLogBytes.toNat) .flush) := by
  obtain ⟨_, ⟨writer, medium⟩, hflush, b', htracks⟩ :=
    (h.tracks.ensures_flush hpos).exists_ok fun _ _ h => h
  refine ⟨b', ?_⟩
  simp only [Course.step, hflush]
  exact ⟨htracks, h.acked_eq, h.failures_eq⟩

/-- **Run**: a writer and the cut of its history stay together, and nothing fails. -/
theorem run (h : course.Tracked journal ledger base publishing s b n cut)
    (hpos : 0 < journal.config.maxLogBytes.toNat) (hordinary : ∀ move ∈ moves, move.Ordinary)
    (hcarries : ledger.Carries n (Move.written moves))
    (hbound : n + (Move.written moves).length < unknownStop.toNat) :
    ∃ b', (course.run moves).Tracked journal ledger base publishing s b'
      (n + (Move.written moves).length)
      (moves.foldl (Cut.step (publishing.endsRun journal.config.maxLogBytes.toNat)) cut) := by
  induction moves generalizing course cut b n with
  | nil => exact ⟨b, h⟩
  | cons move moves ih =>
      have hrest := fun other hother => hordinary other (List.mem_cons_of_mem move hother)
      cases move with
      | write entry =>
          rw [Move.written_write] at hcarries hbound ⊢
          rw [List.length_cons] at hbound ⊢
          obtain ⟨hpayload, hcarries'⟩ := hcarries.of_cons
          obtain ⟨b', htracked⟩ :=
            ih (h.step_write _ hpayload (by omega)) hrest hcarries' (by omega)
          exact ⟨b', by rwa [Nat.add_right_comm] at htracked⟩
      | flush =>
          obtain ⟨b₁, hflushed⟩ := h.step_flush hpos
          exact ih hflushed hrest hcarries hbound
      | close | arm | armCall => exact (hordinary _ List.mem_cons_self).elim

/-- Closing succeeds, and leaves every run in a log of its own. -/
theorem step_close (h : course.Tracked journal ledger base publishing s b n cut) :
    (course.step .close).failures = [] ∧ (course.step .close).acked = ledger.entries s n ∧
      (course.step .close).medium.armed = 0 ∧
      (course.step .close).medium.storage.files = journal.stored base cut.closed := by
  obtain ⟨_, ⟨writer, medium⟩, hclose, hquiet, hfiles⟩ :=
    h.tracks.ensures_close.exists_ok fun _ _ h => h
  simp only [Course.step, hclose]
  exact ⟨h.failures_eq, h.acked_eq, hquiet, hfiles⟩

/-- What is left leads from any number of the history on to its end. -/
theorem exists_leads_close (h : course.Tracked journal ledger base publishing s b n cut) {x : Nat}
    (withIncomplete : Bool) (hsx : s ≤ x) (hxn : x ≤ n) :
    ∃ checkpoints complete,
      journal.Lists (course.step .close).medium.storage.files checkpoints complete none ∧
        Replay.Leads ledger (course.step .close).medium.storage.files x
          (Replay.logsFrom ⟨checkpoints, complete, none⟩ (UInt64.ofNat x) withIncomplete) n := by
  obtain ⟨-, -, -, hfiles⟩ := h.step_close
  obtain ⟨checkpoints, complete, hlists⟩ :=
    h.tracks.within.exists_lists (Nat.lt_of_le_of_lt h.le h.tracks.bound)
  have htiles := h.tracks.tiled.tiles_closed
  rw [hfiles]
  exact ⟨checkpoints, _, htiles.lists_stored hlists h.tracks.within h.tracks.bound,
    htiles.leads_stored withIncomplete hlists h.tracks.within h.tracks.bound hsx hxn⟩

end Tracked

/-! ### Where a history starts -/

/-- A writer can be started where nothing is armed and no two logs are incomplete. -/
theorem exists_start {s : UInt64} {medium : Medium Memory} {checkpoints complete : List Segment}
    {current : Option Segment}
    (hlists : journal.Lists medium.storage.files checkpoints complete current)
    (hvalid : journal.config.validate = .ok ()) (hquiet : medium.armed = 0) :
    ∃ writer started, Writer.start journal s medium = .ok writer started := by
  have hstart : (Writer.start journal s : Action JournalError (Medium Memory) _).Ensures medium
      (fun _ _ => True) (fun _ _ => False) := by
    rw [Writer.start, hvalid, Action.ensures_bind, Action.ensures_ofExcept]
    refine ⟨fun _ _ => ?_, fun _ hnone => (by cases hnone)⟩
    rw [Action.ensures_bind]
    exact (Journal.ensures_snapshot hlists (Medium.tame_of_armed hquiet).honest).mono
      (fun _ _ _ => trivial) fun _ _ h => h.2.toFired.elim hquiet
  obtain ⟨writer, started, hok, -⟩ := hstart.exists_ok fun _ _ h => h
  exact ⟨writer, started, hok⟩

/-- A writer that is started where no complete log goes past its number is tracked.  If it takes a
log over that starts there or before, it will complete it there; else the files stay as they are. -/
theorem exists_tracked_begun (ledger : Ledger) {s : UInt64} {writer : Writer Stream}
    {medium started : Medium Memory} (hstart : Writer.start journal s medium = .ok writer started)
    (hquiet : medium.armed = 0) (hs : s < unknownStop)
    (hlast : ∀ log, journal.Has medium.storage.files .log log → log.stop ≠ unknownStop →
      log.stop ≤ s)
    (hcurrent : ∀ log, journal.Has medium.storage.files .log log → log.stop = unknownStop →
      log.start ≤ s) :
    ∃ base, (journal.Opens medium.storage.files none → base = medium.storage.files) ∧
      (begun writer started).Tracked journal ledger base medium.storage.publishing s.toNat s.toNat
        s.toNat { next := s } := by
  obtain ⟨⟨checkpoints, complete, current⟩, hsnapshot, hwriter⟩ :=
    Writer.exists_snapshot_of_start hstart
  obtain ⟨hfound, hkeeps⟩ :=
    (journal.ensures_snapshotOf (Medium.tame_of_armed hquiet).honest).of_ok hsnapshot
  have hlists := Journal.lists_of_snapshotOf_eq hfound
  have hself : UInt64.ofNat s.toNat = s := UInt64.ofNat_toNat
  obtain ⟨hopen, hsound, hcollecting⟩ := Writer.fresh_of_start hstart
  have hworking : Writer.AtWork journal medium.storage.publishing s.toNat writer started := by
    refine ⟨?_, ?_, ?_, hopen, hsound, hcollecting, hkeeps.quiet hquiet, hkeeps.publishing_eq⟩ <;>
      rw [hwriter]
    exact hself.symm
  have htiled : Cut.Tiled ledger s.toNat s.toNat s.toNat { next := s } := by
    have hbegin := Cut.tiled_begin ledger s.toNat
    rwa [hself] at hbegin
  have hbound := UInt64.lt_iff_toNat_lt.1 hs
  have hopens : journal.Opens medium.storage.files current := hlists.mem_current
  suffices hleaves : ∃ base, (current = none → base = medium.storage.files) ∧
      (∀ log, journal.Has base .log log → log.stop ≤ s) ∧
      Writer.Leaves journal s.toNat base writer started by
    obtain ⟨base, hbase, hwithin, hleaves⟩ := hleaves
    refine ⟨base, fun hnone => hbase ?_, ⟨hworking, htiled, .resting rfl rfl ?_ ?_ hleaves,
      fun log hlog => UInt64.le_iff_toNat_le.1 (hwithin log hlog), hbound⟩,
      Ledger.entries_self.symm, rfl⟩
    · cases current with
      | none => rfl
      | some log => cases (hnone log).2 ((hopens log).1 rfl)
    · rw [begun, hwriter]
      intro log hlog
      obtain ⟨segment, -, rfl⟩ := Option.map_eq_some_iff.1 hlog
      rfl
    · rw [begun, hwriter]
  cases current with
  | none =>
      refine ⟨_, fun _ => rfl, fun log hlog => hlast log hlog fun hstop => ?_, ?_, ?_⟩
      · cases (hopens log).2 ⟨hlog, hstop⟩
      · exact fun _ => hkeeps.files_eq
      · rw [hwriter]
        exact fun _ hnone => (by cases hnone)
  | some adopted =>
      obtain ⟨hadopted, hstop⟩ := (hopens adopted).1 rfl
      obtain ⟨base, hwithin, hcommit⟩ :=
        (Writer.Holding.of_start hsnapshot rfl hquiet hstart).exists_ensures_commit_of_le hopens
          (UInt64.ne_of_lt hs) (hcurrent adopted hadopted hstop) fun other hother hne =>
            hlast other hother fun hstop' =>
              hne (Option.some.inj ((hopens other).2 ⟨hother, hstop'⟩)).symm
      refine ⟨base, fun hnone => (by cases hnone), hwithin, ?_, ?_⟩
      · rw [hwriter]
        exact fun hnone => (by cases hnone)
      · rw [hwriter, hself]
        rintro _ ⟨⟩
        exact hcommit

theorem maxLogBytes_pos (hvalid : journal.config.validate = .ok ()) :
    0 < journal.config.maxLogBytes.toNat := by
  refine Nat.pos_of_ne_zero fun hzero => ?_
  rw [Config.validate, if_pos (UInt64.toNat_inj.1 hzero)] at hvalid
  cases hvalid

/-- On an empty medium a writer can be started at any number. -/
theorem exists_start_of_empty (s : UInt64) {medium : Medium Memory}
    (hvalid : journal.config.validate = .ok ()) (hempty : medium.storage.files = .empty)
    (hquiet : medium.armed = 0) :
    ∃ writer started, Writer.start journal s medium = .ok writer started :=
  exists_start (hempty ▸ Journal.lists_of_snapshotOf_eq journal.snapshotOf_empty) hvalid hquiet

/-- There it is tracked from the start. -/
theorem tracked_begun_of_empty (ledger : Ledger) {s : UInt64} {writer : Writer Stream}
    {medium started : Medium Memory} (hempty : medium.storage.files = .empty)
    (hstart : Writer.start journal s medium = .ok writer started) (hquiet : medium.armed = 0)
    (hs : s < unknownStop) :
    (begun writer started).Tracked journal ledger .empty medium.storage.publishing s.toNat s.toNat
      s.toNat { next := s } := by
  obtain ⟨base, hbase, hbegun⟩ := exists_tracked_begun ledger hstart hquiet hs
    (by rw [hempty]; exact fun log hlog => (by cases hlog.present))
    (by rw [hempty]; exact fun log hlog => (by cases hlog.present))
  obtain rfl : base = .empty := (hbase (hempty ▸ fun log =>
    ⟨fun hnone => (by cases hnone), fun hlog => (by cases hlog.1.present)⟩)).trans hempty
  exact hbegun

/-! ### The files of a history -/

/-- **Segmentation**: on an empty medium where nothing is armed, let a writer write and flush, and
then close it, so that the number behind the last entry can still be one of a log's name.  Nothing
fails, and every entry is acknowledged under the next number.  The files are the runs into which the
history is cut, each in one log that is named for its first entry and for the number behind its
last and holds their frames; there is no other file. -/
theorem get?_run_closed {s : UInt64} {medium : Medium Memory}
    (hvalid : journal.config.validate = .ok ()) (hempty : medium.storage.files = .empty)
    (hquiet : medium.armed = 0) (hordinary : ∀ move ∈ moves, move.Ordinary)
    (hbound : s.toNat + (Move.written moves).length < unknownStop.toNat) :
    ∃ writer started, Writer.start journal s medium = .ok writer started ∧
      let course := (begun writer started).run (moves ++ [.close])
      let runs := (Cut.ofMoves
        (medium.storage.publishing.endsRun journal.config.maxLogBytes.toNat) s moves).closed
      course.failures = [] ∧ course.acked = runs.flatten ∧
        course.acked.map Entry.payload = (Move.written moves).map Entry.payload ∧
        (∀ run ∈ runs, run ≠ []) ∧
        (runs.map fun run => (journal.logHolding run).location).Nodup ∧
        ∀ path contents, course.medium.storage.files.get? path = some contents ↔
          ∃ run ∈ runs, path = (journal.logHolding run).location ∧
            contents = Entry.encodeAll run := by
  -- The ledger has what the history writes.
  have hcarries := Ledger.carries_extended (fun _ => []) s.toNat (Move.written moves)
  obtain ⟨writer, started, hstart⟩ := exists_start_of_empty s hvalid hempty hquiet
  have hbegun := tracked_begun_of_empty
    (Ledger.extended (fun _ => []) s.toNat (Move.written moves)) hempty hstart hquiet
    (UInt64.lt_iff_toNat_lt.2 (by omega))
  obtain ⟨b, htracked⟩ := hbegun.run (maxLogBytes_pos hvalid) hordinary hcarries hbound
  have htiles := htracked.tracks.tiled.tiles_closed
  obtain ⟨hfailures, hacked, -, hfiles⟩ := htracked.step_close
  refine ⟨writer, started, hstart, ?_⟩
  rw [run_concat]
  refine ⟨hfailures, hacked.trans htiles.flatten_eq.symm, ?_, fun run hrun => ?_,
    htiles.nodup_locations journal hbound, fun path contents => ?_⟩
  · exact (congrArg (List.map Entry.payload) hacked).trans hcarries.payloads_eq
  · obtain ⟨x, y, -, hxy, -, rfl⟩ := htiles.exists_of_mem hrun
    rw [Ledger.entries_cons hxy]
    exact List.cons_ne_nil _ _
  · refine (iff_of_eq (congrArg (fun files => files.get? path = some contents) hfiles)).trans ?_
    rw [htiles.get?_stored (journal.within_empty _) hbound, PathMap.get?_empty]
    simp [Cut.ofMoves]

/-- For example, where a log ends at twenty octets, the first two of three entries that are flushed
one by one share a log. -/
theorem get?_run_closed_three :
    let journal := Journal.rooted "journal" { maxLogBytes := 20, gcEnabled := false }
    let medium : Medium Memory := { storage := { publishing := .onFlush } }
    let moves : List Move :=
      [.write ⟨0, [97]⟩, .flush, .write ⟨0, [98]⟩, .flush, .flush, .write ⟨0, [99]⟩, .flush]
    ∃ writer started, Writer.start journal 5 medium = .ok writer started ∧
      ∀ path contents,
        ((begun writer started).run (moves ++ [.close])).medium.storage.files.get? path =
          some contents ↔
        ∃ run ∈ [[⟨5, [97]⟩, ⟨6, [98]⟩], [⟨7, [99]⟩]],
          path = (journal.logHolding run).location ∧ contents = Entry.encodeAll run := by
  intro journal medium moves
  obtain ⟨writer, started, hstart, -, -, -, -, -, hfiles⟩ :=
    get?_run_closed (s := 5) (show journal.config.validate = .ok () from rfl)
      (show medium.storage.files = .empty from rfl) rfl
      (show ∀ move ∈ moves, move.Ordinary by decide) (by decide)
  have hruns : (Cut.ofMoves (medium.storage.publishing.endsRun journal.config.maxLogBytes.toNat) 5
      moves).closed = [[⟨5, [97]⟩, ⟨6, [98]⟩], [⟨7, [99]⟩]] := by decide
  rw [hruns] at hfiles
  exact ⟨writer, started, hstart, hfiles⟩

/-- The bound is needed: the entry with the number before `unknownStop` is acknowledged and is the
only run of its history, but there is no file once the writer is closed. -/
theorem no_file_at_last :
    let journal := Journal.rooted "journal" { gcEnabled := false }
    let medium : Medium Memory := { storage := { publishing := .onFlush } }
    let moves : List Move := [.write ⟨0, [97]⟩, .flush]
    let runs := (Cut.ofMoves (medium.storage.publishing.endsRun journal.config.maxLogBytes.toNat)
      (unknownStop - 1) moves).closed
    runs = [[⟨unknownStop - 1, [97]⟩]] ∧
      ∃ course, started? journal (unknownStop - 1) medium = some course ∧
        let course := course.run (moves ++ [.close])
        course.acked = runs.flatten ∧ course.failures ≠ [] ∧
          ∀ path, course.medium.storage.files.get? path = none := by
  intro journal medium moves runs
  have hruns : runs = [[⟨unknownStop - 1, [97]⟩]] := by decide
  have hrun : (started? journal (unknownStop - 1) medium).map (fun course =>
      let course := course.run (moves ++ [.close])
      (course.acked, course.failures.isEmpty, course.medium.storage.files.entries)) =
      some (runs.flatten, false, []) := by
    decide +kernel
  obtain ⟨course, hcourse, hchecked⟩ := Option.map_eq_some_iff.1 hrun
  simp only [Prod.mk.injEq, List.isEmpty_eq_false_iff] at hchecked
  obtain ⟨hacked, hfailures, hfiles⟩ := hchecked
  refine ⟨hruns, course, hcourse, hacked, hfailures, fun path => ?_⟩
  rw [PathMap.get?, hfiles]
  rfl

end Course

end SegmentedJournal
