import SegmentedJournal.Proofs.Intact
/-!
# What survives failures

Two promises about a writer that is started where the data of an intact journal end, whatever is
asked of it and whatever fails meanwhile.  Once nothing fails any more it can be closed, and the
journal then holds what was acknowledged, each entry once and in order
(`Journal.Intact.close_after_failures`).  And where a flush publishes, the writer can be dropped at
any moment: what is left is an intact journal again, which holds a part of what was acknowledged,
up to the last flush at least (`Journal.Intact.drop_anywhere`).

Both want the number behind the last entry below `unknownStop`, for a log that stopped there could
not be told from one that is still being written.  An entry may well have the number before it, and
then neither promise is kept, although nothing fails: when the writer is closed, the log with the
entry is completed under the name that it has, is taken for another in its own way, and is removed
(`Journal.Intact.close_fails_at_last`, `Journal.Intact.drop_loses_at_last`).
-/

namespace SegmentedJournal

open Memory (Stream)
open Medium (Quieter)

theorem Medium.Quieter.armed_eq_zero {a b : Medium Memory} (h : Quieter a b) (ha : a.armed = 0) :
    b.armed = 0 :=
  Nat.le_zero.1 (ha ▸ h.armed_le)

namespace Course

variable {account : Account} {course : Course} {s : Nat} {publishing : Publishing}

/-- A writer is in good standing also once nothing is armed any more. -/
theorem Kept.cleared (h : course.Kept account s publishing) :
    account.Standing (s + course.acked.length) (s + course.flushed) course.writer
      course.medium.cleared := by
  have hfollows : account.Follows account course.medium.storage.files
      course.medium.cleared.storage.files := .refl account _
  exact h.standing.follow hfollows rfl (Medium.tame_of_armed rfl) h.standing.serves.reach_le

/-- Once nothing is armed any more an open writer can be closed, and no log is incomplete then. -/
theorem Kept.exists_close (h : course.Kept account s publishing)
    (hopen : course.writer.closed = false) :
    ∃ closed ended, Writer.close (course.writer, course.medium.cleared) =
        .ok () (closed, ended) ∧
      account.Stands ended.storage.files none (s + course.acked.length) ∧ ended.armed = 0 := by
  obtain ⟨_, ⟨closed, ended⟩, hclose, hquieter, -, hstands⟩ :=
    h.cleared.ensures_close.exists_ok fun _ _ hfailed => hfailed.2.2.elim rfl
  exact ⟨closed, ended, hclose, hstands hopen, hquieter.armed_eq_zero rfl⟩

/-- The entries that were acknowledged under a number or behind it. -/
theorem Kept.filter_acked {n : UInt64} (h : course.Kept account s publishing) (hsn : s ≤ n.toNat)
    (hn : n.toNat ≤ s + course.acked.length) :
    (course.acked.filter fun entry => n ≤ entry.sequence) =
      account.ledger.entries n.toNat (s + course.acked.length) := by
  -- The bound keeps the numbers within a word, so that they compare as words do.
  have hsize := Nat.lt_trans h.standing.serves.bound (by decide : _ < UInt64.size)
  have hfilter := account.ledger.filter_entries hsn hn hsize
  rw [UInt64.ofNat_toNat] at hfilter
  exact (congrArg (List.filter _) h.acked_eq).trans hfilter

/-- A writer that was closed leaves the entries that were acknowledged. -/
theorem Kept.readBack_of_stands {n : UInt64} {ended : Medium Memory}
    (h : course.Kept account s publishing) (hsn : s ≤ n.toNat)
    (hn : n.toNat ≤ s + course.acked.length) (hbase : account.base ≤ n.toNat)
    (htrusted : account.trusted ≤ n.toNat) (hreach : account.reach ≤ n.toNat)
    (hstands : account.Stands ended.storage.files none (s + course.acked.length))
    (hquiet : ended.armed = 0) :
    ∃ after, account.journal.readBack n false ended =
      .ok (course.acked.filter fun entry => n ≤ entry.sequence) after := by
  obtain ⟨complete, harchive⟩ := hstands
  obtain ⟨after, hread⟩ := harchive.readBack_eq hquiet hbase htrusted hreach hn
  rw [← h.filter_acked hsn hn, UInt64.ofNat_toNat] at hread
  exact ⟨after, hread⟩

/-- What is durable of a course is the first of the entries that were acknowledged. -/
theorem Kept.readBack_of_durable {start : UInt64} {left : Medium Memory} {current : Option Segment}
    {a k : Nat} (h : course.Kept account start.toNat publishing) (hk : k ≤ course.acked.length)
    (hbase : account.base ≤ start.toNat) (htrusted : account.trusted ≤ start.toNat)
    (hreach : account.reach ≤ start.toNat)
    (hdurable : account.Durable left.storage.files current a (start.toNat + k))
    (hquiet : left.armed = 0) :
    ∃ after, account.journal.readBack start true left = .ok (course.acked.take k) after := by
  have hle := Nat.add_le_add_left hk start.toNat
  obtain ⟨after, hread⟩ := hdurable.readBack_eq (Nat.lt_of_le_of_lt hle h.standing.serves.bound)
    hquiet hbase htrusted hreach (Nat.le_add_right _ _)
  have htake : course.acked.take k = account.ledger.entries start.toNat (start.toNat + k) :=
    (congrArg (List.take k) h.acked_eq).trans (Ledger.take_entries hle)
  rw [← htake, UInt64.ofNat_toNat] at hread
  exact ⟨after, hread⟩

/-- A writer that is dropped, where flushes publish, leaves the first of the entries that were
acknowledged, and all that was promised. -/
theorem Kept.readBack_of_release {start : UInt64} (h : course.Kept account start.toNat publishing)
    (hflush : publishing = .onFlush) (hbase : account.base ≤ start.toNat)
    (htrusted : account.trusted ≤ start.toNat) (hreach : account.reach ≤ start.toNat) :
    ∃ k current a, course.flushed ≤ k ∧ k ≤ course.acked.length ∧
      account.Durable (course.writer.release course.medium).storage.files current a
        (start.toNat + k) ∧
      ∃ after, account.journal.readBack start true
        (course.writer.release course.medium).cleared = .ok (course.acked.take k) after := by
  obtain ⟨m, ⟨current, a, hdurable⟩, hpromised, hle⟩ :=
    h.standing.release (h.publishing_eq.trans hflush)
  obtain ⟨k, rfl⟩ : ∃ k, m = start.toNat + k := ⟨m - start.toNat, by omega⟩
  exact ⟨k, current, a, by omega, by omega, hdurable,
    h.readBack_of_durable (by omega) hbase htrusted hreach hdurable rfl⟩

end Course

namespace Journal.Intact

variable {journal : Journal} {ledger : Ledger} {complete : List Segment}
  {current : Option Segment} {s : UInt64} {medium : Medium Memory}

/-- **Failures cost nothing**: a writer that is started where the data of a journal end can be
closed once nothing fails any more, whatever was written and flushed and whatever failed before, if
the number behind the last entry is below `unknownStop`.  The journal is intact then and has no
incomplete log, and from where the writer started on it holds the entries that were acknowledged,
each once and in order. -/
theorem close_after_failures
    (hintact : journal.Intact ledger s.toNat medium.storage.files complete current s.toNat)
    (hfits : ledger.Fits) (hvalid : journal.config.validate = .ok ())
    (hs : s.toNat < unknownStop.toNat) (hquiet : medium.armed = 0) :
    ∃ writer started, Writer.start journal s medium = .ok writer started ∧
      ∀ moves : List Move,
        (∀ move ∈ moves, move.Fair medium.storage.publishing ∧ move ≠ .close) →
        let course := (Course.begun writer started).run moves
        s.toNat + course.acked.length < unknownStop.toNat →
        ∃ closed ended,
          Writer.close (course.writer, course.medium.cleared) = .ok () (closed, ended) ∧
          (∃ complete, journal.Intact (ledger.extended s.toNat course.acked) s.toNat
            ended.storage.files complete none (s.toNat + course.acked.length)) ∧
          ∃ after, journal.readBack s false ended = .ok course.acked after := by
  obtain ⟨writer, started, hstart⟩ := hintact.exists_start hfits hvalid hs hquiet
  refine ⟨writer, started, hstart, ?_⟩
  intro moves hmoves course hbound
  obtain ⟨hextended, hkept, hopen⟩ := hintact.kept_run hfits hvalid hs (Medium.tame_of_armed hquiet)
    hstart (fun move hmove => (hmoves move hmove).1) hbound
  obtain ⟨closed, ended, hclose, hstands, harmed⟩ :=
    hkept.exists_close (hopen fun move hmove => (hmoves move hmove).2)
  refine ⟨closed, ended, hclose, (Account.durable_none hstands).intact rfl rfl, ?_⟩
  have hread := hkept.readBack_of_stands (Nat.le_refl _) (Nat.le_add_right _ _) (Nat.le_refl _)
    (Nat.le_refl _) (Nat.zero_le _) hstands harmed
  rwa [hkept.filter_acked (Nat.le_refl _) (Nat.le_add_right _ _), ← hkept.acked_eq] at hread

/-- For example, after a crash cut the first log off in its second frame, with failures of every
kind on the way. -/
theorem close_after_failures_cut :
    let journal := Journal.rooted "journal" { gcEnabled := false }
    let ledger : Ledger := fun i => [UInt8.ofNat i]
    let torn := (ledger.entry 1).encode.take ((ledger.entry 1).encode.length / 2)
    let files := PathMap.empty.insert (journal.log 0 unknownStop).location
      (ledger.frames 0 1 ++ torn)
    let medium : Medium Memory := { storage := { publishing := .onFlush, files } }
    let moves : List Move := [.armCall ⟨.isPresent, 1, ""⟩, .write ⟨0, [1]⟩, .arm (.flush .torn),
      .flush, .arm .delete, .arm .rename, .arm .create, .write ⟨0, [2]⟩, .armCall ⟨.close, 0, ""⟩,
      .armCall ⟨.read, 0, ""⟩, .arm (.write 1 .persisted), .write ⟨0, [3]⟩, .write ⟨0, [4]⟩]
    ∃ writer started, Writer.start journal 1 medium = .ok writer started ∧
      let course := (Course.begun writer started).run moves
      ∃ closed ended,
        Writer.close (course.writer, course.medium.cleared) = .ok () (closed, ended) ∧
        ∃ after, journal.readBack 1 false ended = .ok course.acked after := by
  intro journal ledger torn files medium moves
  have hfits : ledger.Fits := fun i => (by decide : 1 ≤ Frame.maxPayload)
  have hintact : journal.Intact ledger (1 : UInt64).toNat medium.storage.files [] _
      (1 : UInt64).toNat := journal.intact_cut ledger 1 1 (Frame.torn_half (hfits 1))
  obtain ⟨writer, started, hstart, hclose⟩ :=
    close_after_failures hintact hfits rfl (by decide) (rfl : medium.armed = 0)
  refine ⟨writer, started, hstart, ?_⟩
  have hlength : ((Course.begun writer started).run moves).acked.length ≤ 13 :=
    Course.length_acked_run_le (Course.begun writer started) moves
  obtain ⟨closed, ended, hclosed, -, hread⟩ := hclose moves (by decide)
    (Nat.lt_of_le_of_lt (Nat.add_le_add_left hlength 1) (by decide))
  exact ⟨closed, ended, hclosed, hread⟩

/-- The bound is needed: the entry with the number before `unknownStop` is written and flushed, and
nothing fails, but then the writer cannot be closed, and the entry is gone. -/
theorem close_fails_at_last :
    let journal := Journal.rooted "journal" { gcEnabled := false }
    let ledger : Ledger := fun i => [UInt8.ofNat i]
    let log := journal.log (unknownStop - 2) (unknownStop - 1)
    let files := PathMap.empty.insert log.location (ledger.frames log.start.toNat log.stop.toNat)
    let medium : Medium Memory := { storage := { publishing := .onFlush, files } }
    journal.Intact ledger log.stop.toNat files [log] none log.stop.toNat ∧
      ∃ course, Course.started? journal log.stop medium = some course ∧
        let course := course.run [.write ⟨0, [97]⟩, .flush]
        course.failures = [] ∧ course.acked = [⟨unknownStop - 1, [97]⟩] ∧
          ∃ e closed ended,
            Writer.close (course.writer, course.medium.cleared) =
              .error (.error e) (closed, ended) ∧
            ∃ after, journal.readBack log.stop false ended = .ok [] after := by
  intro journal ledger log files medium
  have hrun : (Course.started? journal log.stop medium).map (fun course =>
      let course := course.run [.write ⟨0, [97]⟩, .flush]
      let state := (course.writer, course.medium.cleared)
      (course.failures.isEmpty, course.acked, (Writer.close.error? state).isSome,
        (journal.readBack log.stop false).value? (Writer.close.leaves state).2)) =
      some (true, [⟨unknownStop - 1, [97]⟩], true, some []) := by
    decide +kernel
  obtain ⟨course, hcourse, hchecked⟩ := Option.map_eq_some_iff.1 hrun
  simp only [Prod.mk.injEq, List.isEmpty_iff, Option.isSome_iff_exists] at hchecked
  obtain ⟨hfailures, hacked, ⟨e, hclose⟩, hread⟩ := hchecked
  exact ⟨journal.intact_whole ledger _ (by decide) (by decide), course, hcourse, hfailures, hacked,
    e, _, _, Action.eq_error_leaves hclose, _, Action.eq_ok_leaves hread⟩

/-- **Crashes cost no promise**: where a flush publishes, a writer that is started where the data
of a journal end can be dropped after any moves, closing among them, whatever failed, if the number
behind the last entry is below `unknownStop`.  The journal is intact then, and from where the writer
started on it holds the first of the entries that were acknowledged, in order: all that the last
flush or the close promised, at least. -/
theorem drop_anywhere
    (hintact : journal.Intact ledger 0 medium.storage.files complete current s.toNat)
    (hfits : ledger.Fits) (hvalid : journal.config.validate = .ok ())
    (hs : s.toNat < unknownStop.toNat) (hquiet : medium.armed = 0)
    (hflush : medium.storage.publishing = .onFlush) :
    ∃ writer started, Writer.start journal s medium = .ok writer started ∧
      ∀ moves : List Move, (∀ move ∈ moves, move.Fair medium.storage.publishing) →
        let course := (Course.begun writer started).run moves
        s.toNat + course.acked.length < unknownStop.toNat →
        let left := course.writer.release course.medium
        ∃ k, course.flushed ≤ k ∧ k ≤ course.acked.length ∧
          (∃ complete current, journal.Intact (ledger.extended s.toNat course.acked) 0
            left.storage.files complete current (s.toNat + k)) ∧
          ∃ after, journal.readBack s true left.cleared = .ok (course.acked.take k) after := by
  obtain ⟨writer, started, hstart⟩ := hintact.exists_start hfits hvalid hs hquiet
  refine ⟨writer, started, hstart, ?_⟩
  intro moves hfair course hbound left
  obtain ⟨hextended, hkept, -⟩ := hintact.kept_run hfits hvalid hs (Medium.tame_of_armed hquiet)
    hstart hfair hbound
  obtain ⟨k, current', a, hflushed, hle, hdurable, hread⟩ :=
    hkept.readBack_of_release hflush (Nat.le_refl _) (Nat.zero_le _) (Nat.zero_le _)
  obtain ⟨complete', hleft⟩ := hdurable.intact rfl rfl
  exact ⟨k, hflushed, hle, ⟨complete', current', hleft⟩, hread⟩

/-- For example, before the second flush has succeeded, and before any close has. -/
theorem drop_anywhere_cut :
    let journal := Journal.rooted "journal" { gcEnabled := false }
    let ledger : Ledger := fun i => [UInt8.ofNat i]
    let torn := (ledger.entry 1).encode.take ((ledger.entry 1).encode.length / 2)
    let files := PathMap.empty.insert (journal.log 0 unknownStop).location
      (ledger.frames 0 1 ++ torn)
    let medium : Medium Memory := { storage := { publishing := .onFlush, files } }
    let moves : List Move := [.write ⟨0, [1]⟩, .flush, .write ⟨0, [2]⟩, .arm (.flush .torn),
      .flush, .arm .delete, .arm .rename, .armCall ⟨.list, 1, ""⟩, .close]
    ∃ writer started, Writer.start journal 1 medium = .ok writer started ∧
      let course := (Course.begun writer started).run moves
      let left := course.writer.release course.medium
      ∃ k, course.flushed ≤ k ∧ k ≤ course.acked.length ∧
        ∃ after, journal.readBack 1 true left.cleared = .ok (course.acked.take k) after := by
  intro journal ledger torn files medium moves
  have hfits : ledger.Fits := fun i => (by decide : 1 ≤ Frame.maxPayload)
  have hintact : journal.Intact ledger 0 medium.storage.files [] _ (1 : UInt64).toNat :=
    journal.intact_cut ledger 0 1 (Frame.torn_half (hfits 1))
  obtain ⟨writer, started, hstart, hdrop⟩ :=
    drop_anywhere hintact hfits rfl (by decide) (rfl : medium.armed = 0) rfl
  refine ⟨writer, started, hstart, ?_⟩
  have hlength : ((Course.begun writer started).run moves).acked.length ≤ 9 :=
    Course.length_acked_run_le (Course.begun writer started) moves
  obtain ⟨k, hflushed, hle, -, hread⟩ := hdrop moves (by decide)
    (Nat.lt_of_le_of_lt (Nat.add_le_add_left hlength 1) (by decide))
  exact ⟨k, hflushed, hle, hread⟩

/-- The bound is needed here, too: the flush promises the entry with the number before
`unknownStop`, and closing loses it. -/
theorem drop_loses_at_last :
    let journal := Journal.rooted "journal" { gcEnabled := false }
    let ledger : Ledger := fun i => [UInt8.ofNat i]
    let log := journal.log (unknownStop - 2) (unknownStop - 1)
    let files := PathMap.empty.insert log.location (ledger.frames log.start.toNat log.stop.toNat)
    let medium : Medium Memory := { storage := { publishing := .onFlush, files } }
    journal.Intact ledger 0 files [log] none log.stop.toNat ∧
      ∃ course, Course.started? journal log.stop medium = some course ∧
        let course := course.run [.write ⟨0, [97]⟩, .flush, .close]
        let left := course.writer.release course.medium
        course.acked = [⟨unknownStop - 1, [97]⟩] ∧ course.flushed = 1 ∧
          ∃ after, journal.readBack log.stop true left.cleared = .ok [] after := by
  intro journal ledger log files medium
  have hrun : (Course.started? journal log.stop medium).map (fun course =>
      let course := course.run [.write ⟨0, [97]⟩, .flush, .close]
      let left := course.writer.release course.medium
      (course.acked, course.flushed, (journal.readBack log.stop true).value? left.cleared)) =
      some ([⟨unknownStop - 1, [97]⟩], 1, some []) := by
    decide +kernel
  obtain ⟨course, hcourse, hchecked⟩ := Option.map_eq_some_iff.1 hrun
  simp only [Prod.mk.injEq] at hchecked
  obtain ⟨hacked, hflushed, hread⟩ := hchecked
  exact ⟨journal.intact_whole ledger _ (by decide) (by decide), course, hcourse, hacked, hflushed,
    _, Action.eq_ok_leaves hread⟩

end Journal.Intact

end SegmentedJournal
