import SegmentedJournal.Proofs.Rebuilding
import SegmentedJournal.Proofs.Sealing
/-!
# Resets that are made again

A reset seals the damaged log and then writes the entries behind the frontier into a new one.  If it
fails there, the new log is not there, or it holds the first of these entries and something torn
(`Journal.Begun`, `Writer.ensures_replay_begun`).  The next reset probes once more.  It finds the
same frontier, or one that the entries in the new log have moved on, and goes on behind them
(`Journal.InRow.goesOnAt`).

So where no checkpoint reaches past what was sealed, sealing keeps the frontier, and resets that are
made again start where the first one did, but for entries that have got onto the medium since
(`Journal.InRow.sealing_keeps`).  Where one does reach past it, sealing moves the frontier
(`Journal.InRow.sealing_moves`).
-/

namespace SegmentedJournal

open Memory (Stream)
open Medium (Fired Foiled Keeps Quieter)

/-! ### New logs that were begun -/

/-- The file at a path is not there or empty. -/
def PathMap.Vacant (files : PathMap Bytes) (path : String) : Prop :=
  ∀ contents ∈ files.get? path, contents = []

namespace PathMap

variable {path : String} {files : PathMap Bytes}

/-- A file that was made is empty, or not there yet. -/
theorem vacant_created (h : files.get? path = none) (publishing : Publishing) :
    (Medium.created publishing path files).Vacant path := by
  intro contents hget
  cases publishing with
  | onFlush =>
      rw [Medium.created, get?_insert, if_pos rfl] at hget
      exact (Option.some.inj hget).symm
  | onClose =>
      rw [Medium.created, Option.mem_def, h] at hget
      cases hget

/-- What a file is given counts, whether it was made before or not. -/
theorem insert_created (publishing : Publishing) (path : String) (files : PathMap Bytes)
    (contents : Bytes) :
    (Medium.created publishing path files).insert path contents = files.insert path contents := by
  cases publishing with
  | onClose => rfl
  | onFlush =>
      refine ext fun other => ?_
      simp only [Medium.created, get?_insert]
      split <;> rfl

end PathMap

namespace Memory

variable {path : String} {bytes : Bytes} {memory : Memory}

/-- What is published where nothing is becomes the file. -/
theorem files_publish_of_vacant (h : memory.files.Vacant path) :
    (memory.publish path bytes true).files = memory.files.insert path bytes := by
  cases hget : memory.files.get? path with
  | none => exact files_publish_of_none hget
  | some contents =>
      rw [files_publish_of_some hget, h contents hget, List.nil_append]

end Memory

namespace Medium

variable {stream : Stream} {medium : Medium Memory} {entry : Entry}

/-- A stream that can be used holds an entry back behind what it held; or it breaks, and nothing of
what it held is in the file, or everything with something torn behind it. -/
theorem ensures_write_entry (hlive : stream.phase = .live) (hfits : entry.Fits)
    (hvacant : medium.storage.files.Vacant stream.path) :
    (write entry.encode).Ensures (stream, medium)
      (fun _ s => s.1.path = stream.path ∧ s.1.phase = .live ∧
        s.1.pending = stream.pending ++ entry.encode ∧ s.2.storage.files = medium.storage.files)
      (fun _ s => s.1.phase ≠ .live ∧ (s.2.storage.files = medium.storage.files ∨
        ∃ tail, Frame.Torn tail ∧ s.2.storage.files =
          medium.storage.files.insert stream.path (stream.pending ++ tail))) := by
  have hne : entry.encode.isEmpty = false := by
    rw [List.isEmpty_eq_false_iff]
    exact entry.encode_ne_nil
  rw [write, hne, if_neg Bool.false_ne_true, ensures_onStream]
  simp only [Storage.write, Stream.write, Stream.refusal?, hlive]
  cases htake : Fault.takeWrite medium.storage.faults with
  | mk fired faults =>
    cases fired with
    | none => exact ⟨rfl, rfl, rfl, rfl⟩
    | some fate =>
        simp only [Stream.fail]
        refine ⟨fun hbroken => (by cases hbroken), ?_⟩
        split
        · exact .inl rfl
        · next hsome =>
          rcases Account.survivors_eq fate stream.pending (Frame.torn_half hfits) with
            heq | ⟨tail, htail, heq⟩
          · exact absurd heq hsome
          · rw [heq]
            have hrest : ({ medium.storage with faults } : Memory).files.Vacant stream.path :=
              hvacant
            exact .inr ⟨tail, htail, Memory.files_publish_of_vacant hrest⟩

end Medium

namespace OpenLog

variable {log : OpenLog Stream} {stream : Stream} {medium : Medium Memory} {entries : List Entry}

/-- Entries are held back by a stream; or it breaks, and nothing is in the file, or the first of the
entries with something torn behind them. -/
theorem ensures_writeAll_begun (hstream : log.stream = some stream) (hlive : stream.phase = .live)
    (hfits : ∀ entry ∈ entries, entry.Fits) (hpending : stream.pending = [])
    (hvacant : medium.storage.files.Vacant stream.path) :
    (writeAll entries).Ensures (log, medium) (fun _ _ => True)
      (fun _ s => s.1.Adrift ∧ (s.2.storage.files = medium.storage.files ∨
        ∃ written tail, written <+: entries ∧ Frame.Torn tail ∧ s.2.storage.files =
          medium.storage.files.insert stream.path (Entry.encodeAll written ++ tail))) := by
  refine (ensures_writeAll (I := fun before s => s.2.storage.files = medium.storage.files ∧
    ∃ stream', s.1.stream = some stream' ∧ stream'.path = stream.path ∧ stream'.phase = .live ∧
      stream'.pending = Entry.encodeAll before) ?_
    ⟨rfl, stream, hstream, rfl, hlive, hpending⟩).mono (fun _ _ _ => trivial) (fun _ _ h => h)
  rintro before entry rest ⟨log', middle⟩ heq ⟨hfiles, held, hheld, hpath, hlive', hpending'⟩
  dsimp only at hheld hfiles
  have hvacant' : middle.storage.files.Vacant held.path := by
    rwa [hfiles, hpath]
  have hentry : entry.Fits := hfits entry (by simp [heq])
  rw [write, Action.ensures_bind, Action.ensures_get]
  dsimp only
  rw [hheld]
  dsimp only
  rw [Action.ensures_bind, ensures_onStream]
  refine (Medium.ensures_write_entry hlive' hentry hvacant').mono ?_ ?_
  · rintro _ ⟨stream', after⟩ ⟨hpath', hlive'', hpending'', hfiles'⟩
    rw [Action.ensures_modify]
    exact ⟨hfiles'.trans hfiles, stream', rfl, hpath'.trans hpath, hlive'',
      hpending''.trans (by simp [hpending'])⟩
  · rintro e ⟨stream', after⟩ ⟨hbroken, hleft⟩
    refine ⟨by rintro _ ⟨⟩; exact hbroken, ?_⟩
    rcases hleft with hsame | ⟨tail, htail, hinserted⟩
    · exact .inl (hsame.trans hfiles)
    · refine .inr ⟨before, tail, heq ▸ List.prefix_append before _, htail, ?_⟩
      rw [hinserted, hfiles, hpath, hpending']

end OpenLog

namespace Journal

variable {journal : Journal} {start : UInt64} {written : List Entry} {files files' : PathMap Bytes}
  {snapshot : Snapshot}

/-- Besides what was there, the files may have a new log; it holds these entries and something
torn. -/
def Begun (journal : Journal) (start : UInt64) (written : List Entry)
    (files files' : PathMap Bytes) : Prop :=
  files' = files ∧ written = [] ∨
    ∃ tail, (∃ error, Frame.decode tail = .error error) ∧
      files' = files.insert (journal.log start unknownStop).location
        (Entry.encodeAll written ++ tail)

/-- A log that was made has no entries yet. -/
theorem begun_created (journal : Journal) (start : UInt64) (publishing : Publishing)
    (files : PathMap Bytes) :
    journal.Begun start [] files
      (Medium.created publishing (journal.log start unknownStop).location files) := by
  cases publishing with
  | onClose => exact .inl ⟨rfl, rfl⟩
  | onFlush => exact .inr ⟨[], Frame.decode_of_torn Frame.torn_nil, rfl⟩

/-- Nothing is in a log that is not there. -/
theorem Begun.eq_nil (h : journal.Begun start written files files')
    (habsent : files'.get? (journal.log start unknownStop).location = none) : written = [] := by
  rcases h with ⟨-, hnil⟩ | ⟨tail, -, rfl⟩
  · exact hnil
  · rw [PathMap.get?_insert, if_pos rfl] at habsent
    cases habsent

/-- Where nothing is current, no file of a log to begin is there. -/
theorem absent_of_snapshotOf_eq (hsnapshot : journal.snapshotOf files = .ok snapshot)
    (hnone : snapshot.current = none) (hstart : start ≤ unknownStop) :
    files.get? (journal.log start unknownStop).location = none := by
  have hlists : journal.Lists files snapshot.checkpoints snapshot.logs snapshot.current :=
    lists_of_snapshotOf_eq hsnapshot
  rw [hnone] at hlists
  exact hlists.absent_incomplete hstart

/-- A log that was begun shows in the snapshot as the current one, and its entries move the
frontier. -/
theorem Begun.frontierOf_eq (h : journal.Begun start written files files')
    (hsnapshot : journal.snapshotOf files = .ok snapshot) (hnone : snapshot.current = none)
    (hstart : start ≤ unknownStop) (hfits : ∀ entry ∈ written, entry.Fits) :
    ∃ current, journal.frontierOf files' = .ok (.ofSnapshot { snapshot with current }
      (written.foldl (fun best entry => SegmentReader.greater best entry.sequence) none)) := by
  rcases h with ⟨rfl, rfl⟩ | ⟨tail, htail, rfl⟩
  · refine ⟨none, ?_⟩
    rw [frontierOf_of_none hsnapshot hnone, ← hnone]
    rfl
  · have hlists := lists_of_snapshotOf_eq hsnapshot
    rw [hnone] at hlists
    have hbegun : journal.Lists (files.insert (journal.log start unknownStop).location
        (Entry.encodeAll written ++ tail)) snapshot.checkpoints snapshot.logs
          (some (journal.log start unknownStop)) :=
      hlists.insert_current (journal.places_log hstart (UInt64.le_refl _)) rfl rfl
    refine ⟨some (journal.log start unknownStop), ?_⟩
    have hget : (files.insert (journal.log start unknownStop).location
        (Entry.encodeAll written ++ tail)).get? (journal.log start unknownStop).location =
          some (Entry.encodeAll written ++ tail) := by
      rw [PathMap.get?_insert, if_pos rfl]
    rw [frontierOf_of_some hbegun.snapshotOf_eq rfl hget, SegmentReader.greatest?,
      SegmentReader.greatestFrom_encodeAll hfits htail rfl]

end Journal

namespace Writer

variable {writer : Writer Stream} {medium : Medium Memory} {start : UInt64} {entries : List Entry}

/-- Where a reset that finds a frontier starts its new log. -/
def replayStart (writer : Writer Stream) (expected : UInt64) : UInt64 :=
  (writer.remaining expected).head?.elim writer.next Entry.sequence

/-- A new log that could not be finished is not there, or it holds the first of the entries. -/
theorem ensures_replay_begun (hfits : ∀ entry ∈ entries, entry.Fits)
    (habsent : medium.storage.files.get? (writer.journal.log start unknownStop).location = none) :
    (replay start entries).Ensures (writer, medium) (fun _ _ => True)
      (fun _ s => (∀ log ∈ s.1.log, log.Adrift) ∧ (∃ log, s.1 = { writer with log }) ∧
        ∃ written, written <+: entries ∧
          writer.journal.Begun start written medium.storage.files s.2.storage.files) := by
  rw [replay, Action.ensures_bind]
  refine (ensures_openLog start writer medium).mono ?_ ?_
  · rintro log ⟨_, opened⟩ ⟨hlog, rfl, -, hfiles⟩
    have hstream : log.stream = some { path := (writer.journal.log start unknownStop).location } :=
      congrArg OpenLog.stream hlog
    have hvacant : opened.storage.files.Vacant (writer.journal.log start unknownStop).location := by
      rw [hfiles]
      exact PathMap.vacant_created habsent medium.storage.publishing
    rw [Action.ensures_bind, ensures_onLog]
    refine (OpenLog.ensures_writeAll_begun hstream rfl hfits rfl hvacant).mono
      (fun _ _ _ => trivial) ?_
    rintro e ⟨log, after⟩ ⟨hadrift, hbegun⟩
    refine ⟨by rintro _ ⟨⟩; exact hadrift, ⟨some log, rfl⟩, ?_⟩
    rcases hbegun with hsame | ⟨written, tail, hwritten, htail, hinserted⟩
    · refine ⟨[], List.nil_prefix, ?_⟩
      rw [hsame, hfiles]
      exact Journal.begun_created writer.journal start _ _
    · refine ⟨written, hwritten, .inr ⟨tail, Frame.decode_of_torn htail, ?_⟩⟩
      rw [hinserted, hfiles, PathMap.insert_created]
  · rintro e ⟨_, after⟩ ⟨rfl, hfoiled⟩
    exact ⟨fun _ hnone => (by cases hnone), ⟨none, rfl⟩, [], List.nil_prefix,
      .inl ⟨hfoiled.files_eq, rfl⟩⟩

variable {frontier : Frontier} {expected : UInt64} {writer' : Writer Stream}
  {done failed : Medium Memory} {answer : Option Segment}

/-- A rebuilding that fails behind its sealing leaves a new log that is not there or was begun. -/
theorem ensures_rebuild_begun (hseal : writer.journal.sealAt frontier medium = .ok answer done)
    (hjournal : writer'.journal = writer.journal)
    (hfits : ∀ entry ∈ writer.remaining expected, entry.Fits)
    (habsent : done.storage.files.get?
      (writer.journal.log (writer.replayStart expected) unknownStop).location = none) :
    (rebuild writer frontier expected).Ensures (writer', medium) (fun _ _ => True)
      (fun _ s => (∀ log ∈ s.1.log, log.Adrift) ∧
        (∃ log, s.1 = { writer' with log, unflushed := writer.remaining expected }) ∧
        ∃ written, written <+: writer.remaining expected ∧
          writer.journal.Begun (writer.replayStart expected) written done.storage.files
            s.2.storage.files) := by
  rw [rebuild, Action.ensures_bind, Action.ensures_discard, Action.ensures_onSecond]
  refine Action.ensures_of_ok hseal ?_
  rw [Action.ensures_bind, ensures_update]
  rw [← hjournal] at habsent ⊢
  refine Action.Ensures.mono (ensures_replay_begun hfits habsent) (fun _ _ h => h) ?_
  rintro e ⟨_, after⟩ ⟨hadrift, ⟨log, rfl⟩, hbegun⟩
  exact ⟨hadrift, ⟨log, rfl⟩, hbegun⟩

/-- A reset that succeeds opens its log there. -/
theorem exists_log_of_reset {surveyed after : Writer Stream × Medium Memory}
    (hadrift : ∀ log ∈ writer.log, log.Adrift)
    (hsurvey : survey (writer, medium) = .ok (frontier, expected) surveyed)
    (hcheck : writer.checkFrontier expected = .ok ())
    (hreset : reset (writer, medium) = .ok () after) :
    ∃ log ∈ after.1.log, log.segment.start = writer.replayStart expected := by
  obtain ⟨hgaveUp, -, -⟩ := (ends_survey hadrift medium).of_ok hsurvey
  have hgiven : ∀ log ∈ surveyed.1.log, log.Adrift := hgaveUp ▸ adrift_gaveUp writer
  obtain ⟨-, -, -, hlog⟩ := (ends_rebuild frontier hgiven surveyed.2).of_ok
    ((reset_of_checkFrontier_ok hsurvey hcheck).symm.trans hreset)
  exact hlog

/-- What remains of a tidy writer's queue is a run from where the new log starts; unless it is empty
it starts at the frontier. -/
theorem Tidy.exists_run (h : writer.Tidy) (hcheck : writer.checkFrontier expected = .ok ()) :
    ∃ (ledger : Ledger) (f : Nat), f ≤ writer.next.toNat ∧
      writer.remaining expected = ledger.entries f writer.next.toNat ∧
      (writer.replayStart expected).toNat = f ∧ (f < writer.next.toNat → expected.toNat = f) := by
  obtain ⟨⟨ledger, f, hf, hremaining⟩, hstart⟩ := h.remaining hcheck
  have hsize : writer.next.toNat < UInt64.size := writer.next.toNat_lt
  refine ⟨ledger, f, hf, hremaining, ?_⟩
  unfold replayStart
  rcases Nat.eq_or_lt_of_le hf with heq | hlt
  · rw [hremaining, heq, Ledger.entries_self]
    exact ⟨rfl, fun hlt => absurd hlt (Nat.lt_irrefl _)⟩
  · have hhead : (writer.remaining expected).head?.elim writer.next Entry.sequence =
        UInt64.ofNat f := by
      rw [hremaining, Ledger.entries_cons hlt]
      rfl
    have hne : writer.unflushed ≠ [] := by
      intro hnil
      have hempty : writer.remaining expected = [] := by
        rw [Writer.remaining, hnil, List.dropWhile_nil]
      rw [hremaining, Ledger.entries_cons hlt] at hempty
      cases hempty
    have hself : (UInt64.ofNat f).toNat = f := UInt64.toNat_ofNat_of_lt (by omega)
    rw [hhead, if_neg hne] at hstart
    rw [hhead, ← hstart]
    exact ⟨hself, fun _ => hself⟩

/-- Where the first entries of a queue that starts at the frontier have become durable, a reset goes
on behind them. -/
theorem replayStart_of_durable {ledger : Ledger} {f j : Nat}
    (hqueue : writer.unflushed = ledger.entries f writer.next.toNat)
    (hle : f + j ≤ writer.next.toNat) (hahead : expected ≤ writer.next)
    (hself : f < writer.next.toNat → expected.toNat = f) :
    let found := if j = 0 then expected else UInt64.ofNat (f + j)
    writer.checkFrontier found = .ok () ∧ (writer.replayStart found).toNat = f + j := by
  intro found
  have hsize : writer.next.toNat < UInt64.size := writer.next.toNat_lt
  rw [checkFrontier_eq_ok_iff]
  unfold replayStart Writer.remaining
  rcases Nat.eq_or_lt_of_le (Nat.le_trans (Nat.le_add_right f j) hle) with heq | hlt
  · obtain rfl : j = 0 := by omega
    rw [hqueue, heq, Ledger.entries_self]
    exact ⟨⟨fun _ hnone => (by cases hnone), hahead⟩, rfl⟩
  · have hfound : found = UInt64.ofNat (f + j) := by
      rw [show found = if j = 0 then expected else UInt64.ofNat (f + j) from rfl]
      split
      · next hzero => rw [hzero, Nat.add_zero, ← hself hlt, UInt64.ofNat_toNat]
      · rfl
    have hnumber : (UInt64.ofNat (f + j)).toNat = f + j := UInt64.toNat_ofNat_of_lt (by omega)
    rw [hfound, hqueue, Ledger.dropWhile_entries (Nat.le_add_right f j) hle hsize]
    refine ⟨⟨?_, ?_⟩, ?_⟩
    · intro first hfirst
      rw [Ledger.entries_cons hlt] at hfirst
      cases hfirst
      rw [UInt64.le_iff_toNat_le, ledger.toNat_sequence (by omega), hnumber]
      exact Nat.le_add_right f j
    · rwa [UInt64.le_iff_toNat_le, hnumber]
    · rcases Nat.eq_or_lt_of_le hle with heq | hlt'
      · rw [heq, Ledger.entries_self]
        rfl
      · rw [Ledger.entries_cons hlt']
        exact hnumber

/-! ### Resets that break off -/

/-- A reset found this frontier, sealed the log there and failed behind that; this is the writer it
left, and the medium behind the sealing and behind the failure. -/
structure BreaksOff (writer : Writer Stream) (medium : Medium Memory) (frontier : Frontier)
    (expected : UInt64) (done : Medium Memory) (writer' : Writer Stream)
    (failed : Medium Memory) : Prop where
  /-- The log was sealed at the frontier that was found. -/
  seals : ∃ surveyed answer, survey (writer, medium) = .ok (frontier, expected) surveyed ∧
    writer.journal.sealAt frontier surveyed.2 = .ok answer done
  /-- The frontier contradicts nothing. -/
  check : writer.checkFrontier expected = .ok ()
  /-- The reset failed. -/
  fails : ∃ failure, reset (writer, medium) = .error failure (writer', failed)

/-- What it leaves of a new log was begun, and the writer has the rest of its queue. -/
theorem BreaksOff.begun (h : writer.BreaksOff medium frontier expected done writer' failed)
    (hadrift : ∀ log ∈ writer.log, log.Adrift)
    (hfits : ∀ entry ∈ writer.remaining expected, entry.Fits)
    (habsent : done.storage.files.get?
      (writer.journal.log (writer.replayStart expected) unknownStop).location = none) :
    (∀ log ∈ writer'.log, log.Adrift) ∧
      (∃ log, writer' = { writer.gaveUp with log, unflushed := writer.remaining expected }) ∧
      ∃ written, written <+: writer.remaining expected ∧
        writer.journal.Begun (writer.replayStart expected) written done.storage.files
          failed.storage.files := by
  obtain ⟨⟨⟨given, middle⟩, answer, hsurvey, hseal⟩, hcheck, failure, hreset⟩ := h
  obtain ⟨hgave, -, -⟩ := (ends_survey hadrift medium).of_ok hsurvey
  obtain rfl : given = writer.gaveUp := hgave
  exact (ensures_rebuild_begun hseal (rfl : writer.gaveUp.journal = _) hfits
    habsent).endsIn.of_failure
    ((reset_of_checkFrontier_ok hsurvey hcheck).symm.trans hreset)

/-- A reset is needed, and wherever it is made on these files, it starts its log at this number. -/
structure GoesOnAt (writer : Writer Stream) (medium : Medium Memory) (x : Nat) : Prop where
  /-- A reset is needed. -/
  needs : writer.needsReset = true
  /-- With nothing armed it finds a frontier. -/
  exists_survey : ∃ found surveyed, survey (writer, medium.cleared) = .ok found surveyed
  /-- The frontier contradicts nothing, and gives the number. -/
  start : ∀ armed frontier expected surveyed, Journal.Reseals medium armed →
    survey (writer, armed) = .ok (frontier, expected) surveyed →
    writer.checkFrontier expected = .ok () ∧ (writer.replayStart expected).toNat = x
  /-- If the reset succeeds, the log starts there. -/
  log : ∀ armed after, Journal.Reseals medium armed → reset (writer, armed) = .ok () after →
    ∃ log ∈ after.1.log, log.segment.start.toNat = x

/-- Files that have a frontier tell where a writer without a stream goes on. -/
theorem goesOnAt_of_frontierOf {x : Nat} (hneeds : writer.needsReset = true)
    (hadrift : ∀ log ∈ writer.log, log.Adrift)
    (hfrontier : writer.journal.frontierOf medium.storage.files = .ok frontier)
    (hnext : frontier.next? = some expected)
    (hcheck : writer.checkFrontier expected = .ok ())
    (hstart : (writer.replayStart expected).toNat = x) : writer.GoesOnAt medium x := by
  have hfound (armed : Medium Memory) (second : Frontier) (expected' : UInt64)
      (surveyed : Writer Stream × Medium Memory) (harmed : Journal.Reseals medium armed)
      (hsurvey : survey (writer, armed) = .ok (second, expected') surveyed) :
      expected' = expected := by
    obtain ⟨-, ⟨hok, -⟩, hexpected⟩ :=
      (ends_survey_frontierOf hadrift harmed.honest).of_ok hsurvey
    rw [harmed.rearmed.files_eq, hfrontier] at hok
    obtain rfl : frontier = second := Except.ok.inj hok
    exact Option.some.inj (hexpected.symm.trans hnext)
  refine ⟨hneeds, ?_, ?_, ?_⟩
  · have hcrash : ¬ ∃ found, writer.journal.frontierOf medium.cleared.storage.files = .ok found ∧
        found.next? = none := by
      rintro ⟨found, hok, hover⟩
      cases hfrontier.symm.trans hok
      rw [hnext] at hover
      cases hover
    obtain ⟨found, surveyed, hsurvey, -⟩ :=
      ((ends_survey_frontierOf hadrift (Journal.reseals_cleared medium).honest).ensures
        hcrash).exists_ok fun e after hfailed => by
          rcases hfailed.2 with ⟨herror, -⟩ | ⟨-, hfoiled⟩
          · cases hfrontier.symm.trans herror
          · exact hfoiled.toFired.elim (Medium.armed_cleared medium)
    exact ⟨found, surveyed, hsurvey⟩
  · intro armed second expected' surveyed harmed hsurvey
    obtain rfl := hfound armed second expected' surveyed harmed hsurvey
    exact ⟨hcheck, hstart⟩
  · intro armed after harmed hreset
    cases hsurvey : survey (writer, armed) with
    | error failure surveyed =>
        cases (reset_of_survey_error hsurvey).symm.trans hreset
    | ok found surveyed =>
        obtain ⟨second, expected'⟩ := found
        obtain rfl := hfound armed second expected' surveyed harmed hsurvey
        obtain ⟨log, hlog, hat⟩ := exists_log_of_reset hadrift hsurvey hcheck hreset
        exact ⟨log, hlog, hat ▸ hstart⟩

end Writer

namespace Journal

open Writer (survey reset)

variable {journal : Journal} {files files' : PathMap Bytes} {snapshot : Snapshot} {ledger : Ledger}
  {start expected : UInt64} {f j : Nat}

/-- The entries of a log that was begun move the frontier on, and without any it stays. -/
theorem Begun.exists_frontierOf (h : journal.Begun start (ledger.entries f (f + j)) files files')
    (hsnapshot : journal.snapshotOf files = .ok snapshot) (hnone : snapshot.current = none)
    (hstart : start ≤ unknownStop) (hfits : ∀ entry ∈ ledger.entries f (f + j), entry.Fits)
    (hsize : f + j < UInt64.size)
    (hnext : (Frontier.ofSnapshot snapshot none).next? = some expected) :
    ∃ frontier, journal.frontierOf files' = .ok frontier ∧
      frontier.next? = some (if j = 0 then expected else UInt64.ofNat (f + j)) := by
  obtain ⟨current, hfrontier⟩ := h.frontierOf_eq hsnapshot hnone hstart hfits
  refine ⟨_, hfrontier, ?_⟩
  cases j with
  | zero =>
      rw [if_pos rfl, ← hnext, Nat.add_zero, Ledger.entries_self]
      rfl
  | succ j =>
      rw [if_neg (Nat.succ_ne_zero j)]
      refine Frontier.next?_eq ?_ hsize
      rw [Frontier.ofSnapshot, ← Nat.add_assoc, Ledger.foldl_greater (Nat.le_add_right f j) hsize,
        Option.some_or, before?_of_lt (Nat.succ_pos _)]
      rfl

/-! ### Retries -/

variable {writer writer' : Writer Stream} {medium done failed : Medium Memory}
  {frontier : Frontier} {expected : UInt64}

/-- Behind the sealing there is no current log, and the frontier is what it was. -/
theorem InRow.exists_sealed (h : writer.journal.InRow medium.storage.files snapshot)
    (hhonest : medium.Honest) (hadrift : ∀ log ∈ writer.log, log.Adrift)
    (hbreaks : writer.BreaksOff medium frontier expected done writer' failed)
    (hwithin : snapshot.Within frontier.lastInIncomplete) :
    ∃ left : Snapshot, writer.journal.snapshotOf done.storage.files = .ok left ∧
      left.current = none ∧ (Frontier.ofSnapshot left none).next? = some expected := by
  obtain ⟨⟨surveyed, answer, hsurvey, hseal⟩, -, -⟩ := hbreaks
  obtain ⟨-, ⟨hfrontier, hkeeps⟩, hexpected⟩ :=
    (Writer.ends_survey_frontierOf hadrift hhonest).of_ok hsurvey
  obtain ⟨last, hending⟩ := h.exists_ending
  obtain rfl : frontier = .ofSnapshot snapshot last :=
    Except.ok.inj (hfrontier.symm.trans hending.frontierOf_eq)
  rw [← hkeeps.files_eq] at hending
  obtain ⟨-, hdone⟩ := hending.ensures_sealAt.of_ok hseal
  refine ⟨_, hdone ▸ hending.snapshotOf_sealedIn, snapshot.current_sealed writer.journal last, ?_⟩
  rw [← hexpected]
  unfold Frontier.next?
  rw [(Frontier.lastPersisted_sealed_eq_iff hending.isSome hending.add_one_ne_zero).2 hwithin]

/-- A reset that failed behind its sealing and is made again goes on where the first one started,
but behind the entries that are in the new log. -/
theorem InRow.goesOnAt (h : writer.journal.InRow medium.storage.files snapshot)
    (hhonest : medium.Honest) (htidy : writer.Tidy) (hneeds : writer.needsReset = true)
    (hfits : ∀ entry ∈ writer.unflushed, entry.Fits) (hnext : writer.next ≤ unknownStop)
    (hbreaks : writer.BreaksOff medium frontier expected done writer' failed)
    (hwithin : snapshot.Within frontier.lastInIncomplete) :
    ∃ written, written <+: writer.remaining expected ∧
      writer.journal.Begun (writer.replayStart expected) written done.storage.files
        failed.storage.files ∧
      writer'.GoesOnAt failed ((writer.replayStart expected).toNat + written.length) := by
  obtain ⟨left, hsealed, hnone, hkept⟩ :=
    h.exists_sealed hhonest (htidy.adrift hneeds) hbreaks hwithin
  obtain ⟨ledger, f, hf, hremaining, hstart, hself⟩ := htidy.exists_run hbreaks.check
  have hbound : writer.replayStart expected ≤ unknownStop := by
    rw [UInt64.le_iff_toNat_le] at hnext ⊢
    omega
  have hremainingFits : ∀ entry ∈ writer.remaining expected, entry.Fits := fun entry hentry =>
    hfits entry ((List.dropWhile_sublist _).subset hentry)
  obtain ⟨hadrift, ⟨log, hleft⟩, written, hwritten, hbegun⟩ :=
    hbreaks.begun (htidy.adrift hneeds) hremainingFits
      (absent_of_snapshotOf_eq hsealed hnone hbound)
  -- What was written are the first entries of what remained.
  have hlength : f + written.length ≤ writer.next.toNat := by
    have hle := hwritten.length_le
    rw [hremaining, Ledger.length_entries] at hle
    omega
  have hrun : written = ledger.entries f (f + written.length) := by
    rw [← Ledger.take_entries hlength, ← hremaining]
    exact List.prefix_iff_eq_take.1 hwritten
  have hrunFits : ∀ entry ∈ ledger.entries f (f + written.length), entry.Fits := by
    rw [← hrun]
    exact fun entry hentry => hremainingFits entry (hwritten.subset hentry)
  refine ⟨written, hwritten, hbegun, ?_⟩
  rw [hrun] at hbegun
  obtain ⟨second, hfound, hsecond⟩ := hbegun.exists_frontierOf hsealed hnone hbound hrunFits
    (Nat.lt_of_le_of_lt hlength writer.next.toNat_lt) hkept
  -- The writer that is left has the rest of the queue, up to the same number.
  have hqueue : ({ writer.gaveUp with log, unflushed := writer.remaining expected } :
      Writer Stream).unflushed = ledger.entries f writer.next.toNat := hremaining
  obtain ⟨-, hahead⟩ := Writer.checkFrontier_eq_ok_iff.1 hbreaks.check
  obtain ⟨hpasses, hgoes⟩ := Writer.replayStart_of_durable hqueue hlength hahead hself
  subst hleft
  rw [hstart]
  exact Writer.goesOnAt_of_frontierOf hneeds hadrift hfound hsecond hpasses hgoes

/-- **What sealing keeps.**  Files are in a row, a probe finds a frontier, and the current log is
sealed there.  Then another probe finds no incomplete log, and it finds the same frontier just if no
checkpoint reaches past the last entry of the log that was sealed.  If none does, a reset that
fails behind its sealing and is made again goes on where the first one started its log, but behind
the entries that have got into that log, of which there are none unless it was made.

The writer is tidy, as every writer is that can be reached and has not crashed (`Writer.Tidy`).  Its
entries fit into frames, and its next number is one that a log can start with. -/
theorem InRow.sealing_keeps (h : journal.InRow medium.storage.files snapshot)
    (hhonest : medium.Honest) :
    (∀ frontier done, journal.SealedAt medium frontier done →
      (∃ second after, journal.probe done.cleared = .ok second after) ∧
      ∀ armed second after, Reseals done armed → journal.probe armed = .ok second after →
        second.incomplete = none ∧ (second.lastPersisted = frontier.lastPersisted ↔
          snapshot.Within frontier.lastInIncomplete)) ∧
    ∀ (writer writer' : Writer Stream) frontier expected done failed,
      writer.journal = journal → writer.Tidy → writer.needsReset = true →
      (∀ entry ∈ writer.unflushed, entry.Fits) → writer.next ≤ unknownStop →
      writer.BreaksOff medium frontier expected done writer' failed →
      snapshot.Within frontier.lastInIncomplete →
      ∃ written, written <+: writer.remaining expected ∧
        journal.Begun (writer.replayStart expected) written done.storage.files
          failed.storage.files ∧
        (failed.storage.files.get?
          (journal.log (writer.replayStart expected) unknownStop).location = none →
            written = []) ∧
        writer'.GoesOnAt failed ((writer.replayStart expected).toNat + written.length) := by
  constructor
  · intro frontier done hseal
    obtain ⟨hexists, hall⟩ := h.probe_again hhonest hseal
    refine ⟨hexists, fun armed second after harmed hprobe => ?_⟩
    obtain ⟨hnone, -, hiff⟩ := hall armed second after harmed hprobe
    exact ⟨hnone, hiff⟩
  · rintro writer writer' frontier expected done failed rfl htidy hneeds hfits hnext hbreaks hwithin
    obtain ⟨written, hwritten, hbegun, hgoes⟩ :=
      h.goesOnAt hhonest htidy hneeds hfits hnext hbreaks hwithin
    exact ⟨written, hwritten, hbegun, hbegun.eq_nil, hgoes⟩

/-- A checkpoint that reaches past the last entry moves the frontier, once the log is sealed. -/
theorem InRow.sealing_moves :
    let journal := Journal.rooted "journal" { gcEnabled := false }
    let ledger : Ledger := fun i => [UInt8.ofNat i]
    let medium : Medium Memory :=
      { storage := { publishing := .onFlush, files := journal.rowOf ledger 2 5 3 [7] } }
    ∃ snapshot frontier done second after, journal.InRow medium.storage.files snapshot ∧
      journal.SealedAt medium frontier done ∧ journal.probe done.cleared = .ok second after ∧
      frontier.lastPersisted = some 2 ∧ second.lastPersisted = some 4 := by
  intro journal ledger medium
  have hfits : ledger.Fits := fun i => (by decide : 1 ≤ Frame.maxPayload)
  have hending : journal.Ending medium.storage.files ⟨[journal.checkpoint 0 5],
      [journal.log 0 2], some (journal.log 2 unknownStop)⟩ (some 2) :=
    journal.ending_rowOf hfits (by decide) (by decide) (by decide) (by decide) ⟨_, rfl⟩
  obtain ⟨done, hseal⟩ := hending.exists_sealedAt rfl
  obtain ⟨⟨second, after, hprobe⟩, hall⟩ :=
    hending.toInRow.probe_again (Medium.tame_of_armed rfl).honest hseal
  obtain ⟨-, hsecond, -⟩ := hall _ second after (reseals_cleared done) hprobe
  exact ⟨_, _, done, second, after, hending.toInRow, hseal, hprobe, rfl,
    hsecond.trans (by decide +kernel)⟩

/-- For example, behind entry 2; and where the new log cannot be made, behind a log without
entries. -/
theorem InRow.sealing_keeps_within :
    let journal := Journal.rooted "journal" { gcEnabled := false }
    let ledger : Ledger := fun i => [UInt8.ofNat i]
    let medium : Medium Memory :=
      { storage := { publishing := .onFlush, files := journal.rowOf ledger 2 1 3 [7] } }
    let files := (PathMap.empty.insert (journal.log 2 unknownStop).location [7]).insert
      (journal.checkpoint 0 2).location []
    let armed : Medium Memory :=
      { storage := { publishing := .onFlush, files, faults := [.create] } }
    let writer : Writer Stream :=
      { journal, next := 3, unflushed := [⟨2, [1]⟩], needsReset := true }
    (∃ frontier done second after, journal.SealedAt medium frontier done ∧
      journal.probe done.cleared = .ok second after ∧ second.incomplete = none ∧
      second.lastPersisted = some 2 ∧ frontier.lastPersisted = some 2) ∧
    ∃ frontier done writer' failed, writer.BreaksOff armed frontier 2 done writer' failed ∧
      writer'.GoesOnAt failed 2 := by
  intro journal ledger medium files armed writer
  have hfits : ledger.Fits := fun i => (by decide : 1 ≤ Frame.maxPayload)
  constructor
  · have hending : journal.Ending medium.storage.files ⟨[journal.checkpoint 0 1],
        [journal.log 0 2], some (journal.log 2 unknownStop)⟩ (some 2) :=
      journal.ending_rowOf hfits (by decide) (by decide) (by decide) (by decide) ⟨_, rfl⟩
    obtain ⟨done, hseal⟩ := hending.exists_sealedAt rfl
    obtain ⟨hkeeps, -⟩ := hending.toInRow.sealing_keeps (Medium.tame_of_armed rfl).honest
    obtain ⟨⟨second, after, hprobe⟩, hall⟩ := hkeeps _ done hseal
    obtain ⟨hnone, hiff⟩ := hall _ second after (reseals_cleared done) hprobe
    refine ⟨_, done, second, after, hseal, hprobe, hnone, hiff.2 ?_, rfl⟩
    rintro x ⟨⟩ checkpoint hcheckpoint
    obtain rfl := List.mem_singleton.1 hcheckpoint
    decide
  · have hplaces : journal.Places (journal.checkpoint 0 2) :=
      journal.places_checkpoint (by decide) (by decide)
    have hcurrent : journal.Lists (PathMap.empty.insert (journal.log 2 unknownStop).location [7])
        [] [] (some (journal.log 2 unknownStop)) :=
      (lists_of_snapshotOf_eq journal.snapshotOf_empty).insert_current
        (journal.places_log (by decide) (by decide)) rfl rfl
    have htail : ∃ error, Frame.decode [7] = .error error := ⟨_, rfl⟩
    have hget : files.get? (journal.log 2 unknownStop).location =
        some (ledger.frames 2 2 ++ [7]) := by
      rw [hcurrent.get?_insert_checkpoint hplaces rfl, PathMap.get?_insert, if_pos rfl]
      rfl
    have hrow : journal.InRow armed.storage.files
        ⟨[journal.checkpoint 0 2], [], some (journal.log 2 unknownStop)⟩ :=
      (hcurrent.insert_only_checkpoint hplaces rfl).inRow rfl hfits (by decide) (by decide) htail
        hget
    have htidy : writer.Tidy :=
      ⟨fun _ _ hnone => (by cases hnone), fun _ => [1], 2, by decide, rfl⟩
    have hqueue : ∀ entry ∈ writer.unflushed, entry.Fits := by
      decide
    have hrun : (survey.value? (writer, armed)).map (fun found => (found.2,
        ((journal.sealAt found.1).value? (survey.leaves (writer, armed)).2).isSome,
        found.1.lastInIncomplete, (reset.error? (writer, armed)).isSome,
        ((reset.leaves (writer, armed)).2.storage.files.get?
          (journal.log 2 unknownStop).location).isNone)) = some (2, true, none, true, true) := by
      decide +kernel
    simp only [Prod.mk.injEq, Option.map_eq_some_iff, Option.isSome_iff_exists,
      Option.isNone_iff_eq_none] at hrun
    obtain ⟨⟨frontier, expected⟩, hsurvey, rfl, ⟨answer, hseal⟩, hnone, ⟨failure, hreset⟩,
      habsent⟩ := hrun
    obtain ⟨-, hagain⟩ := hrow.sealing_keeps fun _ hcall => (by cases hcall)
    have hfails := Action.eq_error_leaves hreset
    generalize reset.leaves (writer, armed) = left at hfails habsent
    obtain ⟨writer', failed⟩ := left
    have hbreaks : writer.BreaksOff armed frontier 2 _ writer' failed :=
      ⟨⟨_, answer, Action.eq_ok_leaves hsurvey, Action.eq_ok_leaves hseal⟩, rfl, _, hfails⟩
    have hwithin : Snapshot.Within ⟨[journal.checkpoint 0 2], [],
        some (journal.log 2 unknownStop)⟩ frontier.lastInIncomplete := by
      rw [hnone]
      exact fun _ => nofun
    obtain ⟨written, -, -, hnil, hgoes⟩ :=
      hagain writer writer' frontier 2 _ failed rfl htidy rfl hqueue (by decide) hbreaks hwithin
    rw [hnil habsent] at hgoes
    exact ⟨frontier, _, writer', failed, hbreaks, hgoes⟩

end Journal

end SegmentedJournal
