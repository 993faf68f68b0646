import SegmentedJournal.Proofs.Reached
import SegmentedJournal.Proofs.Survival
/-!
# What a failing close loses

Where only the closing of a stream publishes, a flush succeeds without publishing anything, and the
writer lets go of the entries it covered.  Only the stream holds them then, until the next write
closes it.  If that closing fails they are gone, and durable data end where the log began.

The reset that follows could notice: the next number is behind the frontier.  But it looks for a gap
before the first entry of the queue only (`Writer.checkFrontier`), and the queue is empty.  So it
opens a log at the next number (`Account.Stands.ensures_reset_of_nil`), and the writer closes
without an error.  What a flush had promised is lost and nothing is reported missing
(`Journal.Intact.lost_with_stream`).
-/

namespace SegmentedJournal

open Memory (Stream)
open Medium (Fired Foiled Quieter)

/-! ### A closing that fails -/

/-- The failure of the next closing of a stream. -/
def CallFault.closing : CallFault := ⟨.close, 0, ""⟩

namespace OpenLog

variable {log : OpenLog Stream} {stream : Stream} {medium : Medium Memory}

theorem closeStream_of_closing (stream : Stream) (h : medium.callFaults = [.closing]) :
    (closeStream stream : Action IoError (Medium Memory) Unit) medium =
      .error (.error (Medium.scripted "close")) { medium with callFaults := [] } := by
  obtain ⟨storage, callFaults, counters, warnings⟩ := medium
  obtain rfl : callFaults = [.closing] := h
  rfl

/-- A log whose stream cannot be closed is not completed, and the stream is let go. -/
theorem commit_of_closing (hstream : log.stream = some stream)
    (h : medium.callFaults = [.closing]) (journal : Journal) (next : UInt64) :
    commit journal next (log, medium) =
      .error (.error (.writeFailure log.location (Medium.scripted "close")))
        ({ log with stream := none }, { medium with callFaults := [] }) := by
  unfold commit
  rw [Action.get_bind_apply]
  refine (Action.bind_of_ok (rfl : takeStream (log, medium) =
    .ok log.stream ({ log with stream := none }, medium))).trans ?_
  rw [hstream]
  refine Action.bind_of_error ?_
  unfold Action.onSecond Action.zoom Action.mapError
  dsimp only
  rw [closeStream_of_closing stream h]

end OpenLog

namespace Writer

variable {writer : Writer Stream} {log : OpenLog Stream} {stream : Stream}
  {medium : Medium Memory}

/-- A write that has to complete a log first fails with the closing of its stream. -/
theorem ensures_write_of_closing (hopen : writer.closed = false) (hsound : writer.poisoned = false)
    (hsteady : writer.needsReset = false) (hlog : writer.log = some log)
    (hrotate : writer.rotateNext = true) (hstream : log.stream = some stream)
    (h : medium.callFaults = [.closing]) (entry : Entry) :
    (write entry).Ensures (writer, medium) (fun _ _ => False)
      (fun e s => e = .writeFailure log.location (Medium.scripted "close") ∧
        s = ({ writer.gaveUp with needsReset := true }, { medium with callFaults := [] })) := by
  refine ensures_operation _ ?_ hsound
  rw [append, Action.ensures_bind, Action.ensures_get]
  dsimp only
  rw [hopen, if_neg Bool.false_ne_true, Action.ensures_bind, settle, Action.ensures_bind,
    Action.ensures_get]
  dsimp only
  rw [hsteady, if_neg Bool.false_ne_true, Action.ensures_pure, Action.ensures_bind,
    Action.ensures_get]
  dsimp only
  rw [Action.ensures_bind, logForNext, Action.ensures_bind, Action.ensures_get]
  dsimp only
  rw [hlog]
  dsimp only
  rw [hrotate, if_pos rfl, rotate, Action.ensures_bind, Action.ensures_get]
  dsimp only
  rw [hlog]
  dsimp only
  rw [Action.ensures_bind, Action.ensures_discard, ensures_resetAfter, ensures_onLog,
    gaveUp_of_log_eq_some hlog]
  exact Action.ensures_of_error (OpenLog.commit_of_closing hstream h _ _) ⟨rfl, rfl⟩

/-- Where nothing is incomplete and the queue is empty, a rebuilding only opens a log at the next
number. -/
theorem ensures_rebuild_of_nil {frontier : Frontier} (hincomplete : frontier.incomplete = none)
    (hqueue : writer.unflushed = []) (expected : UInt64) (writer' : Writer Stream)
    (medium : Medium Memory) (hjournal : writer'.journal = writer.journal) :
    let segment := writer.journal.log writer.next unknownStop
    (rebuild writer frontier expected).Ensures (writer', medium)
      (fun _ s => s.1 = { writer' with
          log := some { segment, stream := some { path := segment.location } }
          unflushed := [], needsReset := false, rotateNext := false } ∧ Quieter medium s.2 ∧
        s.2.storage.files = Medium.created medium.storage.publishing segment.location
          medium.storage.files)
      (fun _ s => Foiled medium s.2) := by
  intro segment
  have hremaining : writer.remaining expected = [] := by
    rw [remaining, hqueue, List.dropWhile_nil]
  have hseal : (writer.journal.sealAt frontier : Action JournalError (Medium Memory) _) =
      pure none := by
    rw [Journal.sealAt, hincomplete]
  rw [rebuild, hremaining, hseal, Action.ensures_bind, Action.ensures_discard,
    Action.ensures_onSecond, Action.ensures_pure, Action.ensures_bind, ensures_update, replay,
    Action.ensures_bind]
  refine (ensures_openLog writer.next _ medium).mono ?_ (fun _ _ h => h.2)
  rintro _ ⟨_, after⟩ ⟨rfl, rfl, hquieter, hfiles⟩
  rw [Action.ensures_bind, ensures_onLog]
  dsimp only at hfiles ⊢
  rw [hjournal] at hfiles ⊢
  exact ⟨rfl, hquieter, hfiles⟩

end Writer

namespace Account

variable {account : Account} {writer : Writer Stream} {log : OpenLog Stream}
  {medium : Medium Memory} {a n : Nat}

/-! ### A reset that does not notice -/

/-- A reset of a writer whose queue is empty opens a log at the next number, even where durable data
end before that. -/
theorem Stands.ensures_reset_of_nil (h : account.Stands medium.storage.files none a)
    (hserves : account.Serves n writer medium) (han : a ≤ n)
    (hadrift : ∀ log ∈ writer.log, log.Adrift) (hqueue : writer.unflushed = [])
    (hclose : medium.storage.publishing = .onClose) :
    Writer.reset.Ensures (writer, medium)
      (fun _ s => writer.Alike s.1 ∧ Quieter medium s.2 ∧
        s.2.storage.files = medium.storage.files ∧
        s.1.log = some { segment := account.logFrom n
                         stream := some { path := (account.logFrom n).location } })
      (fun _ s => Fired medium s.2) := by
  have hdurable := durable_none h
  have hle := hdurable.frontier_le han hserves.reach_le
  have hsize : account.frontier a a < UInt64.size :=
    Nat.lt_of_le_of_lt hle (Nat.lt_trans hserves.bound (by decide))
  have hfrontier := hdurable.frontierOf_eq h.bound hserves.reach_bound
  rw [← hserves.journal_eq] at hfrontier
  -- With nothing in the queue there is no gap before it.
  have hcheck : writer.checkFrontier (UInt64.ofNat (account.frontier a a)) = .ok () := by
    refine Writer.checkFrontier_eq_ok_iff.2 ⟨?_, ?_⟩
    · rw [hqueue]
      exact fun _ hnone => (by cases hnone)
    · rw [hserves.next_eq]
      exact ofNat_le_ofNat hle hserves.bound
  rw [Writer.reset_eq, Action.ensures_bind, Action.ensures_get]
  dsimp only
  rw [Action.ensures_bind]
  refine ((Writer.ends_survey_frontierOf hadrift hserves.tame.honest).ensures ?_).mono ?_ ?_
  · rintro ⟨frontier, hfound, hnone⟩
    obtain rfl := Except.ok.inj (hfrontier.symm.trans hfound)
    rw [Frontier.next?_eq rfl hsize] at hnone
    cases hnone
  · rintro ⟨frontier, expected⟩ ⟨_, surveyed⟩ ⟨rfl, ⟨hfound, hkeeps⟩, hexpected⟩
    dsimp only at hfound hkeeps hexpected ⊢
    have hsame := Except.ok.inj (hfound.symm.trans hfrontier)
    rw [Frontier.next?_eq (congrArg Frontier.lastPersisted hsame) hsize] at hexpected
    rw [← Option.some.inj hexpected, Action.ensures_bind, hcheck, Action.ensures_ofExcept]
    refine ⟨fun _ _ => ?_, fun _ herror => (by cases herror)⟩
    refine (Writer.ensures_rebuild_of_nil (congrArg Frontier.incomplete hsame) hqueue _
      writer.gaveUp surveyed rfl).mono ?_
      (fun _ _ hfoiled => hkeeps.toQuieter.fired hfoiled.toFired)
    rintro _ ⟨_, after⟩ ⟨rfl, hquieter, hfiles⟩
    dsimp only at hfiles ⊢
    rw [hserves.journal_eq, hserves.next_eq] at hfiles ⊢
    refine ⟨⟨rfl, rfl, rfl, rfl, rfl⟩, hkeeps.toQuieter.trans hquieter, ?_, rfl⟩
    rw [hfiles, hkeeps.publishing_eq, hclose, Medium.created, hkeeps.files_eq]
  · rintro e ⟨_, after⟩ ⟨-, ⟨herror, -⟩ | ⟨-, hfoiled⟩⟩
    · rw [hfrontier] at herror
      cases herror
    · exact hfoiled.toFired

/-- A log that nothing was written to leaves no file behind when it is committed. -/
theorem Stands.ensures_commit_of_nil (h : account.Stands medium.storage.files none a)
    (hn : n < unknownStop.toNat) (hclose : medium.storage.publishing = .onClose)
    (hsegment : log.segment = account.logFrom n)
    (hstream : log.stream = some { path := (account.logFrom n).location }) :
    (OpenLog.commit account.journal (UInt64.ofNat n)).Ensures (log, medium)
      (fun _ s => Quieter medium s.2 ∧ s.2.storage.files = medium.storage.files)
      (fun _ s => Fired medium s.2) := by
  have habsent := h.absent_logFrom hn
  rw [OpenLog.commit, Action.ensures_bind, Action.ensures_get]
  dsimp only
  rw [Action.ensures_bind, OpenLog.ensures_takeStream, hstream, hsegment]
  dsimp only
  rw [Action.ensures_bind, Action.ensures_onSecond, Action.ensures_mapError]
  refine (OpenLog.ensures_closeStream_of_live rfl medium).mono ?_ (fun _ _ h => h.1.toFired)
  rintro _ closed ⟨hquieter, hfiles⟩
  -- Closing makes an empty file, and completing removes it.
  rw [hclose, decide_eq_true rfl, Memory.files_publish_of_none habsent] at hfiles
  rw [Action.ensures_onSecond]
  have hpresent : closed.storage.files.contains (account.logFrom n).location = true := by
    rw [hfiles, PathMap.contains_insert]
    exact .inl rfl
  refine (Journal.ensures_complete_empty account.journal hpresent).mono ?_
    (fun _ _ hfoiled => hquieter.fired hfoiled.2.toFired)
  rintro _ after ⟨hquieter', hfiles'⟩
  rw [hfiles, PathMap.erase_insert habsent] at hfiles'
  exact ⟨hquieter.trans hquieter', hfiles'⟩

/-- A writer that needs a reset and whose queue is empty can be closed where durable data end before
the next number, and changes nothing of the files. -/
theorem Stands.ensures_finish_of_nil (h : account.Stands medium.storage.files none a)
    (hserves : account.Serves n writer medium) (han : a ≤ n) (hneeds : writer.needsReset = true)
    (hadrift : ∀ log ∈ writer.log, log.Adrift) (hqueue : writer.unflushed = [])
    (hclose : medium.storage.publishing = .onClose) (hopen : writer.closed = false)
    (hcollector : ∀ collector ∈ writer.collector, collector.crashed = false)
    (hquiet : medium.armed = 0) :
    Writer.finish.Ensures (writer, medium)
      (fun _ s => s.1.closed = true ∧ Quieter medium s.2 ∧
        s.2.storage.files = medium.storage.files)
      (fun _ _ => False) := by
  rw [Writer.finish_eq, Action.ensures_bind, Action.ensures_get]
  dsimp only
  rw [hopen, if_neg Bool.false_ne_true, Action.ensures_bind, Writer.ensures_errorsOf,
    Writer.settle, Action.ensures_bind, Action.ensures_get]
  dsimp only
  rw [hneeds, if_pos rfl]
  refine (h.ensures_reset_of_nil hserves han hadrift hqueue hclose).mono ?_
    (fun _ _ hfired => (hfired.elim hquiet).elim)
  rintro _ ⟨settled, middle⟩ ⟨halike, hquieter, hfiles, hlog⟩
  rw [← hfiles] at h
  rw [← hquieter.publishing_eq] at hclose
  rw [← halike.collector_eq] at hcollector
  have hserves := hserves.of_alike halike hquieter
  rw [Writer.finishSettled, Action.ensures_bind, Action.ensures_get]
  dsimp only
  rw [hlog]
  dsimp only
  rw [if_pos List.isEmpty_nil, hserves.journal_eq, hserves.next_eq, Action.ensures_bind,
    Writer.ensures_errorsOf, Writer.ensures_onLog]
  refine (h.ensures_commit_of_nil hserves.bound hclose rfl rfl).mono ?_
    (fun _ _ hfired => ((hquieter.fired hfired).elim hquiet).elim)
  rintro _ ⟨log, after⟩ ⟨hquieter', hfiles'⟩
  refine (Writer.ensures_finishAfter [] hcollector _ after _ _).2 ?_
  exact ⟨rfl, hquieter.trans hquieter', hfiles'.trans hfiles⟩

end Account

namespace Course

variable {account : Account} {course : Course} {s : Nat} {log : OpenLog Stream}

/-- Everything that was acknowledged is promised, and a stream to the open log holds some of it. -/
structure Holding (course : Course) (log : OpenLog Stream) : Prop where
  /-- Everything that was acknowledged is promised. -/
  flushed_eq : course.flushed = course.acked.length
  /-- No reset is needed. -/
  steady : course.writer.needsReset = false
  /-- The log is open. -/
  log_eq : course.writer.log = some log
  /-- It has a stream. -/
  isSome : log.stream.isSome = true
  /-- Entries were written to it. -/
  start_lt : log.segment.start < course.writer.next

/-- Where only closing publishes, files end where a log begins that a stream holds. -/
theorem Kept.exists_stands (h : course.Kept account s .onClose) (hholding : course.Holding log)
    (hopen : course.writer.closed = false) :
    ∃ a stream, log.segment.start = UInt64.ofNat a ∧ a < s + course.acked.length ∧
      log.stream = some stream ∧ course.writer.rotateNext = true ∧ course.writer.unflushed = [] ∧
      account.Stands course.medium.storage.files none a := by
  have hpromised : s + course.flushed = s + course.acked.length := by rw [hholding.flushed_eq]
  have hstanding := hpromised ▸ h.standing
  rcases hstanding.phase with ⟨-, hready | ⟨f, current, a, m, hdamaged⟩⟩ | ⟨hclosed, -⟩
  · cases hready with
    | idle hidle => exact nomatch hidle.log_eq.symm.trans hholding.log_eq
    | parked a log' hparked =>
        obtain rfl := Option.some.inj (hparked.log_eq.symm.trans hholding.log_eq)
        have hisSome := hholding.isSome
        rw [hparked.stream_eq] at hisSome
        cases hisSome
    | live a p f log' stream hlive =>
        obtain rfl := Option.some.inj (hlive.log_eq.symm.trans hholding.log_eq)
        obtain rfl := Nat.le_antisymm hlive.le_right hlive.promised
        obtain ⟨hstands, rfl⟩ := hlive.feeds.held h.publishing_eq
        have hstart : log'.segment.start = UInt64.ofNat p := by
          rw [hlive.segment_eq]
          rfl
        have hlt := hholding.start_lt
        rw [hstart, h.standing.serves.next_eq, UInt64.lt_iff_toNat_lt,
          Account.toNat_ofNat_of_bound hstands.bound,
          Account.toNat_ofNat_of_bound h.standing.serves.bound] at hlt
        refine ⟨p, stream, hstart, hlt, hlive.stream_eq, ?_, ?_, hstands⟩
        · -- What was flushed is not published yet, so the log ends.
          rcases hlive.published with heq | ⟨-, hrotate⟩
          · omega
          · exact hrotate
        · rw [hlive.queue, Ledger.entries_self]
  · exact nomatch hdamaged.needsReset.symm.trans hholding.steady
  · exact nomatch hclosed.symm.trans hopen

/-- A write that cannot close the stream lets it go. -/
theorem Kept.run_write_of_closing (h : course.Kept account s .onClose)
    (hholding : course.Holding log) (hopen : course.writer.closed = false) (entry : Entry) :
    { course with medium := course.medium.cleared }.run [.armCall .closing, .write entry] =
      { course with
        writer := { course.writer.gaveUp with needsReset := true }
        medium := course.medium.cleared
        failures := course.failures ++
          [.error (.writeFailure log.location (Medium.scripted "close"))] } := by
  obtain ⟨_, stream, -, -, hstream, hrotate, -, -⟩ := h.exists_stands hholding hopen
  let armed : Medium Memory := { course.medium.cleared with callFaults := [.closing] }
  rcases (Writer.ensures_write_of_closing hopen h.standing.sane hholding.steady hholding.log_eq
    hrotate hstream (rfl : armed.callFaults = [.closing]) entry).ok_or_error with
    ⟨_, _, -, himpossible⟩ | ⟨_, _, hwrite, rfl, rfl⟩
  · exact himpossible.elim
  show Course.step { course with medium := armed } (.write entry) = _
  unfold Course.step
  dsimp only
  rw [hwrite]
  rfl

/-- If the stream cannot be closed its log is lost, and neither the write that closes it nor the
close of the writer reports anything missing. -/
theorem Kept.lost (h : course.Kept account s .onClose) (hholding : course.Holding log)
    (hopen : course.writer.closed = false) (entry : Entry) :
    ∃ closed ended a,
      { course with medium := course.medium.cleared }.run
          [.armCall .closing, .write entry, .close] =
        { course with
          writer := closed
          medium := ended
          failures := course.failures ++
            [.error (.writeFailure log.location (Medium.scripted "close"))] } ∧
      closed.closed = true ∧ ended.armed = 0 ∧ log.segment.start = UInt64.ofNat a ∧
      a < s + course.acked.length ∧ account.Stands ended.storage.files none a := by
  obtain ⟨a, stream, hstart, hlt, -, -, hqueue, hstands⟩ := h.exists_stands hholding hopen
  have hstands : account.Stands course.medium.cleared.storage.files none a := hstands
  have halike : course.writer.Alike { course.writer.gaveUp with needsReset := true } :=
    ⟨rfl, rfl, rfl, rfl, rfl⟩
  have hfinish := hstands.ensures_finish_of_nil
    (h.cleared.serves.of_alike halike (.refl course.medium.cleared)) (Nat.le_of_lt hlt) rfl
    (Writer.adrift_gaveUp course.writer) hqueue h.publishing_eq hopen h.standing.collector rfl
  obtain ⟨_, ⟨closed, ended⟩, hclose, hclosed, hquieter, hfiles⟩ :=
    (Writer.ensures_operation _ hfinish h.standing.sane).exists_ok fun _ _ => id
  refine ⟨closed, ended, a, ?_, hclosed, hquieter.armed_eq_zero rfl, hstart, hlt, hfiles ▸ hstands⟩
  show Course.step ({ course with medium := course.medium.cleared }.run
    [.armCall .closing, .write entry]) .close = _
  rw [h.run_write_of_closing hholding hopen entry]
  unfold Course.step Writer.close
  dsimp only
  rw [hclose]
  simp [Writer.gaveUp, hopen, hholding.flushed_eq]

end Course

namespace Journal.Intact

variable {journal : Journal} {ledger : Ledger} {complete : List Segment}
  {current : Option Segment} {s : UInt64} {medium : Medium Memory}

/-- **A log is lost with its stream**: where only closing publishes, let everything that a writer
has acknowledged be promised, and let a stream hold the last log.  If that stream cannot be closed
for the next write, the write fails, but nothing else does: the writer can be closed then, and
no error tells that the journal ends where the lost log began. -/
theorem lost_with_stream
    (hintact : journal.Intact ledger s.toNat medium.storage.files complete current s.toNat)
    (hfits : ledger.Fits) (hvalid : journal.config.validate = .ok ())
    (hs : s.toNat < unknownStop.toNat) (hquiet : medium.armed = 0)
    (hpublishing : medium.storage.publishing = .onClose) :
    ∃ writer started, Writer.start journal s medium = .ok writer started ∧
      ∀ moves : List Move, (∀ move ∈ moves, move.Fair .onClose ∧ move ≠ .close) →
        let course := (Course.begun writer started).run moves
        s.toNat + course.acked.length < unknownStop.toNat →
        ∀ log entry, course.Holding log → s ≤ log.segment.start →
        ∃ closed ended,
          { course with medium := course.medium.cleared }.run
              [.armCall .closing, .write entry, .close] =
            { course with
              writer := closed
              medium := ended
              failures := course.failures ++
                [.error (.writeFailure log.location (Medium.scripted "close"))] } ∧
          closed.closed = true ∧
          log.segment.start.toNat - s.toNat < course.acked.length ∧
          ∃ after, journal.readBack s true ended =
            .ok (course.acked.take (log.segment.start.toNat - s.toNat)) after := by
  obtain ⟨writer, started, hstart⟩ := hintact.exists_start hfits hvalid hs hquiet
  refine ⟨writer, started, hstart, ?_⟩
  intro moves hmoves course hbound log entry hholding hbegun
  obtain ⟨hextended, hkept, hopen⟩ := hintact.kept_run hfits hvalid hs (Medium.tame_of_armed hquiet)
    hstart (fun move hmove => hpublishing ▸ (hmoves move hmove).1) hbound
  rw [hpublishing] at hkept
  obtain ⟨closed, ended, a, hrun, hclosed, harmed, hbegin, hlt, hstands⟩ :=
    hkept.lost hholding (hopen fun move hmove => (hmoves move hmove).2) entry
  have hnumber : log.segment.start.toNat = a := by
    rw [hbegin, Account.toNat_ofNat_of_bound hstands.bound]
  have hsa := hnumber ▸ UInt64.le_iff_toNat_le.1 hbegun
  have hlost : log.segment.start.toNat - s.toNat < course.acked.length := by
    rw [hnumber]
    exact (Nat.sub_lt_iff_lt_add' hsa).2 hlt
  have hdurable := Account.durable_none hstands
  rw [← hnumber, ← Nat.add_sub_of_le (UInt64.le_iff_toNat_le.1 hbegun)] at hdurable
  exact ⟨closed, ended, hrun, hclosed, hlost, hkept.readBack_of_durable (Nat.le_of_lt hlost)
    (Nat.le_refl _) (Nat.le_refl _) (Nat.zero_le _) hdurable harmed⟩

/-- For example, one entry is written to an empty journal and flushed, and then it is gone. -/
theorem lost_with_stream_single :
    let journal := Journal.rooted "journal" { gcEnabled := false }
    let medium : Medium Memory := { storage := { publishing := .onClose } }
    ∃ writer started, Writer.start journal 0 medium = .ok writer started ∧
      let course := (Course.begun writer started).run [.write ⟨0, [97]⟩, .flush]
      course.acked = [⟨0, [97]⟩] ∧ course.flushed = 1 ∧ ∃ closed ended failure,
        { course with medium := course.medium.cleared }.run
            [.armCall .closing, .write ⟨0, [98]⟩, .close] =
          { course with
            writer := closed, medium := ended, failures := course.failures ++ [failure] } ∧
        closed.closed = true ∧ ∃ after, journal.readBack 0 true ended = .ok [] after := by
  intro journal medium
  have hfits : Ledger.Fits fun _ => [] := fun _ => Nat.zero_le _
  have hintact : journal.Intact (fun _ => []) (0 : UInt64).toNat medium.storage.files [] none
      (0 : UInt64).toNat := journal.intact_empty _ 0
  obtain ⟨writer, started, hstart, hlost⟩ :=
    lost_with_stream hintact hfits rfl (by decide) (rfl : medium.armed = 0) rfl
  refine ⟨writer, started, hstart, ?_⟩
  intro course
  have hstarted : Course.started? journal 0 medium = some (Course.begun writer started) := by
    unfold Course.started?
    rw [hstart]
  have hpromised : (Course.started? journal 0 medium).map (fun course =>
      let course := course.run [.write ⟨0, [97]⟩, .flush]
      (course.acked, course.flushed)) = some ([⟨0, [97]⟩], 1) := by
    decide +kernel
  have hwriter : (Course.started? journal 0 medium).map (fun course =>
      let writer := (course.run [.write ⟨0, [97]⟩, .flush]).writer
      (writer.needsReset, writer.next, writer.log.map fun log =>
        (log.segment.start, log.stream.isSome))) = some (false, 1, some (0, true)) := by
    decide +kernel
  rw [hstarted] at hpromised hwriter
  simp only [Option.map_some, Option.some.injEq, Prod.mk.injEq, Option.map_eq_some_iff]
    at hpromised hwriter
  obtain ⟨hacked, hflushed⟩ := hpromised
  obtain ⟨hsteady, hnext, log, hlog, hbegin, hisSome⟩ := hwriter
  refine ⟨hacked, hflushed, ?_⟩
  have hholding : course.Holding log := by
    refine ⟨?_, hsteady, hlog, hisSome, ?_⟩
    · rw [hflushed, hacked]
      rfl
    · rw [hbegin, hnext]
      decide
  have hbound : (0 : UInt64).toNat + course.acked.length < unknownStop.toNat := by
    rw [hacked]
    decide
  obtain ⟨closed, ended, hend, hclosed, -, hread⟩ :=
    hlost [.write ⟨0, [97]⟩, .flush] (by decide) hbound log ⟨0, [98]⟩ hholding
      (hbegin ▸ UInt64.le_refl _)
  rw [hbegin] at hread
  exact ⟨closed, ended, _, hend, hclosed, hread⟩

end Journal.Intact

end SegmentedJournal
