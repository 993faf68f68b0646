import SegmentedJournal.Proofs.Session
import SegmentedJournal.Proofs.Segmentation
/-!
# Numbers near the last one

A log is named for the number behind its last entry, and `unknownStop` in that place stands for a
log that is still being written.  So a log cannot be completed at `unknownStop`: its new name is
the one it has, it is taken for another log in its own way, and is removed
(`Journal.ensures_complete_in_place`).  Behind `unknownStop` a log gets a name that is none.  Either
way, once a writer on an empty journal is closed, no log is incomplete and none goes as far as
`unknownStop` (`Course.Rising.lt_of_returns_close`).

The writer acknowledges these entries nevertheless.  What it acknowledges is returned if and only if
its numbers end before that (`Course.returned_iff_lt`).
-/

namespace SegmentedJournal

open Medium (Keeps Quieter)

/-! ### Logs that are completed under their own names -/

namespace Journal

variable {journal : Journal} {log : Segment} {next : UInt64} {medium : Medium Memory}
  {path : String}

/-- Where nothing is armed no question fails. -/
theorem ensures_isPresent_of_quiet (path : String) (hquiet : medium.armed = 0) :
    (isPresent path : Action JournalError (Medium Memory) Bool).Ensures medium
      (fun present after => present = medium.storage.files.contains path ∧ Keeps medium after)
      (fun _ _ => False) := by
  rw [isPresent, Action.ensures_mapError]
  exact (Medium.ensures_isPresent path medium).mono (fun _ _ h => h)
    fun _ _ hfoiled => hfoiled.toFired.elim hquiet

/-- The file of a log without entries is removed. -/
theorem ensures_discardEmpty_of_quiet (path : String) (hquiet : medium.armed = 0) :
    (discardEmpty path : Action JournalError (Medium Memory) Unit).Ensures medium
      (fun _ after => after.storage.files.get? path = none) (fun _ _ => False) := by
  rw [discardEmpty, Action.ensures_bind]
  refine (ensures_isPresent_of_quiet path hquiet).mono ?_ (fun _ _ h => h)
  rintro present asked ⟨hpresent, hkeeps⟩
  rw [Action.ensures_ite]
  refine ⟨fun hthere => ?_, fun habsent => ?_⟩
  · rw [Action.ensures_mapError]
    rw [hpresent, ← hkeeps.files_eq] at hthere
    refine (Medium.ensures_delete_of_present asked hthere).mono ?_
      fun _ _ hfoiled => hfoiled.toFired.elim (hkeeps.quiet hquiet)
    rintro _ after ⟨-, hfiles⟩
    rw [hfiles, PathMap.get?_erase, if_pos rfl]
  · rw [Medium.ensures_warn]
    rwa [hpresent, ← hkeeps.files_eq, PathMap.contains, Option.not_isSome_iff_eq_none] at habsent

/-- A log that is completed under its own name is taken for another that stands in the way, and
removed; then there is nothing to rename. -/
theorem ensures_complete_in_place (hlt : log.start < next)
    (hplace : (journal.log log.start next).location = log.location) (hquiet : medium.armed = 0) :
    (journal.complete log next).Ensures medium
      (fun _ after => after.storage.files.get? log.location = none)
      (fun _ after => after.storage.files.get? log.location = none) := by
  rw [complete, if_neg (UInt64.lt_asymm hlt), if_neg (UInt64.ne_of_lt hlt).symm]
  simp only [Action.ensures_bind, hplace]
  refine (ensures_isPresent_of_quiet _ hquiet).mono ?_ (fun _ _ h => h.elim)
  rintro hasSource middle ⟨hsource, hkeeps⟩
  refine (ensures_isPresent_of_quiet _ (hkeeps.quiet hquiet)).mono ?_ (fun _ _ h => h.elim)
  rintro hasTarget asked ⟨htarget, hkeeps'⟩
  rw [hkeeps.files_eq] at htarget
  have hkeeps := hkeeps.trans hkeeps'
  rw [hsource, htarget, ← hkeeps.files_eq, Action.ensures_ite]
  refine ⟨fun hthere => ?_, fun habsent => ?_⟩
  · rw [if_pos hthere, Action.ensures_bind, removeDuplicate, Action.ensures_bind,
      Medium.ensures_warn, Action.ensures_mapError]
    refine (Medium.ensures_delete_of_present
      { asked with warnings := asked.warnings ++ [.duplicateLog] } hthere).mono ?_
      fun _ _ hfoiled => (hfoiled.toFired.elim (hkeeps.quiet hquiet)).elim
    rintro _ cleared ⟨-, hfiles⟩
    have hgone : cleared.storage.files.get? log.location = none := by
      rw [hfiles, PathMap.get?_erase, if_pos rfl]
    rw [Action.ensures_bind, Action.ensures_mapError]
    refine (Medium.ensures_rename_or_not _ _ cleared).mono (fun _ _ h => absurd rfl h.2.1) ?_
    intro _ after hkeeps
    rw [hkeeps.files_eq]
    exact hgone
  · rw [if_neg habsent, Action.ensures_bind, Medium.ensures_warn]
    rwa [PathMap.contains, Option.not_isSome_iff_eq_none] at habsent

/-- Where nothing is armed, a log that is completed no earlier than its start is gone, whether or
not that succeeds. -/
theorem ensures_complete_gone (journal : Journal) (hle : log.start ≤ next)
    (hquiet : medium.armed = 0) :
    (journal.complete log next).Ensures medium
      (fun _ after => after.storage.files.get? log.location = none)
      (fun _ after => after.storage.files.get? log.location = none) := by
  by_cases heq : next = log.start
  · rw [complete, if_neg (UInt64.not_lt.2 hle), if_pos heq, Action.ensures_bind]
    exact (ensures_discardEmpty_of_quiet _ hquiet).mono (fun _ _ h => h) (fun _ _ h => h.elim)
  have hlt := UInt64.lt_of_le_of_ne hle (Ne.symm heq)
  by_cases hplace : (journal.log log.start next).location = log.location
  · exact ensures_complete_in_place hlt hplace hquiet
  · refine (ensures_complete_moved hlt (Ne.symm hplace)).mono ?_
      fun _ _ hfailed => (hfailed.1.elim hquiet).elim
    rintro _ after ⟨-, -, hfiles⟩
    rw [hfiles]
    exact PathMap.get?_moved_source (Ne.symm hplace)

end Journal

/-! ### Closing a writer -/

namespace Writer

variable {journal : Journal} {n : UInt64} {base : PathMap Bytes} {writer : Writer Memory.Stream}
  {log : OpenLog Memory.Stream} {medium : Medium Memory} {entry : Entry}

namespace Growing

/-- Committing its own log leaves none incomplete, whether or not that succeeds. -/
theorem ensures_commit_gone (h : Growing journal n base writer medium)
    (hlog : writer.log = some log) :
    (OpenLog.commit journal writer.next).Ensures (log, medium)
      (fun _ t => t.2.armed = 0 ∧ journal.Grown n base t.2.storage.files none)
      (fun _ t => t.2.armed = 0 ∧ journal.Grown n base t.2.storage.files none) := by
  have hwilling : ∀ fault ∈ medium.callFaults, fault.call ≠ .close := by
    rw [(Medium.faults_of_armed h.quiet).2]
    nofun
  have hgone : (OpenLog.commit journal writer.next).Ensures (log, medium)
      (fun _ t => t.2.storage.files.get? log.segment.location = none)
      (fun _ t => t.2.storage.files.get? log.segment.location = none) :=
    OpenLog.ensures_commit_of_complete hwilling fun closed hquieter _ =>
      Journal.ensures_complete_gone journal (h.behind log hlog) (hquieter.quiet h.quiet)
  refine ((h.ensures_commit hlog writer.next).and_leaves
    (P := fun t => t.2.storage.files.get? log.segment.location = none) hgone.leaves).mono
      (fun _ _ h => h.1) ?_
  rintro e t ⟨⟨-, -, hquiet, hgrown⟩, hgone⟩
  exact ⟨hquiet, hgrown.gone hgone⟩

/-- Once it is closed no log is incomplete. -/
theorem ensures_finish_gone (h : Growing journal n base writer medium)
    (hopen : writer.closed = false) :
    finish.Ensures (writer, medium)
      (fun _ t => t.2.armed = 0 ∧ journal.Grown n base t.2.storage.files none)
      (fun _ t => t.2.armed = 0 ∧ journal.Grown n base t.2.storage.files none) := by
  refine (ensures_finish_of_commit (R := fun after : Medium Memory =>
    after.armed = 0 ∧ journal.Grown n base after.storage.files none) hopen h.steady
    (fun hnone => ⟨h.quiet, ?_⟩) fun log hlog => ?_).mono (fun _ _ h => h.2) fun _ _ h => h.2
  · have hgrown := h.grown
    rwa [hnone] at hgrown
  · rw [h.journal_eq]
    exact h.ensures_commit_gone hlog

/-- An entry is appended, or the writer can go on. -/
theorem ensures_append (h : Growing journal n base writer medium) (hopen : writer.closed = false)
    (hroom : writer.next.toNat + 1 < UInt64.size) :
    (append entry).Ensures (writer, medium)
      (fun _ t => Growing journal n base t.1 t.2 ∧
        writer.Alike { t.1 with next := writer.next })
      (fun _ t => Growing journal n base t.1 t.2 ∧ writer.Alike t.1) := by
  rw [append, Action.ensures_bind, Action.ensures_get]
  dsimp only
  rw [hopen, if_neg Bool.false_ne_true, Action.ensures_bind, ensures_settle_of_steady h.steady,
    Action.ensures_bind, Action.ensures_get]
  dsimp only
  rw [Action.ensures_bind]
  refine h.ensures_logForNext.mono ?_ (fun _ _ h => h)
  rintro log ⟨ready, opened⟩ ⟨hready, halike, hsome, hstream⟩
  rw [← halike.next_eq] at hroom ⊢
  refine ((hready.endsIn_appendTo hsome hstream _).mono ?_ (fun _ _ h => h.elim)
    fun _ h => Action.add_one_ne_zero hroom h.1 : Action.EndsIn _ _ _ _ fun _ => False)
  rintro _ t ⟨hgrowing, halike'⟩
  exact ⟨hgrowing, halike.trans halike'⟩

end Growing

end Writer

/-! ### What is read to the end is returned -/

namespace Replay

/-- What a replay hands out on its way to the end, it delivers. -/
theorem delivers_of_readAll {state state' : Replay × Medium Memory} {entries : List Entry}
    {entry : Entry} (h : readAll state = .ok entries state') (hentry : entry ∈ entries) :
    Delivers state entry := by
  induction entries generalizing state with
  | nil => cases hentry
  | cons first rest ih =>
      cases hread : read state with
      | error e middle =>
          rw [readAll_of_error hread] at h
          cases h
      | ok found middle =>
          cases found with
          | none =>
              rw [readAll_of_none hread] at h
              cases h
          | some other =>
              rw [readAll_of_some hread] at h
              split at h
              · next hrest =>
                cases h
                rcases List.mem_cons.1 hentry with rfl | hentry
                · exact .now hread
                · exact .later hread (ih hrest hentry)
              · cases h

end Replay

theorem Journal.Returns.of_readBack {journal : Journal} {start : UInt64}
    {medium after : Medium Memory} {entries : List Entry} {entry : Entry}
    (h : journal.readBack start true medium = .ok entries after) (hentry : entry ∈ entries) :
    journal.Returns start medium entry := by
  have hread : (journal.readBack start true).Ends medium
      (fun entries _ => entry ∈ entries → journal.Returns start medium entry)
      (fun _ _ => True) True := by
    rw [readBack, Action.ends_bind]
    refine (Action.ends_run _ _).mono ?_ (fun _ _ _ => trivial)
    intro replay opened hstart
    rw [Action.ends_zoom]
    exact (Action.ends_run _ _).mono (fun entries _ hall hentry =>
      ⟨replay, opened, hstart, Replay.delivers_of_readAll hall hentry⟩) fun _ _ _ => trivial
  exact hread.of_ok h hentry

/-! ### Courses on an empty journal -/

namespace Course

variable {journal : Journal} {ledger : Ledger} {publishing : Publishing} {s : UInt64} {cut : Cut}
  {course : Course} {moves : List Move} {medium : Medium Memory} {b n : Nat}

/-- A writer was started at `s` on an empty journal, and its numbers have not come round. -/
structure Rising (journal : Journal) (s : UInt64) (course : Course) : Prop where
  /-- No log but its own is incomplete. -/
  growing : Writer.Growing journal s .empty course.writer course.medium
  /-- What it acknowledged is numbered from `s` on. -/
  kept : course.writer.Kept s course.acked
  /-- It is not closed. -/
  opened : course.writer.closed = false
  /-- It has not crashed. -/
  sound : course.writer.poisoned = false

namespace Rising

theorem begun {writer : Writer Memory.Stream} {started : Medium Memory}
    (hempty : medium.storage.files = .empty) (hquiet : medium.armed = 0)
    (hstart : Writer.start journal s medium = .ok writer started) :
    (Course.begun writer started).Rising journal s := by
  obtain ⟨hopen, hsound, -⟩ := Writer.fresh_of_start hstart
  obtain ⟨⟨checkpoints, complete, current⟩, hsnapshot, hwriter⟩ :=
    Writer.exists_snapshot_of_start hstart
  obtain ⟨hfound, hkeeps⟩ :=
    (journal.ensures_snapshotOf (Medium.tame_of_armed hquiet).honest).of_ok hsnapshot
  rw [hempty, journal.snapshotOf_empty] at hfound
  cases hfound
  refine ⟨⟨?_, ?_, ?_, ?_, ?_, ?_, hkeeps.quiet hquiet, ?_⟩, Writer.kept_of_start hstart, hopen,
    hsound⟩ <;> rw [Course.begun, hwriter]
  · exact UInt64.le_refl s
  · exact fun _ hnone => (by cases hnone)
  · exact fun _ hnone => (by cases hnone)
  · exact fun _ hnone => (by cases hnone)
  · rw [hkeeps.files_eq, hempty]
    exact ⟨fun _ _ _ => rfl, fun _ hhas => (by cases hhas.present)⟩

theorem step_write (h : course.Rising journal s) (entry : Entry)
    (hroom : s.toNat + course.acked.length + 1 < UInt64.size) :
    (course.step (.write entry)).Rising journal s := by
  rw [← h.kept.next_eq] at hroom
  have hkept := h.kept.endsIn_write entry hroom course.medium
  rcases (Writer.ensures_operation _ (h.growing.ensures_append h.opened hroom) h.sound).ok_or_error
    with ⟨q, ⟨writer, medium⟩, hwrite, hgrowing, halike⟩ |
      ⟨e, ⟨writer, medium⟩, hwrite, hgrowing, halike⟩
  · simp only [step, show Writer.write entry (course.writer, course.medium) = _ from hwrite]
    exact ⟨hgrowing, (hkept.of_ok hwrite).2, halike.closed_eq.trans h.opened,
      halike.poisoned_eq.trans h.sound⟩
  · simp only [step, show Writer.write entry (course.writer, course.medium) = _ from hwrite]
    exact ⟨hgrowing, (hkept.of_error hwrite).1, halike.closed_eq.trans h.opened,
      halike.poisoned_eq.trans h.sound⟩

/-- A flush succeeds. -/
theorem step_flush (h : course.Rising journal s) :
    (course.step .flush).Rising journal s ∧
      (course.step .flush).failures = course.failures := by
  have hkept := h.kept.endsIn_flush course.medium
  rcases (Writer.ensures_operation _ h.growing.ensures_push h.sound).ok_or_error
    with ⟨_, ⟨writer, medium⟩, hflush, hgrowing, halike⟩ | ⟨e, _, hflush, hclosed, -⟩
  · simp only [step, show Writer.flush (course.writer, course.medium) = _ from hflush]
    exact ⟨⟨hgrowing, (hkept.of_ok hflush).1, halike.closed_eq.trans h.opened,
      halike.poisoned_eq.trans h.sound⟩, trivial⟩
  · rw [h.opened] at hclosed
    cases hclosed

/-- **Run**: as long as the numbers do not come round. -/
theorem run (h : course.Rising journal s) (hordinary : ∀ move ∈ moves, move.Ordinary)
    (hroom : s.toNat + course.acked.length + (Move.written moves).length < UInt64.size) :
    (course.run moves).Rising journal s := by
  induction moves generalizing course with
  | nil => exact h
  | cons move moves ih =>
      have hrest := fun other hother => hordinary other (List.mem_cons_of_mem move hother)
      cases move with
      | write entry =>
          rw [Move.written_write, List.length_cons] at hroom
          refine ih (h.step_write entry (by omega)) hrest ?_
          have hlength := length_acked_run_le course [.write entry]
          rw [run_cons, run_nil, List.length_singleton] at hlength
          omega
      | flush =>
          refine ih h.step_flush.1 hrest ?_
          rwa [acked_step_flush]
      | close | arm | armCall => exact (hordinary _ List.mem_cons_self).elim

/-- Once the writer is closed, every entry that is returned is far enough below `unknownStop` for
the log that has it to be named. -/
theorem lt_of_returns_close (h : course.Rising journal s) {start : UInt64} {entry : Entry}
    (hreturns : journal.Returns start (course.step .close).medium entry) :
    entry.sequence.toNat + 1 < unknownStop.toNat := by
  have hleft : (course.step .close).medium.armed = 0 ∧
      journal.Grown s .empty (course.step .close).medium.storage.files none := by
    have hclose := (Writer.ensures_operation _ (h.growing.ensures_finish_gone h.opened)
      h.sound).leaves (P := fun t : Writer Memory.Stream × Medium Memory =>
        t.2.armed = 0 ∧ journal.Grown s .empty t.2.storage.files none)
    rwa [show Writer.operation Writer.finish = Writer.close from rfl, leaves_close] at hclose
  obtain ⟨hquiet, hgrown⟩ := hleft
  have hopens : journal.Opens (course.step .close).medium.storage.files none := by
    refine fun other => ⟨fun hnone => (by cases hnone), fun hother => ?_⟩
    exact hgrown.only other hother.1 hother.2
  obtain ⟨checkpoints, complete, hlists⟩ := hopens.exists_lists
  obtain ⟨log, hhas, hlt⟩ := hreturns.exists_lt_stop hlists hquiet
  have hstop : log.stop < unknownStop := by
    refine UInt64.lt_of_le_of_ne hhas.places.bounds.2 fun heq => ?_
    cases (hopens log).2 ⟨hhas, heq⟩
  rw [UInt64.lt_iff_toNat_lt] at hlt hstop
  omega

end Rising

/-! ### What is returned -/

/-- A history that is written on until its numbers reach `unknownStop` acknowledges as many
entries. -/
theorem Tracked.le_acked_run {base : PathMap Bytes} {s : Nat}
    (h : course.Tracked journal ledger base publishing s b n cut)
    (hpos : 0 < journal.config.maxLogBytes.toNat) (hordinary : ∀ move ∈ moves, move.Ordinary)
    (hcarries : ledger.Carries n (Move.written moves))
    (hbound : unknownStop.toNat ≤ n + (Move.written moves).length) :
    unknownStop.toNat ≤ s + (course.run moves).acked.length := by
  induction moves generalizing course cut b n with
  | nil => exact absurd h.tracks.bound (Nat.not_lt.2 hbound)
  | cons move moves ih =>
      have hrest := fun other hother => hordinary other (List.mem_cons_of_mem move hother)
      cases move with
      | write entry =>
          rw [Move.written_write] at hcarries hbound
          rw [List.length_cons] at hbound
          obtain ⟨hpayload, hcarries'⟩ := hcarries.of_cons
          by_cases hlast : n + 1 < unknownStop.toNat
          · exact ih (h.step_write (fun _ => false) hpayload hlast) hrest hcarries' (by omega)
          · -- This write takes the last number, and is acknowledged.
            obtain ⟨q, ⟨writer, medium⟩, hwrite, -⟩ :=
              (h.tracks.ensures_write (fun _ => false) hpayload).exists_ok fun _ _ h => h
            have hacked : (course.step (.write entry)).acked.length = n - s + 1 := by
              simp [step, hwrite, h.acked_eq]
            have hgrows := ((course.step (.write entry)).acked_run moves).length_le
            have hle := h.le
            rw [run_cons]
            omega
      | flush =>
          obtain ⟨b₁, hflushed⟩ := h.step_flush hpos
          exact ih hflushed hrest hcarries hbound
      | close | arm | armCall => exact (hordinary _ List.mem_cons_self).elim

/-- **The last numbers**: on an empty journal where nothing is armed, let a writer write entries
that fit frames, and flush, and then close it, without its numbers coming round.  Everything that
was acknowledged is returned if and only if it is nothing, or the number behind it is below
`unknownStop`. -/
theorem returned_iff_lt (hvalid : journal.config.validate = .ok ())
    (hempty : medium.storage.files = .empty) (hquiet : medium.armed = 0)
    (hordinary : ∀ move ∈ moves, move.Ordinary)
    (hfits : ∀ entry ∈ Move.written moves, entry.Fits)
    (hroom : s.toNat + (Move.written moves).length < UInt64.size) :
    ∃ writer started, Writer.start journal s medium = .ok writer started ∧
      let course := (begun writer started).run (moves ++ [.close])
      ((∀ entry ∈ course.acked, ∃ entries after,
          journal.readBack s true course.medium = .ok entries after ∧ entry ∈ entries) ↔
        course.acked = [] ∨ s.toNat + course.acked.length < unknownStop.toNat) := by
  obtain ⟨writer, started, hstart⟩ := exists_start_of_empty s hvalid hempty hquiet
  have hrising := (Rising.begun hempty hquiet hstart).run hordinary hroom
  refine ⟨writer, started, hstart, ?_⟩
  simp only [run_concat, acked_step_close]
  constructor
  · intro hall
    refine Classical.or_iff_not_imp_left.2 fun hsome => ?_
    -- The last entry has the number before the one behind it all.
    have hpos := List.length_pos_iff.2 hsome
    have hlast : s.toNat + (((begun writer started).run moves).acked.length - 1) ∈
        ((begun writer started).run moves).acked.map fun entry => entry.sequence.toNat := by
      rw [hrising.kept.numbers, List.mem_range']
      exact ⟨_, Nat.sub_lt hpos Nat.one_pos, by rw [Nat.one_mul]⟩
    obtain ⟨entry, hentry, hnumber⟩ := List.mem_map.1 hlast
    obtain ⟨entries, after, hread, hmem⟩ := hall entry hentry
    have hlt := hrising.lt_of_returns_close (.of_readBack hread hmem)
    omega
  · rintro (hnil | hlt) entry hentry
    · rw [hnil] at hentry
      cases hentry
    have hcarries := Ledger.carries_extended (fun _ => []) s.toNat (Move.written moves)
    have hbegun := tracked_begun_of_empty
      (Ledger.extended (fun _ => []) s.toNat (Move.written moves)) hempty hstart hquiet
      (UInt64.lt_iff_toNat_lt.2 (by omega))
    have hpos := maxLogBytes_pos hvalid
    by_cases hbound : s.toNat + (Move.written moves).length < unknownStop.toNat
    · obtain ⟨b, htracked⟩ := hbegun.run hpos hordinary hcarries hbound
      obtain ⟨-, hacked, hquiet', -⟩ := htracked.step_close
      obtain ⟨checkpoints, complete, hlists, hleads⟩ :=
        htracked.exists_leads_close true (Nat.le_refl _) htracked.le
      obtain ⟨after, hread, -⟩ := Journal.readBack_of_leads true
        (Ledger.fits_extended (fun _ => Nat.zero_le _) hfits) hlists hquiet'
        (Nat.lt_trans hbound (by decide)) hleads
      rw [UInt64.ofNat_toNat] at hread
      exact ⟨_, after, hread, by rwa [← htracked.acked_eq]⟩
    · exact absurd hlt (Nat.not_lt.2
        (hbegun.le_acked_run hpos hordinary hcarries (Nat.not_lt.1 hbound)))

/-- For example, the entry before the last possible one is returned. -/
theorem returned_before_last :
    let journal := Journal.rooted "journal" { gcEnabled := false }
    let medium : Medium Memory := { storage := { publishing := .onFlush } }
    let moves : List Move := [.write ⟨0, [97]⟩, .flush]
    ∃ writer started, Writer.start journal (unknownStop - 2) medium = .ok writer started ∧
      let course := (begun writer started).run (moves ++ [.close])
      course.acked = [⟨unknownStop - 2, [97]⟩] ∧
        ∃ entries after, journal.readBack (unknownStop - 2) true course.medium =
          .ok entries after ∧ ⟨unknownStop - 2, [97]⟩ ∈ entries := by
  intro journal medium moves
  obtain ⟨writer, started, hstart, hiff⟩ := returned_iff_lt (s := unknownStop - 2)
    (show journal.config.validate = .ok () from rfl) (show medium.storage.files = .empty from rfl)
    rfl (show ∀ move ∈ moves, move.Ordinary by decide) (by decide) (by decide)
  have hcarries : Ledger.Carries (fun _ => [97]) (unknownStop - 2).toNat (Move.written moves) := by
    rintro (_ | i) entry ⟨⟩
    rfl
  obtain ⟨b, htracked⟩ := (tracked_begun_of_empty (fun _ => [97]) rfl hstart rfl (by decide)).run
    (by decide) (by decide) hcarries (by decide)
  have hacked : ((begun writer started).run (moves ++ [.close])).acked =
      [⟨unknownStop - 2, [97]⟩] := by
    rw [run_concat, acked_step_close, htracked.acked_eq]
    exact (Ledger.entries_succ (Nat.le_refl _)).trans (by rw [Ledger.entries_self]; rfl)
  refine ⟨writer, started, hstart, hacked, ?_⟩
  dsimp only at hiff
  rw [hacked] at hiff
  exact hiff.2 (.inr (by decide)) _ List.mem_cons_self

/-- For example, the last possible entry is acknowledged and flushed, and lost when the writer is
closed. -/
theorem lost_at_last :
    let journal := Journal.rooted "journal" { gcEnabled := false }
    let medium : Medium Memory := { storage := { publishing := .onFlush } }
    ∃ writer started, Writer.start journal (unknownStop - 1) medium = .ok writer started ∧
      let course := (begun writer started).run [.write ⟨0, [97]⟩, .flush]
      course.acked = [⟨unknownStop - 1, [97]⟩] ∧ course.failures = [] ∧
        ¬ ∃ entries after, journal.readBack (unknownStop - 1) true (course.step .close).medium =
          .ok entries after ∧ ⟨unknownStop - 1, [97]⟩ ∈ entries := by
  intro journal medium
  obtain ⟨writer, started, hstart⟩ := exists_start_of_empty (unknownStop - 1)
    (show journal.config.validate = .ok () from rfl) (show medium.storage.files = .empty from rfl)
    rfl
  have hbegun := tracked_begun_of_empty (fun _ => [97]) rfl hstart rfl (by decide)
  have hrising := (Rising.begun rfl rfl hstart).step_write ⟨0, [97]⟩
    (by rw [show (begun writer started).acked = [] from rfl]; decide)
  have hwritten : ((begun writer started).step (.write ⟨0, [97]⟩)).acked =
      [⟨unknownStop - 1, [97]⟩] ∧
      ((begun writer started).step (.write ⟨0, [97]⟩)).failures = [] := by
    obtain ⟨q, ⟨writer', medium'⟩, hwrite, rfl, -⟩ :=
      (hbegun.tracks.ensures_write (fun _ => false)
        (show Entry.payload ⟨0, [97]⟩ = [97] from rfl)).exists_ok fun _ _ h => h
    have hwrite' : Writer.write ⟨0, [97]⟩ (writer, started) =
      .ok (UInt64.ofNat (unknownStop - 1).toNat) (writer', medium') := hwrite
    simp only [step, begun, hwrite']
    exact ⟨rfl, trivial⟩
  obtain ⟨hflushed, hfailures⟩ := hrising.step_flush
  refine ⟨writer, started, hstart, ?_, hfailures.trans hwritten.2, ?_⟩
  · rw [run_cons, run_cons, run_nil, acked_step_flush]
    exact hwritten.1
  · rintro ⟨entries, after, hread, hmem⟩
    exact absurd (hflushed.lt_of_returns_close (.of_readBack hread hmem)) (by decide)

end Course

end SegmentedJournal
