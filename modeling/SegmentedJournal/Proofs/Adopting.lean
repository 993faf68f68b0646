import SegmentedJournal.Proofs.Growing
import SegmentedJournal.Proofs.Handing
import SegmentedJournal.Proofs.Courses
/-!
# Logs that a writer takes over

A writer that is started on a journal takes the current log over, and completes it at the number it
was started at without looking into it.  What becomes of it depends on that number
(`Writer.Adopting`).  Below the log's start the commit refuses, and nothing is ever changed.  Behind
it the log is completed there, and everything else the writer does is behind the number
(`Course.adopting_step`, `Course.adopting_run`); so entries of the log below the number are
returned as before (`Course.returns_of_adopted`).  Those from the number on are not, and at the
log's start, where it is taken to be empty and is removed, that is all it has
(`Course.lt_of_returns_after_close`).
-/

namespace SegmentedJournal

open Memory (Stream)
open Medium (Keeps Quieter)

namespace Writer

open Journal (Grown)

variable {journal : Journal} {n : UInt64} {writer : Writer Stream} {log : OpenLog Stream}
  {medium : Medium Memory}

/-! ### Writers that have taken a log over -/

/-- The files once a log is completed at a number. -/
def completedAt (journal : Journal) (log : Segment) (n : UInt64) (files : PathMap Bytes) :
    PathMap Bytes :=
  files.moved log.location (journal.log log.start n).location

variable {files : PathMap Bytes} {adopted : Segment}

/-- A writer has taken a log over, and has not touched it yet. -/
structure Holding (journal : Journal) (n : UInt64) (adopted : Segment) (files : PathMap Bytes)
    (writer : Writer Stream) (medium : Medium Memory) : Prop where
  /-- It writes to the journal. -/
  journal_eq : writer.journal = journal
  /-- It goes on at the number. -/
  next_eq : writer.next = n
  /-- The log is the one it writes to. -/
  log_eq : writer.log = some (.adopt adopted)
  /-- The log is completed by the first write. -/
  rotating : writer.rotateNext = true
  /-- No reset is needed. -/
  steady : writer.needsReset = false
  /-- Nothing is armed. -/
  quiet : medium.armed = 0
  /-- The files are as they were. -/
  files_eq : medium.storage.files = files

/-- What is known of the medium: the files are as they were, or the log was completed, and only
what starts at the number or behind it was changed since. -/
def Left (journal : Journal) (n : UInt64) (adopted : Segment) (files : PathMap Bytes)
    (medium : Medium Memory) : Prop :=
  medium.armed = 0 ∧ medium.storage.files = files ∨
    adopted.start < n ∧ Spares journal n (completedAt journal adopted n files) medium

/-- What becomes of a writer that has taken a log over. -/
inductive Adopting (journal : Journal) (n : UInt64) (adopted : Segment) (files : PathMap Bytes) :
    Writer Stream × Medium Memory → Prop where
  /-- It has not touched the log. -/
  | holding {t : Writer Stream × Medium Memory}
      (h : Holding journal n adopted files t.1 t.2) : Adopting journal n adopted files t
  /-- It has completed it and gone on. -/
  | growing {t : Writer Stream × Medium Memory} (hlt : adopted.start < n)
      (h : Growing journal n (completedAt journal adopted n files) t.1 t.2) :
      Adopting journal n adopted files t
  /-- It is closed, or has crashed. -/
  | ended {t : Writer Stream × Medium Memory} (hended : t.1.closed = true ∨ t.1.poisoned = true)
      (h : Left journal n adopted files t.2) : Adopting journal n adopted files t

theorem Adopting.left {t : Writer Stream × Medium Memory}
    (h : Adopting journal n adopted files t) : Left journal n adopted files t.2 := by
  cases h with
  | holding h => exact .inl ⟨h.quiet, h.files_eq⟩
  | growing hlt h => exact .inr ⟨hlt, h.spares⟩
  | ended _ h => exact h

namespace Holding

/-- Starting a writer takes the current log over. -/
theorem of_start {snapshot : Snapshot} {seen started : Medium Memory}
    (hsnapshot : journal.snapshot medium = .ok snapshot seen)
    (hcurrent : snapshot.current = some adopted) (hquiet : medium.armed = 0)
    (hstart : Writer.start journal n medium = .ok writer started) :
    Holding journal n adopted medium.storage.files writer started := by
  obtain ⟨found, hfound, rfl⟩ := exists_snapshot_of_start hstart
  obtain ⟨-, hkeeps⟩ :=
    (journal.ensures_snapshotOf (Medium.tame_of_armed hquiet).honest).of_ok hfound
  cases hsnapshot.symm.trans hfound
  exact ⟨rfl, rfl, congrArg (Option.map OpenLog.adopt) hcurrent, rfl, rfl, hkeeps.quiet hquiet,
    hkeeps.files_eq⟩

/-- A log that was taken over has no stream: it is only completed. -/
theorem ensures_commit_adopt (journal : Journal) (n : UInt64) (adopted : Segment)
    (medium : Medium Memory) (Q : Option Segment → OpenLog Stream × Medium Memory → Prop)
    (E : JournalError → OpenLog Stream × Medium Memory → Prop) :
    (OpenLog.commit journal n).Ensures (OpenLog.adopt adopted, medium) Q E ↔
      (journal.complete adopted n).Ensures medium
        (fun answer after => Q answer (OpenLog.adopt adopted, after))
        (fun e after => E e (OpenLog.adopt adopted, after)) := by
  rw [OpenLog.commit, Action.ensures_bind, Action.ensures_get]
  dsimp only
  rw [Action.ensures_bind, OpenLog.ensures_takeStream]
  dsimp only [OpenLog.adopt]
  rw [Action.ensures_onSecond]

/-- The log is completed at a number behind its start. -/
theorem ensures_commit_of_lt (h : Holding journal n adopted files writer medium)
    (hopens : journal.Opens files (some adopted)) (hn : n ≠ unknownStop)
    (hlt : adopted.start < n) :
    (OpenLog.commit journal n).Ensures (OpenLog.adopt adopted, medium)
      (fun _ t => Quieter medium t.2 ∧ t.2.storage.files = completedAt journal adopted n files)
      (fun _ _ => False) := by
  rw [ensures_commit_adopt, completedAt, ← h.files_eq]
  exact (Journal.ensures_complete_moved hlt (hopens.location_ne hn)).mono
    (fun _ _ hmoved => ⟨hmoved.1, hmoved.2.2⟩)
    fun _ _ hfailed => hfailed.1.elim h.quiet

/-- Below its start it is not completed. -/
theorem ensures_commit_of_gt (adopted : Segment) (medium : Medium Memory)
    (hgt : n < adopted.start) :
    (OpenLog.commit journal n).Ensures (OpenLog.adopt adopted, medium) (fun _ _ => False)
      (fun e t => isWriteFailure e = false ∧ t = (OpenLog.adopt adopted, medium)) := by
  rw [ensures_commit_adopt, Journal.complete, if_pos hgt]
  exact ⟨rfl, rfl⟩

/-- At its start it is taken to be empty, and is removed. -/
theorem ensures_commit_of_eq (h : Holding journal adopted.start adopted files writer medium)
    (hpresent : files.contains adopted.location = true) :
    (OpenLog.commit journal adopted.start).Ensures (OpenLog.adopt adopted, medium)
      (fun _ t => Quieter medium t.2 ∧ t.2.storage.files = files.erase adopted.location)
      (fun _ _ => False) := by
  rw [ensures_commit_adopt]
  rw [← h.files_eq] at hpresent ⊢
  exact (Journal.ensures_complete_empty journal hpresent).mono (fun _ _ herased => herased)
    fun _ _ hfailed => hfailed.2.toFired.elim h.quiet

/-- Once the current log is completed at a number that no other log goes past, none does. -/
theorem stop_le_of_completedAt {other : Segment}
    (hhas : journal.Has (completedAt journal adopted n files) .log other)
    (hopens : journal.Opens files (some adopted)) (hn : n ≠ unknownStop)
    (hlast : ∀ other, journal.Has files .log other → other ≠ adopted → other.stop ≤ n) :
    other.stop ≤ n := by
  by_cases htarget : other.location = (journal.log adopted.start n).location
  · exact UInt64.le_of_eq (hhas.places.stop_of_location htarget)
  · have hpresent := hhas.present
    have hsource : other.location ≠ adopted.location := by
      intro heq
      rw [PathMap.contains, heq, completedAt,
        PathMap.get?_moved_source (hopens.location_ne hn)] at hpresent
      cases hpresent
    rw [PathMap.contains, completedAt, PathMap.get?_moved_of_ne hsource htarget] at hpresent
    exact hlast other ⟨hhas.places, hhas.kind_eq, hpresent⟩ fun heq => hsource (heq ▸ rfl)

/-- Where no other log goes past the number, no log does once the commit has succeeded. -/
theorem exists_ensures_commit_of_le (h : Holding journal n adopted files writer medium)
    (hopens : journal.Opens files (some adopted)) (hn : n ≠ unknownStop) (hle : adopted.start ≤ n)
    (hlast : ∀ other, journal.Has files .log other → other ≠ adopted → other.stop ≤ n) :
    ∃ left, (∀ other, journal.Has left .log other → other.stop ≤ n) ∧
      (OpenLog.commit journal n).Ensures (OpenLog.adopt adopted, medium)
        (fun _ t => Quieter medium t.2 ∧ t.2.storage.files = left) (fun _ _ => False) := by
  obtain ⟨hadopted, -⟩ := (hopens adopted).1 rfl
  by_cases heq : adopted.start = n
  · subst heq
    refine ⟨_, fun other hhas => ?_, h.ensures_commit_of_eq hadopted.present⟩
    rw [Journal.has_erase_location_iff hadopted.places] at hhas
    exact hlast other hhas.1 hhas.2
  · exact ⟨_, fun other hhas => stop_le_of_completedAt hhas hopens hn hlast,
      h.ensures_commit_of_lt hopens hn (UInt64.lt_of_le_of_ne hle heq)⟩

/-- Where the commit succeeds, so does closing the writer. -/
theorem ensures_close_of_commit {R : Medium Memory → Prop}
    (h : Holding journal n adopted files writer medium) (hopen : writer.closed = false)
    (hpoisoned : writer.poisoned = false)
    (hcollector : ∀ collector ∈ writer.collector, collector.crashed = false)
    (hcommit : (OpenLog.commit journal n).Ensures (OpenLog.adopt adopted, medium)
      (fun _ t => R t.2) (fun _ _ => False)) :
    close.Ensures (writer, medium) (fun _ t => R t.2) (fun _ _ => False) := by
  refine ensures_operation finish ?_ hpoisoned
  rw [ensures_finish_of_steady hopen h.steady, finishSettled, Action.ensures_bind,
    Action.ensures_get]
  dsimp only
  rw [h.log_eq, h.journal_eq, h.next_eq]
  dsimp only
  rw [if_pos List.isEmpty_nil, Action.ensures_bind, ensures_errorsOf, ensures_onLog]
  exact hcommit.mono (fun _ t hR => (ensures_finishAfter [] hcollector _ t.2 _ _).2 hR)
    (fun _ _ h => h.elim)

theorem ensures_logForNext (h : Holding journal n adopted files writer medium)
    (hopens : journal.Opens files (some adopted)) (hn : n ≠ unknownStop)
    (hne : n ≠ adopted.start) :
    logForNext.Ensures (writer, medium)
      (fun log t => adopted.start < n ∧
        Growing journal n (completedAt journal adopted n files) t.1 t.2 ∧
        writer.Alike t.1 ∧ t.1.log = some log ∧ log.stream.isSome = true)
      (fun _ t => Adopting journal n adopted files t) := by
  rw [logForNext, Action.ensures_bind, Action.ensures_get]
  dsimp only
  rw [h.log_eq]
  dsimp only
  rw [h.rotating, if_pos rfl]
  rcases UInt64.lt_or_lt_of_ne hne with hgt | hlt
  · -- The commit refuses, and the log stays the writer's.
    rw [rotate, Action.ensures_bind, Action.ensures_get]
    dsimp only
    rw [h.log_eq, h.journal_eq, h.next_eq]
    dsimp only
    rw [Action.ensures_bind, Action.ensures_discard, ensures_resetAfter, ensures_onLog]
    refine (ensures_commit_of_gt adopted medium hgt).mono (fun _ _ h => h.elim) ?_
    rintro e _ ⟨hmild, rfl⟩
    rw [hmild, if_neg Bool.false_ne_true]
    exact .holding ⟨h.journal_eq, h.next_eq, rfl, h.rotating, h.steady, h.quiet, h.files_eq⟩
  · obtain rfl := h.next_eq
    exact (ensures_rotate_of_grown h.journal_eq (UInt64.le_refl _) h.steady h.log_eq
      ((h.ensures_commit_of_lt hopens hn hlt).mono
        (fun _ _ hcommit => ⟨hcommit.1.quiet h.quiet, by
          rw [hcommit.2]; exact .of_moved hopens hn⟩) (fun _ _ h => h.elim))).mono
          (fun _ _ h => ⟨hlt, h⟩) (fun _ _ h => h)

end Holding

namespace Adopting

/-- An entry is appended to a log behind the number. -/
theorem endsIn_append_of_logForNext {entry : Entry} (hsteady : writer.needsReset = false)
    (hrefused : Adopting journal n adopted files (writer, medium))
    (hlog : logForNext.Ensures (writer, medium)
      (fun log t => adopted.start < n ∧
        Growing journal n (completedAt journal adopted n files) t.1 t.2 ∧
        writer.Alike t.1 ∧ t.1.log = some log ∧ log.stream.isSome = true)
      (fun _ t => Adopting journal n adopted files t)) :
    (append entry).EndsIn (writer, medium) (fun _ t => Adopting journal n adopted files t)
      (fun _ t => Adopting journal n adopted files t)
      (fun t => Left journal n adopted files t.2) := by
  rw [append, Action.endsIn_bind, Action.endsIn_get]
  dsimp only
  rw [Action.endsIn_ite]
  refine ⟨fun _ => hrefused, fun _ => ?_⟩
  rw [Action.endsIn_bind, endsIn_settle_of_steady hsteady, Action.endsIn_bind, Action.endsIn_get]
  dsimp only
  rw [Action.endsIn_bind]
  refine hlog.endsIn.mono ?_ (fun _ _ h => h) (fun _ h => h)
  rintro log ⟨ready, opened⟩ ⟨hlt, hready, halike, hsome, hstream⟩
  rw [← halike.next_eq]
  exact (hready.endsIn_appendTo hsome hstream _).mono (fun _ _ h => .growing hlt h.1)
    (fun _ _ h => h.elim) fun _ h => .inr ⟨hlt, h.2⟩

variable {t : Writer Stream × Medium Memory}

theorem endsIn_append (h : Adopting journal n adopted files t) (entry : Entry)
    (hopens : journal.Opens files (some adopted)) (hn : n ≠ unknownStop) (hne : n ≠ adopted.start)
    (hpoisoned : t.1.poisoned = false) :
    (append entry).EndsIn t (fun _ t => Adopting journal n adopted files t)
      (fun _ t => Adopting journal n adopted files t)
      (fun t => Left journal n adopted files t.2) := by
  cases h with
  | holding h =>
      exact endsIn_append_of_logForNext h.steady (.holding h) (h.ensures_logForNext hopens hn hne)
  | growing hlt h =>
      exact endsIn_append_of_logForNext h.steady (.growing hlt h)
        (h.ensures_logForNext.mono (fun _ _ h => ⟨hlt, h⟩) fun _ _ h => .growing hlt h.1)
  | ended hended h =>
      have hclosed := hended.resolve_right (by rw [hpoisoned]; exact Bool.false_ne_true)
      rw [append, Action.endsIn_bind, Action.endsIn_get]
      dsimp only
      rw [hclosed, if_pos rfl]
      exact .ended (.inl hclosed) h

theorem ensures_push (h : Adopting journal n adopted files t) (hpoisoned : t.1.poisoned = false) :
    push.Ensures t (fun _ t => Adopting journal n adopted files t)
      (fun _ t => Adopting journal n adopted files t) := by
  cases h with
  | growing hlt h =>
      refine h.ensures_push.mono (fun _ _ h => .growing hlt h.1) ?_
      rintro _ _ ⟨-, rfl⟩
      exact .growing hlt h
  | ended hended h =>
      have hclosed := hended.resolve_right (by rw [hpoisoned]; exact Bool.false_ne_true)
      rw [push, Action.ensures_bind, Action.ensures_get]
      dsimp only
      rw [hclosed, if_pos rfl]
      exact .ended (.inl hclosed) h
  | holding h =>
      rw [push, Action.ensures_bind, Action.ensures_get]
      dsimp only
      rw [Action.ensures_ite]
      refine ⟨fun _ => .holding h, fun _ => ?_⟩
      rw [Action.ensures_bind, ensures_settle_of_steady h.steady, Action.ensures_bind,
        Action.ensures_get, h.log_eq]
      exact .holding h

theorem ensures_finish (h : Adopting journal n adopted files t)
    (hopens : journal.Opens files (some adopted)) (hn : n ≠ unknownStop) (hne : n ≠ adopted.start)
    (hpoisoned : t.1.poisoned = false) :
    finish.Ensures t (fun _ t => Adopting journal n adopted files t)
      (fun _ t => Adopting journal n adopted files t) := by
  cases hclosed : t.1.closed with
  | true =>
      rw [finish, Action.ensures_bind, Action.ensures_get]
      dsimp only
      rw [hclosed, if_pos rfl]
      exact h
  | false =>
      have hleft : finish.Ensures t
          (fun _ t => t.1.closed = true ∧ Left journal n adopted files t.2)
          (fun _ t => t.1.closed = true ∧ Left journal n adopted files t.2) := by
        cases h with
        | growing hlt h =>
            exact (h.ensures_finish hclosed).mono (fun _ _ h => ⟨h.1, .inr ⟨hlt, h.2⟩⟩)
              fun _ _ h => ⟨h.1, .inr ⟨hlt, h.2⟩⟩
        | ended hended h =>
            rw [hclosed, hpoisoned] at hended
            rcases hended with hended | hended <;> cases hended
        | holding h =>
            refine ensures_finish_of_commit hclosed h.steady
              (fun hnone => .inl ⟨h.quiet, h.files_eq⟩) fun log hlog => ?_
            obtain rfl : .adopt adopted = log := Option.some.inj (h.log_eq.symm.trans hlog)
            rw [h.journal_eq, h.next_eq]
            rcases UInt64.lt_or_lt_of_ne hne with hgt | hlt
            · refine (Holding.ensures_commit_of_gt adopted t.2 hgt).mono (fun _ _ h => h.elim) ?_
              rintro e _ ⟨-, rfl⟩
              exact .inl ⟨h.quiet, h.files_eq⟩
            · exact (h.ensures_commit_of_lt hopens hn hlt).mono
                (fun _ _ hcommit => .inr ⟨hlt, hcommit.1.quiet h.quiet, _, by
                  rw [hcommit.2]; exact .of_moved hopens hn⟩)
                (fun _ _ h => h.elim)
      exact hleft.mono (fun _ _ h => .ended (.inl h.1) h.2) fun _ _ h => .ended (.inl h.1) h.2

/-- An operation leaves the writer so if its action does; a crash ends it. -/
theorem leaves_operation {α : Type} {x : Action JournalError (Writer Stream × Medium Memory) α}
    (h : Adopting journal n adopted files t)
    (hx : t.1.poisoned = false → x.EndsIn t (fun _ t => Adopting journal n adopted files t)
      (fun _ t => Adopting journal n adopted files t)
      (fun t => Left journal n adopted files t.2)) :
    Adopting journal n adopted files ((operation x).leaves t) := by
  refine Action.EndsIn.leaves ((endsIn_operation x t _ _ _).2 ⟨fun _ => h, fun hsound => ?_⟩)
  exact (hx hsound).mono (fun _ _ h => h) (fun _ _ h => h) fun _ h => .ended (.inr rfl) h

end Adopting

end Writer

/-! ### Courses of such a writer -/

/-- The move is one of the writer's: nothing is armed. -/
def Move.Calm : Move → Prop
  | write _ | flush | close => True
  | arm _ | armCall _ => False

instance : (move : Move) → Decidable move.Calm
  | .write _ | .flush | .close => inferInstanceAs (Decidable True)
  | .arm _ | .armCall _ => inferInstanceAs (Decidable False)

namespace Course

open Writer (Adopting)

variable {journal : Journal} {n : UInt64} {adopted : Segment} {files : PathMap Bytes}
  {course : Course} {move : Move} {moves : List Move}

/-- **Step**: a move of a writer that has taken a log over. -/
theorem adopting_step (h : Adopting journal n adopted files (course.writer, course.medium))
    (hopens : journal.Opens files (some adopted)) (hn : n ≠ unknownStop) (hne : n ≠ adopted.start)
    (hcalm : move.Calm) :
    Adopting journal n adopted files ((course.step move).writer, (course.step move).medium) := by
  cases move with
  | write entry =>
      rw [← course.leaves_write entry]
      exact h.leaves_operation (h.endsIn_append entry hopens hn hne)
  | flush =>
      rw [← course.leaves_flush]
      exact h.leaves_operation fun hpoisoned => (h.ensures_push hpoisoned).endsIn
  | close =>
      rw [← course.leaves_close]
      exact h.leaves_operation fun hpoisoned =>
        (h.ensures_finish hopens hn hne hpoisoned).endsIn
  | arm fault => exact hcalm.elim
  | armCall fault => exact hcalm.elim

/-- **Run**: moves of a writer that has taken a log over. -/
theorem adopting_run (h : Adopting journal n adopted files (course.writer, course.medium))
    (hopens : journal.Opens files (some adopted)) (hn : n ≠ unknownStop) (hne : n ≠ adopted.start)
    (hcalm : ∀ move ∈ moves, move.Calm) :
    Adopting journal n adopted files ((course.run moves).writer, (course.run moves).medium) := by
  induction moves generalizing course with
  | nil => exact h
  | cons move moves ih =>
      exact ih (adopting_step h hopens hn hne (hcalm move List.mem_cons_self))
        fun other hother => hcalm other (List.mem_cons_of_mem _ hother)

end Course

/-! ### What is still returned -/

namespace Journal

variable {journal : Journal} {n : UInt64} {log : Segment} {own : Option Segment}
  {base files files' : PathMap Bytes}

theorem Grown.exists_opens (h : journal.Grown n base files own) :
    ∃ current, journal.Opens files current := by
  by_cases hsome : ∃ segment, journal.Has files .log segment ∧ segment.stop = unknownStop
  · obtain ⟨segment, hhas, hstop⟩ := hsome
    refine ⟨some segment, fun other => ⟨?_, fun hother => ?_⟩⟩
    · rintro ⟨⟩
      exact ⟨hhas, hstop⟩
    · rw [← h.only segment hhas hstop]
      exact h.only other hother.1 hother.2
  · exact ⟨none, fun other => ⟨fun hnone => (by cases hnone), fun hother => hsome.elim ⟨_, hother⟩⟩⟩

/-- What stands before the completed log is what stood before it. -/
theorem Grown.get?_eq (h : journal.Grown n (Writer.completedAt journal log n files) files' own)
    (hopens : journal.Opens files (some log)) (hlt : log.start < n) {other : Segment}
    (hplaces : journal.Places other) (hstop : other.stop ≠ unknownStop)
    (hprecedes : other.precedes (journal.log log.start n) = true) :
    files'.get? other.location = files.get? other.location := by
  obtain ⟨hlog, hlogStop⟩ := (hopens log).1 rfl
  have hstart : other.start ≤ log.start := by
    rcases Segment.precedes_iff.1 hprecedes with hbelow | ⟨hsame, -⟩
    · exact UInt64.le_of_lt hbelow
    · exact UInt64.le_of_eq hsame
  rw [h.before other hplaces (UInt64.lt_of_le_of_lt hstart hlt), Writer.completedAt]
  refine PathMap.get?_moved_of_ne (fun heq => hstop ?_) fun heq => ?_
  · rw [hplaces.eq_of_location hlog.places heq, hlogStop]
  · rw [hplaces.eq_log heq, Segment.precedes_irrefl] at hprecedes
    cases hprecedes

/-- An entry of a log that was completed at a number above it is returned still. -/
theorem Returns.of_grown {ledger : Ledger} {i m : Nat} {tail : Bytes} {medium after : Medium Memory}
    {checkpoints complete : List Segment}
    (h : journal.Returns log.start medium (ledger.entry i))
    (hlists : journal.Lists medium.storage.files checkpoints complete (some log))
    (hspares : Writer.Spares journal n
      (Writer.completedAt journal log n medium.storage.files) after)
    (hquiet : medium.armed = 0) (hlt : log.start < n) (hn : n < unknownStop)
    (hget : medium.storage.files.get? log.location =
      some (ledger.frames log.start.toNat m ++ tail))
    (hfits : ledger.Fits) (him : i < m) (hm : m < UInt64.size) (hin : i < n.toNat) :
    journal.Returns log.start after (ledger.entry i) := by
  obtain ⟨hquiet', own, hgrown⟩ := hspares
  obtain ⟨current, hopens'⟩ := hgrown.exists_opens
  obtain ⟨checkpoints', complete', hlists'⟩ := hopens'.exists_lists
  have hplaces : journal.Places (journal.log log.start n) :=
    journal.places_log (UInt64.le_of_lt hlt) (UInt64.le_of_lt hn)
  have hcompleted : after.storage.files.get? (journal.log log.start n).location =
      some (ledger.frames log.start.toNat m ++ tail) := by
    rw [hgrown.before _ hplaces hlt, Writer.completedAt, PathMap.get?_moved_target hget]
  have hmem : journal.log log.start n ∈ complete' :=
    (hlists'.mem_complete _).2 ⟨⟨hplaces, rfl, PathMap.contains_iff.2 ⟨_, hcompleted⟩⟩,
      UInt64.ne_of_lt hn⟩
  have hreturns : journal.Returns (journal.log log.start n).start medium (ledger.entry i) := h
  refine hreturns.of_log hlists hlists' hquiet hquiet' hmem (fun other hprecedes => ?_) hcompleted
    hfits him hm hin
  have hsame (hplaces : journal.Places other) (hstop : other.stop ≠ unknownStop) :=
    hgrown.get?_eq hlists.mem_current hlt hplaces hstop hprecedes
  rw [hlists'.mem_complete, hlists.mem_complete]
  refine ⟨⟨fun h => ⟨⟨h.1.places, h.1.kind_eq, ?_⟩, h.2⟩,
    fun h => ⟨⟨h.1.places, h.1.kind_eq, ?_⟩, h.2⟩⟩, fun h => hsame h.1.places h.2⟩
  · rw [PathMap.contains, ← hsame h.1.places h.2]
    exact h.1.present
  · rw [PathMap.contains, hsame h.1.places h.2]
    exact h.1.present

end Journal

namespace Course

open Writer (Adopting)

/-- **Adoption**: let a writer be started at a number that is not the start of the journal's current
log, and write, flush and close where nothing is armed.  If the number is below the log's start,
nothing is changed.  If it is above, every entry below it that the log has, and those before it from
the start on, is returned after any of these moves if it was before.

What the log has from the number on is hidden, also where the number is the log's start
(`Course.lt_of_returns_after_close`). -/
theorem returns_of_adopted {journal : Journal} {ledger : Ledger} {n : UInt64} {m : Nat}
    {log : Segment} {snapshot : Snapshot} {tail : Bytes} {writer : Writer Stream}
    {medium seen started : Medium Memory} {moves : List Move}
    (hquiet : medium.armed = 0) (hsnapshot : journal.snapshot medium = .ok snapshot seen)
    (hcurrent : snapshot.current = some log) (hfits : ledger.Fits) (hm : m < UInt64.size)
    (hget : medium.storage.files.get? log.location =
      some (ledger.frames log.start.toNat m ++ tail))
    (hstart : Writer.start journal n medium = .ok writer started) (hne : n ≠ log.start)
    (hn : n < unknownStop) (hcalm : ∀ move ∈ moves, move.Calm) :
    (n < log.start →
      ((begun writer started).run moves).medium.storage.files = medium.storage.files) ∧
    ∀ i < m, n < log.start ∨ i < n.toNat →
      journal.Returns log.start medium (ledger.entry i) →
      journal.Returns log.start ((begun writer started).run moves).medium (ledger.entry i) := by
  obtain ⟨checkpoints, complete, current⟩ := snapshot
  obtain rfl : current = some log := hcurrent
  have hsnapshotOf := ((journal.ensures_snapshotOf
    (Medium.tame_of_armed hquiet).honest).of_ok hsnapshot).1
  have hlists := Journal.lists_of_snapshotOf_eq hsnapshotOf
  have hbegun : Adopting journal n log medium.storage.files
      ((begun writer started).writer, (begun writer started).medium) :=
    .holding (.of_start hsnapshot rfl hquiet hstart)
  have hadopting := adopting_run hbegun hlists.mem_current (UInt64.ne_of_lt hn) hne hcalm
  rcases hadopting.left with ⟨hquiet', hfiles⟩ | ⟨hlt, hspares⟩
  · refine ⟨fun _ => hfiles, fun i _ _ hreturns => ?_⟩
    rw [Journal.returns_iff hlists hquiet, ← hfiles] at hreturns
    exact (Journal.returns_iff (hfiles ▸ hlists) hquiet').2 hreturns
  · refine ⟨fun hgt => absurd hgt (UInt64.lt_asymm hlt), fun i him hi hreturns => ?_⟩
    exact hreturns.of_grown hlists hspares hquiet hlt hn hget hfits him hm
      (hi.resolve_left (UInt64.lt_asymm hlt))

/-- **Hidden entries**: a writer that is started at the current log's start or behind it, where no
other log goes on past the number, and is closed straight away, fails nowhere, and from then on the
journal returns nothing from the number on: at its start the log was taken to be empty and is
removed, and behind it the log was completed there, whatever it has from there on. -/
theorem lt_of_returns_after_close {journal : Journal} {n : UInt64} {log : Segment}
    {snapshot : Snapshot} {writer : Writer Stream} {medium seen started : Medium Memory}
    (hquiet : medium.armed = 0) (hsnapshot : journal.snapshot medium = .ok snapshot seen)
    (hcurrent : snapshot.current = some log)
    (hstart : Writer.start journal n medium = .ok writer started) (hle : log.start ≤ n)
    (hn : n < unknownStop) (hlast : ∀ other ∈ snapshot.logs, other.stop ≤ n) :
    ((begun writer started).run [.close]).failures = [] ∧ ∀ {start : UInt64} {entry : Entry},
      journal.Returns start ((begun writer started).run [.close]).medium entry →
        entry.sequence < n := by
  obtain ⟨checkpoints, complete, current⟩ := snapshot
  obtain rfl : current = some log := hcurrent
  have hlists := Journal.lists_of_snapshotOf_eq ((journal.ensures_snapshotOf
    (Medium.tame_of_armed hquiet).honest).of_ok hsnapshot).1
  have hlast' : ∀ other, journal.Has medium.storage.files .log other → other ≠ log →
      other.stop ≤ n := by
    refine fun other hhas hother => hlast other ((hlists.mem_complete other).2 ⟨hhas, ?_⟩)
    exact fun hstop => hother (Option.some.inj ((hlists.mem_current other).2 ⟨hhas, hstop⟩)).symm
  have hholding := Writer.Holding.of_start hsnapshot rfl hquiet hstart
  obtain ⟨left, hstops, hcommit⟩ :=
    hholding.exists_ensures_commit_of_le hlists.mem_current (UInt64.ne_of_lt hn) hle hlast'
  obtain ⟨hopen, hpoisoned, hcollector⟩ := Writer.fresh_of_start hstart
  obtain ⟨_, ⟨closed, after⟩, hclose, hquieter, rfl⟩ :=
    (hholding.ensures_close_of_commit (R := fun after : Medium Memory =>
      Quieter started after ∧ after.storage.files = left)
        hopen hpoisoned hcollector hcommit).exists_ok fun _ _ h => h
  have hquiet' := hquieter.quiet hholding.quiet
  simp only [run_cons, run_nil, step, begun, hclose]
  refine ⟨trivial, fun hreturns => ?_⟩
  have hopens : journal.Opens after.storage.files none := by
    refine fun other => ⟨fun hnone => (by cases hnone), fun hother => ?_⟩
    exact absurd hn (UInt64.not_lt.2 (hother.2 ▸ hstops other hother.1))
  obtain ⟨_, _, hlists'⟩ := hopens.exists_lists
  obtain ⟨other, hhas, hlt⟩ := hreturns.exists_lt_stop hlists' hquiet'
  exact UInt64.lt_of_lt_of_le hlt (hstops other hhas)

/-- A journal with the one log of what comes from the number 0 on, and a writer that takes it
over. -/
theorem start_single (journal : Journal) (n : UInt64) (medium : Medium Memory) {contents : Bytes}
    (hconfig : journal.config.validate = .ok ()) (hgc : journal.config.gcEnabled = false)
    (hquiet : medium.armed = 0)
    (hfiles : medium.storage.files =
      PathMap.empty.insert (journal.log 0 unknownStop).location contents) :
    ∃ seen, journal.Lists medium.storage.files [] [] (some (journal.log 0 unknownStop)) ∧
      journal.snapshot medium = .ok ⟨[], [], some (journal.log 0 unknownStop)⟩ seen ∧
      Writer.start journal n medium =
        .ok { journal, next := n, log := some (.adopt (journal.log 0 unknownStop)) } seen := by
  have hlists : journal.Lists medium.storage.files [] [] (some (journal.log 0 unknownStop)) := by
    rw [hfiles]
    exact (Journal.lists_of_snapshotOf_eq journal.snapshotOf_empty).insert_current
      (journal.places_log (by decide) (by decide)) rfl rfl
  obtain ⟨_, seen, hsnapshot, rfl, -⟩ :=
    (Journal.ensures_snapshot hlists (Medium.tame_of_armed hquiet).honest).exists_ok
      fun _ _ hfoiled => hfoiled.2.toFired.elim hquiet
  refine ⟨seen, hlists, hsnapshot, ?_⟩
  rw [Writer.start, hconfig, hgc]
  exact (Action.bind_of_ok rfl).trans (Action.bind_of_ok hsnapshot)

/-- Such a journal returns what the log has. -/
theorem returns_single {journal : Journal} {ledger : Ledger} {medium : Medium Memory} {i m : Nat}
    {tail : Bytes}
    (hlists : journal.Lists medium.storage.files [] [] (some (journal.log 0 unknownStop)))
    (hquiet : medium.armed = 0)
    (hget : medium.storage.files.get? (journal.log 0 unknownStop).location =
      some (ledger.frames 0 m ++ tail))
    (hfits : ledger.Fits) (him : i < m) (hm : m < unknownStop.toNat) :
    journal.Returns 0 medium (ledger.entry i) := by
  have hsize : unknownStop.toNat < UInt64.size := by decide
  refine (Journal.returns_iff hlists hquiet).2 (.opened (UInt64.lt_irrefl 0) hget ?_)
  exact .of_frames _ _ _ hfits (Nat.le_refl 0) (Nat.zero_le i) him (by omega)
    (show i < unknownStop.toNat by omega) rfl

/-- For example, two entries are returned still once a writer has gone on behind them. -/
theorem returns_of_adopted_two :
    let journal := Journal.rooted "journal" { gcEnabled := false }
    let ledger : Ledger := fun i => [UInt8.ofNat i]
    let log := journal.log 0 unknownStop
    let files := PathMap.empty.insert log.location (ledger.frames 0 2)
    let medium : Medium Memory := { storage := { publishing := .onFlush, files } }
    ∃ snapshot seen writer started, journal.snapshot medium = .ok snapshot seen ∧
      snapshot.current = some log ∧ Writer.start journal 2 medium = .ok writer started ∧
      ∀ i < 2, journal.Returns 0 medium (ledger.entry i) ∧ journal.Returns 0
        ((begun writer started).run [.write ⟨0, [2]⟩, .flush, .close]).medium (ledger.entry i) := by
  intro journal ledger log files medium
  have hfits : ledger.Fits := fun _ => (by decide : 1 ≤ 64 * 1024 * 1024 - 12)
  have hget : medium.storage.files.get? log.location = some (ledger.frames 0 2 ++ []) := by
    rw [List.append_nil]
    exact (PathMap.get?_insert ..).trans (if_pos rfl)
  obtain ⟨seen, hlists, hsnapshot, hstart⟩ :=
    start_single journal 2 medium rfl rfl rfl rfl
  refine ⟨_, _, _, _, hsnapshot, rfl, hstart, fun i hi => ?_⟩
  have hreturns := returns_single hlists rfl hget hfits hi (by decide)
  exact ⟨hreturns, (returns_of_adopted rfl hsnapshot rfl hfits (by decide) hget hstart (by decide)
    (by decide) (by decide)).2 i hi (.inr hi) hreturns⟩

/-- For example, a writer that is started at the log's own start is closed without an error, and
what the log had is lost. -/
theorem adopted_lost_at_start :
    let journal := Journal.rooted "journal" { gcEnabled := false }
    let ledger : Ledger := fun i => [UInt8.ofNat i]
    let log := journal.log 0 unknownStop
    let files := PathMap.empty.insert log.location (ledger.frames 0 1)
    let medium : Medium Memory := { storage := { publishing := .onFlush, files } }
    ∃ writer started, Writer.start journal 0 medium = .ok writer started ∧
      journal.Returns 0 medium (ledger.entry 0) ∧
      ((begun writer started).run [.close]).failures = [] ∧
      ¬ journal.Returns 0 ((begun writer started).run [.close]).medium (ledger.entry 0) := by
  intro journal ledger log files medium
  have hfits : ledger.Fits := fun _ => (by decide : 1 ≤ 64 * 1024 * 1024 - 12)
  have hget : medium.storage.files.get? log.location = some (ledger.frames 0 1 ++ []) := by
    rw [List.append_nil]
    exact (PathMap.get?_insert ..).trans (if_pos rfl)
  obtain ⟨seen, hlists, hsnapshot, hstart⟩ :=
    start_single journal 0 medium rfl rfl rfl rfl
  obtain ⟨hfailures, hbelow⟩ := lt_of_returns_after_close (show medium.armed = 0 from rfl)
    hsnapshot rfl hstart (UInt64.le_refl 0) (by decide) (fun _ hnone => (by cases hnone))
  exact ⟨_, seen, hstart, returns_single hlists rfl hget hfits (by decide) (by decide), hfailures,
    fun hreturns => absurd (hbelow hreturns) (UInt64.not_lt.2 (UInt64.le_refl 0))⟩

end Course

end SegmentedJournal
