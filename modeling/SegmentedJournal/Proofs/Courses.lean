import SegmentedJournal.Proofs.Standing
/-!
# Courses of a writer

A course is what becomes of a writer and its medium, move by move: the writer is told to write, to
flush or to close, and failures are armed in between.  It remembers the entries that were
acknowledged, how many of them a flush or the close promised, and every failure that was reported
(`Course.step`, `Course.run`).

One move keeps a writer in good standing with the ledger that the acknowledged entries make
(`Course.Kept.step`), and so does a whole course (`Course.Kept.run`): the numbers have no gaps, and
no failure is fatal.
-/

namespace SegmentedJournal

open Memory (Stream)
open Medium (Fired Keeps Quieter)

/-- What can happen to a writer and its medium. -/
inductive Move where
  /-- The writer is given an entry. -/
  | write (entry : Entry)
  /-- The writer is flushed. -/
  | flush
  /-- The writer is closed. -/
  | close
  /-- A failure of the storage is armed. -/
  | arm (fault : Fault)
  /-- A failure of calls is armed. -/
  | armCall (fault : CallFault)
deriving DecidableEq

/-- The payloads fit frames, and the failures armed for calls are tame. -/
def Move.Fair (publishing : Publishing) : Move → Prop
  | write entry => entry.Fits
  | armCall fault => fault.Tame publishing
  | _ => True

instance (publishing : Publishing) : (move : Move) → Decidable (move.Fair publishing)
  | .write entry => inferInstanceAs (Decidable entry.Fits)
  | .armCall fault => inferInstanceAs (Decidable (fault.Tame publishing))
  | .flush | .close | .arm _ => inferInstanceAs (Decidable True)

/-! ### What is acknowledged stays so -/

/-- A step acknowledges one entry or none, and only one that fits a frame if the step is fair. -/
def Acknowledges {α β : Type} (step : α → β → α) (acked : α → List Entry) (fair : β → Prop) :
    Prop :=
  ∀ state move, acked (step state move) = acked state ∨
    ∃ entry : Entry, (fair move → entry.Fits) ∧ acked (step state move) = acked state ++ [entry]

namespace Acknowledges

variable {α β : Type} {step : α → β → α} {acked : α → List Entry} {fair : β → Prop}

theorem grows_step (h : Acknowledges step acked fair) (state : α) (move : β) :
    acked state <+: acked (step state move) := by
  rcases h state move with heq | ⟨entry, -, heq⟩
  · exact heq ▸ List.prefix_refl _
  · exact heq ▸ List.prefix_append _ _

/-- What was acknowledged stays so. -/
theorem grows (h : Acknowledges step acked fair) (state : α) (moves : List β) :
    acked state <+: acked (moves.foldl step state) := by
  induction moves generalizing state with
  | nil => exact List.prefix_refl _
  | cons move moves ih => exact (h.grows_step state move).trans (ih _)

/-- No more entries are acknowledged than there are steps. -/
theorem length_le (h : Acknowledges step acked fair) (state : α) (moves : List β) :
    (acked (moves.foldl step state)).length ≤ (acked state).length + moves.length := by
  induction moves generalizing state with
  | nil => exact Nat.le_refl _
  | cons move moves ih =>
      have hrest := ih (step state move)
      have hstep : (acked (step state move)).length ≤ (acked state).length + 1 := by
        rcases h state move with heq | ⟨entry, -, heq⟩
        · rw [heq]
          exact Nat.le_succ _
        · rw [heq, List.length_append]
          exact Nat.le_refl _
      rw [List.foldl_cons, List.length_cons]
      omega

/-- What is acknowledged in fair steps fits frames. -/
theorem fits (h : Acknowledges step acked fair) {state : α} {moves : List β}
    (hfair : ∀ move ∈ moves, fair move) (hacked : ∀ entry ∈ acked state, entry.Fits) :
    ∀ entry ∈ acked (moves.foldl step state), entry.Fits := by
  induction moves generalizing state with
  | nil => exact hacked
  | cons move moves ih =>
      refine ih (fun other hother => hfair other (List.mem_cons_of_mem _ hother)) ?_
      rcases h state move with heq | ⟨entry, hfits, heq⟩
      · rwa [heq]
      · -- What is new is the entry of a fair step.
        intro other hother
        rw [heq] at hother
        rcases List.mem_append.1 hother with hold | hnew
        · exact hacked other hold
        · rw [List.mem_singleton.1 hnew]
          exact hfits (hfair move List.mem_cons_self)

end Acknowledges

/-! ### Courses -/

/-- What became of a writer and its medium. -/
structure Course where
  /-- The writer. -/
  writer : Writer Stream
  /-- Its medium. -/
  medium : Medium Memory
  /-- The entries that were acknowledged, first to last. -/
  acked : List Entry := []
  /-- How many of them a flush or the close promised. -/
  flushed : Nat := 0
  /-- The failures that were reported. -/
  failures : List (Failure JournalError) := []

namespace Course

/-- What one move makes of a course. -/
def step (course : Course) : Move → Course
  | .write entry =>
    match Writer.write entry (course.writer, course.medium) with
    | .ok q (writer, medium) =>
      { course with writer, medium, acked := course.acked ++ [⟨q, entry.payload⟩] }
    | .error failure (writer, medium) =>
      { course with writer, medium, failures := course.failures ++ [failure] }
  | .flush =>
    match Writer.flush (course.writer, course.medium) with
    | .ok () (writer, medium) => { course with writer, medium, flushed := course.acked.length }
    | .error failure (writer, medium) =>
      { course with writer, medium, failures := course.failures ++ [failure] }
  | .close =>
    match Writer.close (course.writer, course.medium) with
    | .ok () (writer, medium) =>
      -- Only the close that ends the writer promises anything.
      let flushed := if course.writer.closed then course.flushed else course.acked.length
      { course with writer, medium, flushed }
    | .error failure (writer, medium) =>
      { course with writer, medium, failures := course.failures ++ [failure] }
  | .arm fault =>
    let storage := { course.medium.storage with faults := course.medium.storage.faults ++ [fault] }
    { course with medium := { course.medium with storage } }
  | .armCall fault =>
    { course with medium :=
      { course.medium with callFaults := course.medium.callFaults ++ [fault] } }

theorem leaves_write (course : Course) (entry : Entry) :
    (Writer.write entry).leaves (course.writer, course.medium) =
      ((course.step (.write entry)).writer, (course.step (.write entry)).medium) := by
  unfold step Action.leaves
  dsimp only
  rcases Writer.write entry (course.writer, course.medium) with ⟨_, _, _⟩ | ⟨_, _, _⟩ <;> rfl

theorem leaves_flush (course : Course) :
    Writer.flush.leaves (course.writer, course.medium) =
      ((course.step .flush).writer, (course.step .flush).medium) := by
  unfold step Action.leaves
  dsimp only
  rcases Writer.flush (course.writer, course.medium) with ⟨_, _, _⟩ | ⟨_, _, _⟩ <;> rfl

theorem leaves_close (course : Course) :
    Writer.close.leaves (course.writer, course.medium) =
      ((course.step .close).writer, (course.step .close).medium) := by
  unfold step Action.leaves
  dsimp only
  rcases Writer.close (course.writer, course.medium) with ⟨_, _, _⟩ | ⟨_, _, _⟩ <;> rfl

/-- What moves make of a course, one after the other. -/
def run (course : Course) (moves : List Move) : Course :=
  moves.foldl step course

@[simp] theorem run_nil (course : Course) : course.run [] = course := rfl

@[simp] theorem run_cons (course : Course) (move : Move) (moves : List Move) :
    course.run (move :: moves) = (course.step move).run moves := rfl

/-- The course of a writer that has just been started. -/
def begun (writer : Writer Stream) (medium : Medium Memory) : Course :=
  { writer, medium }

/-- The course of a writer that is started now, if it can be. -/
def started? (journal : Journal) (next : UInt64) (medium : Medium Memory) : Option Course :=
  match Writer.start journal next medium with
  | .ok writer medium => some (begun writer medium)
  | .error _ _ => none

theorem start_of_started? {journal : Journal} {next : UInt64} {medium : Medium Memory}
    {course : Course} (h : started? journal next medium = some course) :
    Writer.start journal next medium = .ok course.writer course.medium := by
  unfold started? at h
  split at h
  · next hstart =>
    cases h
    exact hstart
  · cases h

/-- A move acknowledges an entry that was written, if any. -/
theorem acknowledges (publishing : Publishing) :
    Acknowledges step acked (Move.Fair publishing) := by
  intro course move
  cases move with
  | write entry =>
      unfold step
      dsimp only
      split
      · next q _ _ _ =>
        exact .inr ⟨⟨q, entry.payload⟩, fun hfair : entry.Fits => hfair, rfl⟩
      · exact .inl rfl
  | flush => unfold step; dsimp only; split <;> exact .inl rfl
  | close => unfold step; dsimp only; split <;> exact .inl rfl
  | arm fault => exact .inl rfl
  | armCall fault => exact .inl rfl

theorem acked_run (course : Course) (moves : List Move) :
    course.acked <+: (course.run moves).acked :=
  (acknowledges .onFlush).grows course moves

/-- No more entries are acknowledged than there are moves. -/
theorem length_acked_run_le (course : Course) (moves : List Move) :
    (course.run moves).acked.length ≤ course.acked.length + moves.length :=
  (acknowledges .onFlush).length_le course moves

end Course

/-- The ledger has the payloads of entries that are numbered from `s` on. -/
def Ledger.Carries (ledger : Ledger) (s : Nat) (entries : List Entry) : Prop :=
  ∀ i entry, entries[i]? = some entry → entry.payload = ledger (s + i)

theorem Ledger.Carries.of_prefix {ledger : Ledger} {s : Nat} {entries entries' : List Entry}
    (h : ledger.Carries s entries') (hpre : entries <+: entries') :
    ledger.Carries s entries := by
  intro i entry hentry
  obtain ⟨rest, rfl⟩ := hpre
  obtain ⟨hlt, -⟩ := List.getElem?_eq_some_iff.1 hentry
  exact h i entry (by rw [List.getElem?_append_left hlt, hentry])

namespace Course

variable {account : Account} {course : Course} {move : Move} {moves : List Move} {s : Nat}
  {publishing : Publishing}

/-! ### Courses in good standing -/

/-- The writer of a course that began at number `s` is in good standing, the ledger has what was
acknowledged, and nothing fatal was reported. -/
structure Kept (account : Account) (s : Nat) (publishing : Publishing) (course : Course) :
    Prop where
  /-- The writer is in good standing. -/
  standing : account.Standing (s + course.acked.length) (s + course.flushed) course.writer
    course.medium
  /-- The numbers have no gaps. -/
  acked_eq : course.acked = account.ledger.entries s (s + course.acked.length)
  /-- Only what was acknowledged was promised. -/
  flushed_le : course.flushed ≤ course.acked.length
  /-- Streams publish as they did. -/
  publishing_eq : course.medium.storage.publishing = publishing
  /-- Nothing fatal was reported, and nothing crashed. -/
  mild : ∀ failure ∈ course.failures, ∃ e, failure = .error e ∧ e.isFatal = false

theorem Kept.fail {writer : Writer Stream} {medium : Medium Memory} {e : JournalError}
    (h : course.Kept account s publishing) (hmild : e.isFatal = false)
    (hpublishing : medium.storage.publishing = course.medium.storage.publishing)
    (hstanding : account.Standing (s + course.acked.length) (s + course.flushed) writer medium) :
    Kept account s publishing { course with
      writer, medium, failures := course.failures ++ [.error e] } := by
  refine ⟨hstanding, h.acked_eq, h.flushed_le, hpublishing.trans h.publishing_eq, ?_⟩
  intro failure hfailure
  rcases List.mem_append.1 hfailure with hold | hnew
  · exact h.mild failure hold
  · exact ⟨e, List.mem_singleton.1 hnew, hmild⟩

theorem Kept.step_write {entry : Entry} (h : course.Kept account s publishing)
    (hfits : entry.Fits)
    (hcarries : account.ledger.Carries s (course.step (.write entry)).acked)
    (hbound : s + (course.step (.write entry)).acked.length < unknownStop.toNat) :
    (course.step (.write entry)).Kept account s publishing ∧
      (course.step (.write entry)).writer.closed = course.writer.closed := by
  unfold step at *
  rcases (h.standing.ensures_write hfits).ok_or_error with
    ⟨q, ⟨writer, medium⟩, heq, rfl, hquieter, hclosed, hstanding⟩ |
    ⟨e, ⟨writer, medium⟩, heq, hmild, hquieter, hclosed, hstanding⟩
  · -- The ledger has the payload, since the entry is the last one that was acknowledged.
    simp only [heq, List.length_append, List.length_singleton] at hcarries hbound ⊢
    have hpayload : entry.payload = account.ledger (s + course.acked.length) :=
      hcarries course.acked.length ⟨UInt64.ofNat (s + course.acked.length), entry.payload⟩
        List.getElem?_concat_length
    refine ⟨⟨?_, ?_, ?_, ?_, h.mild⟩, hclosed⟩
    · simpa [Nat.add_assoc] using hstanding hpayload (by omega)
    · dsimp only
      rw [List.length_append, List.length_singleton, ← Nat.add_assoc,
        Ledger.entries_succ (Nat.le_add_right s _), ← h.acked_eq, hpayload]
      rfl
    · simpa using Nat.le_succ_of_le h.flushed_le
    · exact hquieter.publishing_eq.trans h.publishing_eq
  · simp only [heq] at hcarries hbound ⊢
    exact ⟨h.fail hmild hquieter.publishing_eq hstanding, hclosed⟩

theorem Kept.step_flush (h : course.Kept account s publishing) :
    (course.step .flush).Kept account s publishing ∧
      (course.step .flush).writer.closed = course.writer.closed := by
  unfold step
  rcases h.standing.ensures_flush.ok_or_error with
    ⟨_, ⟨writer, medium⟩, heq, hquieter, hclosed, hstanding⟩ |
    ⟨e, ⟨writer, medium⟩, heq, hmild, hquieter, hclosed, hstanding⟩
  · simp only [heq]
    exact ⟨⟨hstanding, h.acked_eq, Nat.le_refl _,
      hquieter.publishing_eq.trans h.publishing_eq, h.mild⟩, hclosed⟩
  · simp only [heq]
    exact ⟨h.fail hmild hquieter.publishing_eq hstanding, hclosed⟩

theorem Kept.step_close (h : course.Kept account s publishing) :
    (course.step .close).Kept account s publishing := by
  unfold step
  rcases h.standing.ensures_close.ok_or_error with
    ⟨_, ⟨writer, medium⟩, heq, hquieter, hstanding, -⟩ |
    ⟨e, ⟨writer, medium⟩, heq, hmild, hstanding, hfired⟩
  · simp only [heq]
    refine ⟨?_, h.acked_eq, ?_, hquieter.publishing_eq.trans h.publishing_eq, h.mild⟩
    · dsimp only
      split <;> simp_all
    · dsimp only
      split
      · exact h.flushed_le
      · exact Nat.le_refl _
  · simp only [heq]
    exact h.fail hmild hfired.publishing_eq hstanding

/-- What happens beside the writer keeps it in good standing. -/
theorem Kept.follow {account' : Account} {medium : Medium Memory}
    (h : course.Kept account s publishing)
    (hfollows : account.Follows account' course.medium.storage.files medium.storage.files)
    (hpublishing : medium.storage.publishing = course.medium.storage.publishing)
    (htame : medium.Tame) (hreach : account'.reach ≤ s + course.acked.length) :
    Kept account' s publishing { course with medium } := by
  refine ⟨h.standing.follow hfollows hpublishing htame hreach, ?_, h.flushed_le,
    hpublishing.trans h.publishing_eq, h.mild⟩
  rw [hfollows.ledger_eq]
  exact h.acked_eq

/-- **Step**: a move keeps a writer in good standing. -/
theorem Kept.step (h : course.Kept account s publishing) (hfair : move.Fair publishing)
    (hcarries : account.ledger.Carries s (course.step move).acked)
    (hbound : s + (course.step move).acked.length < unknownStop.toNat) :
    (course.step move).Kept account s publishing ∧
      (move ≠ .close → (course.step move).writer.closed = course.writer.closed) := by
  cases move with
  | write entry =>
      obtain ⟨hkept, hclosed⟩ := h.step_write hfair hcarries hbound
      exact ⟨hkept, fun _ => hclosed⟩
  | flush =>
      obtain ⟨hkept, hclosed⟩ := h.step_flush
      exact ⟨hkept, fun _ => hclosed⟩
  | close => exact ⟨h.step_close, fun hne => absurd rfl hne⟩
  -- Arming a failure leaves the files alone.
  | arm fault =>
      exact ⟨h.follow (.refl account _) rfl h.standing.serves.tame h.standing.serves.reach_le,
        fun _ => rfl⟩
  | armCall fault =>
      refine ⟨h.follow (.refl account _) rfl ?_
        h.standing.serves.reach_le, fun _ => rfl⟩
      intro other hother
      rcases List.mem_append.1 hother with hold | hnew
      · exact h.standing.serves.tame other hold
      · rw [List.mem_singleton.1 hnew]
        exact h.publishing_eq.symm ▸ hfair

/-- **Run**: a whole course keeps a writer in good standing. -/
theorem Kept.run (h : course.Kept account s publishing)
    (hfair : ∀ move ∈ moves, move.Fair publishing)
    (hcarries : account.ledger.Carries s (course.run moves).acked)
    (hbound : s + (course.run moves).acked.length < unknownStop.toNat) :
    (course.run moves).Kept account s publishing ∧
      ((∀ move ∈ moves, move ≠ .close) →
        (course.run moves).writer.closed = course.writer.closed) := by
  induction moves generalizing course with
  | nil => exact ⟨h, fun _ => rfl⟩
  | cons move moves ih =>
      rw [run_cons] at *
      have hpre := acked_run (course.step move) moves
      have hlength := hpre.length_le
      obtain ⟨hstep, hclosed⟩ := h.step (hfair move List.mem_cons_self)
        (hcarries.of_prefix hpre) (by omega)
      obtain ⟨hrun, hclosed'⟩ := ih hstep
        (fun other hother => hfair other (List.mem_cons_of_mem _ hother)) hcarries hbound
      refine ⟨hrun, ?_⟩
      intro hopen
      rw [hclosed' fun other hother => hopen other (List.mem_cons_of_mem _ hother),
        hclosed (hopen move List.mem_cons_self)]

end Course

end SegmentedJournal
