import SegmentedJournal.Proofs.Logs
/-!
# Phases of a writer

Between two operations a writer is in one of a few phases, told by what it has open and by where
the files end.  It is idle with no log (`Account.Idle`), parked on a log whose stream is gone but
whose file has everything (`Account.Parked`), or live on a stream that holds some entries back
(`Account.Live`); then it is ready for the next entry.  Or it is damaged and needs a reset
(`Account.Damaged`): no stream can be used, the files end somewhere in the entries written, and the
writer still has every entry behind that in its queue.

Each phase also says that the entries before `d` are durable or will be: this is what a flush
has promised.
-/

namespace SegmentedJournal

open Memory (Stream)
open Medium (Fired Foiled Keeps Quieter)

namespace Writer

/-- An operation has changed neither the writer's place nor what it counts. -/
structure Alike (before after : Writer Stream) : Prop where
  /-- It writes to the same journal. -/
  journal_eq : after.journal = before.journal
  /-- It goes on with the same number. -/
  next_eq : after.next = before.next
  /-- It is closed if it was. -/
  closed_eq : after.closed = before.closed
  /-- It has crashed if it had. -/
  poisoned_eq : after.poisoned = before.poisoned
  /-- The same collector runs beside it. -/
  collector_eq : after.collector = before.collector

variable {α : Type} {writer writer' writer'' : Writer Stream} {log : OpenLog Stream}
  {medium : Medium Memory}

theorem Alike.refl (writer : Writer Stream) : Alike writer writer := ⟨rfl, rfl, rfl, rfl, rfl⟩

theorem Alike.trans (h : Alike writer writer') (h' : Alike writer' writer'') :
    Alike writer writer'' :=
  ⟨h'.1.trans h.1, h'.2.trans h.2, h'.3.trans h.3, h'.4.trans h.4, h'.5.trans h.5⟩

/-! ### Parts of operations -/

section

variable {σ η : Type}

theorem endsIn_update (f : Writer η → Writer η) (writer : Writer η) (medium : Medium σ)
    (Q : Unit → Writer η × Medium σ → Prop) (E : JournalError → Writer η × Medium σ → Prop)
    (K : Writer η × Medium σ → Prop) :
    (update f).EndsIn (writer, medium) Q E K ↔ Q () (f writer, medium) := Iff.rfl

theorem ends_update (f : Writer η → Writer η) (writer : Writer η) (medium : Medium σ)
    (Q : Unit → Writer η × Medium σ → Prop) (E : JournalError → Writer η × Medium σ → Prop)
    (C : Prop) :
    (update f).Ends (writer, medium) Q E C ↔ Q () (f writer, medium) := Iff.rfl

theorem ensures_update (f : Writer η → Writer η) (writer : Writer η) (medium : Medium σ)
    (Q : Unit → Writer η × Medium σ → Prop) (E : JournalError → Writer η × Medium σ → Prop) :
    (update f).Ensures (writer, medium) Q E ↔ Q () (f writer, medium) := Iff.rfl

theorem endsIn_onLog (log : OpenLog η) (x : Action JournalError (OpenLog η × Medium σ) α)
    (writer : Writer η) (medium : Medium σ) (Q : α → Writer η × Medium σ → Prop)
    (E : JournalError → Writer η × Medium σ → Prop) (K : Writer η × Medium σ → Prop) :
    (onLog log x).EndsIn (writer, medium) Q E K ↔ x.EndsIn (log, medium)
      (fun value s => Q value ({ writer with log := some s.1 }, s.2))
      (fun e s => E e ({ writer with log := some s.1 }, s.2))
      (fun s => K ({ writer with log := some s.1 }, s.2)) :=
  Action.endsIn_zoom ..

theorem ends_onLog (log : OpenLog η) (x : Action JournalError (OpenLog η × Medium σ) α)
    (writer : Writer η) (medium : Medium σ) (Q : α → Writer η × Medium σ → Prop)
    (E : JournalError → Writer η × Medium σ → Prop) (C : Prop) :
    (onLog log x).Ends (writer, medium) Q E C ↔ x.Ends (log, medium)
      (fun value s => Q value ({ writer with log := some s.1 }, s.2))
      (fun e s => E e ({ writer with log := some s.1 }, s.2)) C :=
  Action.ends_zoom ..

theorem ensures_onLog (log : OpenLog η) (x : Action JournalError (OpenLog η × Medium σ) α)
    (writer : Writer η) (medium : Medium σ) (Q : α → Writer η × Medium σ → Prop)
    (E : JournalError → Writer η × Medium σ → Prop) :
    (onLog log x).Ensures (writer, medium) Q E ↔ x.Ensures (log, medium)
      (fun value s => Q value ({ writer with log := some s.1 }, s.2))
      (fun e s => E e ({ writer with log := some s.1 }, s.2)) :=
  Action.ensures_zoom ..

theorem endsIn_resetAfter (unsure : JournalError → Bool)
    (x : Action JournalError (Writer η × Medium σ) α) (state : Writer η × Medium σ)
    (Q : α → Writer η × Medium σ → Prop) (E : JournalError → Writer η × Medium σ → Prop)
    (K : Writer η × Medium σ → Prop) :
    (resetAfter unsure x).EndsIn state Q E K ↔ x.EndsIn state Q (fun e s =>
      E e (if unsure e then { s.1 with needsReset := true } else s.1, s.2)) K := by
  unfold Action.EndsIn resetAfter
  cases x state with
  | ok value s => rfl
  | error e s => cases e <;> rfl

theorem ends_resetAfter (unsure : JournalError → Bool)
    (x : Action JournalError (Writer η × Medium σ) α) (state : Writer η × Medium σ)
    (Q : α → Writer η × Medium σ → Prop) (E : JournalError → Writer η × Medium σ → Prop)
    (C : Prop) :
    (resetAfter unsure x).Ends state Q E C ↔ x.Ends state Q (fun e s =>
      E e (if unsure e then { s.1 with needsReset := true } else s.1, s.2)) C :=
  endsIn_resetAfter unsure x state Q E fun _ => C

theorem ensures_resetAfter (unsure : JournalError → Bool)
    (x : Action JournalError (Writer η × Medium σ) α) (state : Writer η × Medium σ)
    (Q : α → Writer η × Medium σ → Prop) (E : JournalError → Writer η × Medium σ → Prop) :
    (resetAfter unsure x).Ensures state Q E ↔ x.Ensures state Q fun e s =>
      E e (if unsure e then { s.1 with needsReset := true } else s.1, s.2) :=
  ends_resetAfter unsure x state Q E False

theorem endsIn_errorsOf (x : Action JournalError (Writer η × Medium σ) α)
    (state : Writer η × Medium σ) (Q : List JournalError → Writer η × Medium σ → Prop)
    (E : JournalError → Writer η × Medium σ → Prop) (K : Writer η × Medium σ → Prop) :
    (errorsOf x).EndsIn state Q E K ↔
      x.EndsIn state (fun _ s => Q [] s) (fun e s => Q [e] s) K := by
  rw [errorsOf, Action.endsIn_bind, Action.endsIn_attempt]
  rfl

theorem ends_errorsOf (x : Action JournalError (Writer η × Medium σ) α)
    (state : Writer η × Medium σ) (Q : List JournalError → Writer η × Medium σ → Prop)
    (E : JournalError → Writer η × Medium σ → Prop) (C : Prop) :
    (errorsOf x).Ends state Q E C ↔
      x.Ends state (fun _ s => Q [] s) (fun e s => Q [e] s) C :=
  endsIn_errorsOf x state Q E fun _ => C

theorem ensures_errorsOf (x : Action JournalError (Writer η × Medium σ) α)
    (state : Writer η × Medium σ) (Q : List JournalError → Writer η × Medium σ → Prop)
    (E : JournalError → Writer η × Medium σ → Prop) :
    (errorsOf x).Ensures state Q E ↔
      x.Ensures state (fun _ s => Q [] s) (fun e s => Q [e] s) :=
  ends_errorsOf x state Q E False

theorem settle_of_needsReset [Storage σ η] {state : Writer η × Medium σ}
    (h : state.1.needsReset = true) : settle state = reset state := by
  unfold settle
  rw [Action.get_bind_apply]
  dsimp only
  rw [if_pos h]

theorem settle_of_steady [Storage σ η] {state : Writer η × Medium σ}
    (h : state.1.needsReset = false) : settle state = .ok () state := by
  unfold settle
  rw [Action.get_bind_apply]
  dsimp only
  rw [h]
  rfl

/-- After a crash an operation is refused; a crash in it is remembered, and changes nothing else. -/
theorem endsIn_operation (x : Action JournalError (Writer η × Medium σ) α)
    (state : Writer η × Medium σ) (Q : α → Writer η × Medium σ → Prop)
    (E : JournalError → Writer η × Medium σ → Prop) (K : Writer η × Medium σ → Prop) :
    (operation x).EndsIn state Q E K ↔
      (state.1.poisoned = true → E .poisoned state) ∧
        (state.1.poisoned = false →
          x.EndsIn state Q E fun s => K ({ s.1 with poisoned := true }, s.2)) := by
  unfold Action.EndsIn operation
  dsimp only
  cases state.1.poisoned with
  | true => exact ⟨fun h => ⟨fun _ => h, fun hsound => (by cases hsound)⟩, fun h => h.1 rfl⟩
  | false =>
      rw [if_neg Bool.false_ne_true]
      rcases x state with ⟨value, s⟩ | ⟨e | c, s⟩ <;>
      exact ⟨fun h => ⟨fun hcrashed => (by cases hcrashed), fun _ => h⟩, fun h => h.2 rfl⟩

theorem ensures_operation (x : Action JournalError (Writer η × Medium σ) α)
    {state : Writer η × Medium σ} {Q : α → Writer η × Medium σ → Prop}
    {E : JournalError → Writer η × Medium σ → Prop} (h : x.Ensures state Q E)
    (hpoisoned : state.1.poisoned = false) : (operation x).Ensures state Q E :=
  (endsIn_operation x state Q E fun _ => False).2
    ⟨fun hcrashed => (by rw [hpoisoned] at hcrashed; cases hcrashed), fun _ => h⟩

end

end Writer

namespace Account

variable {account : Account} {writer writer' : Writer Stream} {log : OpenLog Stream}
  {medium after : Medium Memory} {a d n : Nat}

/-- A writer goes on with number `n` of the journal, on a tame medium. -/
structure Serves (account : Account) (n : Nat) (writer : Writer Stream) (medium : Medium Memory) :
    Prop where
  /-- The writer writes to the journal. -/
  journal_eq : writer.journal = account.journal
  /-- It goes on with the number. -/
  next_eq : writer.next = UInt64.ofNat n
  /-- A log can start at the number. -/
  bound : n < unknownStop.toNat
  /-- No checkpoint reaches further. -/
  reach_le : account.reach ≤ n
  /-- Failures are only failures. -/
  tame : medium.Tame

theorem Serves.of_alike (h : account.Serves n writer medium) (halike : writer.Alike writer')
    (hquieter : Quieter medium after) : account.Serves n writer' after :=
  ⟨halike.journal_eq.trans h.journal_eq, halike.next_eq.trans h.next_eq, h.bound, h.reach_le,
    hquieter.tame h.tame⟩

theorem Serves.reach_bound (h : account.Serves n writer medium) :
    account.reach < unknownStop.toNat :=
  Nat.lt_of_le_of_lt h.reach_le h.bound

/-- Nothing is open, and the files end where the next entry comes. -/
structure Idle (account : Account) (n d : Nat) (writer : Writer Stream) (medium : Medium Memory) :
    Prop where
  /-- No log is open. -/
  log_eq : writer.log = none
  /-- No reset is needed. -/
  steady : writer.needsReset = false
  /-- Every entry was flushed. -/
  queue : writer.unflushed = []
  /-- What was promised was written. -/
  promised : d ≤ n
  /-- The files end where the next entry comes. -/
  stands : account.Stands medium.storage.files none n

/-- A log is open without a stream, and its file has every entry. -/
structure Parked (account : Account) (n d a : Nat) (log : OpenLog Stream)
    (writer : Writer Stream) (medium : Medium Memory) : Prop where
  /-- The log is open. -/
  log_eq : writer.log = some log
  /-- It has no stream. -/
  stream_eq : log.stream = none
  /-- No reset is needed. -/
  steady : writer.needsReset = false
  /-- The next entry comes into another log. -/
  rotating : writer.rotateNext = true
  /-- Every entry was flushed. -/
  queue : writer.unflushed = []
  /-- What was promised was written. -/
  promised : d ≤ n
  /-- The file has every entry. -/
  durable : account.Durable medium.storage.files (some log.segment) a n

/-- A log is open with a stream, which holds the entries from `p` back; those from `f` on were not
flushed. -/
structure Live (account : Account) (n d a p f : Nat) (log : OpenLog Stream) (stream : Stream)
    (writer : Writer Stream) (medium : Medium Memory) : Prop where
  /-- The log is open. -/
  log_eq : writer.log = some log
  /-- It starts where the chain ends. -/
  segment_eq : log.segment = account.logFrom a
  /-- It has the stream. -/
  stream_eq : log.stream = some stream
  /-- No reset is needed. -/
  steady : writer.needsReset = false
  /-- The stream holds the entries back. -/
  feeds : account.Feeds medium a p n stream
  /-- The queue has the entries that were not flushed. -/
  queue : writer.unflushed = account.ledger.entries f n
  /-- A log that nothing was written to has no entries. -/
  written : log.written = 0 → n = a
  /-- What was not flushed was written to this log. -/
  le_left : a ≤ f
  /-- What was not flushed comes before the next entry. -/
  le_right : f ≤ n
  /-- What was flushed was published, or will be when the stream is closed for the next entry. -/
  published : f = p ∨ medium.storage.publishing = .onClose ∧ writer.rotateNext = true
  /-- A log ends only with a flush. -/
  rotating : writer.rotateNext = true → f = n
  /-- What was promised was flushed. -/
  promised : d ≤ f

/-- No stream can be used; the files end at `m`, and the queue has the entries from `f` on. -/
structure Damaged (account : Account) (n d f : Nat) (current : Option Segment) (a m : Nat)
    (writer : Writer Stream) (medium : Medium Memory) : Prop where
  /-- A reset is needed. -/
  needsReset : writer.needsReset = true
  /-- No stream can be used. -/
  adrift : ∀ log ∈ writer.log, log.Adrift
  /-- The files end at `m`. -/
  durable : account.Durable medium.storage.files current a m
  /-- The queue has the entries from `f` on. -/
  queue : writer.unflushed = account.ledger.entries f n
  /-- The queue leaves no gap. -/
  le_left : f ≤ m
  /-- The files have only entries that were written. -/
  le_right : m ≤ n
  /-- What was promised was flushed. -/
  promised : d ≤ f

/-- The writer is ready for the next entry. -/
inductive Ready (account : Account) (n d : Nat) (writer : Writer Stream) (medium : Medium Memory) :
    Prop where
  /-- Nothing is open. -/
  | idle (h : account.Idle n d writer medium)
  /-- A log is open without a stream. -/
  | parked (a : Nat) (log : OpenLog Stream) (h : account.Parked n d a log writer medium)
  /-- A log is open with a stream. -/
  | live (a p f : Nat) (log : OpenLog Stream) (stream : Stream)
      (h : account.Live n d a p f log stream writer medium)

/-- The writer is ready, or a reset makes it so. -/
inductive Working (account : Account) (n d : Nat) (writer : Writer Stream)
    (medium : Medium Memory) : Prop where
  /-- The writer is ready. -/
  | ready (h : account.Ready n d writer medium)
  /-- A reset is needed. -/
  | damaged (f : Nat) (current : Option Segment) (a m : Nat)
      (h : account.Damaged n d f current a m writer medium)

/-- What an operation that failed leaves: a failure was used up, the error is not fatal, and the
writer works on. -/
structure Setback (account : Account) (n d : Nat) (writer : Writer Stream) (medium : Medium Memory)
    (e : JournalError) (state : Writer Stream × Medium Memory) : Prop where
  /-- The error is not fatal. -/
  mild : e.isFatal = false
  /-- The writer is where it was. -/
  alike : writer.Alike state.1
  /-- A failure was used up. -/
  fired : Fired medium state.2
  /-- The writer works on. -/
  working : account.Working n d state.1 state.2

/-- What a reset that failed leaves: the writer still needs one. -/
structure Unsettled (account : Account) (n d : Nat) (writer : Writer Stream)
    (medium : Medium Memory) (e : JournalError) (state : Writer Stream × Medium Memory) : Prop
    extends Setback account n d writer medium e state where
  /-- A reset is still needed. -/
  needsReset : state.1.needsReset = true

/-! ### A new log -/

/-- A new log is opened where the chain ends, or none is open. -/
theorem Stands.ensures_openLog (h : account.Stands medium.storage.files none a)
    (hjournal : writer.journal = account.journal) :
    (Writer.openLog (UInt64.ofNat a)).Ensures (writer, medium)
      (fun log s => s.1 = { writer with log := some log } ∧ log.segment = account.logFrom a ∧
        log.written = 0 ∧
        (∃ stream, log.stream = some stream ∧ account.Feeds s.2 a a a stream) ∧
        Quieter medium s.2 ∧ s.2.storage.files = Medium.created medium.storage.publishing
          (account.logFrom a).location medium.storage.files)
      (fun e s => s.1 = { writer with log := none } ∧ e.isFatal = false ∧
        Foiled medium s.2) := by
  rw [Writer.openLog, Action.ensures_bind, Action.ensures_get]
  dsimp only
  rw [Action.ensures_bind, Writer.ensures_update, Action.ensures_bind, Action.ensures_onSecond,
    hjournal]
  refine h.ensures_create.mono ?_ (fun _ _ h => ⟨rfl, h⟩)
  intro log after h
  rw [Action.ensures_bind, Writer.ensures_update]
  exact ⟨rfl, h⟩

end Account

end SegmentedJournal
