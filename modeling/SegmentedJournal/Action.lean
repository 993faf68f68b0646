/-!
# Actions

An action runs on a state and ends with a value, with an error, or with a crash; the state it
reached is kept in each case.  An error is an answer to the caller; a crash ends the whole
operation, whoever called it, and no caller below the operation's start handles it.

Addition on sequence numbers is one source of crashes: it has no answer beyond the greatest word
(`Action.successor`).
-/

namespace SegmentedJournal

/-- Why an operation was cut off. -/
inductive Crash where
  /-- A sum did not fit a word. -/
  | overflow
  /-- A crash that was armed beforehand. -/
  | scripted
deriving DecidableEq, Repr

/-- The text of a crash. -/
def Crash.message : Crash → String
  | overflow => "attempt to add with overflow"
  | scripted => "scripted panic"

/-- How an action ends when it has no value. -/
inductive Failure (ε : Type) where
  /-- With an error for the caller. -/
  | error (e : ε)
  /-- With a crash. -/
  | crash (c : Crash)
deriving Repr

/-- Actions on states `σ` with errors `ε` and values `α`. -/
abbrev Action (ε σ α : Type) := EStateM (Failure ε) σ α

namespace Action

variable {ε ε' σ τ α : Type}

/-- Ends with an error. -/
def fail (e : ε) : Action ε σ α :=
  fun s => .error (.error e) s

/-- Ends with a crash. -/
def crash (c : Crash) : Action ε σ α :=
  fun s => .error (.crash c) s

/-- Ends as a result says. -/
def ofExcept : Except ε α → Action ε σ α
  | .ok a => fun s => .ok a s
  | .error e => fail e

/-- The action with its errors put in other words. -/
def mapError (f : ε → ε') (x : Action ε σ α) : Action ε' σ α := fun s =>
  match x s with
  | .ok a s => .ok a s
  | .error (.error e) s => .error (.error (f e)) s
  | .error (.crash c) s => .error (.crash c) s

/-- The action with its errors as values. -/
def attempt (x : Action ε σ α) : Action ε' σ (Except ε α) := fun s =>
  match x s with
  | .ok a s => .ok (.ok a) s
  | .error (.error e) s => .ok (.error e) s
  | .error (.crash c) s => .error (.crash c) s

/-- The action on a part of the state. -/
def zoom (get : τ → σ) (set : τ → σ → τ) (x : Action ε σ α) : Action ε τ α := fun t =>
  match x (get t) with
  | .ok a s => .ok a (set t s)
  | .error e s => .error e (set t s)

/-- The action on the second part of a pair. -/
def onSecond (x : Action ε σ α) : Action ε (τ × σ) α :=
  x.zoom Prod.snd fun t s => (t.1, s)

/-- An action that never crashes. -/
def ofEStateM (x : EStateM ε σ α) : Action ε σ α := fun s =>
  match x s with
  | .ok a s => .ok a s
  | .error e s => .error (.error e) s

/-- The next sequence number; there is none after the greatest word. -/
def successor (n : UInt64) : Action ε σ UInt64 :=
  if n + 1 = 0 then crash .overflow else pure (n + 1)

/-! ### What the combinators do to a state -/

theorem bind_apply {β : Type} (x : Action ε σ α) (f : α → Action ε σ β) (s : σ) :
    (x >>= f) s = match x s with
      | .ok a s => f a s
      | .error e s => .error e s := by
  change EStateM.bind x f s = _
  unfold EStateM.bind
  cases x s <;> rfl

theorem bind_of_ok {β : Type} {x : Action ε σ α} {f : α → Action ε σ β} {s s' : σ} {a : α}
    (h : x s = .ok a s') : (x >>= f) s = f a s' := by
  rw [bind_apply, h]

theorem bind_of_error {β : Type} {x : Action ε σ α} {f : α → Action ε σ β} {s s' : σ}
    {e : Failure ε} (h : x s = .error e s') : (x >>= f) s = .error e s' := by
  rw [bind_apply, h]

theorem pure_apply (a : α) (s : σ) : (pure a : Action ε σ α) s = .ok a s := rfl

/-- A next sequence number is greater by one: the sum never wraps. -/
theorem toNat_of_successor {n m : UInt64} {s s' : σ}
    (h : (successor n : Action ε σ UInt64) s = .ok m s') : m.toNat = n.toNat + 1 ∧ s' = s := by
  unfold successor at h
  split at h
  · cases h
  · next hzero =>
    cases h
    have hne : n.toNat + 1 ≠ 2 ^ 64 := fun heq => hzero (UInt64.toNat_inj.1 (by
      simp [UInt64.toNat_add, heq]))
    have := n.toNat_lt
    simp only [UInt64.toNat_add, UInt64.reduceToNat, and_true]
    omega

end Action

end SegmentedJournal
