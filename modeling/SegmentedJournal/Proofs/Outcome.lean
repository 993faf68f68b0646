import SegmentedJournal.Action
/-!
# Outcomes of actions

`x.Ensures s Q E` says how the action `x`, run from the state `s`, can end: with a value and a
state that satisfy `Q`, or with an error and a state that satisfy `E`.  It does not end with a
crash.  The judgement goes through each combinator in one step (`ensures_bind` and its
companions), so what an operation of the journal does is read off what its parts do; a part's own
statement is brought in by `Ensures.mono`.

`x.Ends s Q E C` also admits a crash, if `C` does; `Ensures` is the case that admits none.  It is
the judgement for states of which too little is known to exclude a crash, and says nothing about
the state that one leaves.  `x.EndsIn s Q E K` says that, too: a crash leaves a state that
satisfies `K`.  The rules are proved for it, and the others are their cases.
-/

namespace SegmentedJournal.Action

variable {ε ε' σ τ α β : Type}

/-- From `s` the action ends with a value as `Q` says, with an error as `E` says, or with a crash
that leaves a state as `K` says. -/
def EndsIn (x : Action ε σ α) (s : σ) (Q : α → σ → Prop) (E : ε → σ → Prop) (K : σ → Prop) :
    Prop :=
  match x s with
  | .ok a s => Q a s
  | .error (.error e) s => E e s
  | .error (.crash _) s => K s

/-- From `s` the action ends with a value as `Q` says, with an error as `E` says, or with a crash if
`C` admits one. -/
def Ends (x : Action ε σ α) (s : σ) (Q : α → σ → Prop) (E : ε → σ → Prop) (C : Prop) : Prop :=
  match x s with
  | .ok a s => Q a s
  | .error (.error e) s => E e s
  | .error (.crash _) _ => C

/-- From `s` the action ends with a value as `Q` says or with an error as `E` says. -/
def Ensures (x : Action ε σ α) (s : σ) (Q : α → σ → Prop) (E : ε → σ → Prop) : Prop :=
  match x s with
  | .ok a s => Q a s
  | .error (.error e) s => E e s
  | .error (.crash _) _ => False

section

variable {x : Action ε σ α} {s s' : σ} {a : α} {e : ε} {Q Q' : α → σ → Prop}
  {E E' : ε → σ → Prop} {C : Prop} {K K' : σ → Prop}

/-- What is known of an end can be weakened, for the value, for the error and for the crash. -/
theorem EndsIn.mono (h : x.EndsIn s Q E K) (hQ : ∀ a s', Q a s' → Q' a s')
    (hE : ∀ e s', E e s' → E' e s') (hK : ∀ s', K s' → K' s') : x.EndsIn s Q' E' K' := by
  unfold EndsIn at *
  split at h
  · exact hQ _ _ h
  · exact hE _ _ h
  · exact hK _ h

/-- What is known of an end can be weakened, for the value and for the error. -/
theorem Ends.mono (h : x.Ends s Q E C) (hQ : ∀ a s', Q a s' → Q' a s')
    (hE : ∀ e s', E e s' → E' e s') : x.Ends s Q' E' C :=
  EndsIn.mono h hQ hE fun _ h => h

/-- What is ensured can be weakened, for the value and for the error. -/
theorem Ensures.mono (h : x.Ensures s Q E) (hQ : ∀ a s', Q a s' → Q' a s')
    (hE : ∀ e s', E e s' → E' e s') : x.Ensures s Q' E' :=
  Ends.mono h hQ hE

theorem EndsIn.of_ok (h : x.EndsIn s Q E K) (hx : x s = .ok a s') : Q a s' := by
  unfold EndsIn at h
  rwa [hx] at h

theorem EndsIn.of_error (h : x.EndsIn s Q E K) (hx : x s = .error (.error e) s') : E e s' := by
  unfold EndsIn at h
  rwa [hx] at h

theorem EndsIn.of_failure {P : σ → Prop} {f : Failure ε} (h : x.EndsIn s Q (fun _ s' => P s') P)
    (hx : x s = .error f s') : P s' := by
  unfold EndsIn at h
  rw [hx] at h
  cases f <;> exact h

/-- What is known of a value holds of the value it ends with. -/
theorem Ends.of_ok (h : x.Ends s Q E C) (hx : x s = .ok a s') : Q a s' := by
  unfold Ends at h
  rwa [hx] at h

theorem Ensures.of_ok (h : x.Ensures s Q E) (hx : x s = .ok a s') : Q a s' :=
  Ends.of_ok h hx

theorem Ends.of_error (h : x.Ends s Q E C) (hx : x s = .error (.error e) s') : E e s' := by
  unfold Ends at h
  rwa [hx] at h

theorem Ensures.of_error (h : x.Ensures s Q E) (hx : x s = .error (.error e) s') : E e s' :=
  Ends.of_error h hx

theorem Ends.of_crash {c : Crash} (h : x.Ends s Q E C) (hx : x s = .error (.crash c) s') : C := by
  unfold Ends at h
  rwa [hx] at h

/-- What never crashes ends as it should also where a crash is admitted. -/
theorem Ensures.ends (h : x.Ensures s Q E) : x.Ends s Q E C := by
  unfold Ensures at h
  unfold Ends
  split at h
  · exact h
  · exact h
  · exact h.elim

/-- What never crashes ends as it should whatever a crash would leave. -/
theorem Ensures.endsIn (h : x.Ensures s Q E) : x.EndsIn s Q E K :=
  EndsIn.mono (show x.EndsIn s Q E fun _ => False from h) (fun _ _ h => h) (fun _ _ h => h)
    fun _ h => h.elim

theorem Ends.endsIn (h : x.Ends s Q E C) : x.EndsIn s Q E fun _ => C := h

/-- Where no crash is admitted there is none. -/
theorem Ends.ensures (h : x.Ends s Q E C) (hC : ¬ C) : x.Ensures s Q E := by
  unfold Ends at h
  unfold Ensures
  split at h
  · exact h
  · exact h
  · exact hC h

/-- What an action ends with is what its run gives. -/
theorem ends_run (x : Action ε σ α) (s : σ) :
    x.Ends s (fun a s' => x s = .ok a s') (fun e s' => x s = .error (.error e) s') True := by
  unfold Ends
  split
  · assumption
  · assumption
  · trivial

/-- An action whose errors are excluded ends with a value. -/
theorem Ensures.exists_ok (h : x.Ensures s Q E) (hE : ∀ e s', ¬ E e s') :
    ∃ a s', x s = .ok a s' ∧ Q a s' := by
  unfold Ensures at h
  split at h
  · next a s' hx => exact ⟨a, s', hx, h⟩
  · exact absurd h (hE _ _)
  · exact h.elim

/-- An action that fails has failed with its error. -/
theorem Ensures.of_run (h : x.Ensures s (fun _ _ => True) fun _ _ => True)
    (hE : ∀ e s', x s = .error (.error e) s' → E e s') : x.Ensures s (fun _ _ => True) E := by
  unfold Ensures at *
  split at h
  · trivial
  · next hx => exact hE _ _ hx
  · exact h

/-- An action ends in one of the two ways. -/
theorem Ensures.ok_or_error (h : x.Ensures s Q E) :
    (∃ a s', x s = .ok a s' ∧ Q a s') ∨ ∃ e s', x s = .error (.error e) s' ∧ E e s' := by
  unfold Ensures at h
  split at h
  · next a s' hx => exact .inl ⟨a, s', hx, h⟩
  · next e s' hx => exact .inr ⟨e, s', hx, h⟩
  · exact h.elim

theorem ensures_of_ok (h : x s = .ok a s') (hQ : Q a s') : x.Ensures s Q E := by
  unfold Ensures
  rw [h]
  exact hQ

theorem ensures_of_error (h : x s = .error (.error e) s') (hE : E e s') : x.Ensures s Q E := by
  unfold Ensures
  rw [h]
  exact hE

end

/-! ### The combinators -/

section

variable (s : σ) (Q : α → σ → Prop) (E : ε → σ → Prop) (C : Prop) (K : σ → Prop)

@[simp] theorem endsIn_pure (a : α) : (pure a : Action ε σ α).EndsIn s Q E K ↔ Q a s := Iff.rfl

@[simp] theorem ends_pure (a : α) : (pure a : Action ε σ α).Ends s Q E C ↔ Q a s := Iff.rfl

@[simp] theorem ensures_pure (a : α) : (pure a : Action ε σ α).Ensures s Q E ↔ Q a s := Iff.rfl

@[simp] theorem endsIn_fail (e : ε) : (fail e : Action ε σ α).EndsIn s Q E K ↔ E e s := Iff.rfl

@[simp] theorem ends_fail (e : ε) : (fail e : Action ε σ α).Ends s Q E C ↔ E e s := Iff.rfl

@[simp] theorem ensures_fail (e : ε) : (fail e : Action ε σ α).Ensures s Q E ↔ E e s := Iff.rfl

@[simp] theorem endsIn_get (Q : σ → σ → Prop) :
    (get : Action ε σ σ).EndsIn s Q E K ↔ Q s s := Iff.rfl

@[simp] theorem ends_get (Q : σ → σ → Prop) :
    (get : Action ε σ σ).Ends s Q E C ↔ Q s s := Iff.rfl

@[simp] theorem ensures_get (Q : σ → σ → Prop) :
    (get : Action ε σ σ).Ensures s Q E ↔ Q s s := Iff.rfl

@[simp] theorem endsIn_modify (f : σ → σ) (Q : PUnit → σ → Prop) :
    (modify f : Action ε σ PUnit).EndsIn s Q E K ↔ Q ⟨⟩ (f s) := Iff.rfl

@[simp] theorem ensures_modify (f : σ → σ) (Q : PUnit → σ → Prop) :
    (modify f : Action ε σ PUnit).Ensures s Q E ↔ Q ⟨⟩ (f s) := Iff.rfl

@[simp] theorem endsIn_ofExcept (x : Except ε α) :
    (ofExcept x).EndsIn s Q E K ↔
      (∀ a, x = .ok a → Q a s) ∧ (∀ e, x = .error e → E e s) := by
  cases x with
  | ok a =>
      refine ⟨fun h => ⟨?_, ?_⟩, fun h => h.1 a rfl⟩
      · rintro b ⟨⟩
        exact h
      · rintro e ⟨⟩
  | error e =>
      refine ⟨fun h => ⟨?_, ?_⟩, fun h => h.2 e rfl⟩
      · rintro b ⟨⟩
      · rintro d ⟨⟩
        exact h

@[simp] theorem ends_ofExcept (x : Except ε α) :
    (ofExcept x).Ends s Q E C ↔ (∀ a, x = .ok a → Q a s) ∧ (∀ e, x = .error e → E e s) :=
  endsIn_ofExcept s Q E (fun _ => C) x

@[simp] theorem ensures_ofExcept (x : Except ε α) :
    (ofExcept x).Ensures s Q E ↔ (∀ a, x = .ok a → Q a s) ∧ (∀ e, x = .error e → E e s) :=
  ends_ofExcept s Q E False x

end

@[simp] theorem endsIn_bind (x : Action ε σ α) (f : α → Action ε σ β) (s : σ) (Q : β → σ → Prop)
    (E : ε → σ → Prop) (K : σ → Prop) :
    (x >>= f).EndsIn s Q E K ↔ x.EndsIn s (fun a s => (f a).EndsIn s Q E K) E K := by
  unfold EndsIn
  rw [bind_apply]
  cases x s with
  | ok a s => rfl
  | error e s => cases e <;> rfl

@[simp] theorem ends_bind (x : Action ε σ α) (f : α → Action ε σ β) (s : σ) (Q : β → σ → Prop)
    (E : ε → σ → Prop) (C : Prop) :
    (x >>= f).Ends s Q E C ↔ x.Ends s (fun a s => (f a).Ends s Q E C) E C :=
  endsIn_bind x f s Q E fun _ => C

@[simp] theorem ensures_bind (x : Action ε σ α) (f : α → Action ε σ β) (s : σ)
    (Q : β → σ → Prop) (E : ε → σ → Prop) :
    (x >>= f).Ensures s Q E ↔ x.Ensures s (fun a s => (f a).Ensures s Q E) E :=
  ends_bind x f s Q E False

@[simp] theorem endsIn_map (f : α → β) (x : Action ε σ α) (s : σ) (Q : β → σ → Prop)
    (E : ε → σ → Prop) (K : σ → Prop) :
    (f <$> x).EndsIn s Q E K ↔ x.EndsIn s (fun a s => Q (f a) s) E K := by
  change EndsIn (EStateM.map f x) s Q E K ↔ _
  unfold EndsIn EStateM.map
  cases x s with
  | ok a s => rfl
  | error e s => cases e <;> rfl

@[simp] theorem ends_map (f : α → β) (x : Action ε σ α) (s : σ) (Q : β → σ → Prop)
    (E : ε → σ → Prop) (C : Prop) :
    (f <$> x).Ends s Q E C ↔ x.Ends s (fun a s => Q (f a) s) E C :=
  endsIn_map f x s Q E fun _ => C

@[simp] theorem ensures_map (f : α → β) (x : Action ε σ α) (s : σ) (Q : β → σ → Prop)
    (E : ε → σ → Prop) :
    (f <$> x).Ensures s Q E ↔ x.Ensures s (fun a s => Q (f a) s) E :=
  ends_map f x s Q E False

@[simp] theorem endsIn_discard (x : Action ε σ α) (s : σ) (Q : PUnit → σ → Prop)
    (E : ε → σ → Prop) (K : σ → Prop) :
    (discard x).EndsIn s Q E K ↔ x.EndsIn s (fun _ s => Q ⟨⟩ s) E K :=
  endsIn_map (fun _ => PUnit.unit) x s Q E K

@[simp] theorem ends_discard (x : Action ε σ α) (s : σ) (Q : PUnit → σ → Prop)
    (E : ε → σ → Prop) (C : Prop) :
    (discard x).Ends s Q E C ↔ x.Ends s (fun _ s => Q ⟨⟩ s) E C :=
  ends_map (fun _ => PUnit.unit) x s Q E C

@[simp] theorem ensures_discard (x : Action ε σ α) (s : σ) (Q : PUnit → σ → Prop)
    (E : ε → σ → Prop) :
    (discard x).Ensures s Q E ↔ x.Ensures s (fun _ s => Q ⟨⟩ s) E :=
  ends_discard x s Q E False

@[simp] theorem endsIn_mapError (f : ε → ε') (x : Action ε σ α) (s : σ) (Q : α → σ → Prop)
    (E : ε' → σ → Prop) (K : σ → Prop) :
    (x.mapError f).EndsIn s Q E K ↔ x.EndsIn s Q (fun e s => E (f e) s) K := by
  unfold EndsIn mapError
  cases x s with
  | ok a s => rfl
  | error e s => cases e <;> rfl

@[simp] theorem ends_mapError (f : ε → ε') (x : Action ε σ α) (s : σ) (Q : α → σ → Prop)
    (E : ε' → σ → Prop) (C : Prop) :
    (x.mapError f).Ends s Q E C ↔ x.Ends s Q (fun e s => E (f e) s) C :=
  endsIn_mapError f x s Q E fun _ => C

@[simp] theorem ensures_mapError (f : ε → ε') (x : Action ε σ α) (s : σ) (Q : α → σ → Prop)
    (E : ε' → σ → Prop) :
    (x.mapError f).Ensures s Q E ↔ x.Ensures s Q (fun e s => E (f e) s) :=
  ends_mapError f x s Q E False

@[simp] theorem endsIn_attempt (x : Action ε σ α) (s : σ) (Q : Except ε α → σ → Prop)
    (E : ε' → σ → Prop) (K : σ → Prop) :
    (x.attempt : Action ε' σ _).EndsIn s Q E K ↔
      x.EndsIn s (fun a s => Q (.ok a) s) (fun e s => Q (.error e) s) K := by
  unfold EndsIn attempt
  cases x s with
  | ok a s => rfl
  | error e s => cases e <;> rfl

@[simp] theorem ends_attempt (x : Action ε σ α) (s : σ) (Q : Except ε α → σ → Prop)
    (E : ε' → σ → Prop) (C : Prop) :
    (x.attempt : Action ε' σ _).Ends s Q E C ↔
      x.Ends s (fun a s => Q (.ok a) s) (fun e s => Q (.error e) s) C :=
  endsIn_attempt x s Q E fun _ => C

@[simp] theorem ensures_attempt (x : Action ε σ α) (s : σ) (Q : Except ε α → σ → Prop)
    (E : ε' → σ → Prop) :
    (x.attempt : Action ε' σ _).Ensures s Q E ↔
      x.Ensures s (fun a s => Q (.ok a) s) (fun e s => Q (.error e) s) :=
  ends_attempt x s Q E False

@[simp] theorem endsIn_zoom (get : τ → σ) (set : τ → σ → τ) (x : Action ε σ α) (t : τ)
    (Q : α → τ → Prop) (E : ε → τ → Prop) (K : τ → Prop) :
    (x.zoom get set).EndsIn t Q E K ↔ x.EndsIn (get t) (fun a s => Q a (set t s))
      (fun e s => E e (set t s)) (fun s => K (set t s)) := by
  unfold EndsIn zoom
  cases x (get t) with
  | ok a s => rfl
  | error e s => cases e <;> rfl

@[simp] theorem ends_zoom (get : τ → σ) (set : τ → σ → τ) (x : Action ε σ α) (t : τ)
    (Q : α → τ → Prop) (E : ε → τ → Prop) (C : Prop) :
    (x.zoom get set).Ends t Q E C ↔
      x.Ends (get t) (fun a s => Q a (set t s)) (fun e s => E e (set t s)) C :=
  endsIn_zoom get set x t Q E fun _ => C

@[simp] theorem ensures_zoom (get : τ → σ) (set : τ → σ → τ) (x : Action ε σ α) (t : τ)
    (Q : α → τ → Prop) (E : ε → τ → Prop) :
    (x.zoom get set).Ensures t Q E ↔
      x.Ensures (get t) (fun a s => Q a (set t s)) (fun e s => E e (set t s)) :=
  ends_zoom get set x t Q E False

@[simp] theorem endsIn_onSecond (x : Action ε σ α) (t : τ) (s : σ) (Q : α → τ × σ → Prop)
    (E : ε → τ × σ → Prop) (K : τ × σ → Prop) :
    (x.onSecond : Action ε (τ × σ) α).EndsIn (t, s) Q E K ↔
      x.EndsIn s (fun a s => Q a (t, s)) (fun e s => E e (t, s)) (fun s => K (t, s)) :=
  endsIn_zoom ..

@[simp] theorem ends_onSecond (x : Action ε σ α) (t : τ) (s : σ) (Q : α → τ × σ → Prop)
    (E : ε → τ × σ → Prop) (C : Prop) :
    (x.onSecond : Action ε (τ × σ) α).Ends (t, s) Q E C ↔
      x.Ends s (fun a s => Q a (t, s)) (fun e s => E e (t, s)) C :=
  ends_zoom ..

@[simp] theorem ensures_onSecond (x : Action ε σ α) (t : τ) (s : σ) (Q : α → τ × σ → Prop)
    (E : ε → τ × σ → Prop) :
    (x.onSecond : Action ε (τ × σ) α).Ensures (t, s) Q E ↔
      x.Ensures s (fun a s => Q a (t, s)) (fun e s => E e (t, s)) :=
  ensures_zoom ..

/-- An action that never crashes ends as it does without crashes. -/
theorem endsIn_ofEStateM (x : EStateM ε σ α) (s : σ) (Q : α → σ → Prop) (E : ε → σ → Prop)
    (K : σ → Prop) :
    (ofEStateM x).EndsIn s Q E K ↔ match x s with
      | .ok a s => Q a s
      | .error e s => E e s := by
  unfold EndsIn ofEStateM
  cases x s <;> rfl

theorem ensures_ofEStateM (x : EStateM ε σ α) (s : σ) (Q : α → σ → Prop) (E : ε → σ → Prop) :
    (ofEStateM x).Ensures s Q E ↔ match x s with
      | .ok a s => Q a s
      | .error e s => E e s :=
  endsIn_ofEStateM x s Q E fun _ => False

theorem endsIn_ite {p : Prop} [Decidable p] (x y : Action ε σ α) (s : σ) (Q : α → σ → Prop)
    (E : ε → σ → Prop) (K : σ → Prop) :
    (if p then x else y).EndsIn s Q E K ↔ (p → x.EndsIn s Q E K) ∧ (¬ p → y.EndsIn s Q E K) := by
  split <;> simp_all

theorem ends_ite {p : Prop} [Decidable p] (x y : Action ε σ α) (s : σ) (Q : α → σ → Prop)
    (E : ε → σ → Prop) (C : Prop) :
    (if p then x else y).Ends s Q E C ↔ (p → x.Ends s Q E C) ∧ (¬ p → y.Ends s Q E C) :=
  endsIn_ite x y s Q E fun _ => C

theorem ensures_ite {p : Prop} [Decidable p] (x y : Action ε σ α) (s : σ) (Q : α → σ → Prop)
    (E : ε → σ → Prop) :
    (if p then x else y).Ensures s Q E ↔ (p → x.Ensures s Q E) ∧ (¬ p → y.Ensures s Q E) :=
  ends_ite x y s Q E False

/-- A next sequence number is there unless the number is the greatest word. -/
theorem endsIn_successor (n : UInt64) (s : σ) (Q : UInt64 → σ → Prop) (E : ε → σ → Prop)
    (K : σ → Prop) :
    (successor n : Action ε σ UInt64).EndsIn s Q E K ↔
      if n + 1 = 0 then K s else Q (n + 1) s := by
  unfold EndsIn successor
  split
  · next h => split at h <;> cases h; simp [*]
  · next h => split at h <;> cases h
  · next h => split at h <;> cases h; simp [*]

theorem ends_successor (n : UInt64) (s : σ) (Q : UInt64 → σ → Prop) (E : ε → σ → Prop)
    (C : Prop) :
    (successor n : Action ε σ UInt64).Ends s Q E C ↔ if n + 1 = 0 then C else Q (n + 1) s :=
  endsIn_successor n s Q E fun _ => C

/-- Only past the greatest word does the sum come round to zero. -/
theorem add_one_ne_zero {n : UInt64} (h : n.toNat + 1 < UInt64.size) : n + 1 ≠ 0 := by
  intro heq
  have hzero := congrArg UInt64.toNat heq
  simp only [UInt64.toNat_add, UInt64.reduceToNat] at hzero
  have hsize : UInt64.size = 18446744073709551616 := rfl
  omega

theorem toNat_add_one {n : UInt64} (h : n + 1 ≠ 0) : (n + 1).toNat = n.toNat + 1 := by
  have hsuccessor : (successor n : Action Unit Unit UInt64) () = .ok (n + 1) () := by
    unfold successor
    rw [if_neg h]
    rfl
  exact (toNat_of_successor hsuccessor).1

theorem lt_add_one {n : UInt64} (h : n + 1 ≠ 0) : n < n + 1 :=
  UInt64.lt_iff_toNat_lt.2 (toNat_add_one h ▸ Nat.lt_succ_self _)

theorem ofNat_add_one (n : Nat) : UInt64.ofNat n + 1 = UInt64.ofNat (n + 1) :=
  (UInt64.ofNat_add n 1).symm

theorem ofNat_add_one_ne_zero {n : Nat} (h : n + 1 < UInt64.size) : UInt64.ofNat n + 1 ≠ 0 := by
  have hself : (UInt64.ofNat n).toNat = n := UInt64.toNat_ofNat_of_lt (Nat.lt_of_succ_lt h)
  exact add_one_ne_zero (hself.symm ▸ h)

theorem ensures_successor {n : UInt64} (h : n.toNat + 1 < UInt64.size) (s : σ)
    (Q : UInt64 → σ → Prop) (E : ε → σ → Prop) :
    (successor n : Action ε σ UInt64).Ensures s Q E ↔ Q (n + 1) s := by
  unfold successor
  rw [if_neg (add_one_ne_zero h)]
  rfl

/-! ### What an action leaves -/

/-- The state in which an action ends, however it ends. -/
def leaves (x : Action ε σ α) (s : σ) : σ :=
  match x s with
  | .ok _ s => s
  | .error _ s => s

theorem get_bind_apply (f : σ → Action ε σ β) (s : σ) :
    ((get : Action ε σ σ) >>= f) s = f s s := rfl

theorem leaves_bind (x : Action ε σ α) (f : α → Action ε σ β) (s : σ) :
    (x >>= f).leaves s = match x s with
      | .ok a s => (f a).leaves s
      | .error _ s => s := by
  unfold leaves
  rw [bind_apply]
  cases x s <;> rfl

/-- What is known of every end holds of the state that is left. -/
theorem EndsIn.leaves {x : Action ε σ α} {s : σ} {P : σ → Prop}
    (h : x.EndsIn s (fun _ s' => P s') (fun _ s' => P s') P) : P (x.leaves s) := by
  unfold EndsIn at h
  unfold Action.leaves
  split at h <;> next hx => rwa [hx]

/-- What is ensured of every end holds of the state that is left. -/
theorem Ensures.leaves {x : Action ε σ α} {s : σ} {P : σ → Prop}
    (h : x.Ensures s (fun _ s' => P s') (fun _ s' => P s')) : P (x.leaves s) := by
  unfold Ensures at h
  unfold Action.leaves
  split at h
  · next hx => rwa [hx]
  · next hx => rwa [hx]
  · exact h.elim

/-- What is known of the state that is left can be ensured, too. -/
theorem Ensures.and_leaves {x : Action ε σ α} {s : σ} {Q : α → σ → Prop} {E : ε → σ → Prop}
    {P : σ → Prop} (h : x.Ensures s Q E) (hP : P (x.leaves s)) :
    x.Ensures s (fun a s' => Q a s' ∧ P s') (fun e s' => E e s' ∧ P s') := by
  unfold Ensures at *
  unfold Action.leaves at hP
  split at h
  · next hx => exact ⟨h, by rwa [hx] at hP⟩
  · next hx => exact ⟨h, by rwa [hx] at hP⟩
  · exact h

theorem leaves_map (f : α → β) (x : Action ε σ α) (s : σ) : (f <$> x).leaves s = x.leaves s := by
  change leaves (EStateM.map f x) s = _
  unfold leaves EStateM.map
  cases x s <;> rfl

/-- The value that an action ends with, if it succeeds. -/
def value? (x : Action ε σ α) (s : σ) : Option α :=
  match x s with
  | .ok a _ => some a
  | _ => none

theorem eq_ok_leaves {x : Action ε σ α} {s : σ} {a : α} (h : x.value? s = some a) :
    x s = .ok a (x.leaves s) := by
  unfold value? at h
  unfold leaves
  split at h
  · next hx =>
    cases h
    rw [hx]
  · cases h

/-- The error that an action ends with, if it does. -/
def error? (x : Action ε σ α) (s : σ) : Option ε :=
  match x s with
  | .error (.error e) _ => some e
  | _ => none

theorem eq_error_leaves {x : Action ε σ α} {s : σ} {e : ε} (h : x.error? s = some e) :
    x s = .error (.error e) (x.leaves s) := by
  unfold error? at h
  unfold leaves
  split at h
  · next hx =>
    cases h
    rw [hx]
  · cases h

end SegmentedJournal.Action
