import SegmentedJournal.Proofs.Listing
/-!
# Chains of logs

`Chain reach x logs y` says that logs lead from one sequence number to another: each starts where
the one before it stops, and what is left out between them lies below `reach`, which a checkpoint
stands for.  Without a checkpoint the logs are contiguous (`areContiguous_of_chain`,
`chain_of_areContiguous`).  A chain goes on behind its end (`Chain.snoc`), and outlasts the removal
of the logs that stop at `reach` or before (`Chain.filter`).
-/

namespace SegmentedJournal

/-- What lies between two numbers is nothing, or below `reach`. -/
def Link (reach x y : Nat) : Prop :=
  x = y ∨ x ≤ y ∧ y ≤ reach

/-- The logs lead from `x` to `y`. -/
def Chain (reach : Nat) : Nat → List Segment → Nat → Prop
  | x, [], y => Link reach x y
  | x, log :: logs, y =>
    Link reach x log.start.toNat ∧ log.start ≤ log.stop ∧ Chain reach log.stop.toNat logs y

namespace Link

variable {reach reach' x y z : Nat}

theorem refl (reach x : Nat) : Link reach x x := .inl rfl

theorem le (h : Link reach x y) : x ≤ y := by
  rcases h with rfl | ⟨hle, -⟩
  · exact Nat.le_refl x
  · exact hle

/-- What was reached stays reached. -/
theorem mono (h : Link reach x y) (hreach : reach ≤ reach') : Link reach' x y := by
  rcases h with rfl | ⟨hle, hy⟩
  · exact .inl rfl
  · exact .inr ⟨hle, Nat.le_trans hy hreach⟩

theorem trans (h : Link reach x y) (h' : Link reach y z) : Link reach x z := by
  rcases h' with rfl | ⟨hle, hz⟩
  · exact h
  · exact .inr ⟨Nat.le_trans h.le hle, hz⟩

/-- A link may start earlier if what it leads over is reached. -/
theorem of_le (h : Link reach y z) (hxy : x ≤ y) (hy : y ≤ reach) : Link reach x z := by
  rcases h with rfl | ⟨hle, hz⟩
  · exact .inr ⟨hxy, hy⟩
  · exact .inr ⟨Nat.le_trans hxy hle, hz⟩

end Link

namespace Chain

variable {reach reach' x y z : Nat} {log : Segment} {logs : List Segment}

theorem le (h : Chain reach x logs y) : x ≤ y := by
  induction logs generalizing x with
  | nil => exact Link.le h
  | cons log logs ih =>
      obtain ⟨hlink, hbounds, hchain⟩ := h
      exact Nat.le_trans hlink.le (Nat.le_trans (UInt64.le_iff_toNat_le.1 hbounds) (ih hchain))

/-- No log of a chain stops behind its end. -/
theorem stop_le (h : Chain reach x logs y) (hlog : log ∈ logs) : log.stop.toNat ≤ y := by
  induction logs generalizing x with
  | nil => cases hlog
  | cons first logs ih =>
      obtain ⟨-, -, hchain⟩ := h
      rcases List.mem_cons.1 hlog with rfl | hlog
      · exact hchain.le
      · exact ih hchain hlog

theorem start_le_stop (h : Chain reach x logs y) (hlog : log ∈ logs) : log.start ≤ log.stop := by
  induction logs generalizing x with
  | nil => cases hlog
  | cons first logs ih =>
      obtain ⟨-, hbounds, hchain⟩ := h
      rcases List.mem_cons.1 hlog with rfl | hlog
      · exact hbounds
      · exact ih hchain hlog

theorem mono (h : Chain reach x logs y) (hreach : reach ≤ reach') : Chain reach' x logs y := by
  induction logs generalizing x with
  | nil => exact Link.mono h hreach
  | cons log logs ih =>
      obtain ⟨hlink, hbounds, hchain⟩ := h
      exact ⟨hlink.mono hreach, hbounds, ih hchain⟩

/-- A chain may start earlier if what it leads over is reached. -/
theorem of_le (h : Chain reach y logs z) (hxy : x ≤ y) (hy : y ≤ reach) :
    Chain reach x logs z := by
  cases logs with
  | nil => exact Link.of_le h hxy hy
  | cons log logs =>
      obtain ⟨hlink, hrest⟩ := h
      exact ⟨hlink.of_le hxy hy, hrest⟩

/-- A chain ends where its last link may lead. -/
theorem link (h : Chain reach x logs y) (hlink : Link reach y z) : Chain reach x logs z := by
  induction logs generalizing x with
  | nil => exact Link.trans h hlink
  | cons log logs ih =>
      obtain ⟨hfirst, hbounds, hchain⟩ := h
      exact ⟨hfirst, hbounds, ih hchain⟩

/-- A log that starts where a chain ends leads it on. -/
theorem snoc (h : Chain reach x logs y) (hstart : log.start.toNat = y)
    (hbounds : log.start ≤ log.stop) : Chain reach x (logs ++ [log]) log.stop.toNat := by
  induction logs generalizing x with
  | nil => exact ⟨hstart ▸ h, hbounds, Link.refl _ _⟩
  | cons first logs ih =>
      obtain ⟨hfirst, hfirstBounds, hchain⟩ := h
      exact ⟨hfirst, hfirstBounds, ih hchain⟩

/-- The logs of a chain that are reached as a whole are not needed. -/
theorem filter {keep : Segment → Bool} (h : Chain reach x logs y)
    (hdropped : ∀ log ∈ logs, keep log = false → log.stop.toNat ≤ reach) :
    Chain reach x (logs.filter keep) y := by
  induction logs generalizing x with
  | nil => exact h
  | cons log logs ih =>
      obtain ⟨hlink, hbounds, hchain⟩ := h
      have hrest := ih hchain fun other hother => hdropped other (List.mem_cons_of_mem _ hother)
      -- A log that is dropped is one that the link to the next may lead over.
      cases hkeep : keep log with
      | true =>
          rw [List.filter_cons_of_pos hkeep]
          exact ⟨hlink, hbounds, hrest⟩
      | false =>
          rw [List.filter_cons_of_neg (by simp [hkeep])]
          refine hrest.of_le ?_ (hdropped log List.mem_cons_self hkeep)
          exact Nat.le_trans hlink.le (UInt64.le_iff_toNat_le.1 hbounds)

/-- The last log leads to the end. -/
theorem link_getLast? (h : Chain reach x logs y) (hlast : logs.getLast? = some log) :
    Link reach log.stop.toNat y := by
  induction logs generalizing x with
  | nil => cases hlast
  | cons first logs ih =>
      obtain ⟨-, -, hchain⟩ := h
      cases logs with
      | nil =>
          cases hlast
          exact hchain
      | cons second logs => exact ih hchain (by rwa [List.getLast?_cons_cons] at hlast)

end Chain

/-! ### Contiguous logs -/

/-- Where logs end; no logs end at zero. -/
def endOf (logs : List Segment) : UInt64 :=
  logs.getLast?.elim 0 Segment.stop

/-- Where logs begin; no logs begin at zero. -/
def beginOf (logs : List Segment) : UInt64 :=
  logs.head?.elim 0 Segment.start

@[simp] theorem endOf_nil : endOf [] = 0 := rfl

@[simp] theorem endOf_singleton (log : Segment) : endOf [log] = log.stop := rfl

@[simp] theorem endOf_cons_cons (log log' : Segment) (logs : List Segment) :
    endOf (log :: log' :: logs) = endOf (log' :: logs) := by
  rw [endOf, endOf, List.getLast?_cons_cons]

/-- Of the logs of a chain the last stops furthest. -/
theorem Chain.stop_le_endOf {reach x y : Nat} {log : Segment} {logs : List Segment}
    (h : Chain reach x logs y) (hlog : log ∈ logs) : log.stop ≤ endOf logs := by
  induction logs generalizing x log with
  | nil => cases hlog
  | cons first rest ih =>
      obtain ⟨-, -, hrest⟩ := h
      cases rest with
      | nil =>
          rw [List.mem_singleton.1 hlog]
          exact UInt64.le_refl _
      | cons second rest =>
          rw [endOf_cons_cons]
          rcases List.mem_cons.1 hlog with rfl | hlater
          · have hstart : log.stop ≤ second.start := UInt64.le_iff_toNat_le.2 hrest.1.le
            exact UInt64.le_trans (UInt64.le_trans hstart hrest.2.1) (ih hrest List.mem_cons_self)
          · exact ih hrest hlater

/-- Contiguous logs are a chain from their begin to their end. -/
theorem chain_of_areContiguous {logs : List Segment}
    (hcontiguous : Snapshot.areContiguous logs = true)
    (hbounds : ∀ log ∈ logs, log.start ≤ log.stop) :
    Chain 0 (beginOf logs).toNat logs (endOf logs).toNat := by
  induction logs with
  | nil => exact Link.refl _ _
  | cons log logs ih =>
      refine ⟨Link.refl _ _, hbounds log List.mem_cons_self, ?_⟩
      cases logs with
      | nil => exact Link.refl _ _
      | cons next logs =>
          simp only [Snapshot.areContiguous, Bool.and_eq_true, decide_eq_true_eq] at hcontiguous
          rw [hcontiguous.1, endOf_cons_cons]
          exact ih hcontiguous.2 fun other hother => hbounds other (List.mem_cons_of_mem _ hother)

/-- A chain that nothing is left out of is contiguous. -/
theorem areContiguous_of_chain {logs : List Segment} {x y : Nat} (h : Chain 0 x logs y) :
    Snapshot.areContiguous logs = true := by
  induction logs generalizing x with
  | nil => rfl
  | cons log logs ih =>
      obtain ⟨-, -, hchain⟩ := h
      cases logs with
      | nil => rfl
      | cons next logs =>
          have hnext := ih hchain
          obtain ⟨hlink, -⟩ := hchain
          have hstop : log.stop = next.start := by
            apply UInt64.toNat_inj.1
            rcases hlink with heq | ⟨hle, hzero⟩ <;> omega
          simp [Snapshot.areContiguous, hstop, hnext]

theorem endOf_eq_of_chain {logs : List Segment} {x y : Nat} (h : Chain 0 x logs y)
    (hempty : logs = [] → y = 0) : (endOf logs).toNat = y := by
  unfold endOf
  cases hlast : logs.getLast? with
  | none => exact (hempty (List.getLast?_eq_none_iff.1 hlast)).symm
  | some log =>
      show log.stop.toNat = y
      rcases h.link_getLast? hlast with heq | ⟨hle, hzero⟩ <;> omega

end SegmentedJournal
