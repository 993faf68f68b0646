import SegmentedJournal.Medium.Memory
import SegmentedJournal.Medium.Instrumented
import SegmentedJournal.Proofs.Outcome
/-!
# Calls of a medium in memory

What each operation of a medium does to its files, and what its failure costs.  `Medium.armed`
counts the failures that wait to fire: no operation adds one (`Medium.Quieter`), and one that fails
has used one up and left the files alone (`Medium.Foiled`).  So where nothing is armed nothing
fails (`Medium.Fired.elim`).

A medium is honest (`Medium.Honest`) if the failures armed for its calls only make calls fail; it is
tame (`Medium.Tame`) if, besides, none of them loses what only a closing would have published.
-/

namespace SegmentedJournal

/-! ### Failures that fire -/

namespace CallFault

/-- The failure only makes calls fail, and not the closing of a stream where only that
publishes. -/
def Tame (publishing : Publishing) (fault : CallFault) : Prop :=
  fault.call ≠ .ghost ∧ fault.call ≠ .crash ∧ (fault.call = .close → publishing = .onFlush)

instance (publishing : Publishing) (fault : CallFault) : Decidable (fault.Tame publishing) :=
  inferInstanceAs (Decidable (_ ∧ _ ∧ (_ → _)))

/-- The failure makes calls fail, and does nothing else to them. -/
def Honest (fault : CallFault) : Prop :=
  fault.call ≠ .ghost ∧ fault.call ≠ .crash

instance (fault : CallFault) : Decidable fault.Honest :=
  inferInstanceAs (Decidable (_ ∧ _))

theorem Tame.honest {publishing : Publishing} {fault : CallFault} (h : fault.Tame publishing) :
    fault.Honest :=
  ⟨h.1, h.2.1⟩

variable {call : Call} {faults rest : List CallFault} {fault : CallFault}

/-- A call uses up the failure that fires, and no other. -/
theorem length_of_take {fired : Option CallFault} (h : take call faults = (fired, rest)) :
    rest.length + fired.toList.length = faults.length := by
  induction faults generalizing rest with
  | nil =>
      cases h
      rfl
  | cons first faults ih =>
      unfold take at h
      split at h
      · split at h <;> (cases h; rfl)
      · obtain ⟨rfl, rfl⟩ := Prod.mk.inj h
        rw [List.length_cons, List.length_cons, ← ih rfl]
        omega

/-- A failure that fires was armed for the call. -/
theorem exists_of_take_some (h : take call faults = (some fault, rest)) :
    ∃ armed ∈ faults, armed.call = call := by
  induction faults generalizing rest with
  | nil => cases h
  | cons first faults ih =>
      unfold take at h
      split at h
      · next hcall => exact ⟨first, List.mem_cons_self, hcall⟩
      · obtain ⟨hfired, rfl⟩ := Prod.mk.inj h
        obtain ⟨armed, harmed, hcall⟩ := ih (Prod.ext hfired rfl)
        exact ⟨armed, List.mem_cons_of_mem _ harmed, hcall⟩

/-- The failures that remain wait for calls that failures waited for. -/
theorem exists_of_mem_take (h : fault ∈ (take call faults).2) :
    ∃ before ∈ faults, before.call = fault.call := by
  induction faults with
  | nil => cases h
  | cons first faults ih =>
      unfold take at h
      split at h
      · split at h
        · exact ⟨fault, List.mem_cons_of_mem _ h, rfl⟩
        · rcases List.mem_cons.1 h with rfl | h
          · exact ⟨first, List.mem_cons_self, rfl⟩
          · exact ⟨fault, List.mem_cons_of_mem _ h, rfl⟩
      · rcases List.mem_cons.1 h with rfl | h
        · exact ⟨fault, List.mem_cons_self, rfl⟩
        · obtain ⟨before, hbefore, hcall⟩ := ih h
          exact ⟨before, List.mem_cons_of_mem _ hbefore, hcall⟩

end CallFault

namespace Fault

variable {faults rest : List Fault} {wanted : Fault}

/-- A write uses up the failure that fires, and no other. -/
theorem length_of_takeWrite {fired : Option Fate} (h : takeWrite faults = (fired, rest)) :
    rest.length + fired.toList.length = faults.length := by
  fun_induction takeWrite faults generalizing rest with
  | case1 | case2 | case3 =>
      cases h
      rfl
  | case4 fault faults _ _ fate remaining htake ih =>
      cases h
      rw [List.length_cons, List.length_cons, ← ih htake]
      omega

/-- So does a flush. -/
theorem length_of_takeFlush {fired : Option Fate} (h : takeFlush faults = (fired, rest)) :
    rest.length + fired.toList.length = faults.length := by
  fun_induction takeFlush faults generalizing rest with
  | case1 | case2 =>
      cases h
      rfl
  | case3 fault faults _ fate remaining htake ih =>
      cases h
      rw [List.length_cons, List.length_cons, ← ih htake]
      omega

theorem length_of_take?_some (h : take? wanted faults = some rest) :
    rest.length + 1 = faults.length := by
  unfold take? at h
  split at h
  · next hmem =>
    cases h
    rw [List.length_erase_of_mem hmem]
    have hpos := List.length_pos_of_mem hmem
    omega
  · cases h

end Fault

namespace Medium

/-- How many failures wait to fire. -/
def armed (medium : Medium Memory) : Nat :=
  medium.storage.faults.length + medium.callFaults.length

/-- The medium with nothing armed. -/
def cleared (medium : Medium Memory) : Medium Memory :=
  { medium with storage := { medium.storage with faults := [] }, callFaults := [] }

/-- Every failure armed for calls is tame. -/
def Tame (medium : Medium Memory) : Prop :=
  ∀ fault ∈ medium.callFaults, fault.Tame medium.storage.publishing

/-- Every failure armed for calls is honest. -/
def Honest (medium : Medium Memory) : Prop :=
  ∀ fault ∈ medium.callFaults, fault.Honest

theorem Tame.honest {medium : Medium Memory} (h : medium.Tame) : medium.Honest :=
  fun fault hfault => (h fault hfault).honest

/-- Nothing was armed between two states of a medium. -/
structure Quieter (before after : Medium Memory) : Prop where
  /-- Streams publish as before. -/
  publishing_eq : after.storage.publishing = before.storage.publishing
  /-- Failures wait for calls that failures waited for. -/
  calls : ∀ fault ∈ after.callFaults, ∃ old ∈ before.callFaults, old.call = fault.call
  /-- No more failures wait. -/
  armed_le : after.armed ≤ before.armed

/-- The files were left alone, too. -/
structure Keeps (before after : Medium Memory) : Prop extends Quieter before after where
  /-- The files are as before. -/
  files_eq : after.storage.files = before.storage.files

/-- A failure fired. -/
structure Fired (before after : Medium Memory) : Prop extends Quieter before after where
  /-- Fewer failures wait. -/
  armed_lt : after.armed < before.armed

/-- A failure fired, and the files were left alone. -/
structure Foiled (before after : Medium Memory) : Prop extends
  Keeps before after, Fired before after

variable {a b c : Medium Memory} {counters : Counters} {warnings : List Warning}

theorem Quieter.refl (a : Medium Memory) : Quieter a a :=
  ⟨rfl, fun fault h => ⟨fault, h, rfl⟩, Nat.le_refl _⟩

theorem Quieter.trans (h : Quieter a b) (h' : Quieter b c) : Quieter a c := by
  refine ⟨h'.publishing_eq.trans h.publishing_eq, ?_,
    Nat.le_trans h'.armed_le h.armed_le⟩
  intro fault hfault
  obtain ⟨middle, hmiddle, hcall⟩ := h'.calls fault hfault
  obtain ⟨old, hold, hcall'⟩ := h.calls middle hmiddle
  exact ⟨old, hold, hcall'.trans hcall⟩

theorem Quieter.tame (h : Quieter a b) (htame : a.Tame) : b.Tame := by
  intro fault hfault
  obtain ⟨old, hold, hcall⟩ := h.calls fault hfault
  rw [CallFault.Tame, ← hcall, h.publishing_eq]
  exact htame old hold

theorem Quieter.honest (h : Quieter a b) (hhonest : a.Honest) : b.Honest := by
  intro fault hfault
  obtain ⟨old, hold, hcall⟩ := h.calls fault hfault
  rw [CallFault.Honest, ← hcall]
  exact hhonest old hold

/-- Where nothing is armed nothing will be. -/
theorem Quieter.quiet (h : Quieter a b) (ha : a.armed = 0) : b.armed = 0 :=
  Nat.le_zero.1 (ha ▸ h.armed_le)

theorem Keeps.refl (a : Medium Memory) : Keeps a a := ⟨.refl a, rfl⟩

theorem Keeps.trans (h : Keeps a b) (h' : Keeps b c) : Keeps a c :=
  ⟨h.toQuieter.trans h'.toQuieter, h'.files_eq.trans h.files_eq⟩

theorem Keeps.foiled (h : Keeps a b) (h' : Foiled b c) : Foiled a c :=
  ⟨h.trans h'.toKeeps, Nat.lt_of_lt_of_le h'.armed_lt h.armed_le⟩

theorem Quieter.fired (h : Quieter a b) (h' : Fired b c) : Fired a c :=
  ⟨h.trans h'.toQuieter, Nat.lt_of_lt_of_le h'.armed_lt h.armed_le⟩

theorem Fired.quieter (h : Fired a b) (h' : Quieter b c) : Fired a c :=
  ⟨h.toQuieter.trans h', Nat.lt_of_le_of_lt h'.armed_le h.armed_lt⟩

theorem faults_of_armed (h : a.armed = 0) : a.storage.faults = [] ∧ a.callFaults = [] := by
  rw [armed] at h
  exact ⟨List.length_eq_zero_iff.1 (by omega), List.length_eq_zero_iff.1 (by omega)⟩

/-- Where nothing is armed nothing is wrong. -/
theorem tame_of_armed (h : a.armed = 0) : a.Tame := by
  intro fault hfault
  rw [(faults_of_armed h).2] at hfault
  cases hfault

/-- Where nothing is armed nothing fails. -/
theorem Fired.elim (h : Fired a b) (ha : a.armed = 0) : False := by
  have hlt := h.armed_lt
  omega

/-! Counting and warning change nothing of this. -/

@[simp] theorem quieter_counters :
    Quieter a { b with counters } ↔ Quieter a b :=
  ⟨fun h => ⟨h.1, h.2, h.3⟩, fun h => ⟨h.1, h.2, h.3⟩⟩

@[simp] theorem keeps_counters : Keeps a { b with counters } ↔ Keeps a b :=
  ⟨fun h => ⟨quieter_counters.1 h.1, h.2⟩, fun h => ⟨quieter_counters.2 h.1, h.2⟩⟩

@[simp] theorem foiled_counters : Foiled a { b with counters } ↔ Foiled a b :=
  ⟨fun h => ⟨keeps_counters.1 h.1, h.2⟩, fun h => ⟨keeps_counters.2 h.1, h.2⟩⟩

theorem keeps_warnings (a : Medium Memory) (warnings : List Warning) :
    Keeps a { a with warnings } :=
  ⟨⟨rfl, fun fault h => ⟨fault, h, rfl⟩, Nat.le_refl _⟩, rfl⟩

/-! ### Parts of operations -/

variable {ε α : Type} {path source target directory : String} {contents : Bytes}

theorem quieter_storage {storage : Memory} (hpublishing : storage.publishing = a.storage.publishing)
    (hfaults : storage.faults.length ≤ a.storage.faults.length) :
    Quieter a { a with storage } :=
  ⟨hpublishing, fun fault h => ⟨fault, h, rfl⟩, Nat.add_le_add_right hfaults _⟩

theorem fired_storage {storage : Memory} (hpublishing : storage.publishing = a.storage.publishing)
    (hfaults : storage.faults.length + 1 = a.storage.faults.length) :
    Fired a { a with storage } := by
  refine ⟨quieter_storage hpublishing (by omega), ?_⟩
  show storage.faults.length + a.callFaults.length < a.storage.faults.length + a.callFaults.length
  omega

theorem foiled_storage {faults : List Fault}
    (hfaults : faults.length + 1 = a.storage.faults.length) :
    Foiled a { a with storage := { a.storage with faults } } :=
  have hfired : Fired a { a with storage := { a.storage with faults } } :=
    fired_storage rfl hfaults
  ⟨⟨hfired.toQuieter, rfl⟩, hfired.armed_lt⟩

@[simp] theorem ensures_counted {σ : Type} (count : Counters → Counters)
    (x : Action ε (Medium σ) α) (a : Medium σ) (Q : α → Medium σ → Prop)
    (E : ε → Medium σ → Prop) :
    (counted count x).Ensures a Q E ↔
      x.Ensures a (fun value b => Q value { b with counters := count b.counters })
        (fun e b => E e { b with
          counters := { count b.counters with failed := (count b.counters).failed + 1 } }) := by
  unfold Action.Ensures counted
  cases x a with
  | ok value b => rfl
  | error e b => cases e <;> rfl

@[simp] theorem ensures_onStorage (x : EStateM ε Memory α) (a : Medium Memory)
    (Q : α → Medium Memory → Prop) (E : ε → Medium Memory → Prop) :
    (onStorage x).Ensures a Q E ↔ match x a.storage with
      | .ok value storage => Q value { a with storage }
      | .error e storage => E e { a with storage } := by
  rw [onStorage, Action.ensures_zoom, Action.ensures_ofEStateM]
  cases x a.storage <;> rfl

theorem ensures_onStream (x : EStateM ε (Memory.Stream × Memory) α) (stream : Memory.Stream)
    (a : Medium Memory) (Q : α → Memory.Stream × Medium Memory → Prop)
    (E : ε → Memory.Stream × Medium Memory → Prop) :
    (onStream x).Ensures (stream, a) Q E ↔ match x (stream, a.storage) with
      | .ok value (stream, storage) => Q value (stream, { a with storage })
      | .error e (stream, storage) => E e (stream, { a with storage }) := by
  rw [onStream, Action.ensures_zoom, Action.ensures_ofEStateM]
  cases x (stream, a.storage) <;> rfl

@[simp] theorem ends_warn (warning : Warning) (a : Medium Memory)
    (Q : Unit → Medium Memory → Prop) (E : ε → Medium Memory → Prop) (C : Prop) :
    (warn warning : Action ε (Medium Memory) Unit).Ends a Q E C ↔
      Q () { a with warnings := a.warnings ++ [warning] } := Iff.rfl

@[simp] theorem ensures_warn (warning : Warning) (a : Medium Memory)
    (Q : Unit → Medium Memory → Prop) (E : ε → Medium Memory → Prop) :
    (warn warning : Action ε (Medium Memory) Unit).Ensures a Q E ↔
      Q () { a with warnings := a.warnings ++ [warning] } := Iff.rfl

/-- A failure that is consulted leaves the storage alone; one that fires was armed for the call. -/
theorem ensures_consult (call : Call) (a : Medium Memory) :
    (consult call : Action ε (Medium Memory) (Option CallFault)).Ensures a
      (fun fired b => b.storage = a.storage ∧ Keeps a b ∧
        (fired.isSome = true → Foiled a b ∧ ∃ old ∈ a.callFaults, old.call = call))
      (fun _ _ => False) := by
  cases htake : CallFault.take call a.callFaults with
  | mk fired rest =>
    have hok : (consult call : Action ε (Medium Memory) (Option CallFault)) a =
        .ok fired { a with callFaults := rest } := by
      rw [consult, htake]
    have hcalls : ∀ fault ∈ rest, ∃ old ∈ a.callFaults, old.call = fault.call := by
      intro fault hfault
      have hmem : fault ∈ (CallFault.take call a.callFaults).2 := by rwa [htake]
      exact CallFault.exists_of_mem_take hmem
    have harmed : armed { a with callFaults := rest } + fired.toList.length = a.armed := by
      rw [armed, armed, Nat.add_assoc, CallFault.length_of_take htake]
    have hkeeps : Keeps a { a with callFaults := rest } :=
      ⟨⟨rfl, hcalls, Nat.le.intro harmed⟩, rfl⟩
    refine Action.ensures_of_ok hok ⟨rfl, hkeeps, ?_⟩
    intro hsome
    obtain ⟨fault, rfl⟩ := Option.isSome_iff_exists.1 hsome
    exact ⟨⟨hkeeps, Nat.le_of_eq harmed⟩, CallFault.exists_of_take_some htake⟩

theorem ensures_guarded (call : Call) (name : String) (a : Medium Memory) :
    (guarded call name).Ensures a (fun _ b => b.storage = a.storage ∧ Keeps a b)
      (fun _ b => Foiled a b) := by
  rw [guarded, Action.ensures_bind]
  refine (ensures_consult call a).mono ?_ (fun _ _ h => h.elim)
  rintro fired b ⟨hstorage, hkeeps, hfired⟩
  rw [Action.ensures_ite]
  exact ⟨fun hsome => (hfired hsome).1, fun _ => ⟨hstorage, hkeeps⟩⟩

/-! ### Operations -/

/-- The files once one was made. -/
def created (publishing : Publishing) (path : String) (files : PathMap Bytes) : PathMap Bytes :=
  match publishing with
  | .onFlush => files.insert path []
  | .onClose => files

theorem ensures_create (path : String) (a : Medium Memory) :
    (create path).Ensures a
      (fun stream b => stream = { path } ∧ Quieter a b ∧
        b.storage.files = created a.storage.publishing path a.storage.files)
      (fun _ b => Foiled a b) := by
  simp only [create, ensures_counted, ensures_onStorage, quieter_counters, foiled_counters]
  simp only [Storage.create, Memory.create]
  cases htake : Fault.take? .create a.storage.faults with
  | some faults => exact foiled_storage (Fault.length_of_take?_some htake)
  | none =>
      cases hpublishing : a.storage.publishing with
      | onFlush =>
          exact ⟨rfl, quieter_storage hpublishing.symm (Nat.le_refl _), rfl⟩
      | onClose => exact ⟨rfl, quieter_storage rfl (Nat.le_refl _), rfl⟩

/-- A file is removed, unless there is none. -/
theorem ensures_delete (path : String) (a : Medium Memory) :
    (delete path).Ensures a
      (fun _ b => Quieter a b ∧ b.storage.files = a.storage.files.erase path)
      (fun e b => Foiled a b ∧ (∀ other, e ≠ .notFound other) ∨
        Keeps a b ∧ e = .notFound path ∧ a.storage.files.contains path = false) := by
  simp only [delete, ensures_counted, ensures_onStorage, quieter_counters, foiled_counters,
    keeps_counters]
  simp only [Storage.delete, Memory.delete]
  cases htake : Fault.take? .delete a.storage.faults with
  | some faults =>
      refine .inl ⟨foiled_storage (Fault.length_of_take?_some htake), ?_⟩
      rintro other ⟨⟩
  | none =>
      cases hpresent : a.storage.files.contains path with
      | true => exact ⟨quieter_storage rfl (Nat.le_refl _), rfl⟩
      | false => exact .inr ⟨.refl a, rfl, rfl⟩

theorem ensures_delete_of_present (a : Medium Memory)
    (h : a.storage.files.contains path = true) :
    (delete path).Ensures a
      (fun _ b => Quieter a b ∧ b.storage.files = a.storage.files.erase path)
      (fun _ b => Foiled a b) := by
  refine (ensures_delete path a).mono (fun _ _ h => h) ?_
  rintro e b (⟨hfoiled, -⟩ | ⟨-, -, habsent⟩)
  · exact hfoiled
  · rw [h] at habsent
    cases habsent

/-- A file that is there gets a path where none is. -/
theorem ensures_rename (a : Medium Memory) (hsource : a.storage.files.get? source = some contents)
    (htarget : a.storage.files.contains target = false) :
    (rename source target).Ensures a
      (fun _ b => Quieter a b ∧
        b.storage.files = (a.storage.files.erase source).insert target contents)
      (fun _ b => Foiled a b) := by
  simp only [rename, ensures_counted, ensures_onStorage, quieter_counters, foiled_counters]
  simp only [Storage.rename, Memory.rename, htarget, hsource]
  cases htake : Fault.take? .rename a.storage.faults with
  | some faults => exact foiled_storage (Fault.length_of_take?_some htake)
  | none => exact ⟨quieter_storage rfl (Nat.le_refl _), rfl⟩

theorem ensures_isPresent (path : String) (a : Medium Memory) :
    (isPresent path).Ensures a
      (fun present b => present = a.storage.files.contains path ∧ Keeps a b)
      (fun _ b => Foiled a b) := by
  simp only [isPresent, ensures_counted, Action.ensures_bind, keeps_counters, foiled_counters]
  refine (ensures_guarded _ _ a).mono ?_ (fun _ _ h => h)
  rintro _ b ⟨hstorage, hkeeps⟩
  rw [ensures_onStorage]
  exact ⟨congrArg (fun storage => storage.files.contains path) hstorage, hkeeps⟩

/-- A listing is not wrong on an honest medium. -/
theorem ensures_list (directory : String) (a : Medium Memory) (hhonest : a.Honest) :
    (list directory).Ensures a
      (fun names b => names = a.storage.files.paths.filterMap (Path.child? directory) ∧
        b.storage = a.storage ∧ Keeps a b)
      (fun _ b => Foiled a b) := by
  simp only [list, ensures_counted, Action.ensures_bind, keeps_counters, foiled_counters]
  refine (ensures_consult .crash a).mono ?_ (fun _ _ h => h.elim)
  -- On an honest medium neither a crash nor a name too many is armed.
  rintro crash b ⟨hstorage, hkeeps, hcrash⟩
  rw [Action.ensures_ite]
  refine ⟨fun hsome => ?_, fun _ => ?_⟩
  · obtain ⟨-, old, hold, hcall⟩ := hcrash hsome
    exact absurd hcall (hhonest old hold).2
  rw [Action.ensures_bind]
  refine (ensures_guarded _ _ b).mono ?_ (fun _ _ h => hkeeps.foiled h)
  rintro _ c ⟨hstorage', hkeeps'⟩
  rw [Action.ensures_bind, ensures_onStorage]
  simp only [Storage.list, Action.ensures_bind]
  have hkeeps := hkeeps.trans hkeeps'
  refine (ensures_consult .ghost c).mono ?_ (fun _ _ h => h.elim)
  rintro ghost d ⟨hstorage'', hkeeps'', hghost⟩
  cases ghost with
  | some fault =>
      obtain ⟨-, old, hold, hcall⟩ := hghost rfl
      exact absurd hcall ((hkeeps.toQuieter.honest hhonest) old hold).1
  | none =>
      have hsame : c.storage = a.storage := hstorage'.trans hstorage
      refine ⟨?_, hstorage''.trans hsame, hkeeps.trans hkeeps''⟩
      rw [hsame, Memory.childrenOf_eq]

/-- A file that is there can be read, unless the reading fails. -/
theorem ensures_openRead (a : Medium Memory) (hget : a.storage.files.get? path = some contents) :
    (openRead path).Ensures a
      (fun result b => result = .ok contents ∧ Keeps a b ∨
        (∃ error, result = .error error) ∧ Foiled a b)
      (fun _ b => Foiled a b) := by
  simp only [openRead, ensures_counted, Action.ensures_bind, keeps_counters, foiled_counters]
  refine (ensures_guarded _ _ a).mono ?_ (fun _ _ h => h)
  rintro _ b ⟨hstorage, hkeeps⟩
  rw [← hstorage] at hget
  simp only [ensures_onStorage, Storage.openRead, Memory.openRead, hget]
  refine (ensures_consult .read b).mono ?_ (fun _ _ h => h.elim)
  rintro fired c ⟨-, hkeeps', hfired⟩
  rw [Action.ensures_ite]
  exact ⟨fun hsome => .inr ⟨⟨_, rfl⟩, hkeeps.foiled (hfired hsome).1⟩,
    fun _ => .inl ⟨rfl, hkeeps.trans hkeeps'⟩⟩

end Medium

end SegmentedJournal
