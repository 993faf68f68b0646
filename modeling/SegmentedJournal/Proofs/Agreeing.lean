import SegmentedJournal.Journal.Replay
import SegmentedJournal.Proofs.Calm
/-!
# Replays of files that agree

What the reads of a replay answer is a list, and so is what they answer when the replay has still to
be started (`Replay.answersFrom`).  They depend on the files of the logs that the replay was started
with, and on nothing else: a replay on another medium that has these logs, with the same files, is
started alike and answers alike (`Replay.answersFrom_congr`).
-/

namespace SegmentedJournal

open Medium (Noted)

/-! ### Answers of a replay -/

/-- What an action answers, however it ends. -/
def Action.answer {ε σ α : Type} (x : Action ε σ α) (s : σ) : Except (Failure ε) α :=
  match x s with
  | .ok a _ => .ok a
  | .error failure _ => .error failure

namespace Replay

section

variable {σ η : Type} [Storage σ η]

/-- What a count of reads answer, one after the other, whatever the ones before answered. -/
def answers : Nat → Replay × Medium σ → List (Except (Failure JournalError) (Option Entry))
  | 0, _ => []
  | count + 1, state => Action.answer read state :: answers count (Action.leaves read state)

/-- What the reads of a replay answer that is started at a number, or why it is not started. -/
def answersFrom (journal : Journal) (n : UInt64) (withIncomplete : Bool) (count : Nat)
    (medium : Medium σ) :
    Except (Failure JournalError) (List (Except (Failure JournalError) (Option Entry))) :=
  match start journal n withIncomplete medium with
  | .ok replay after => .ok (answers count (replay, after))
  | .error failure _ => .error failure

end

/-! ### Media that hold the same in some files -/

variable {a b a' b' : Medium Memory} {pending rest : List Segment}

/-- The two media hold the same in the files of the segments. -/
def Agree (a b : Medium Memory) (segments : List Segment) : Prop :=
  ∀ segment ∈ segments,
    a.storage.files.get? segment.location = b.storage.files.get? segment.location

theorem Agree.follow (h : Agree a b pending) (ha : Noted a a') (hb : Noted b b')
    (hrest : ∀ segment ∈ rest, segment ∈ pending) : Agree a' b' rest := by
  intro segment hsegment
  rw [ha.files_eq, hb.files_eq]
  exact h segment (hrest segment hsegment)

/-- Two reads end alike: with the same answer, and with the same replay, which may go on to some of
the logs. -/
inductive Alike (a b : Medium Memory) (pending : List Segment) :
    (r r' : EStateM.Result (Failure JournalError) (Replay × Medium Memory) (Option Entry)) → Prop
  /-- Both with a value. -/
  | ok {a' b' : Medium Memory} {replay : Replay} {entry : Option Entry} (ha : Noted a a')
      (hb : Noted b b') (hpending : ∀ segment ∈ replay.pending, segment ∈ pending) :
      Alike a b pending (.ok entry (replay, a')) (.ok entry (replay, b'))
  /-- Both without one. -/
  | error {a' b' : Medium Memory} {replay : Replay} {failure : Failure JournalError}
      (ha : Noted a a') (hb : Noted b b')
      (hpending : ∀ segment ∈ replay.pending, segment ∈ pending) :
      Alike a b pending (.error failure (replay, a')) (.error failure (replay, b'))

theorem alike_deliver (entry : Entry) (replay : Replay) (ha : Noted a a') (hb : Noted b b')
    (hpending : ∀ segment ∈ replay.pending, segment ∈ pending) :
    Alike a b pending (deliver entry (replay, a')) (deliver entry (replay, b')) := by
  unfold deliver Action.successor
  dsimp only
  by_cases hoverflow : replay.next + 1 = 0
  · rw [if_pos hoverflow]
    exact .error ha hb hpending
  · rw [if_neg hoverflow]
    exact .ok ha hb hpending

/-- A log whose file is the same opens the same, or fails the same. -/
theorem load_cases {segment : Segment} (ha : a.Calm) (hb : b.Calm)
    (hget : a.storage.files.get? segment.location = b.storage.files.get? segment.location) :
    (∃ reader a' b', SegmentReader.load segment a = .ok reader a' ∧
      SegmentReader.load segment b = .ok reader b' ∧ Noted a a' ∧ Noted b b') ∨
    ∃ failure a' b', SegmentReader.load segment a = .error failure a' ∧
      SegmentReader.load segment b = .error failure b' ∧ Noted a a' ∧ Noted b b' := by
  rcases (SegmentReader.ensures_load_of_calm segment ha).ok_or_error with
    ⟨_, a', hrun, ⟨contents, hsome, rfl⟩, hnoted⟩ | ⟨_, a', hrun, hnone, rfl, hnoted⟩ <;>
  rcases (SegmentReader.ensures_load_of_calm segment hb).ok_or_error with
    ⟨_, b', hrun', ⟨contents', hsome', rfl⟩, hnoted'⟩ | ⟨_, b', hrun', hnone', rfl, hnoted'⟩
  · obtain rfl : contents = contents' := by
      rw [hget, hsome'] at hsome
      exact (Option.some.inj hsome).symm
    exact .inl ⟨_, a', b', hrun, hrun', hnoted, hnoted'⟩
  · rw [hget, hnone'] at hsome
    cases hsome
  · rw [hget, hsome'] at hnone
    cases hnone
  · exact .inr ⟨_, a', b', hrun, hrun', hnoted, hnoted'⟩

/-- Opening logs whose files are the same, one after the other, ends alike. -/
theorem alike_readPending (next : UInt64) (hagree : Agree a b pending) (hcalm : a.Calm)
    (hcalm' : b.Calm) (ha : Noted a a') (hb : Noted b b')
    (hrest : ∀ segment ∈ rest, segment ∈ pending) :
    Alike a b pending (readPending next rest a') (readPending next rest b') := by
  induction rest generalizing a' b' with
  | nil => exact .ok ha hb hrest
  | cons segment rest ih =>
    obtain ⟨hsegment, hrest⟩ := List.forall_mem_cons.1 hrest
    have hget : a'.storage.files.get? segment.location = b'.storage.files.get? segment.location := by
      rw [ha.files_eq, hb.files_eq]
      exact hagree segment hsegment
    unfold readPending
    by_cases hmissing : next < segment.start
    · rw [if_pos hmissing, if_pos hmissing]
      exact .error ha hb hrest
    · rw [if_neg hmissing, if_neg hmissing]
      rcases load_cases (ha.calm hcalm) (hb.calm hcalm') hget with
        ⟨reader, a'', b'', hrun, hrun', ha', hb'⟩ | ⟨failure, a'', b'', hrun, hrun', ha', hb'⟩
      · rw [hrun, hrun']
        dsimp only
        cases yield next reader with
        | entry entry reader => exact alike_deliver entry _ (ha.trans ha') (hb.trans hb') hrest
        | exhausted => exact ih (ha.trans ha') (hb.trans hb') hrest
        | torn => exact .ok (ha.trans ha') (hb.trans hb') fun _ hnone => (by cases hnone)
        | refused error reader => exact .error (ha.trans ha') (hb.trans hb') hrest
      · rw [hrun, hrun']
        exact .error (ha.trans ha') (hb.trans hb') hrest

/-- So does a read. -/
theorem alike_read (replay : Replay) (hagree : Agree a b replay.pending) (ha : a.Calm)
    (hb : b.Calm) : Alike a b replay.pending (read (replay, a)) (read (replay, b)) := by
  unfold read
  dsimp only
  cases replay.current with
  | none => exact alike_readPending _ hagree ha hb (.refl a) (.refl b) fun _ h => h
  | some reader =>
    dsimp only
    cases yield replay.next reader with
    | entry entry reader => exact alike_deliver entry _ (.refl a) (.refl b) fun _ h => h
    | exhausted => exact alike_readPending _ hagree ha hb (.refl a) (.refl b) fun _ h => h
    | torn => exact .ok (.refl a) (.refl b) fun _ hnone => (by cases hnone)
    | refused error reader => exact .error (.refl a) (.refl b) fun _ h => h

/-- The reads of a replay answer the same while the files of its logs are the same. -/
theorem answers_congr (count : Nat) (replay : Replay) (hagree : Agree a b replay.pending)
    (ha : a.Calm) (hb : b.Calm) : answers count (replay, a) = answers count (replay, b) := by
  induction count generalizing replay a b with
  | zero => rfl
  | succ count ih =>
    have halike := alike_read replay hagree ha hb
    unfold answers Action.answer Action.leaves
    generalize read (replay, a) = r at halike
    generalize read (replay, b) = r' at halike
    cases halike with
    | ok ha' hb' hpending =>
      exact congrArg _ (ih _ (hagree.follow ha' hb' hpending) (ha'.calm ha) (hb'.calm hb))
    | error ha' hb' hpending =>
      exact congrArg _ (ih _ (hagree.follow ha' hb' hpending) (ha'.calm ha) (hb'.calm hb))

/-- The replay of some logs; the first must not start above the number. -/
def startAt (n : UInt64) (pending : List Segment) : Except JournalError Replay :=
  match pending.head? with
  | some first =>
    if n < first.start then .error (.entryMissing n first.start) else .ok { pending, next := n }
  | none => .ok { pending, next := n }

theorem pending_of_startAt {n : UInt64} {replay : Replay} (h : startAt n pending = .ok replay) :
    replay.pending = pending := by
  unfold startAt at h
  split at h
  · split at h <;> cases h
    rfl
  · cases h
    rfl

variable {journal : Journal} {n : UInt64} {withIncomplete : Bool}

/-- The replay that files start. -/
def openedFrom (journal : Journal) (n : UInt64) (withIncomplete : Bool) (files : PathMap Bytes) :
    Except JournalError Replay :=
  (journal.snapshotOf files).bind fun snapshot => startAt n (logsFrom snapshot n withIncomplete)

/-- A replay starts with the logs that the files have. -/
theorem ensures_start_of_calm (journal : Journal) (n : UInt64) (withIncomplete : Bool)
    (ha : a.Calm) :
    (start journal n withIncomplete).Ensures a
      (fun replay after => openedFrom journal n withIncomplete a.storage.files = .ok replay ∧
        Noted a after)
      (fun e after => openedFrom journal n withIncomplete a.storage.files = .error e ∧
        Noted a after) := by
  rw [start, Action.ensures_bind, openedFrom]
  refine (Journal.ensures_snapshot_of_calm journal ha).mono ?_ ?_
  · rintro snapshot after ⟨hsnapshot, hnoted⟩
    rw [hsnapshot, Except.bind, startAt]
    dsimp only
    cases (logsFrom snapshot n withIncomplete).head? with
    | none => exact ⟨rfl, hnoted⟩
    | some first =>
      dsimp only
      rw [Action.ensures_ite]
      refine ⟨fun hmissing => ?_, fun hreached => ?_⟩
      · rw [if_pos hmissing]
        exact ⟨rfl, hnoted⟩
      · rw [if_neg hreached]
        exact ⟨rfl, hnoted⟩
  · rintro e after ⟨herror, hnoted⟩
    rw [herror]
    exact ⟨rfl, hnoted⟩

/-- Files that start the same replay, and hold the same in its logs, give the same answers. -/
theorem answersFrom_congr (count : Nat) (ha : a.Calm) (hb : b.Calm)
    (hopened : openedFrom journal n withIncomplete a.storage.files =
      openedFrom journal n withIncomplete b.storage.files)
    (hagree : ∀ replay, openedFrom journal n withIncomplete a.storage.files = .ok replay →
      Agree a b replay.pending) :
    answersFrom journal n withIncomplete count a = answersFrom journal n withIncomplete count b := by
  unfold answersFrom
  rcases (ensures_start_of_calm journal n withIncomplete ha).ok_or_error with
    ⟨replay, a', hrun, hopen, hnoted⟩ | ⟨e, a', hrun, hopen, hnoted⟩ <;>
  rcases (ensures_start_of_calm journal n withIncomplete hb).ok_or_error with
    ⟨replay', b', hrun', hopen', hnoted'⟩ | ⟨e', b', hrun', hopen', hnoted'⟩ <;>
  rw [hrun, hrun'] <;>
  have hsame := hopen.symm.trans (hopened.trans hopen')
  · obtain rfl := Except.ok.inj hsame
    exact congrArg _ (answers_congr count replay
      ((hagree replay hopen).follow hnoted hnoted' fun _ h => h) (hnoted.calm ha)
      (hnoted'.calm hb))
  · cases hsame
  · cases hsame
  · obtain rfl := Except.error.inj hsame
    rfl

end Replay

end SegmentedJournal
