import SegmentedJournal.Proofs.Standing
/-!
# Collecting garbage

A pass of the collector decides what to remove by a snapshot (`Journal.plan`), and then removes
one segment after the other (`Journal.plan_bind_removeAll`).  Whatever it decided to remove stays
redundant (`Account.Redundant`, `Redundant.mono`): the latest checkpoint is never among it, and only
a later one takes its place.  So a removal keeps the files as they should be at any later moment,
and so does a checkpoint that is put in place (`Redundant.follows`, `Stands.follows_place`); a
writer that goes on meanwhile stays in good standing by `Standing.follow`.
-/

namespace SegmentedJournal

open Memory (Stream)
open Medium (Foiled Keeps Quieter)

namespace Journal

variable {σ η : Type} [Storage σ η]

/-- What a pass removes by the snapshot it takes, in order. -/
def plan (journal : Journal) : Action JournalError (Medium σ) (List Segment) := do
  let snapshot ← journal.snapshot
  match snapshot.latestCheckpoint? with
  | none => return []
  | some latest =>
    return snapshot.redundantLogs latest ++ snapshot.redundantCheckpoints latest

theorem removeAll_append (segments segments' : List Segment) :
    (removeAll (segments ++ segments') : Action JournalError (Medium σ) (List String)) = (do
      let removed ← removeAll segments
      let removed' ← removeAll segments'
      return removed ++ removed') := by
  induction segments with
  | nil => simp [removeAll]
  | cons segment segments ih =>
      simp only [List.cons_append, removeAll, ih, bind_assoc, pure_bind]
      congr 1
      funext removed
      cases removed <;> simp

/-- A pass removes what it decided to remove, one after the other, and reports it. -/
theorem plan_bind_removeAll (journal : Journal) :
    (journal.plan >>= removeAll : Action JournalError (Medium σ) (List String)) =
      (fun collected => collected.logs ++ collected.checkpoints) <$> journal.collect := by
  unfold collect plan
  simp only [map_eq_pure_bind, bind_assoc]
  congr 1
  funext snapshot
  cases snapshot.latestCheckpoint? with
  | none => simp [removeAll]
  | some latest => simp [removeAll_append]

theorem leaves_collect (journal : Journal) (medium : Medium σ) :
    journal.collect.leaves medium = (journal.plan >>= removeAll).leaves medium := by
  rw [plan_bind_removeAll, Action.leaves_map]

/-- A removal takes a file away or finds it gone; one that fails leaves the files alone. -/
theorem ensures_remove (path : String) (medium : Medium Memory) :
    (remove path).Ensures medium
      (fun _ after => Quieter medium after ∧
        (after.storage.files = medium.storage.files.erase path ∨
          after.storage.files = medium.storage.files ∧
            medium.storage.files.contains path = false))
      (fun _ after => Foiled medium after) := by
  rw [remove, Action.ensures_bind, Action.ensures_attempt]
  refine (Medium.ensures_delete path medium).mono ?_ ?_
  · rintro _ after ⟨hquieter, hfiles⟩
    exact ⟨hquieter, .inl hfiles⟩
  · rintro e after (⟨hfoiled, hne⟩ | ⟨hkeeps, rfl, habsent⟩)
    · cases e with
      | notFound other => exact absurd rfl (hne other)
      | _ => exact hfoiled
    · exact ⟨hkeeps.toQuieter, .inr ⟨hkeeps.files_eq, habsent⟩⟩

end Journal

namespace Account

variable {account account' account'' : Account} {files : PathMap Bytes} {segment : Segment}
  {complete : List Segment} {current : Option Segment} {medium : Medium Memory} {a : Nat}

/-! ### What is redundant -/

/-- The segment is a log that a checkpoint reaches past, or a checkpoint that another one does. -/
def Redundant (account : Account) (segment : Segment) : Prop :=
  account.journal.Places segment ∧
    (segment.kind = .log ∧ segment.stop ≠ unknownStop ∧ segment.stop.toNat ≤ account.reach ∨
      segment.kind = .checkpoint ∧ segment.stop.toNat < account.reach)

/-- What is redundant stays so. -/
theorem Redundant.mono (h : account.Redundant segment)
    (hjournal : account'.journal = account.journal) (hreach : account.reach ≤ account'.reach) :
    account'.Redundant segment := by
  obtain ⟨hplaces, hredundant⟩ := h
  refine ⟨hjournal ▸ hplaces, hredundant.imp ?_ ?_⟩
  · rintro ⟨hkind, hstop, hle⟩
    exact ⟨hkind, hstop, Nat.le_trans hle hreach⟩
  · rintro ⟨hkind, hlt⟩
    exact ⟨hkind, Nat.lt_of_lt_of_le hlt hreach⟩

/-- A pass decides to remove only what is redundant, and where checkpoints reach as far as the logs,
the logs before anything else. -/
theorem Archive.ensures_plan (h : account.Archive medium.storage.files complete current a)
    (htame : medium.Tame) :
    account.journal.plan.Ensures medium
      (fun segments after => (∀ segment ∈ segments, account.Redundant segment) ∧
        (0 < account.reach → a ≤ account.reach → complete <+: segments) ∧ Keeps medium after)
      (fun _ after => Foiled medium after) := by
  rw [Journal.plan, Action.ensures_bind]
  refine (Journal.ensures_snapshot h.lists htame.honest).mono ?_ (fun _ _ hfailed => hfailed.2)
  rintro _ after ⟨rfl, hkeeps⟩
  rcases account.latestCheckpoint?_cases
    (show (⟨account.checkpoints, complete, current⟩ : Snapshot).checkpoints = _ from rfl) with
    ⟨hlatest, hreach⟩ | ⟨latest, hlatest, hmem, hreach⟩
  · rw [hlatest]
    exact ⟨fun _ hnone => (by cases hnone), fun hpos => absurd hreach (Nat.ne_of_gt hpos), hkeeps⟩
  · rw [hlatest]
    refine ⟨?_, ?_, hkeeps⟩
    · intro segment hsegment
      rcases List.mem_append.1 hsegment with hlog | hcheckpoint
      · obtain ⟨hlog, hle⟩ := List.mem_filter.1 hlog
        obtain ⟨hhas, hstop⟩ := h.has_of_mem hlog
        have hle := UInt64.le_iff_toNat_le.1 (of_decide_eq_true hle)
        exact ⟨hhas.places, .inl ⟨hhas.kind_eq, hstop, hreach ▸ hle⟩⟩
      · obtain ⟨hcheckpoint, hne⟩ := List.mem_filter.1 hcheckpoint
        have hne : segment ≠ latest := of_decide_eq_true hne
        have hhas := (h.lists.mem_checkpoints segment).1 hcheckpoint
        have hle := account.stop_le segment hcheckpoint
        -- All checkpoints start at zero, so another one that stopped there would be the latest.
        have hstop : segment.stop.toNat ≠ latest.stop.toNat := by
          intro heq
          apply hne
          rw [account.placed segment hcheckpoint, account.placed latest hmem,
            UInt64.toNat_inj.1 heq]
        exact ⟨hhas.places, .inr ⟨hhas.kind_eq, by omega⟩⟩
    · intro _ hall
      have hlogs : (⟨account.checkpoints, complete, current⟩ : Snapshot).redundantLogs latest =
          complete := by
        refine List.filter_eq_self.2 fun log hlog => decide_eq_true ?_
        rw [UInt64.le_iff_toNat_le, hreach]
        exact Nat.le_trans (h.stop_le hlog) hall
      rw [hlogs]
      exact List.prefix_append _ _

/-! ### What a collector and its embedder change -/

/-- The accounts differ in their checkpoints only. -/
structure Akin (account account' : Account) : Prop where
  /-- It is the same journal. -/
  journal_eq : account'.journal = account.journal
  /-- It has the same entries. -/
  ledger_eq : account'.ledger = account.ledger
  /-- Its logs lead on from the same number. -/
  base_eq : account'.base = account.base
  /-- The same logs may hold anything. -/
  trusted_eq : account'.trusted = account.trusted

theorem Akin.refl (account : Account) : account.Akin account := ⟨rfl, rfl, rfl, rfl⟩

theorem Akin.trans (h : account.Akin account') (h' : account'.Akin account'') :
    account.Akin account'' :=
  ⟨h'.1.trans h.1, h'.2.trans h.2, h'.3.trans h.3, h'.4.trans h.4⟩

/-- The removal of what is redundant keeps the files as they should be. -/
theorem Redundant.follows (h : account.Redundant segment) (files : PathMap Bytes) :
    ∃ account', account.Akin account' ∧ account'.reach = account.reach ∧
      account.Follows account' files (files.erase segment.location) := by
  obtain ⟨hplaces, hredundant⟩ := h
  -- No incomplete log is at the location of a segment that is no such log.
  have hget (log : Segment) (hlog : account.journal.Places log) (hne : segment ≠ log) :
      (files.erase segment.location).get? log.location = files.get? log.location := by
    rw [PathMap.get?_erase, if_neg]
    exact fun hlocation => hne (hplaces.eq_of_location hlog hlocation)
  rcases hredundant with ⟨hkind, hstop, hle⟩ | ⟨hkind, hlt⟩
  · refine ⟨account, .refl account, rfl, rfl, rfl, ?_, ?_⟩
    · exact fun current a hstands => hstands.erase_log hplaces hkind hstop hle
    · intro log hlog _ hlogStop
      exact hget log hlog fun heq => hstop (heq ▸ hlogStop)
  · refine ⟨account.without segment hlt, ⟨rfl, rfl, rfl, rfl⟩, rfl, rfl, rfl, ?_, ?_⟩
    · exact fun current a hstands => hstands.erase_checkpoint hplaces hkind hlt
    · intro log hlog hlogKind _
      refine hget log hlog ?_
      intro heq
      rw [heq, hlogKind] at hkind
      cases hkind

/-- So does the step of a pass that removes it, and one that fails has changed nothing. -/
theorem Redundant.ensures_remove (h : account.Redundant segment) (medium : Medium Memory) :
    (Journal.remove segment.location).Ensures medium
      (fun _ after => Quieter medium after ∧ ∃ account', account.Akin account' ∧
        account'.reach = account.reach ∧
        account.Follows account' medium.storage.files after.storage.files)
      (fun _ after => Foiled medium after) := by
  refine (Journal.ensures_remove segment.location medium).mono ?_ (fun _ _ hfoiled => hfoiled)
  rintro _ after ⟨hquieter, hfiles | ⟨hfiles, -⟩⟩
  · rw [hfiles]
    exact ⟨hquieter, h.follows _⟩
  · rw [hfiles]
    exact ⟨hquieter, account, .refl account, rfl, .refl account _⟩

/-- A checkpoint that is put in place keeps the files as they should be, and reaches so far. -/
theorem Stands.follows_place {stop : UInt64} (h : account.Stands files current a)
    (hstop : stop ≤ unknownStop) (image : Bytes) :
    ∃ account', account.Akin account' ∧ account'.reach = max account.reach stop.toNat ∧
      account.Follows account' files
        (files.insert (account.journal.checkpoint 0 stop).location image) := by
  obtain ⟨complete, harchive⟩ := h
  have hplaces := account.journal.places_checkpoint
    (show (0 : UInt64) ≤ stop from UInt64.le_iff_toNat_le.2 (Nat.zero_le _)) hstop
  obtain ⟨checkpoints, hsorted, hmem⟩ := harchive.lists.exists_checkpoints hplaces rfl
  refine ⟨account.including stop checkpoints hmem, ⟨rfl, rfl, rfl, rfl⟩, rfl, rfl, rfl, ?_, ?_⟩
  · exact fun current a hstands => hstands.place hstop hsorted hmem
  · intro log hlog hkind _
    rw [PathMap.get?_insert, if_neg]
    intro hlocation
    rw [← hplaces.eq_of_location hlog hlocation] at hkind
    cases hkind

end Account

end SegmentedJournal
