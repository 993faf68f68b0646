import SegmentedJournal.Proofs.Streams
/-!
# The frontier and what is done there

Where the files are durable (`Account.Durable`), a probe finds the end of what they hold, or of
what the checkpoints reach if the current log holds nothing (`Durable.ensures_probe`,
`Account.frontier`).  Sealing the current log there and completing it at its end are one change of
the files (`Account.sealed`, `Durable.ensures_sealAt`, `Durable.ensures_complete`), after which
nothing is open and the next log can start (`Durable.stands_sealed`).

A step that fails has left the files alone, so that it can be tried again, and its error is not
fatal.
-/

namespace SegmentedJournal

open Medium (Foiled Keeps Quieter)

/-! ### Numbers that may be absent -/

/-- The last number below another. -/
def before? (n : Nat) : Option UInt64 :=
  if n = 0 then none else some (UInt64.ofNat (n - 1))

theorem before?_of_lt {a m : Nat} (h : a < m) : before? m = some (UInt64.ofNat (m - 1)) :=
  if_neg (by omega)

theorem ensures_successor_ofNat {ε σ : Type} {n : Nat} (hn : n + 1 < UInt64.size) (s : σ)
    (Q : UInt64 → σ → Prop) (E : ε → σ → Prop) :
    (Action.successor (UInt64.ofNat n) : Action ε σ UInt64).Ensures s Q E ↔
      Q (UInt64.ofNat (n + 1)) s := by
  have hself : (UInt64.ofNat n).toNat = n := UInt64.toNat_ofNat_of_lt (by omega)
  rw [Action.ensures_successor (by omega), Action.ofNat_add_one]

theorem ensures_successor_pred {ε σ : Type} {n : Nat} (hpos : 0 < n)
    (hn : n < UInt64.size) (s : σ) (Q : UInt64 → σ → Prop) (E : ε → σ → Prop) :
    (Action.successor (UInt64.ofNat (n - 1)) : Action ε σ UInt64).Ensures s Q E ↔
      Q (UInt64.ofNat n) s := by
  rw [ensures_successor_ofNat (by omega), Nat.sub_add_cancel hpos]

namespace Frontier

theorem lastNamed?_eq (segment : Segment) : lastNamed? segment = before? segment.stop.toNat := by
  unfold lastNamed? before?
  by_cases h : segment.stop = 0
  · rw [if_pos h, if_pos (by rw [h]; rfl)]
  · have hne : segment.stop.toNat ≠ 0 := fun heq => h (UInt64.toNat_inj.1 heq)
    have hlt := segment.stop.toNat_lt
    rw [if_neg h, if_neg hne]
    congr 1
    have hone : (1 : UInt64) ≤ segment.stop :=
      UInt64.le_iff_toNat_le.2 (show (1 : UInt64).toNat ≤ segment.stop.toNat by
        simp only [UInt64.reduceToNat]
        omega)
    rw [← UInt64.toNat_inj, UInt64.toNat_sub_of_le _ _ hone]
    exact (UInt64.toNat_ofNat_of_lt (show segment.stop.toNat - 1 < 18446744073709551616 by
      omega)).symm

theorem greater?_before? {x y : Nat} (hx : x < unknownStop.toNat) (hy : y < unknownStop.toNat) :
    greater? (before? x) (before? y) = before? (max x y) := by
  unfold before?
  by_cases hx0 : x = 0
  · subst hx0
    simp [greater?]
  · by_cases hy0 : y = 0
    · subst hy0
      simp [greater?, hx0]
    · rw [if_neg hx0, if_neg hy0, if_neg (by omega)]
      show some (if UInt64.ofNat (x - 1) ≤ UInt64.ofNat (y - 1) then _ else _) = _
      have hle : UInt64.ofNat (x - 1) ≤ UInt64.ofNat (y - 1) ↔ x ≤ y := by
        rw [UInt64.le_iff_toNat_le, Account.toNat_ofNat_of_bound (by omega),
          Account.toNat_ofNat_of_bound (by omega)]
        omega
      by_cases hxy : x ≤ y
      · rw [if_pos (hle.2 hxy), Nat.max_eq_right hxy]
      · rw [if_neg (fun h => hxy (hle.1 h)), Nat.max_eq_left (by omega)]

/-- Where complete logs end, and another number, together. -/
theorem greater?_lastLog? {snapshot : Snapshot} {n : Nat}
    (hend : (endOf snapshot.logs).toNat < unknownStop.toNat) (hn : n < unknownStop.toNat) :
    greater? (snapshot.lastLog?.bind lastNamed?) (before? n) =
      before? (max (endOf snapshot.logs).toNat n) := by
  rw [Snapshot.lastLog?]
  rw [endOf] at hend ⊢
  cases hlast : snapshot.logs.getLast? with
  | none =>
      rw [Option.elim_none, Option.bind_none, UInt64.toNat_zero, Nat.zero_max]
      cases before? n <;> rfl
  | some last =>
      rw [hlast, Option.elim_some] at hend
      rw [Option.elim_some, Option.bind_some, lastNamed?_eq, greater?_before? hend hn]

/-- The next number is behind the last one that is durable. -/
theorem ensures_next {ε σ : Type} {frontier : Frontier} {n : Nat}
    (h : frontier.lastPersisted = before? n) (hn : n < UInt64.size) (s : σ)
    (Q : UInt64 → σ → Prop) (E : ε → σ → Prop) :
    (frontier.next : Action ε σ UInt64).Ensures s Q E ↔ Q (UInt64.ofNat n) s := by
  unfold next
  rw [h, before?]
  by_cases hzero : n = 0
  · subst hzero
    exact Iff.rfl
  · rw [if_neg hzero]
    exact ensures_successor_pred (Nat.pos_of_ne_zero hzero) hn s Q E

end Frontier

/-! ### The latest checkpoint -/

namespace Snapshot

/-- Of a checkpoint that may be absent and another, the one that reaches further. -/
def further (latest : Option Segment) (checkpoint : Segment) : Option Segment :=
  match latest with
  | none => some checkpoint
  | some known => if reachesBeyond known checkpoint then some known else some checkpoint

theorem latestCheckpoint?_eq (snapshot : Snapshot) :
    snapshot.latestCheckpoint? = snapshot.checkpoints.foldl further none := rfl

theorem stop_le_of_not_reachesBeyond {a b : Segment} (h : reachesBeyond a b = false) :
    a.stop ≤ b.stop := by
  simp only [reachesBeyond, Bool.or_eq_false_iff, decide_eq_false_iff_not, UInt64.not_lt] at h
  exact h.1

theorem stop_le_of_reachesBeyond {a b : Segment} (h : reachesBeyond a b = true) :
    b.stop ≤ a.stop := by
  simp only [reachesBeyond, Bool.or_eq_true, Bool.and_eq_true, decide_eq_true_eq] at h
  rcases h with hlt | ⟨heq, -⟩
  · exact UInt64.le_of_lt hlt
  · exact heq ▸ UInt64.le_refl _

/-- Of two checkpoints one is taken, and neither reaches further. -/
theorem exists_further (known checkpoint : Segment) :
    ∃ chosen, further (some known) checkpoint = some chosen ∧
      (chosen = known ∨ chosen = checkpoint) ∧ known.stop ≤ chosen.stop ∧
      checkpoint.stop ≤ chosen.stop := by
  cases hbeyond : reachesBeyond known checkpoint with
  | true =>
      exact ⟨known, if_pos hbeyond, .inl rfl, UInt64.le_refl _, stop_le_of_reachesBeyond hbeyond⟩
  | false =>
      exact ⟨checkpoint, if_neg (hbeyond ▸ Bool.false_ne_true), .inr rfl,
        stop_le_of_not_reachesBeyond hbeyond, UInt64.le_refl _⟩

theorem foldl_further (checkpoints : List Segment) (known : Segment) :
    ∃ latest, checkpoints.foldl further (some known) = some latest ∧
      (latest = known ∨ latest ∈ checkpoints) ∧ known.stop ≤ latest.stop ∧
      ∀ checkpoint ∈ checkpoints, checkpoint.stop ≤ latest.stop := by
  induction checkpoints generalizing known with
  | nil => exact ⟨known, rfl, .inl rfl, UInt64.le_refl _, fun _ h => (by cases h)⟩
  | cons checkpoint checkpoints ih =>
      obtain ⟨chosen, hfurther, hchosen, hknown, hcheckpoint⟩ := exists_further known checkpoint
      obtain ⟨latest, hfold, hmem, hle, hrest⟩ := ih chosen
      refine ⟨latest, by rw [List.foldl_cons, hfurther, hfold], ?_,
        UInt64.le_trans hknown hle, ?_⟩
      · rcases hmem with rfl | hmem
        · rcases hchosen with rfl | rfl
          · exact .inl rfl
          · exact .inr List.mem_cons_self
        · exact .inr (List.mem_cons_of_mem _ hmem)
      · intro other hother
        rcases List.mem_cons.1 hother with rfl | hother
        · exact UInt64.le_trans hcheckpoint hle
        · exact hrest other hother

/-- The latest checkpoint is one of them, and none reaches further. -/
theorem latestCheckpoint?_of_ne_nil {snapshot : Snapshot} (h : snapshot.checkpoints ≠ []) :
    ∃ latest, snapshot.latestCheckpoint? = some latest ∧ latest ∈ snapshot.checkpoints ∧
      ∀ checkpoint ∈ snapshot.checkpoints, checkpoint.stop ≤ latest.stop := by
  rw [latestCheckpoint?_eq]
  cases hcheckpoints : snapshot.checkpoints with
  | nil => exact absurd hcheckpoints h
  | cons first checkpoints =>
      obtain ⟨latest, hfold, hmem, hle, hrest⟩ := foldl_further checkpoints first
      refine ⟨latest, hfold, ?_, ?_⟩
      · rcases hmem with rfl | hmem
        · exact List.mem_cons_self
        · exact List.mem_cons_of_mem _ hmem
      · intro checkpoint hcheckpoint
        rcases List.mem_cons.1 hcheckpoint with rfl | hcheckpoint
        · exact hle
        · exact hrest checkpoint hcheckpoint

end Snapshot

namespace Journal

variable {journal : Journal} {checkpoints complete : List Segment} {current : Option Segment}
  {medium : Medium Memory}

/-- The segments that a listing finds are those of the files. -/
theorem ensures_listSegments (journal : Journal) (kind : SegmentKind) (hhonest : medium.Honest) :
    (journal.listSegments kind).Ensures medium
      (fun segments after => segments = journal.segmentsIn kind medium.storage.files ∧
        Keeps medium after)
      (fun e after => e.isFatal = false ∧ Foiled medium after) := by
  rw [listSegments, Action.ensures_bind, listDir, Action.ensures_mapError]
  refine (Medium.ensures_list _ medium hhonest).mono ?_ (fun _ _ h => ⟨rfl, h⟩)
  rintro names after ⟨rfl, -, hkeeps⟩
  exact ⟨rfl, hkeeps⟩

/-- What is left of a snapshot once the checkpoints are listed. -/
def snapshotFrom {σ η : Type} [Storage σ η] (journal : Journal) (checkpoints : List Segment) :
    Action JournalError (Medium σ) Snapshot := do
  let logs ← journal.listSegments .log
  let snapshot ← Action.ofExcept (Snapshot.ofSegments journal.location checkpoints logs)
  unless snapshot.isContiguous do Medium.warn .notContiguous
  return snapshot

theorem snapshot_eq {σ η : Type} [Storage σ η] (journal : Journal) :
    (journal.snapshot : Action JournalError (Medium σ) Snapshot) =
      journal.listSegments .checkpoint >>= journal.snapshotFrom := rfl

/-- The logs are those of the files, whichever checkpoints were listed before. -/
theorem ensures_snapshotFrom (journal : Journal) (checkpoints : List Segment)
    (hhonest : medium.Honest) :
    (journal.snapshotFrom checkpoints).Ensures medium
      (fun snapshot after => Snapshot.ofSegments journal.location checkpoints
        (journal.segmentsIn .log medium.storage.files) = .ok snapshot ∧ Keeps medium after)
      (fun e after => Snapshot.ofSegments journal.location checkpoints
        (journal.segmentsIn .log medium.storage.files) = .error e ∧ Keeps medium after ∨
          e.isFatal = false ∧ Foiled medium after) := by
  rw [snapshotFrom, Action.ensures_bind]
  refine (ensures_listSegments journal .log hhonest).mono ?_ (fun _ _ hfoiled => .inr hfoiled)
  rintro _ after ⟨rfl, hkeeps⟩
  rw [Action.ensures_bind, Action.ensures_ofExcept]
  refine ⟨?_, fun _ herror => .inl ⟨herror, hkeeps⟩⟩
  intro found hfound
  dsimp only
  rw [Action.ensures_ite]
  refine ⟨fun _ => ⟨hfound, hkeeps⟩, ?_⟩
  intro _
  rw [Action.ensures_bind, Medium.ensures_warn]
  exact ⟨hfound, hkeeps.trans (Medium.keeps_warnings _ _)⟩

/-- A snapshot is that of the files, unless a listing fails. -/
theorem ensures_snapshotOf (journal : Journal) (hhonest : medium.Honest) :
    journal.snapshot.Ensures medium
      (fun snapshot after => journal.snapshotOf medium.storage.files = .ok snapshot ∧
        Keeps medium after)
      (fun e after => journal.snapshotOf medium.storage.files = .error e ∧ Keeps medium after ∨
        e.isFatal = false ∧ Foiled medium after) := by
  rw [snapshot_eq, Action.ensures_bind]
  refine (ensures_listSegments journal .checkpoint hhonest).mono ?_ (fun _ _ h => .inr h)
  rintro _ middle ⟨rfl, hkeeps⟩
  refine (ensures_snapshotFrom journal _ (hkeeps.toQuieter.honest hhonest)).mono ?_ ?_
  · rintro found after ⟨hfound, hkeeps'⟩
    rw [hkeeps.files_eq] at hfound
    exact ⟨hfound, hkeeps.trans hkeeps'⟩
  · rintro e after (⟨herror, hkeeps'⟩ | hfoiled)
    · rw [hkeeps.files_eq] at herror
      exact .inl ⟨herror, hkeeps.trans hkeeps'⟩
    · exact .inr ⟨hfoiled.1, hkeeps.foiled hfoiled.2⟩

theorem ensures_snapshot (h : journal.Lists medium.storage.files checkpoints complete current)
    (hhonest : medium.Honest) :
    journal.snapshot.Ensures medium
      (fun snapshot after => snapshot = ⟨checkpoints, complete, current⟩ ∧ Keeps medium after)
      (fun e after => e.isFatal = false ∧ Foiled medium after) := by
  refine (ensures_snapshotOf journal hhonest).mono ?_ ?_
  · rintro found after ⟨hfound, hkeeps⟩
    exact ⟨Except.ok.inj (hfound.symm.trans h.snapshotOf_eq), hkeeps⟩
  · rintro e after (⟨herror, -⟩ | hfoiled)
    · rw [h.snapshotOf_eq] at herror
      cases herror
    · exact hfoiled

end Journal

namespace SegmentReader

variable {segment : Segment} {contents : Bytes} {medium : Medium Memory}

/-- A segment whose file is there can be opened. -/
theorem ensures_load (h : medium.storage.files.get? segment.location = some contents) :
    (load segment).Ensures medium
      (fun reader after => reader = { segment, rest := contents } ∧ Keeps medium after)
      (fun e after => e.isFatal = false ∧ Foiled medium after) := by
  rw [load, Action.ensures_bind, Action.ensures_mapError]
  refine (Medium.ensures_openRead medium h).mono ?_ (fun _ _ h => ⟨rfl, h⟩)
  rintro result after (⟨rfl, hkeeps⟩ | ⟨⟨error, rfl⟩, hfoiled⟩)
  · exact ⟨rfl, hkeeps⟩
  · exact ⟨rfl, hfoiled⟩

/-- The greatest number in the frames of a run is its last one's. -/
theorem greatest?_entries {ledger : Ledger} {reader : SegmentReader} {a m : Nat} {tail : Bytes}
    (hfits : ∀ entry ∈ ledger.entries a m, entry.Fits) (hm : m < UInt64.size)
    (htail : ∃ error, Frame.decode tail = .error error)
    (hrest : reader.rest = ledger.frames a m ++ tail) :
    reader.greatest? = if a < m then before? m else none := by
  rw [greatest?, greatestFrom_encodeAll hfits htail hrest]
  split
  · next hlt =>
    obtain ⟨last, rfl⟩ := Nat.exists_eq_succ_of_ne_zero (Nat.ne_of_gt (Nat.zero_lt_of_lt hlt))
    rw [before?_of_lt hlt]
    exact Ledger.foldl_greater (Nat.le_of_lt_succ hlt) hm
  · next hle =>
    rw [Ledger.entries_of_le (Nat.not_lt.1 hle)]
    rfl

theorem greatest?_frames {ledger : Ledger} {reader : SegmentReader} {a m : Nat} {tail : Bytes}
    (hfits : ledger.Fits) (hm : m < UInt64.size) (htail : ∃ error, Frame.decode tail = .error error)
    (hrest : reader.rest = ledger.frames a m ++ tail) :
    reader.greatest? = if a < m then before? m else none :=
  greatest?_entries (fun _ hentry => Ledger.fits_of_mem hfits hentry) hm htail hrest

end SegmentReader

namespace Journal

variable {journal : Journal} {files : PathMap Bytes} {snapshot : Snapshot} {log : Segment}
  {contents : Bytes} {medium : Medium Memory}

/-- Where durable data end, as the files say. -/
def frontierOf (journal : Journal) (files : PathMap Bytes) : Except JournalError Frontier := do
  let snapshot ← journal.snapshotOf files
  return .ofSnapshot snapshot (snapshot.current.bind fun log =>
    SegmentReader.greatest? { segment := log, rest := (files.get? log.location).getD [] })

theorem frontierOf_of_none (h : journal.snapshotOf files = .ok snapshot)
    (hcurrent : snapshot.current = none) :
    journal.frontierOf files = .ok (.ofSnapshot snapshot none) := by
  rw [frontierOf, h]
  show Except.ok _ = _
  rw [hcurrent, Option.bind_none]

theorem frontierOf_of_some (h : journal.snapshotOf files = .ok snapshot)
    (hcurrent : snapshot.current = some log) (hget : files.get? log.location = some contents) :
    journal.frontierOf files = .ok (.ofSnapshot snapshot
      (SegmentReader.greatest? { segment := log, rest := contents })) := by
  rw [frontierOf, h]
  show Except.ok _ = _
  rw [hcurrent, Option.bind_some, hget, Option.getD_some]

/-- A probe finds what the files say, unless a call fails. -/
theorem ensures_probe (journal : Journal) (hhonest : medium.Honest) :
    journal.probe.Ensures medium
      (fun frontier after => journal.frontierOf medium.storage.files = .ok frontier ∧
        Keeps medium after)
      (fun e after => journal.frontierOf medium.storage.files = .error e ∧ Keeps medium after ∨
        e.isFatal = false ∧ Foiled medium after) := by
  rw [probe, Action.ensures_bind]
  refine (ensures_snapshotOf journal hhonest).mono ?_ ?_
  · rintro ⟨checkpoints, complete, current⟩ after ⟨hsnapshot, hkeeps⟩
    cases current with
    | none => exact ⟨frontierOf_of_none hsnapshot rfl, hkeeps⟩
    | some log =>
        obtain ⟨hhas, -⟩ := (lists_of_snapshotOf_eq hsnapshot).has_current
        obtain ⟨contents, hget⟩ := Option.isSome_iff_exists.1 hhas.present
        have hfrontier := frontierOf_of_some hsnapshot rfl hget
        rw [← hkeeps.files_eq] at hget
        simp only [scan, Action.ensures_bind]
        refine (SegmentReader.ensures_load hget).mono ?_
          (fun _ _ hfoiled => .inr ⟨hfoiled.1, hkeeps.foiled hfoiled.2⟩)
        rintro _ last ⟨rfl, hkeeps'⟩
        exact ⟨hfrontier, hkeeps.trans hkeeps'⟩
  · rintro e after (⟨herror, hkeeps⟩ | hfoiled)
    · refine .inl ⟨?_, hkeeps⟩
      rw [frontierOf, herror]
      rfl
    · exact .inr hfoiled

/-- Completing a log without entries removes it. -/
theorem ensures_complete_empty (journal : Journal)
    (hpresent : medium.storage.files.contains log.location = true) :
    (journal.complete log log.start).Ensures medium
      (fun _ after => Quieter medium after ∧
        after.storage.files = medium.storage.files.erase log.location)
      (fun e after => (∃ path source, e = .medium path source) ∧ Foiled medium after) := by
  unfold complete
  rw [if_neg (UInt64.lt_irrefl _), if_pos rfl]
  simp only [Action.ensures_bind, discardEmpty, isPresent, Action.ensures_mapError]
  refine (Medium.ensures_isPresent _ medium).mono ?_ (fun _ _ h => ⟨⟨_, _, rfl⟩, h⟩)
  rintro present middle ⟨rfl, hkeeps⟩
  rw [if_pos hpresent, Action.ensures_mapError]
  rw [← hkeeps.files_eq] at hpresent
  refine (Medium.ensures_delete_of_present middle hpresent).mono ?_
    (fun _ _ hfoiled => ⟨⟨_, _, rfl⟩, hkeeps.foiled hfoiled⟩)
  rintro _ after ⟨hquieter, hfiles⟩
  rw [hkeeps.files_eq] at hfiles
  exact ⟨hkeeps.toQuieter.trans hquieter, hfiles⟩

end Journal

namespace Account

variable {account : Account} {files : PathMap Bytes} {complete : List Segment}
  {current : Option Segment} {log : Segment} {a m : Nat} {medium middle : Medium Memory}

/-! ### Probing -/

/-- The latest checkpoint reaches as far as they all, and without one nothing is reached. -/
theorem latestCheckpoint?_cases (account : Account) {snapshot : Snapshot}
    (h : snapshot.checkpoints = account.checkpoints) :
    snapshot.latestCheckpoint? = none ∧ account.reach = 0 ∨
      ∃ latest, snapshot.latestCheckpoint? = some latest ∧ latest ∈ account.checkpoints ∧
        latest.stop.toNat = account.reach := by
  by_cases hnil : snapshot.checkpoints = []
  · refine .inl ⟨?_, ?_⟩
    · rw [Snapshot.latestCheckpoint?_eq, hnil]
      rfl
    · rcases account.attained with hzero | ⟨checkpoint, hcheckpoint, -⟩
      · exact hzero
      · rw [← h, hnil] at hcheckpoint
        cases hcheckpoint
  · obtain ⟨latest, hlatest, hmem, hmax⟩ := Snapshot.latestCheckpoint?_of_ne_nil hnil
    rw [h] at hmem hmax
    have hle := account.stop_le latest hmem
    refine .inr ⟨latest, hlatest, hmem, ?_⟩
    rcases account.attained with hzero | ⟨checkpoint, hcheckpoint, hstop⟩
    · omega
    · have hle' := UInt64.le_iff_toNat_le.1 (hmax checkpoint hcheckpoint)
      omega

theorem latestCheckpoint?_bind {snapshot : Snapshot}
    (h : snapshot.checkpoints = account.checkpoints) :
    snapshot.latestCheckpoint?.bind Frontier.lastNamed? = before? account.reach := by
  rcases account.latestCheckpoint?_cases h with ⟨hnone, hreach⟩ | ⟨latest, hlatest, -, hreach⟩
  · rw [hnone, hreach]
    rfl
  · rw [hlatest, Option.bind_some, Frontier.lastNamed?_eq, hreach]

/-- Where complete logs and checkpoints end together. -/
theorem Archive.greater?_eq (h : account.Archive files complete current a) (snapshot : Snapshot)
    (hcheckpoints : snapshot.checkpoints = account.checkpoints) (hlogs : snapshot.logs = complete)
    (hreach : account.reach < unknownStop.toNat) :
    Frontier.greater? (snapshot.lastLog?.bind Frontier.lastNamed?)
      (snapshot.latestCheckpoint?.bind Frontier.lastNamed?) =
        before? (max a account.reach) := by
  have hend := h.endOf_le
  rw [latestCheckpoint?_bind hcheckpoints, Frontier.greater?_lastLog?
    (hlogs ▸ Nat.lt_of_le_of_lt hend h.bound) hreach, hlogs]
  congr 1
  by_cases hlt : account.reach < a
  · rw [h.endOf_eq_of_lt hlt]
  · omega

/-- Where durable data ends: behind the entries of the current log, or, if it has none, where the
chain ends and the checkpoints reach. -/
def frontier (account : Account) (a m : Nat) : Nat :=
  if a < m then m else max a account.reach

theorem frontier_of_reach_eq_zero (h : account.reach = 0) (ham : a ≤ m) :
    account.frontier a m = m := by
  unfold frontier
  split <;> omega

namespace Durable

/-- The frontier of durable files. -/
theorem frontierOf_eq (h : account.Durable files current a m) (hm : m < unknownStop.toNat)
    (hreach : account.reach < unknownStop.toNat) :
    account.journal.frontierOf files = .ok
      { incomplete := current
        lastInIncomplete := if a < m then before? m else none
        lastPersisted := before? (account.frontier a m) } := by
  obtain ⟨complete, harchive⟩ := h.stands
  have hgreater := harchive.greater?_eq ⟨account.checkpoints, complete, current⟩ rfl rfl hreach
  cases current with
  | none =>
      have hlt : ¬ a < m := Nat.not_lt.2 (Nat.le_of_eq (h.absent rfl))
      rw [Journal.frontierOf_of_none harchive.lists.snapshotOf_eq rfl, Frontier.ofSnapshot,
        hgreater, frontier, if_neg hlt, if_neg hlt, Option.none_or]
  | some log =>
      obtain ⟨tail, htail, hget⟩ := h.present log rfl
      rw [Journal.frontierOf_of_some harchive.lists.snapshotOf_eq rfl hget,
        SegmentReader.greatest?_frames account.fits (Nat.lt_trans hm (by decide))
          (Frame.decode_of_torn htail) rfl, Frontier.ofSnapshot, hgreater, frontier]
      split
      · next hlt => rw [before?_of_lt hlt, Option.some_or]
      · rfl

/-- A probe finds the frontier and changes nothing. -/
theorem ensures_probe (h : account.Durable medium.storage.files current a m)
    (hm : m < unknownStop.toNat) (hreach : account.reach < unknownStop.toNat)
    (hhonest : medium.Honest) :
    account.journal.probe.Ensures medium
      (fun frontier after => frontier.incomplete = current ∧
        frontier.lastInIncomplete = (if a < m then before? m else none) ∧
        frontier.lastPersisted = before? (account.frontier a m) ∧ Keeps medium after)
      (fun e after => e.isFatal = false ∧ Foiled medium after) := by
  refine (Journal.ensures_probe account.journal hhonest).mono ?_ ?_
  · rintro frontier after ⟨hfrontier, hkeeps⟩
    rw [h.frontierOf_eq hm hreach] at hfrontier
    cases hfrontier
    exact ⟨rfl, rfl, rfl, hkeeps⟩
  · rintro e after (⟨herror, -⟩ | hfoiled)
    · rw [h.frontierOf_eq hm hreach] at herror
      cases herror
    · exact hfoiled

end Durable

/-! ### Sealing and completing -/

/-- The files once the current log is completed at `m`, or removed if it ends where it starts. -/
def sealed (account : Account) (files : PathMap Bytes) (current : Option Segment) (a m : Nat) :
    PathMap Bytes :=
  match current with
  | none => files
  | some log =>
    if a < m then
      (files.erase log.location).insert (account.logOf a m).location
        ((files.get? log.location).getD [])
    else files.erase log.location

namespace Durable

/-- Behind what was sealed the next log can start. -/
theorem stands_sealed (h : account.Durable files current a m) (hm : m < unknownStop.toNat) :
    account.Stands (account.sealed files current a m) none m := by
  cases current with
  | none =>
      rw [h.absent rfl]
      exact h.stands
  | some log =>
      obtain ⟨tail, -, hget⟩ := h.present log rfl
      unfold sealed
      dsimp only
      split
      · next hlt =>
        rw [hget]
        exact h.stands.completed hlt hm tail
      · next hle =>
        obtain rfl : a = m := Nat.le_antisymm h.le (Nat.not_lt.1 hle)
        exact h.stands.discard

/-- The next log can start at the frontier, too. -/
theorem stands_frontier (h : account.Durable files current a m) (hm : m < unknownStop.toNat)
    (hreach : account.reach < unknownStop.toNat) :
    account.Stands (account.sealed files current a m) none (account.frontier a m) := by
  have hstands := h.stands_sealed hm
  have hle := h.le
  unfold frontier
  split
  · exact hstands
  · obtain rfl : a = m := by omega
    rcases Nat.le_total account.reach a with hra | har
    · rwa [Nat.max_eq_left hra]
    · rw [Nat.max_eq_right har]
      exact hstands.skip har (Nat.le_refl _) hreach

/-! Sealing and completing look at the files first, and change them in one step. -/

/-- The current log gets the name of what it covers. -/
theorem ensures_rename (h : account.Durable medium.storage.files (some log) a m) (hlt : a < m)
    (hm : m < unknownStop.toNat) (hkeeps : Keeps medium middle) :
    (Medium.rename log.location (account.logOf a m).location).Ensures middle
      (fun _ after => Quieter medium after ∧
        after.storage.files = account.sealed medium.storage.files (some log) a m)
      (fun _ after => Foiled medium after) := by
  obtain ⟨tail, -, hget⟩ := h.present log rfl
  have habsent := h.stands.absent_logOf hlt hm
  unfold sealed
  dsimp only
  rw [if_pos hlt, hget]
  rw [← hkeeps.files_eq] at hget habsent
  refine (Medium.ensures_rename middle hget habsent).mono ?_ (fun _ _ h => hkeeps.foiled h)
  rintro _ after ⟨hquieter, hfiles⟩
  rw [hkeeps.files_eq] at hfiles
  exact ⟨hkeeps.toQuieter.trans hquieter, hfiles⟩

/-- A current log without entries is removed. -/
theorem ensures_delete (h : account.Durable medium.storage.files (some log) a m) (hle : ¬ a < m)
    (hkeeps : Keeps medium middle) :
    (Medium.delete log.location).Ensures middle
      (fun _ after => Quieter medium after ∧
        after.storage.files = account.sealed medium.storage.files (some log) a m)
      (fun _ after => Foiled medium after) := by
  obtain ⟨hhas, -, -⟩ := h.stands.has_current
  have hpresent := hhas.present
  unfold sealed
  dsimp only
  rw [if_neg hle]
  rw [← hkeeps.files_eq] at hpresent
  refine (Medium.ensures_delete_of_present middle hpresent).mono ?_
    (fun _ _ h => hkeeps.foiled h)
  rintro _ after ⟨hquieter, hfiles⟩
  rw [hkeeps.files_eq] at hfiles
  exact ⟨hkeeps.toQuieter.trans hquieter, hfiles⟩

/-- The current log is sealed at the frontier. -/
theorem ensures_sealAt {frontier : Frontier}
    (h : account.Durable medium.storage.files current a m) (hm : m < unknownStop.toNat)
    (hincomplete : frontier.incomplete = current)
    (hlast : frontier.lastInIncomplete = if a < m then before? m else none) :
    (account.journal.sealAt frontier).Ensures medium
      (fun _ after => Quieter medium after ∧
        after.storage.files = account.sealed medium.storage.files current a m)
      (fun e after => e.isFatal = false ∧ Foiled medium after) := by
  unfold Journal.sealAt
  rw [hincomplete, hlast]
  cases current with
  | none => exact ⟨.refl medium, rfl⟩
  | some log =>
      obtain ⟨-, -, hstart⟩ := h.stands.has_current
      have hsize : m < UInt64.size := Nat.lt_trans hm (by decide)
      by_cases hlt : a < m
      · rw [if_pos hlt, before?_of_lt hlt]
        dsimp only
        rw [Action.ensures_bind, ensures_successor_pred (by omega) hsize, hstart,
          Action.ensures_bind, Action.ensures_mapError]
        refine (Medium.ensures_isPresent _ medium).mono ?_ (fun _ _ h => ⟨rfl, h⟩)
        rintro present middle ⟨hpresent, hkeeps⟩
        -- No file is in the way, so there is nothing to remove first.
        rw [show present = false from hpresent.trans (h.stands.absent_logOf hlt hm)]
        simp only [Bool.false_eq_true, if_false, Action.ensures_bind, Action.ensures_mapError]
        exact (h.ensures_rename hlt hm hkeeps).mono (fun _ _ h => h) (fun _ _ h => ⟨rfl, h⟩)
      · rw [if_neg hlt]
        simp only [Action.ensures_bind, Action.ensures_mapError]
        exact (h.ensures_delete hlt (.refl medium)).mono (fun _ _ h => h) (fun _ _ h => ⟨rfl, h⟩)

/-- A log with entries is completed at its end. -/
theorem ensures_complete_of_lt (h : account.Durable medium.storage.files (some log) a m)
    (hm : m < unknownStop.toNat) (hlt : a < m) :
    (account.journal.complete log (UInt64.ofNat m)).Ensures medium
      (fun _ after => Quieter medium after ∧
        after.storage.files = account.sealed medium.storage.files (some log) a m)
      (fun e after => (∃ path source, e = .medium path source) ∧ Foiled medium after) := by
  obtain ⟨hhas, -, hstart⟩ := h.stands.has_current
  have hcompleted : account.journal.log log.start (UInt64.ofNat m) = account.logOf a m := by
    rw [hstart]
    rfl
  have hnotBefore : ¬ UInt64.ofNat m < log.start := by
    rw [hstart]
    exact UInt64.not_lt.2 (ofNat_le_ofNat h.le hm)
  have hne : UInt64.ofNat m ≠ log.start := by
    rw [hstart]
    intro heq
    have hsame := congrArg UInt64.toNat heq
    rw [toNat_ofNat_of_bound hm, toNat_ofNat_of_bound h.stands.bound] at hsame
    omega
  unfold Journal.complete
  rw [if_neg hnotBefore, if_neg hne]
  simp only [Action.ensures_bind, Journal.isPresent, Action.ensures_mapError]
  refine (Medium.ensures_isPresent _ medium).mono ?_ (fun _ _ h => ⟨⟨_, _, rfl⟩, h⟩)
  rintro hasSource middle ⟨rfl, hkeeps⟩
  refine (Medium.ensures_isPresent _ middle).mono ?_
    (fun _ _ hfoiled => ⟨⟨_, _, rfl⟩, hkeeps.foiled hfoiled⟩)
  rintro hasTarget last ⟨rfl, hkeeps'⟩
  rw [hcompleted, if_pos hhas.present, hkeeps.files_eq, h.stands.absent_logOf hlt hm,
    if_neg Bool.false_ne_true]
  simp only [Action.ensures_bind, Action.ensures_mapError]
  exact (h.ensures_rename hlt hm (hkeeps.trans hkeeps')).mono (fun _ _ h => h)
    (fun _ _ h => ⟨⟨_, _, rfl⟩, h⟩)

/-- The current log is completed at its end. -/
theorem ensures_complete (h : account.Durable medium.storage.files (some log) a m)
    (hm : m < unknownStop.toNat) :
    (account.journal.complete log (UInt64.ofNat m)).Ensures medium
      (fun _ after => Quieter medium after ∧
        after.storage.files = account.sealed medium.storage.files (some log) a m)
      (fun e after => (∃ path source, e = .medium path source) ∧ Foiled medium after) := by
  by_cases hlt : a < m
  · exact h.ensures_complete_of_lt hm hlt
  -- The log ends where it starts, so that it has no entries.
  obtain rfl : a = m := Nat.le_antisymm h.le (Nat.not_lt.1 hlt)
  obtain ⟨hhas, -, hstart⟩ := h.stands.has_current
  unfold sealed
  dsimp only
  rw [← hstart, if_neg hlt]
  exact account.journal.ensures_complete_empty hhas.present

end Durable

/-! ### Beginning -/

/-- A log is begun where the chain ends, with a stream that holds nothing back. -/
theorem Stands.ensures_create (h : account.Stands medium.storage.files none a) :
    (OpenLog.create account.journal (UInt64.ofNat a)).Ensures medium
      (fun log after => log.segment = account.logFrom a ∧ log.written = 0 ∧
        (∃ stream, log.stream = some stream ∧ account.Feeds after a a a stream) ∧
        Quieter medium after ∧
        after.storage.files = Medium.created medium.storage.publishing
          (account.logFrom a).location medium.storage.files)
      (fun e after => e.isFatal = false ∧ Foiled medium after) := by
  rw [OpenLog.create, Action.ensures_bind, Action.ensures_mapError]
  refine (Medium.ensures_create _ medium).mono ?_ (fun _ _ h => ⟨rfl, h⟩)
  rintro _ after ⟨rfl, hquieter, hfiles⟩
  refine ⟨rfl, rfl, ⟨_, rfl, rfl, rfl, ?_, Nat.le_refl a, Nat.le_refl a, ?_, ?_⟩, hquieter, hfiles⟩
  · exact Ledger.frames_self.symm
  · intro hflush
    rw [hquieter.publishing_eq] at hflush
    rw [hfiles, hflush]
    exact ⟨h.begin [], by simp [Medium.created, logFrom]⟩
  · intro hclose
    rw [hquieter.publishing_eq] at hclose
    rw [hfiles, hclose]
    exact ⟨h, rfl⟩

end Account

end SegmentedJournal
