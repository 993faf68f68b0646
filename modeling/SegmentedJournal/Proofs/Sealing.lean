import SegmentedJournal.Proofs.Covering
import SegmentedJournal.Proofs.Retrying
/-!
# The frontier behind a sealing

A probe takes the end of the current log for the frontier if that has entries, and only otherwise
looks at the complete logs and the checkpoints.  Behind a sealing there is no current log, so that a
second probe looks at them.  It finds the log that was sealed, and besides the checkpoints, which
the first did not look at: it answers with what the first one found, or with what the latest
checkpoint reaches if that is more (`Frontier.lastPersisted_sealed`).  So the frontier stays unless
a checkpoint reaches past the last entry of the log (`Frontier.lastPersisted_sealed_eq_iff`).

What is asked of the files is that their logs are in a row (`Journal.InRow`): the complete ones are
contiguous, and the current one goes on where they end and holds a run of frames and something torn.
-/

namespace SegmentedJournal

open Medium (Fired Foiled Keeps Quieter)

/-! ### The frontier of a sealed snapshot -/

namespace Frontier

theorem max_eq_left_iff {x y : UInt64} : max x y = x ↔ y ≤ x := by
  show (if x ≤ y then y else x) = x ↔ y ≤ x
  by_cases hle : x ≤ y
  · rw [if_pos hle]
    exact ⟨fun heq => heq ▸ UInt64.le_refl x, fun hge => UInt64.le_antisymm hge hle⟩
  · rw [if_neg hle]
    exact ⟨fun _ => UInt64.le_of_lt (UInt64.not_le.1 hle), fun _ => rfl⟩

/-- Once the greater of two was taken, the second adds nothing. -/
theorem greater?_greater? (a b : Option UInt64) : greater? (greater? a b) b = greater? a b := by
  cases b with
  | none => cases a <;> rfl
  | some y =>
      cases a with
      | none => exact congrArg some (max_eq_left_iff.2 (UInt64.le_refl y))
      | some x =>
          refine congrArg some (max_eq_left_iff.2 ?_)
          show y ≤ if x ≤ y then y else x
          split
          · exact UInt64.le_refl y
          · next hlt => exact UInt64.le_of_lt (UInt64.not_le.1 hlt)

/-- A segment covers no number behind another just if it stops right behind that at the latest. -/
theorem greater?_lastNamed?_eq_iff {x : UInt64} {segment : Segment} :
    greater? (some x) (lastNamed? segment) = some x ↔ segment.stop.toNat ≤ x.toNat + 1 := by
  unfold lastNamed?
  by_cases hzero : segment.stop = 0
  · rw [if_pos hzero, hzero]
    simp [greater?]
  · rw [if_neg hzero]
    have hpos : segment.stop.toNat ≠ 0 := fun heq => hzero (UInt64.toNat_inj.1 heq)
    have hpred : (segment.stop - 1).toNat = segment.stop.toNat - 1 :=
      UInt64.toNat_sub_of_le _ _ (UInt64.le_iff_toNat_le.2 (Nat.one_le_iff_ne_zero.2 hpos))
    rw [greater?, Option.some_inj, max_eq_left_iff, UInt64.le_iff_toNat_le, hpred]
    omega

end Frontier

namespace Snapshot

variable {snapshot : Snapshot} {journal : Journal} {log : Segment} {last : Option UInt64}

/-- The snapshot once the current log is sealed, given its last entry. -/
def sealed (snapshot : Snapshot) (journal : Journal) (last : Option UInt64) : Snapshot :=
  match snapshot.current, last with
  | some log, some last =>
    { snapshot with logs := snapshot.logs ++ [journal.log log.start (last + 1)], current := none }
  | _, _ => { snapshot with current := none }

@[simp] theorem checkpoints_sealed (snapshot : Snapshot) (journal : Journal)
    (last : Option UInt64) : (snapshot.sealed journal last).checkpoints = snapshot.checkpoints := by
  unfold sealed
  split <;> rfl

@[simp] theorem current_sealed (snapshot : Snapshot) (journal : Journal) (last : Option UInt64) :
    (snapshot.sealed journal last).current = none := by
  unfold sealed
  split <;> rfl

/-- The log that was sealed ends with its last entry. -/
theorem lastLog?_sealed {x : UInt64} (hcurrent : snapshot.current = some log) (hsucc : x + 1 ≠ 0) :
    (snapshot.sealed journal (some x)).lastLog?.bind Frontier.lastNamed? = some x := by
  have hlast : (snapshot.sealed journal (some x)).lastLog? =
      some (journal.log log.start (x + 1)) := by
    simp [sealed, hcurrent, lastLog?]
  rw [hlast, Option.bind_some]
  exact (if_neg hsucc).trans (congrArg some (UInt64.add_sub_cancel x 1))

theorem latestCheckpoint?_sealed (snapshot : Snapshot) (journal : Journal) (last : Option UInt64) :
    (snapshot.sealed journal last).latestCheckpoint? = snapshot.latestCheckpoint? := by
  rw [latestCheckpoint?_eq, latestCheckpoint?_eq, checkpoints_sealed]

/-- No checkpoint reaches past the last entry of the current log, if that has one. -/
def Within (snapshot : Snapshot) (last : Option UInt64) : Prop :=
  ∀ x ∈ last, ∀ checkpoint ∈ snapshot.checkpoints, checkpoint.stop.toNat ≤ x.toNat + 1

/-- The latest checkpoint reaches no number behind another just if none does. -/
theorem greater?_latestCheckpoint?_eq_iff {x : UInt64} :
    Frontier.greater? (some x) (snapshot.latestCheckpoint?.bind Frontier.lastNamed?) = some x ↔
      ∀ checkpoint ∈ snapshot.checkpoints, checkpoint.stop.toNat ≤ x.toNat + 1 := by
  by_cases hnil : snapshot.checkpoints = []
  · rw [latestCheckpoint?_eq, hnil]
    exact ⟨fun _ _ hnone => (by cases hnone), fun _ => rfl⟩
  · obtain ⟨latest, hlatest, hmem, hmax⟩ := latestCheckpoint?_of_ne_nil hnil
    rw [hlatest, Option.bind_some, Frontier.greater?_lastNamed?_eq_iff]
    refine ⟨fun hle checkpoint hcheckpoint => ?_, fun hall => hall latest hmem⟩
    exact Nat.le_trans (UInt64.le_iff_toNat_le.1 (hmax checkpoint hcheckpoint)) hle

end Snapshot

namespace Frontier

variable {snapshot : Snapshot} {journal : Journal} {last : Option UInt64}

/-- Behind a sealing the frontier is what it was, or what the latest checkpoint reaches. -/
theorem lastPersisted_sealed (hlast : last.isSome = true → snapshot.current.isSome = true)
    (hsucc : ∀ x ∈ last, x + 1 ≠ 0) :
    (ofSnapshot (snapshot.sealed journal last) none).lastPersisted =
      greater? (ofSnapshot snapshot last).lastPersisted
        (snapshot.latestCheckpoint?.bind lastNamed?) := by
  rw [ofSnapshot, ofSnapshot, Option.none_or, Snapshot.latestCheckpoint?_sealed]
  cases last with
  | none =>
      have hlogs : (snapshot.sealed journal none).lastLog? = snapshot.lastLog? := by
        unfold Snapshot.sealed Snapshot.lastLog?
        cases snapshot.current <;> rfl
      rw [hlogs, Option.none_or, greater?_greater?]
  | some x =>
      obtain ⟨log, hlog⟩ := Option.isSome_iff_exists.1 (hlast rfl)
      rw [Snapshot.lastLog?_sealed hlog (hsucc x rfl), Option.some_or]

/-- It is what it was unless a checkpoint reaches past the last entry of the log. -/
theorem lastPersisted_sealed_eq_iff (hlast : last.isSome = true → snapshot.current.isSome = true)
    (hsucc : ∀ x ∈ last, x + 1 ≠ 0) :
    (ofSnapshot (snapshot.sealed journal last) none).lastPersisted =
        (ofSnapshot snapshot last).lastPersisted ↔ snapshot.Within last := by
  rw [lastPersisted_sealed hlast hsucc, Snapshot.Within]
  cases last with
  | none =>
      rw [ofSnapshot, Option.none_or, greater?_greater?]
      exact ⟨fun _ _ hnone => (by cases hnone), fun _ => rfl⟩
  | some x =>
      rw [ofSnapshot, Option.some_or, Snapshot.greater?_latestCheckpoint?_eq_iff]
      exact ⟨by rintro hall _ ⟨⟩; exact hall, fun hall => hall x rfl⟩

end Frontier

/-! ### Logs in a row -/

namespace Journal

/-- The complete logs are contiguous, and the current log goes on where they end; it holds the
frames of a run, which starts with the log or behind its start, and something torn. -/
structure InRow (journal : Journal) (files : PathMap Bytes) (snapshot : Snapshot) : Prop where
  /-- The logs are those of the files. -/
  snapshot_eq : journal.snapshotOf files = .ok snapshot
  /-- They are contiguous. -/
  contiguous : snapshot.isContiguous = true
  /-- The current log holds a run, whose end can be a stop, and something torn. -/
  current : ∀ log ∈ snapshot.current, ∃ (ledger : Ledger) (a m : Nat) (tail : Bytes),
    ledger.Fits ∧ log.start.toNat ≤ a ∧ m < unknownStop.toNat ∧
      (∃ error, Frame.decode tail = .error error) ∧
        files.get? log.location = some (ledger.frames a m ++ tail)

/-- The files once the current log, if there is one, is sealed. -/
def sealedIn (journal : Journal) (snapshot : Snapshot) (files : PathMap Bytes)
    (last : Option UInt64) : PathMap Bytes :=
  match snapshot.current with
  | none => files
  | some log => journal.sealedFiles log files last

variable {journal : Journal} {files : PathMap Bytes} {snapshot : Snapshot} {log : Segment}
  {last : Option UInt64} {frontier : Frontier} {medium : Medium Memory}

namespace Sealable

/-- A current log is sealed as an attempt to find the frontier and to seal it there would. -/
theorem ensures_sealAt (h : journal.Sealable log medium.storage.files last)
    (hincomplete : frontier.incomplete = some log) (hlast : frontier.lastInIncomplete = last) :
    (journal.sealAt frontier).Ensures medium
      (fun _ after => Quieter medium after ∧
        after.storage.files = journal.sealedFiles log medium.storage.files last)
      (fun _ after => Fired medium after) := by
  obtain ⟨contents, hget, -⟩ := h.last_eq
  have hthere := PathMap.contains_iff.2 ⟨contents, hget⟩
  cases last with
  | none =>
      exact (ensures_sealAt_of_none hincomplete hlast hthere).mono (fun _ _ h => h.2)
        fun _ _ hfoiled => hfoiled.toFired
  | some x =>
      exact (ensures_sealAt_of_some hincomplete hlast (h.add_one_ne_zero x rfl) rfl h.location_ne
        hthere).mono (fun _ _ h => h.2) fun _ _ h => h.1

end Sealable

/-- The logs are in a row, and the current one has this last entry or none. -/
structure Ending (journal : Journal) (files : PathMap Bytes) (snapshot : Snapshot)
    (last : Option UInt64) : Prop extends InRow journal files snapshot where
  /-- The frontier is that of the snapshot. -/
  frontierOf_eq : journal.frontierOf files = .ok (.ofSnapshot snapshot last)
  /-- An entry is one of a current log. -/
  isSome : last.isSome = true → snapshot.current.isSome = true
  /-- The current log can be sealed. -/
  sealable : ∀ log ∈ snapshot.current, journal.Sealable log files last
  /-- The entry is not before the log's start. -/
  start_le : ∀ log ∈ snapshot.current, ∀ x ∈ last, log.start ≤ x
  /-- The log can stop behind the entry. -/
  lt : ∀ x ∈ last, x.toNat + 1 < unknownStop.toNat

namespace InRow

theorem lists (h : journal.InRow files snapshot) :
    journal.Lists files snapshot.checkpoints snapshot.logs snapshot.current :=
  lists_of_snapshotOf_eq h.snapshot_eq

/-- A current log ends with a number from its start on, behind which a log can stop. -/
theorem exists_last (h : journal.InRow files snapshot) (hcurrent : snapshot.current = some log) :
    ∃ last contents, files.get? log.location = some contents ∧
      SegmentReader.greatest? { segment := log, rest := contents } = last ∧
      ∀ x ∈ last, log.start ≤ x ∧ x.toNat + 1 < unknownStop.toNat := by
  obtain ⟨ledger, a, m, tail, hfits, ha, hm, htail, hget⟩ := h.current log hcurrent
  refine ⟨_, _, hget, SegmentReader.greatest?_frames hfits (Nat.lt_trans hm (by decide)) htail rfl,
    ?_⟩
  intro x hx
  split at hx
  · next hlt =>
    rw [before?_of_lt hlt] at hx
    cases hx
    have hself : (UInt64.ofNat (m - 1)).toNat = m - 1 :=
      Account.toNat_ofNat_of_bound (Nat.lt_of_le_of_lt (Nat.sub_le m 1) hm)
    rw [UInt64.le_iff_toNat_le, hself]
    omega
  · cases hx

theorem exists_ending (h : journal.InRow files snapshot) :
    ∃ last, journal.Ending files snapshot last := by
  cases hcurrent : snapshot.current with
  | none =>
      exact ⟨none, h, frontierOf_of_none h.snapshot_eq hcurrent, fun hsome => (by cases hsome),
        by rw [hcurrent]; nofun, fun _ _ => nofun, nofun⟩
  | some log =>
      obtain ⟨last, contents, hget, hlast, hbounds⟩ := h.exists_last hcurrent
      have hsize (x : UInt64) (hx : x ∈ last) : x + 1 ≠ 0 :=
        Action.add_one_ne_zero (Nat.lt_trans (hbounds x hx).2 (by decide))
      have hopens := h.lists.mem_current
      rw [hcurrent] at hopens
      refine ⟨last, h, ?_, fun _ => by rw [hcurrent]; rfl, ?_, ?_, fun x hx => (hbounds x hx).2⟩
      · rw [frontierOf_of_some h.snapshot_eq hcurrent hget, hlast]
      · rw [hcurrent]
        rintro _ ⟨⟩
        refine ⟨hopens, ⟨contents, hget, hlast⟩, hsize, fun x hx heq => ?_⟩
        have hbound := (hbounds x hx).2
        rw [← Action.toNat_add_one (hsize x hx), heq] at hbound
        exact Nat.lt_irrefl _ hbound
      · rw [hcurrent]
        rintro _ ⟨⟩ x hx
        exact (hbounds x hx).1

end InRow

namespace Ending

/-- The last entry is the last of the run that the log holds. -/
theorem last_eq {ledger : Ledger} {a m : Nat} {tail : Bytes}
    (h : journal.Ending files snapshot last) (hcurrent : snapshot.current = some log)
    (hfits : ledger.Fits) (hm : m < unknownStop.toNat)
    (htail : ∃ error, Frame.decode tail = .error error)
    (hget : files.get? log.location = some (ledger.frames a m ++ tail)) :
    last = if a < m then before? m else none := by
  have hfound := h.frontierOf_eq.symm.trans (frontierOf_of_some h.snapshot_eq hcurrent hget)
  rw [SegmentReader.greatest?_frames hfits (Nat.lt_trans hm (by decide)) htail rfl] at hfound
  exact congrArg Frontier.lastInIncomplete (Except.ok.inj hfound)

theorem add_one_ne_zero (h : journal.Ending files snapshot last) : ∀ x ∈ last, x + 1 ≠ 0 :=
  fun x hx => Action.add_one_ne_zero (Nat.lt_trans (h.lt x hx) (by decide))

/-- Every complete log comes before the one that the current log becomes. -/
theorem precedes (h : journal.Ending files snapshot last) (hcurrent : snapshot.current = some log)
    {x : UInt64} (hx : x ∈ last) :
    ∀ before ∈ snapshot.logs, before.precedes (journal.log log.start (x + 1)) = true := by
  intro before hbefore
  have hcontiguous := h.contiguous
  simp only [Snapshot.isContiguous, Bool.and_eq_true] at hcontiguous
  have hbounds : ∀ log ∈ snapshot.logs, log.start ≤ log.stop :=
    fun log hlog => ((h.lists.mem_complete log).1 hlog).1.places.bounds.1
  have hstop := (chain_of_areContiguous hcontiguous.1 hbounds).stop_le hbefore
  rw [← Snapshot.start_of_isContiguous h.contiguous hcurrent (List.ne_nil_of_mem hbefore)] at hstop
  have hstart := UInt64.le_iff_toNat_le.1 (hbounds before hbefore)
  have hle := UInt64.le_iff_toNat_le.1 (h.start_le log hcurrent x hx)
  have hsucc := Action.toNat_add_one (h.add_one_ne_zero x hx)
  -- It stops where the log starts, and the log stops behind that.
  rw [Segment.precedes_iff, UInt64.lt_iff_toNat_lt, UInt64.lt_iff_toNat_lt, ← UInt64.toNat_inj]
  show before.start.toNat < log.start.toNat ∨ before.start.toNat = log.start.toNat ∧
    (before.stop.toNat < (x + 1).toNat ∨ _)
  omega

/-- The snapshot of the files once the current log is sealed. -/
theorem snapshotOf_sealedIn (h : journal.Ending files snapshot last) :
    journal.snapshotOf (journal.sealedIn snapshot files last) =
      .ok (snapshot.sealed journal last) := by
  have hlists := h.lists
  unfold sealedIn Snapshot.sealed
  cases hcurrent : snapshot.current with
  | none =>
      rw [hcurrent] at hlists
      exact hlists.snapshotOf_eq
  | some log =>
      rw [hcurrent] at hlists
      have hsealable := h.sealable log hcurrent
      obtain ⟨contents, hget, -⟩ := hsealable.last_eq
      cases last with
      | none => exact hlists.erase_current.snapshotOf_eq
      | some x =>
          have hstart := UInt64.le_iff_toNat_le.1 (h.start_le log hcurrent x rfl)
          have hsucc := Action.toNat_add_one (h.add_one_ne_zero x rfl)
          have hlt := h.lt x rfl
          have hplaces : journal.Places (journal.log log.start (x + 1)) :=
            journal.places_log (UInt64.le_iff_toNat_le.2 (by omega))
              (UInt64.le_iff_toNat_le.2 (by omega))
          dsimp only [sealedFiles, pathBehind]
          rw [PathMap.moved_of_some hget]
          exact (hlists.erase_current.insert_complete hplaces rfl
            (hsealable.add_one_ne_unknownStop x rfl) (h.precedes hcurrent rfl)).snapshotOf_eq

/-- Where durable data end once the current log is sealed. -/
theorem frontierOf_sealedIn (h : journal.Ending files snapshot last) :
    journal.frontierOf (journal.sealedIn snapshot files last) =
      .ok (.ofSnapshot (snapshot.sealed journal last) none) :=
  frontierOf_of_none h.snapshotOf_sealedIn (snapshot.current_sealed journal last)

/-- The current log, if there is one, is sealed at the frontier. -/
theorem ensures_sealAt (h : journal.Ending medium.storage.files snapshot last) :
    (journal.sealAt (.ofSnapshot snapshot last)).Ensures medium
      (fun _ after => Quieter medium after ∧
        after.storage.files = journal.sealedIn snapshot medium.storage.files last)
      (fun _ after => Fired medium after) := by
  unfold sealedIn
  cases hcurrent : snapshot.current with
  | none =>
      rw [sealAt, Frontier.ofSnapshot, hcurrent]
      exact ⟨.refl medium, rfl⟩
  | some log => exact (h.sealable log hcurrent).ensures_sealAt hcurrent rfl

end Ending

/-! ### Probing again -/

/-- A probe found this frontier, and then the current log was sealed there; what is armed for the
calls may have changed in between. -/
def SealedAt (journal : Journal) (medium : Medium Memory) (frontier : Frontier)
    (done : Medium Memory) : Prop :=
  ∃ probed sealing answer, journal.probe medium = .ok frontier probed ∧ Reseals probed sealing ∧
    journal.sealAt frontier sealing = .ok answer done

variable {probed done armed after : Medium Memory} {second : Frontier}

/-- Behind the sealing a probe finds what the sealed files say. -/
theorem Ending.exists_probe (h : journal.Ending files snapshot last)
    (hfiles : medium.storage.files = journal.sealedIn snapshot files last) :
    ∃ second after, journal.probe medium.cleared = .ok second after := by
  have hfrontier : journal.frontierOf medium.cleared.storage.files =
      .ok (.ofSnapshot (snapshot.sealed journal last) none) := by
    show journal.frontierOf medium.storage.files = _
    rw [hfiles, h.frontierOf_sealedIn]
  obtain ⟨second, after, hprobe, -⟩ :=
    (ensures_probe_of_frontierOf hfrontier (reseals_cleared medium).honest).exists_ok
      fun _ _ hfoiled => hfoiled.toFired.elim (Medium.armed_cleared medium)
  exact ⟨second, after, hprobe⟩

/-- With nothing armed the current log is sealed. -/
theorem Ending.exists_sealedAt (h : journal.Ending medium.storage.files snapshot last)
    (hquiet : medium.armed = 0) :
    ∃ done, journal.SealedAt medium (.ofSnapshot snapshot last) done := by
  have htame := Medium.tame_of_armed hquiet
  obtain ⟨frontier, probed, hprobe, rfl, hkeeps⟩ :=
    (ensures_probe_of_frontierOf h.frontierOf_eq htame.honest).exists_ok
      fun _ _ hfoiled => hfoiled.toFired.elim hquiet
  have hending := h
  rw [← hkeeps.files_eq] at hending
  obtain ⟨answer, done, hseal, -⟩ :=
    hending.ensures_sealAt.exists_ok fun _ _ hfired => hfired.elim (hkeeps.quiet hquiet)
  exact ⟨done, probed, probed, answer, hprobe, ⟨⟨rfl, rfl⟩, hkeeps.honest htame.honest⟩, hseal⟩

/-- What a probe found is the frontier of files in a row. -/
theorem InRow.ending_of_probe (h : journal.InRow medium.storage.files snapshot)
    (hhonest : medium.Honest) (hprobe : journal.probe medium = .ok frontier probed) :
    ∃ last, journal.Ending medium.storage.files snapshot last ∧
      frontier = .ofSnapshot snapshot last ∧ Keeps medium probed := by
  obtain ⟨last, hending⟩ := h.exists_ending
  obtain ⟨hfrontier, hkeeps⟩ := (ensures_probe journal hhonest).of_ok hprobe
  exact ⟨last, hending, Except.ok.inj (hfrontier.symm.trans hending.frontierOf_eq), hkeeps⟩

/-- A probe behind the sealing finds no incomplete log, and it finds the frontier that the log was
sealed at unless a checkpoint reaches past the last entry of the log. -/
theorem InRow.probe_again (h : journal.InRow medium.storage.files snapshot)
    (hhonest : medium.Honest) (hseal : journal.SealedAt medium frontier done) :
    (∃ second after, journal.probe done.cleared = .ok second after) ∧
    ∀ armed second after, Reseals done armed → journal.probe armed = .ok second after →
      second.incomplete = none ∧
        second.lastPersisted = Frontier.greater? frontier.lastPersisted
          (snapshot.latestCheckpoint?.bind Frontier.lastNamed?) ∧
        (second.lastPersisted = frontier.lastPersisted ↔
          snapshot.Within frontier.lastInIncomplete) := by
  obtain ⟨probed, sealing, answer, hprobe, hsealing, hsealed⟩ := hseal
  obtain ⟨last, hending, rfl, hkeeps⟩ := h.ending_of_probe hhonest hprobe
  have hfiles : sealing.storage.files = medium.storage.files :=
    hsealing.rearmed.files_eq.trans hkeeps.files_eq
  rw [← hfiles] at hending
  obtain ⟨-, hdone⟩ := hending.ensures_sealAt.of_ok hsealed
  refine ⟨hending.exists_probe hdone, fun armed second after harmed hagain => ?_⟩
  obtain ⟨hsecond, -⟩ := (ensures_probe journal harmed.honest).of_ok hagain
  rw [harmed.rearmed.files_eq, hdone, hending.frontierOf_sealedIn] at hsecond
  cases hsecond
  exact ⟨snapshot.current_sealed journal last,
    Frontier.lastPersisted_sealed hending.isSome hending.add_one_ne_zero,
    Frontier.lastPersisted_sealed_eq_iff hending.isSome hending.add_one_ne_zero⟩

/-! ### Rows -/

variable {ledger : Ledger} {a m : Nat} {tail : Bytes} {checkpoints complete : List Segment}

/-- Files are in a row if a current log with a run and something torn goes on where their contiguous
complete logs end. -/
theorem Lists.inRow (h : journal.Lists files checkpoints complete (some log))
    (hcontiguous : Snapshot.isContiguous ⟨checkpoints, complete, some log⟩ = true)
    (hfits : ledger.Fits) (ha : log.start.toNat ≤ a) (hm : m < unknownStop.toNat)
    (htail : ∃ error, Frame.decode tail = .error error)
    (hget : files.get? log.location = some (ledger.frames a m ++ tail)) :
    journal.InRow files ⟨checkpoints, complete, some log⟩ :=
  ⟨h.snapshotOf_eq, hcontiguous, by
    rintro _ ⟨⟩
    exact ⟨ledger, a, m, tail, hfits, ha, hm, htail, hget⟩⟩

variable {b e : UInt64}

/-- The files of a complete log, of a current one that goes on behind it, with frames up to a
number, and of a checkpoint. -/
def rowOf (journal : Journal) (ledger : Ledger) (b e : UInt64) (m : Nat) (tail : Bytes) :
    PathMap Bytes :=
  ((PathMap.empty.insert (journal.log 0 b).location (ledger.frames 0 b.toNat)).insert
    (journal.log b unknownStop).location (ledger.frames b.toNat m ++ tail)).insert
      (journal.checkpoint 0 e).location []

/-- They are in a row, and the last entry is the one before the number. -/
theorem ending_rowOf (journal : Journal) (hfits : ledger.Fits) (hb : b < unknownStop)
    (he : e ≤ unknownStop) (hbm : b.toNat < m) (hm : m < unknownStop.toNat)
    (htail : ∃ error, Frame.decode tail = .error error) :
    journal.Ending (journal.rowOf ledger b e m tail)
      ⟨[journal.checkpoint 0 e], [journal.log 0 b], some (journal.log b unknownStop)⟩
        (before? m) := by
  have hzero (x : UInt64) : 0 ≤ x := UInt64.le_iff_toNat_le.2 (Nat.zero_le _)
  have hplaces := journal.places_checkpoint (hzero e) he
  have hpair := journal.lists_pair (hzero b) hb (UInt64.le_of_lt hb)
    (ledger.frames 0 b.toNat) (ledger.frames b.toNat m ++ tail)
  have hlists : journal.Lists (journal.rowOf ledger b e m tail) [journal.checkpoint 0 e]
      [journal.log 0 b] (some (journal.log b unknownStop)) :=
    hpair.insert_only_checkpoint hplaces rfl
  have hget : (journal.rowOf ledger b e m tail).get? (journal.log b unknownStop).location =
      some (ledger.frames b.toNat m ++ tail) := by
    rw [rowOf, hpair.get?_insert_checkpoint hplaces rfl, PathMap.get?_insert, if_pos rfl]
  have hcontiguous : Snapshot.isContiguous ⟨[journal.checkpoint 0 e], [journal.log 0 b],
      some (journal.log b unknownStop)⟩ = true := by
    simp [Snapshot.isContiguous, Snapshot.areContiguous, Snapshot.lastLog?, log]
  obtain ⟨last, hending⟩ :=
    (hlists.inRow hcontiguous hfits (Nat.le_refl _) hm htail hget).exists_ending
  have hlast := hending.last_eq rfl hfits hm htail hget
  rw [if_pos hbm] at hlast
  rwa [hlast] at hending

end Journal

end SegmentedJournal
