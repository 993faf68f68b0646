import SegmentedJournal.Proofs.Reading
/-!
# Logs that cover a range

Complete logs may overlap, and the current log may hold what they hold, too.  Between them they may
cover every number of a range, each with the frames of one ledger (`Journal.Covering`).

A replay reads complete logs in the order of their starts, and the current log behind them all.  So
it hands out the whole range if the complete logs leave no hole before their ends
(`Snapshot.Unbroken`, `Replay.Leads.of_unbroken`), and then it ends where a probe finds that durable
data end (`Journal.Covering.reads`).  A hole that only the current log would fill is not passed
(`Journal.Covering.reads_not_through_hole`).
-/

namespace SegmentedJournal

open Medium (Foiled)

/-! ### Holes -/

/-- The numbers that a log covers by its name. -/
def Segment.Covers (log : Segment) (i : Nat) : Prop :=
  log.start.toNat ≤ i ∧ i < log.stop.toNat

/-- From `n` on the complete logs leave no hole before their ends. -/
def Snapshot.Unbroken (snapshot : Snapshot) (n : Nat) : Prop :=
  ∀ i, n ≤ i → (∃ log ∈ snapshot.logs, i < log.stop.toNat) → ∃ log ∈ snapshot.logs, log.Covers i

/-- The current log starts where contiguous logs end. -/
theorem Snapshot.start_of_isContiguous {snapshot : Snapshot} {log : Segment}
    (h : snapshot.isContiguous = true) (hcurrent : snapshot.current = some log)
    (hsome : snapshot.logs ≠ []) : log.start = endOf snapshot.logs := by
  simp only [isContiguous, lastLog?, Bool.and_eq_true, hcurrent] at h
  unfold endOf
  cases hlast : snapshot.logs.getLast? with
  | none => exact absurd (List.getLast?_eq_none_iff.1 hlast) hsome
  | some last =>
      rw [hlast] at h
      exact (of_decide_eq_true h.2).symm

/-- The last number that complete logs cover is the one before their end. -/
theorem Snapshot.lastLog?_bind (snapshot : Snapshot) :
    snapshot.lastLog?.bind Frontier.lastNamed? = before? (endOf snapshot.logs).toNat := by
  unfold lastLog? endOf
  cases snapshot.logs.getLast? with
  | none => rfl
  | some last => exact Frontier.lastNamed?_eq last

namespace Replay

variable {ledger : Ledger} {files : PathMap Bytes} {logs rest : List Segment} {start : UInt64}
  {x z : Nat}

/-- Logs in the order of their starts that leave no hole lead from a number to where they end, or
nowhere if they end before it. -/
theorem Leads.of_unbroken (hsorted : logs.Pairwise fun a b => a.start ≤ b.start)
    (hbounds : ∀ log ∈ logs, log.start ≤ log.stop)
    (hoffers : ∀ log ∈ logs, log.isIncomplete = false ∧
      ∃ contents, files.get? log.location = some contents ∧
        Offers ledger log contents log.start.toNat log.stop.toNat)
    (hunbroken : ∀ i, x ≤ i → (∃ log ∈ logs, i < log.stop.toNat) → ∃ log ∈ logs, log.Covers i)
    (hstart : start.toNat ≤ x)
    (hrest : ∀ y, x ≤ y → (∀ log ∈ logs, log.stop.toNat ≤ y) →
      (y = x ∨ ∃ log ∈ logs, y = log.stop.toNat) → Leads ledger files y rest z) :
    Leads ledger files x (logs.filter (fun log => start < log.stop) ++ rest) z := by
  induction logs generalizing x with
  | nil => exact hrest x (Nat.le_refl x) (fun _ hnone => (by cases hnone)) (.inl rfl)
  | cons log logs ih =>
      obtain ⟨hfirst, hsorted⟩ := List.pairwise_cons.1 hsorted
      have hbound := UInt64.le_iff_toNat_le.1 (hbounds log List.mem_cons_self)
      obtain ⟨hcomplete, contents, hget, hlog⟩ := hoffers log List.mem_cons_self
      -- The logs behind it leave no hole from where it stops on.
      have hbehind (y : Nat) (hxy : x ≤ y) (hstop : log.stop.toNat ≤ y)
          (hend : y = x ∨ y = log.stop.toNat) :
          Leads ledger files y (logs.filter (fun log => start < log.stop) ++ rest) z := by
        refine ih hsorted (fun other hother => hbounds other (List.mem_cons_of_mem _ hother))
          (fun other hother => hoffers other (List.mem_cons_of_mem _ hother)) ?_ (by omega) ?_
        · rintro i hi ⟨other, hother, hlt⟩
          obtain ⟨found, hfound, hle, hcovers⟩ :=
            hunbroken i (by omega) ⟨other, List.mem_cons_of_mem _ hother, hlt⟩
          rcases List.mem_cons.1 hfound with rfl | hfound
          · omega
          · exact ⟨found, hfound, hle, hcovers⟩
        · intro z hyz hstops hlast
          refine hrest z (by omega) ?_ ?_
          · intro other hother
            rcases List.mem_cons.1 hother with rfl | hother
            · omega
            · exact hstops other hother
          · rcases hlast with rfl | ⟨other, hother, heq⟩
            · exact hend.imp id fun heq => ⟨log, List.mem_cons_self, heq⟩
            · exact .inr ⟨other, List.mem_cons_of_mem _ hother, heq⟩
      by_cases hreaches : start < log.stop
      · rw [List.filter_cons, if_pos (decide_eq_true hreaches), List.cons_append]
        refine ⟨?_, contents, _, hget, hlog, ?_, ?_⟩
        · -- No log starts before it, so it starts before whatever covers `x`.
          by_cases hlt : x < log.stop.toNat
          · obtain ⟨found, hfound, hle, -⟩ :=
              hunbroken x (Nat.le_refl x) ⟨log, List.mem_cons_self, hlt⟩
            rcases List.mem_cons.1 hfound with rfl | hfound
            · exact hle
            · exact Nat.le_trans (UInt64.le_iff_toNat_le.1 (hfirst found hfound)) hle
          · omega
        · intro hincomplete
          rw [hcomplete] at hincomplete
          cases hincomplete
        · exact hbehind _ (Nat.le_max_left ..) (Nat.le_max_right ..) (by omega)
      · rw [List.filter_cons, if_neg (by simpa using hreaches)]
        rw [UInt64.not_lt, UInt64.le_iff_toNat_le] at hreaches
        exact hbehind x (Nat.le_refl x) (by omega) (.inl rfl)

end Replay

/-! ### Coverings -/

namespace Journal

/-- The logs of the files hold frames of a ledger, the current log those up to `c`, and they cover
every number from `n` up to `stop`, where they end. -/
structure Covering (journal : Journal) (ledger : Ledger) (files : PathMap Bytes)
    (snapshot : Snapshot) (c n stop : Nat) : Prop where
  /-- The logs are those of the files. -/
  snapshot_eq : journal.snapshotOf files = .ok snapshot
  /-- A complete log begins with its frames. -/
  complete : ∀ log ∈ snapshot.logs, ∃ rest,
    files.get? log.location = some (ledger.frames log.start.toNat log.stop.toNat ++ rest)
  /-- The current log begins with its frames, and no frame follows. -/
  current : ∀ log ∈ snapshot.current, log.start.toNat ≤ c ∧ ∃ tail,
    (∃ error, Frame.decode tail = .error error) ∧
      files.get? log.location = some (ledger.frames log.start.toNat c ++ tail)
  /-- No number is left out. -/
  covered : ∀ i, n ≤ i → i < stop → (∃ log ∈ snapshot.logs, log.Covers i) ∨
    ∃ log ∈ snapshot.current, log.start.toNat ≤ i ∧ i < c
  /-- No complete log stops behind the end. -/
  stop_le : ∀ log ∈ snapshot.logs, log.stop.toNat ≤ stop
  /-- Nor does the current log. -/
  end_le : ∀ _log ∈ snapshot.current, c ≤ stop
  /-- There is something to read. -/
  lt : n < stop
  /-- Numbers are below the stop of a current log. -/
  bound : stop ≤ unknownStop.toNat

namespace Covering

variable {journal : Journal} {ledger : Ledger} {files : PathMap Bytes} {snapshot : Snapshot}
  {medium : Medium Memory} {c n stop : Nat}

theorem lists (h : journal.Covering ledger files snapshot c n stop) :
    journal.Lists files snapshot.checkpoints snapshot.logs snapshot.current :=
  lists_of_snapshotOf_eq h.snapshot_eq

theorem start_le_stop (h : journal.Covering ledger files snapshot c n stop) :
    ∀ log ∈ snapshot.logs, log.start ≤ log.stop :=
  fun log hlog => ((h.lists.mem_complete log).1 hlog).1.places.bounds.1

theorem stop_lt_size (h : journal.Covering ledger files snapshot c n stop) : stop < UInt64.size :=
  Nat.lt_of_le_of_lt h.bound (by decide)

/-- Contiguous logs stop at their end or before. -/
theorem stop_le_endOf (h : journal.Covering ledger files snapshot c n stop)
    (hcontiguous : snapshot.isContiguous = true) :
    ∀ log ∈ snapshot.logs, log.stop.toNat ≤ (endOf snapshot.logs).toNat := by
  simp only [Snapshot.isContiguous, Bool.and_eq_true] at hcontiguous
  exact fun _ hlog => (chain_of_areContiguous hcontiguous.1 h.start_le_stop).stop_le hlog

/-- Where the current log goes on behind contiguous logs it fills no hole. -/
theorem unbroken_of_isContiguous (h : journal.Covering ledger files snapshot c n stop)
    (hcontiguous : snapshot.isContiguous = true) : snapshot.Unbroken n := by
  rintro i hi ⟨log, hlog, hlt⟩
  have hle := h.stop_le log hlog
  rcases h.covered i hi (by omega) with hcovers | ⟨current, hcurrent, hstart, -⟩
  · exact hcovers
  · have hends := h.stop_le_endOf hcontiguous log hlog
    rw [← Snapshot.start_of_isContiguous hcontiguous hcurrent (List.ne_nil_of_mem hlog)] at hends
    omega

/-- What the complete logs do not offer the current log does. -/
theorem leads_current {y : Nat} (h : journal.Covering ledger files snapshot c n stop)
    (hny : n ≤ y) (hstops : ∀ log ∈ snapshot.logs, log.stop.toNat ≤ y) (hy : y ≤ stop) :
    Replay.Leads ledger files y snapshot.current.toList stop := by
  -- A number from `y` on is covered by the current log or not at all.
  have hcurrent (i : Nat) (hi : y ≤ i) (hlt : i < stop) :
      ∃ log ∈ snapshot.current, log.start.toNat ≤ i ∧ i < c := by
    rcases h.covered i (by omega) hlt with ⟨log, hlog, -, hcovers⟩ | hcovers
    · have hle := hstops log hlog
      omega
    · exact hcovers
  cases hfound : snapshot.current with
  | none =>
      rcases Nat.eq_or_lt_of_le hy with heq | hlt
      · exact heq
      · obtain ⟨log, hlog, -⟩ := hcurrent y (Nat.le_refl y) hlt
        rw [hfound] at hlog
        cases hlog
  | some log =>
      obtain ⟨hstart, tail, htail, hget⟩ := h.current log hfound
      have hend := h.end_le log hfound
      obtain ⟨-, hstop⟩ := (h.lists.mem_current log).1 hfound
      have hincomplete : log.isIncomplete = true := Journal.isIncomplete_iff.2 hstop
      have hbound := h.bound
      have hcovers (i : Nat) (hi : y ≤ i) (hlt : i < stop) : log.start.toNat ≤ i ∧ i < c := by
        obtain ⟨log', hlog', hcovers⟩ := hcurrent i hi hlt
        cases hfound.symm.trans hlog'
        exact hcovers
      refine ⟨?_, _, c, hget, ⟨?_, tail, rfl, .inr ⟨hincomplete, htail⟩⟩, fun _ => rfl, ?_⟩
      · by_cases hlt : y < stop
        · exact (hcovers y (Nat.le_refl y) hlt).1
        · omega
      · rw [hstop]
        omega
      · show max y c = stop
        by_cases hlt : max y c < stop
        · have hcovered := hcovers (max y c) (Nat.le_max_left ..) hlt
          omega
        · omega

/-- Where the complete logs leave no hole, all logs lead on from the first number to the end. -/
theorem leads (h : journal.Covering ledger files snapshot c n stop)
    (hunbroken : snapshot.Unbroken n) :
    Replay.Leads ledger files n (Replay.logsFrom snapshot (UInt64.ofNat n) true) stop := by
  have hlt := h.lt
  have hbound := h.bound
  have hsize := h.stop_lt_size
  have hn : (UInt64.ofNat n).toNat = n := UInt64.toNat_ofNat_of_lt (by omega)
  -- The current log reaches past every number there is.
  have hkept : snapshot.current.toList.filter (fun log => UInt64.ofNat n < log.stop) =
      snapshot.current.toList := by
    rw [List.filter_eq_self]
    intro log hlog
    obtain ⟨-, hstop⟩ := (h.lists.mem_current log).1 (Option.mem_toList.1 hlog)
    rw [decide_eq_true_eq, hstop, UInt64.lt_iff_toNat_lt, hn]
    omega
  unfold Replay.logsFrom
  rw [if_pos rfl, List.filter_append, hkept]
  refine .of_unbroken ?_ h.start_le_stop ?_ hunbroken (Nat.le_of_eq hn) ?_
  · exact h.lists.complete_sorted.imp fun hprecedes =>
      (Segment.not_precedes_iff.1 (Segment.not_precedes_of_precedes hprecedes)).1
  · intro log hlog
    obtain ⟨rest, hget⟩ := h.complete log hlog
    have hcomplete : log.isIncomplete = false := by
      simpa [Segment.isIncomplete] using ((h.lists.mem_complete log).1 hlog).2
    exact ⟨hcomplete, _, hget, Nat.le_refl _, rest, rfl, .inl rfl⟩
  · intro y hny hstops hend
    refine h.leads_current hny hstops ?_
    rcases hend with rfl | ⟨log, hlog, rfl⟩
    · exact Nat.le_of_lt hlt
    · exact h.stop_le log hlog

/-- Behind contiguous logs without checkpoints the frontier is where the logs end. -/
theorem frontierOf_eq (h : journal.Covering ledger files snapshot c n stop) (hfits : ledger.Fits)
    (hcontiguous : snapshot.isContiguous = true) (hnone : snapshot.checkpoints = []) :
    ∃ frontier, journal.frontierOf files = .ok frontier ∧
      frontier.lastPersisted = before? stop := by
  have hlt := h.lt
  have hends := h.stop_le_endOf hcontiguous
  have hlast : (endOf snapshot.logs).toNat ≤ stop := by
    unfold endOf
    cases hlast : snapshot.logs.getLast? with
    | none => exact Nat.zero_le stop
    | some last => exact h.stop_le last (List.mem_of_getLast? hlast)
  have hcheckpoint : snapshot.latestCheckpoint? = none := by
    rw [Snapshot.latestCheckpoint?_eq, hnone]
    rfl
  -- The last number is covered by the complete logs, which end behind it, or by the current log.
  have hcovered := h.covered (stop - 1) (by omega) (by omega)
  have hpersisted (last : Option UInt64) :
      (Frontier.ofSnapshot snapshot last).lastPersisted =
        last.or (before? (endOf snapshot.logs).toNat) := by
    rw [Frontier.ofSnapshot, Snapshot.lastLog?_bind, hcheckpoint]
    cases before? (endOf snapshot.logs).toNat <;> rfl
  cases hfound : snapshot.current with
  | none =>
      refine ⟨_, frontierOf_of_none h.snapshot_eq hfound, (hpersisted none).trans ?_⟩
      rw [Option.none_or]
      rcases hcovered with ⟨log, hlog, -, hcovers⟩ | ⟨log, hlog, -⟩
      · have hle := hends log hlog
        congr 1
        omega
      · rw [hfound] at hlog
        cases hlog
  | some log =>
      obtain ⟨hstart, tail, htail, hget⟩ := h.current log hfound
      have hend := h.end_le log hfound
      have hbound := h.bound
      have hsize := h.stop_lt_size
      refine ⟨_, frontierOf_of_some h.snapshot_eq hfound hget, (hpersisted _).trans ?_⟩
      rw [SegmentReader.greatest?_frames hfits (by omega) htail rfl]
      rcases hcovered with ⟨other, hother, -, hcovers⟩ | ⟨log', hlog', hcovers⟩
      · -- The current log starts at the end, so that it has no entries.
        have hle := hends other hother
        have hsame := Snapshot.start_of_isContiguous hcontiguous hfound (List.ne_nil_of_mem hother)
        rw [hsame] at hstart ⊢
        rw [if_neg (by omega), Option.none_or]
        congr 1
        omega
      · cases hfound.symm.trans hlog'
        rw [if_pos (by omega), show c = stop by omega, before?_of_lt hlt, Option.some_or]

/-- **Reading a covering**: if the complete logs leave no hole, a replay from `n` hands out every
entry up to the end, each once and in order, and then expects the number there.  Where the logs are
contiguous and there is no checkpoint, a probe finds that durable data end at the same number. -/
theorem reads (h : journal.Covering ledger medium.storage.files snapshot c n stop)
    (hfits : ledger.Fits) (hquiet : medium.armed = 0)
    (hunbroken : snapshot.Unbroken n ∨ snapshot.isContiguous = true) :
    (∃ replay started ended after,
      Replay.start journal (UInt64.ofNat n) true medium = .ok replay started ∧
      Replay.readAll (replay, started) = .ok (ledger.entries n stop) (ended, after) ∧
      ended.next = UInt64.ofNat stop) ∧
    (snapshot.isContiguous = true → snapshot.checkpoints = [] →
      ∃ after, (do (← journal.probe).next : Action JournalError (Medium Memory) UInt64) medium =
        .ok (UInt64.ofNat stop) after) := by
  constructor
  · have hleads := h.leads (hunbroken.elim id h.unbroken_of_isContiguous)
    obtain ⟨replay, started, ended, after, hstart, hread, hnext, -⟩ :=
      replay_of_leads true hfits h.lists hquiet h.stop_lt_size hleads
    exact ⟨replay, started, ended, after, hstart, hread, hnext⟩
  · intro hcontiguous hnone
    obtain ⟨frontier, hfrontier, hpersisted⟩ := h.frontierOf_eq hfits hcontiguous hnone
    have hprobe : (do (← journal.probe).next :
        Action JournalError (Medium Memory) UInt64).Ensures medium
        (fun number _ => number = UInt64.ofNat stop) (fun _ after => Foiled medium after) := by
      rw [Action.ensures_bind]
      refine (ensures_probe journal (Medium.tame_of_armed hquiet).honest).mono ?_ ?_
      · rintro found after ⟨hfound, -⟩
        cases hfrontier.symm.trans hfound
        exact (Frontier.ensures_next hpersisted h.stop_lt_size _ _ _).2 rfl
      · rintro e after (⟨herror, -⟩ | ⟨-, hfoiled⟩)
        · cases hfrontier.symm.trans herror
        · exact hfoiled
    obtain ⟨number, after, heq, rfl⟩ :=
      hprobe.exists_ok fun _ _ hfoiled => hfoiled.toFired.elim hquiet
    exact ⟨after, heq⟩

end Covering

/-- A complete log and a current one are all the logs of files with nothing else. -/
theorem lists_pair (journal : Journal) {a b p : UInt64} (hab : a ≤ b) (hb : b < unknownStop)
    (hp : p ≤ unknownStop) (complete current : Bytes) :
    journal.Lists ((PathMap.empty.insert (journal.log a b).location complete).insert
        (journal.log p unknownStop).location current)
      [] [journal.log a b] (some (journal.log p unknownStop)) := by
  have hempty := lists_of_snapshotOf_eq journal.snapshotOf_empty
  have hone : journal.Lists (PathMap.empty.insert (journal.log a b).location complete)
      [] [journal.log a b] none :=
    hempty.insert_complete (journal.places_log hab (UInt64.le_of_lt hb)) rfl
      (UInt64.ne_of_lt hb) fun _ hnone => (by cases hnone)
  exact hone.insert_current (journal.places_log hp (UInt64.le_refl _)) rfl rfl

/-- They have different files. -/
theorem location_pair_ne (journal : Journal) {a b p : UInt64} (hab : a ≤ b) (hb : b < unknownStop)
    (hp : p ≤ unknownStop) :
    (journal.log p unknownStop).location ≠ (journal.log a b).location := by
  intro hlocation
  have hsame := congrArg Segment.stop ((journal.places_log hp (UInt64.le_refl _)).eq_of_location
    (journal.places_log hab (UInt64.le_of_lt hb)) hlocation)
  exact UInt64.ne_of_lt hb hsame.symm

/-- A complete log and a current one are a covering. -/
theorem covering_pair (journal : Journal) (ledger : Ledger) {a b p : UInt64} {c n stop : Nat}
    {rest tail : Bytes} (hab : a ≤ b) (hb : b < unknownStop) (hp : p ≤ unknownStop)
    (hpc : p.toNat ≤ c) (htail : ∃ error, Frame.decode tail = .error error)
    (hcovered : ∀ i, n ≤ i → i < stop → a.toNat ≤ i ∧ i < b.toNat ∨ p.toNat ≤ i ∧ i < c)
    (hends : b.toNat ≤ stop ∧ c ≤ stop) (hlt : n < stop) (hbound : stop ≤ unknownStop.toNat) :
    journal.Covering ledger
      ((PathMap.empty.insert (journal.log a b).location
        (ledger.frames a.toNat b.toNat ++ rest)).insert
          (journal.log p unknownStop).location (ledger.frames p.toNat c ++ tail))
      ⟨[], [journal.log a b], some (journal.log p unknownStop)⟩ c n stop := by
  refine ⟨(journal.lists_pair hab hb hp _ _).snapshotOf_eq, ?_, ?_, ?_, ?_,
    fun _ _ => hends.2, hlt, hbound⟩
  · intro log hlog
    obtain rfl := List.mem_singleton.1 hlog
    refine ⟨rest, ?_⟩
    rw [PathMap.get?_insert, if_neg (journal.location_pair_ne hab hb hp), PathMap.get?_insert,
      if_pos rfl]
    rfl
  · rintro log ⟨⟩
    exact ⟨hpc, tail, htail, by rw [PathMap.get?_insert, if_pos rfl]; rfl⟩
  · intro i hi hstop
    exact (hcovered i hi hstop).imp (fun h => ⟨_, List.mem_singleton_self _, h⟩)
      (fun h => ⟨_, rfl, h⟩)
  · intro log hlog
    obtain rfl := List.mem_singleton.1 hlog
    exact hends.1

namespace Covering

/-- For example, from the middle of a log with octets behind its end, and on to a torn frame. -/
theorem reads_from_middle :
    let journal := Journal.rooted "journal" {}
    let ledger : Ledger := fun i => [UInt8.ofNat i]
    let files := (PathMap.empty.insert (journal.log 0 2).location (ledger.frames 0 2 ++ [7])).insert
      (journal.log 2 unknownStop).location (ledger.frames 2 3 ++ [7])
    let medium : Medium Memory := { storage := { publishing := .onFlush, files } }
    (∃ replay started ended after, Replay.start journal 1 true medium = .ok replay started ∧
      Replay.readAll (replay, started) = .ok (ledger.entries 1 3) (ended, after) ∧
      ended.next = 3) ∧
    ∃ after, (do (← journal.probe).next : Action JournalError (Medium Memory) UInt64) medium =
      .ok 3 after := by
  intro journal ledger files medium
  have hfits : ledger.Fits := fun i => (by decide : 1 ≤ Frame.maxPayload)
  have hcovering : journal.Covering ledger medium.storage.files
      ⟨[], [journal.log 0 2], some (journal.log 2 unknownStop)⟩ 3 1 3 :=
    journal.covering_pair ledger (by decide) (by decide) (by decide) (by decide) ⟨_, rfl⟩
      (by intro i hi hlt; simp; omega) (by decide) (by decide) (by decide)
  obtain ⟨hread, hprobe⟩ := hcovering.reads hfits rfl (.inr (by decide))
  exact ⟨hread, hprobe rfl rfl⟩

/-- A hole that only the current log would fill is not passed. -/
theorem reads_not_through_hole :
    let journal := Journal.rooted "journal" {}
    let ledger : Ledger := fun i => [UInt8.ofNat i]
    let files := (PathMap.empty.insert (journal.log 1 2).location (ledger.frames 1 2 ++ [7])).insert
      (journal.log 0 unknownStop).location (ledger.frames 0 1 ++ [7])
    let medium : Medium Memory := { storage := { publishing := .onFlush, files } }
    ledger.Fits ∧ medium.armed = 0 ∧
      (∃ snapshot c, journal.Covering ledger medium.storage.files snapshot c 0 2) ∧
      ∃ after, Replay.start journal 0 true medium = .error (.error (.entryMissing 0 1)) after := by
  intro journal ledger files medium
  have hfits : ledger.Fits := fun i => (by decide : 1 ≤ Frame.maxPayload)
  have hcovering : journal.Covering ledger medium.storage.files
      ⟨[], [journal.log 1 2], some (journal.log 0 unknownStop)⟩ 1 0 2 :=
    journal.covering_pair ledger (by decide) (by decide) (by decide) (by decide) ⟨_, rfl⟩
      (by intro i hi hlt; simp; omega) (by decide) (by decide) (by decide)
  have hquiet : medium.armed = 0 := rfl
  obtain ⟨snapshot, after, hsnapshot, hfound, -⟩ :=
    (ensures_snapshot hcovering.lists (Medium.tame_of_armed hquiet).honest).exists_ok
      fun _ _ hfoiled => hfoiled.2.toFired.elim hquiet
  have hpending : Replay.logsFrom snapshot 0 true =
      [journal.log 1 2, journal.log 0 unknownStop] := by
    rw [hfound]
    rfl
  refine ⟨hfits, hquiet, ⟨_, _, hcovering⟩, after, (Action.bind_of_ok hsnapshot).trans ?_⟩
  rw [hpending]
  rfl

end Covering

end Journal

end SegmentedJournal
