import SegmentedJournal.Proofs.Intact
import SegmentedJournal.Proofs.Moving
/-!
# Runs of entries that are stored

A run of entries is stored as one complete log, which is named for its first entry and for the
number behind its last, and holds their frames and nothing else (`Journal.store`).  A ledger's
entries from one number up to another can be cut into runs in many ways (`Ledger.Tiles`); stored one
behind the other (`Journal.stored`), each has a file of its own (`Ledger.Tiles.get?_stored`), they
come behind the logs that were there (`Ledger.Tiles.lists_stored`), and together they lead from the
one number to the other (`Ledger.Tiles.leads_stored`).

Nothing of this goes wrong where no log of the files that were there goes past the first number
(`Journal.Within`).
-/

namespace SegmentedJournal

open Account (ofNat_le_ofNat ofNat_le_unknownStop ofNat_ne_unknownStop toNat_ofNat_of_bound
  toNat_unknownStop)

namespace Journal

/-- The log that a run of entries is stored as. -/
def logHolding (journal : Journal) (run : List Entry) : Segment :=
  journal.log (run.head?.elim 0 Entry.sequence)
    (run.getLast?.elim 0 fun entry => entry.sequence + 1)

/-- The files with a run of entries in a log of its own. -/
def store (journal : Journal) (files : PathMap Bytes) (run : List Entry) : PathMap Bytes :=
  files.insert (journal.logHolding run).location (Entry.encodeAll run)

/-- The files with several runs, each in a log of its own. -/
def stored (journal : Journal) (files : PathMap Bytes) (runs : List (List Entry)) :
    PathMap Bytes :=
  runs.foldl journal.store files

variable {journal : Journal} {files : PathMap Bytes} {path : String} {a b : Nat}

@[simp] theorem stored_nil : journal.stored files [] = files := rfl

theorem stored_snoc (runs : List (List Entry)) (run : List Entry) :
    journal.stored files (runs ++ [run]) = journal.store (journal.stored files runs) run := by
  rw [stored, stored, List.foldl_append]
  rfl

/-! ### Files that end at a number -/

/-- No log of the files goes past a number; so none is incomplete. -/
def Within (journal : Journal) (files : PathMap Bytes) (n : Nat) : Prop :=
  ∀ log, journal.Has files .log log → log.stop.toNat ≤ n

theorem within_empty (journal : Journal) (n : Nat) : journal.Within .empty n := by
  intro log hlog
  cases hlog.present

theorem Within.mono (h : journal.Within files a) (hab : a ≤ b) : journal.Within files b :=
  fun log hlog => Nat.le_trans (h log hlog) hab

/-- A log that would go past the number is not there. -/
theorem Within.absent (h : journal.Within files a) {start stop : UInt64} (hstart : start ≤ stop)
    (hstop : stop ≤ unknownStop) (ha : a < stop.toNat) :
    files.get? (journal.log start stop).location = none := by
  cases hget : files.get? (journal.log start stop).location with
  | none => rfl
  | some contents =>
      have hle := h _ ⟨journal.places_log hstart hstop, rfl, PathMap.contains_iff.2 ⟨_, hget⟩⟩
      exact absurd hle (Nat.not_le.2 ha)

theorem Within.stop_ne (h : journal.Within files a) (ha : a < unknownStop.toNat) {log : Segment}
    (hlog : journal.Has files .log log) : log.stop ≠ unknownStop := by
  rintro heq
  have hle := h log hlog
  rw [heq] at hle
  omega

/-- Files that end at a number have no current log. -/
theorem Within.exists_lists (h : journal.Within files a) (ha : a < unknownStop.toNat) :
    ∃ checkpoints complete, journal.Lists files checkpoints complete none := by
  refine Opens.exists_lists fun segment => ⟨fun hnone => (by cases hnone), ?_⟩
  rintro ⟨hlog, hstop⟩
  exact absurd hstop (h.stop_ne ha hlog)

end Journal

/-! ### Cutting a ledger into runs -/

namespace Ledger

/-- The runs are the entries from `a` up to `c`, one behind the other, and none is empty. -/
inductive Tiles (ledger : Ledger) (a : Nat) : List (List Entry) → Nat → Prop where
  /-- There are no entries and no runs. -/
  | nil : Tiles ledger a [] a
  /-- A run goes on where the others end. -/
  | snoc {runs : List (List Entry)} {b c : Nat} (h : Tiles ledger a runs b) (hlt : b < c) :
      Tiles ledger a (runs ++ [ledger.entries b c]) c

variable {ledger : Ledger} {journal : Journal} {files : PathMap Bytes} {runs : List (List Entry)}
  {run : List Entry} {path : String} {contents : Bytes} {a b c x : Nat}

/-- A run is stored under the numbers between which it lies. -/
theorem logHolding_entries (journal : Journal) (hab : a < b) :
    journal.logHolding (ledger.entries a b) = journal.log (UInt64.ofNat a) (UInt64.ofNat b) := by
  obtain ⟨c, rfl⟩ : ∃ c, b = c + 1 := ⟨b - 1, by omega⟩
  have hhead : (ledger.entries a (c + 1)).head? = some (ledger.entry a) := by
    rw [entries_cons hab]
    rfl
  have hlast : (ledger.entries a (c + 1)).getLast? = some (ledger.entry c) := by
    rw [entries_succ (Nat.le_of_lt_succ hab), List.getLast?_concat]
  rw [Journal.logHolding, hhead, hlast]
  exact congrArg (journal.log (UInt64.ofNat a)) (Action.ofNat_add_one c)

/-- The file of a run that is stored behind a number is not there. -/
theorem absent_between (hwithin : journal.Within files b) (hbc : b < c)
    (hc : c < unknownStop.toNat) :
    files.get? (journal.log (UInt64.ofNat b) (UInt64.ofNat c)).location = none :=
  hwithin.absent (ofNat_le_ofNat (Nat.le_of_lt hbc) hc) (ofNat_le_unknownStop hc)
    ((toNat_ofNat_of_bound hc).symm ▸ hbc)

/-- Files with one more run end where the run does. -/
theorem within_store (hwithin : journal.Within files b) (hbc : b < c)
    (hc : c < unknownStop.toNat) : journal.Within (journal.store files (ledger.entries b c)) c := by
  intro log hlog
  rw [Journal.store, logHolding_entries journal hbc, Journal.has_insert_location_iff
    (journal.places_log (ofNat_le_ofNat (Nat.le_of_lt hbc) hc) (ofNat_le_unknownStop hc))] at hlog
  rcases hlog with hold | ⟨rfl, -⟩
  · exact Nat.le_trans (hwithin log hold) (Nat.le_of_lt hbc)
  · exact Nat.le_of_eq (toNat_ofNat_of_bound hc)

namespace Tiles

theorem le (h : ledger.Tiles a runs c) : a ≤ c := by
  induction h with
  | nil => exact Nat.le_refl a
  | snoc _ hlt ih => exact Nat.le_trans ih (Nat.le_of_lt hlt)

/-- Put together again, the runs are the entries. -/
theorem flatten_eq (h : ledger.Tiles a runs c) : runs.flatten = ledger.entries a c := by
  induction h with
  | nil => exact entries_self.symm
  | snoc h hlt ih =>
      rw [List.flatten_append, ih, List.flatten_singleton,
        entries_append h.le (Nat.le_of_lt hlt)]

/-- Each run lies somewhere between the two numbers. -/
theorem exists_of_mem (h : ledger.Tiles a runs c) (hrun : run ∈ runs) :
    ∃ x y, a ≤ x ∧ x < y ∧ y ≤ c ∧ run = ledger.entries x y := by
  induction h with
  | nil => cases hrun
  | snoc h hlt ih =>
      rcases List.mem_append.1 hrun with hold | hnew
      · obtain ⟨x, y, hax, hxy, hyb, rfl⟩ := ih hold
        exact ⟨x, y, hax, hxy, Nat.le_trans hyb (Nat.le_of_lt hlt), rfl⟩
      · cases List.mem_singleton.1 hnew
        exact ⟨_, _, h.le, hlt, Nat.le_refl _, rfl⟩

/-! ### Storing the runs -/

theorem within_stored (h : ledger.Tiles a runs c) (hwithin : journal.Within files a)
    (hc : c < unknownStop.toNat) : journal.Within (journal.stored files runs) c := by
  induction h with
  | nil => exact hwithin
  | snoc _ hlt ih =>
      rw [Journal.stored_snoc]
      exact within_store (ih (Nat.lt_trans hlt hc)) hlt hc

/-- **Storing**: each run has a file of its own, and every other file is as it was. -/
theorem get?_stored (h : ledger.Tiles a runs c) (hwithin : journal.Within files a)
    (hc : c < unknownStop.toNat) :
    (journal.stored files runs).get? path = some contents ↔
      (∃ run ∈ runs, path = (journal.logHolding run).location ∧
        contents = Entry.encodeAll run) ∨ files.get? path = some contents := by
  induction h with
  | nil => simp
  | @snoc runs b c h hlt ih =>
      have hb := Nat.lt_trans hlt hc
      have habsent := absent_between (h.within_stored hwithin hb) hlt hc
      rw [← show journal.logHolding (ledger.entries b c) = _ from
        logHolding_entries journal hlt] at habsent
      rw [Journal.stored_snoc, Journal.store, PathMap.get?_insert]
      simp only [List.mem_append, List.mem_singleton, or_and_right, exists_or, exists_eq_left]
      split
      · next heq =>
        -- Nothing was there before, neither of the files nor of the runs.
        subst heq
        have hnone : ¬ ((∃ run' ∈ runs, (journal.logHolding (ledger.entries b c)).location =
            (journal.logHolding run').location ∧ contents = Entry.encodeAll run') ∨
            files.get? (journal.logHolding (ledger.entries b c)).location = some contents) := by
          rw [← ih hb, habsent]
          exact fun h => by cases h
        obtain ⟨hruns, hfiles⟩ := not_or.1 hnone
        simp only [hruns, hfiles, true_and, or_false, false_or, Option.some.injEq]
        exact eq_comm
      · next hne =>
        rw [ih hb]
        simp [Ne.symm hne]

/-- The logs of the runs, behind those of the files, are the complete logs. -/
theorem lists_stored {checkpoints complete : List Segment} (h : ledger.Tiles a runs c)
    (hlists : journal.Lists files checkpoints complete none) (hwithin : journal.Within files a)
    (hc : c < unknownStop.toNat) :
    journal.Lists (journal.stored files runs) checkpoints
      (complete ++ runs.map journal.logHolding) none := by
  induction h with
  | nil => simpa using hlists
  | @snoc runs b c h hlt ih =>
      have hb := Nat.lt_trans hlt hc
      rw [Journal.stored_snoc, Journal.store, List.map_append, List.map_singleton,
        ← List.append_assoc, logHolding_entries journal hlt]
      refine (ih hb).insert_complete
        (journal.places_log (ofNat_le_ofNat (Nat.le_of_lt hlt) hc) (ofNat_le_unknownStop hc)) rfl
        (ofNat_ne_unknownStop hc) fun before hbefore => ?_
      -- The logs before this one stop where it starts, or earlier.
      have hhas := (((ih hb).mem_complete before).1 hbefore).1
      have hstop := h.within_stored hwithin hb before hhas
      have hstart := UInt64.le_iff_toNat_le.1 hhas.places.bounds.1
      rw [Segment.precedes_iff, UInt64.lt_iff_toNat_lt, UInt64.lt_iff_toNat_lt,
        ← UInt64.toNat_inj]
      simp only [Journal.log, toNat_ofNat_of_bound hb, toNat_ofNat_of_bound hc]
      omega

/-- No two runs are stored in one file. -/
theorem nodup_locations (journal : Journal) (h : ledger.Tiles a runs c)
    (hc : c < unknownStop.toNat) :
    (runs.map fun run => (journal.logHolding run).location).Nodup := by
  have hlists := h.lists_stored
    (Journal.lists_of_snapshotOf_eq journal.snapshotOf_empty) (journal.within_empty a) hc
  have hsorted := hlists.complete_sorted
  rw [List.nil_append] at hlists hsorted
  have hlocations := hsorted.imp_of_mem (S := fun log other => log.location ≠ other.location)
    fun {log other} hlog hother hprecedes => ?_
  · rwa [List.pairwise_map, ← List.pairwise_map, ← List.nodup_iff_pairwise_ne] at hlocations
  · refine ((hlists.mem_complete log).1 hlog).1.ne_location
      ((hlists.mem_complete other).1 hother).1 ?_
    rintro rfl
    rw [Segment.precedes_irrefl] at hprecedes
    cases hprecedes

/-- The logs of the runs are a chain. -/
theorem chain (journal : Journal) (h : ledger.Tiles a runs c) (hc : c < unknownStop.toNat) :
    Chain 0 a (runs.map journal.logHolding) c := by
  induction h with
  | nil => exact Link.refl 0 a
  | @snoc runs b c h hlt ih =>
      have hb := Nat.lt_trans hlt hc
      rw [List.map_append, List.map_singleton, logHolding_entries journal hlt]
      have hstart : (journal.log (UInt64.ofNat b) (UInt64.ofNat c)).start.toNat = b :=
        toNat_ofNat_of_bound hb
      have hstop : (journal.log (UInt64.ofNat b) (UInt64.ofNat c)).stop.toNat = c :=
        toNat_ofNat_of_bound hc
      have hsnoc := (ih hb).snoc hstart (ofNat_le_ofNat (Nat.le_of_lt hlt) hc)
      rwa [hstop] at hsnoc

/-- From any number on the logs of the runs lead to the end of the last one. -/
theorem leads_stored {checkpoints complete : List Segment} (withIncomplete : Bool)
    (h : ledger.Tiles a runs c) (hlists : journal.Lists files checkpoints complete none)
    (hwithin : journal.Within files a) (hc : c < unknownStop.toNat) (hax : a ≤ x) (hxc : x ≤ c) :
    Replay.Leads ledger (journal.stored files runs) x (Replay.logsFrom
      ⟨checkpoints, complete ++ runs.map journal.logHolding, none⟩ (UInt64.ofNat x)
      withIncomplete) c := by
  have hself : (UInt64.ofNat x).toNat = x := toNat_ofNat_of_bound (Nat.lt_of_le_of_lt hxc hc)
  -- The logs that were there stop at `a` or before.
  have hpassed : complete.filter (fun log => UInt64.ofNat x < log.stop) = [] := by
    refine List.filter_eq_nil_iff.2 fun log hlog => ?_
    have hstop := hwithin log ((hlists.mem_complete log).1 hlog).1
    rw [decide_eq_true_iff, UInt64.lt_iff_toNat_lt, hself]
    omega
  have hlogs : Replay.logsFrom
      ⟨checkpoints, complete ++ runs.map journal.logHolding, none⟩ (UInt64.ofNat x)
      withIncomplete =
        (runs.map journal.logHolding).filter (fun log => UInt64.ofNat x < log.stop) ++ [] := by
    simp only [Replay.logsFrom, Option.toList_none, List.append_nil, ite_self,
      List.filter_append, hpassed, List.nil_append]
  rw [hlogs]
  refine .of_chain (h.chain journal hc) hax (Nat.zero_le x) (Nat.le_of_eq hself) ?_
    (Nat.max_eq_right hxc)
  intro log hlog _
  obtain ⟨run, hrun, rfl⟩ := List.mem_map.1 hlog
  obtain ⟨y, z, -, hyz, hzc, rfl⟩ := h.exists_of_mem hrun
  have hz := Nat.lt_of_le_of_lt hzc hc
  have hget := (h.get?_stored hwithin hc).2 (.inl ⟨_, hrun, rfl, rfl⟩)
  rw [logHolding_entries journal hyz] at hget ⊢
  have hstart : (journal.log (UInt64.ofNat y) (UInt64.ofNat z)).start.toNat = y :=
    toNat_ofNat_of_bound (Nat.lt_trans hyz hz)
  have hstop : (journal.log (UInt64.ofNat y) (UInt64.ofNat z)).stop.toNat = z :=
    toNat_ofNat_of_bound hz
  refine ⟨decide_eq_false (ofNat_ne_unknownStop hz), _, hget, ?_⟩
  rw [hstart, hstop]
  exact ⟨Nat.le_of_eq hstop.symm, [], (List.append_nil _).symm, .inl hstop⟩

end Tiles

end Ledger

/-! ### Histories that are cut into runs -/

/-- The move writes or flushes. -/
def Move.Ordinary : Move → Prop
  | write _ | flush => True
  | close | arm _ | armCall _ => False

instance : (move : Move) → Decidable move.Ordinary
  | .write _ | .flush => inferInstanceAs (Decidable True)
  | .close | .arm _ | .armCall _ => inferInstanceAs (Decidable False)

/-- The entries that moves write. -/
def Move.written (moves : List Move) : List Entry :=
  moves.filterMap fun
    | .write entry => some entry
    | _ => none

@[simp] theorem Move.written_nil : written [] = [] := rfl

@[simp] theorem Move.written_write (entry : Entry) (moves : List Move) :
    written (.write entry :: moves) = entry :: written moves := rfl

@[simp] theorem Move.written_flush (moves : List Move) :
    written (.flush :: moves) = written moves := rfl

/-- How many octets the frames of entries have together. -/
def Entry.encodedLengths : List Entry → Nat
  | [] => 0
  | entry :: entries => entry.encodedLength + encodedLengths entries

theorem Entry.length_encodeAll (entries : List Entry) :
    (encodeAll entries).length = encodedLengths entries := by
  induction entries with
  | nil => rfl
  | cons entry entries ih =>
      rw [encodeAll_cons, List.length_append, length_encode, ih]
      rfl

/-- Whether a flush ends a run: where flushes publish it does if the run's frames have so many
octets, and where only closing publishes it does if there is a run. -/
def Publishing.endsRun (publishing : Publishing) (octets : Nat) (run : List Entry) : Bool :=
  match publishing with
  | .onFlush => octets ≤ Entry.encodedLengths run
  | .onClose => !run.isEmpty

/-- The ledger has the first of the entries, and the others behind it. -/
theorem Ledger.Carries.of_cons {ledger : Ledger} {s : Nat} {entry : Entry} {entries : List Entry}
    (h : ledger.Carries s (entry :: entries)) :
    entry.payload = ledger s ∧ ledger.Carries (s + 1) entries := by
  refine ⟨h 0 entry rfl, ?_⟩
  intro i other hother
  rw [Nat.add_right_comm]
  exact h (i + 1) other hother

/-- The ledger has what was written. -/
theorem Ledger.Carries.payloads_eq {ledger : Ledger} {s : Nat} {entries : List Entry}
    (h : ledger.Carries s entries) :
    (ledger.entries s (s + entries.length)).map Entry.payload = entries.map Entry.payload := by
  refine List.ext_getElem (by simp) fun i hi hi' => ?_
  rw [List.length_map] at hi'
  have hcarried := h i entries[i] (List.getElem?_eq_getElem hi')
  simp [Ledger.entries, Ledger.entry, hcarried]

/-- A history of writes and flushes that is cut into runs of entries. -/
structure Cut where
  /-- The number of the next entry. -/
  next : UInt64
  /-- The runs that have ended. -/
  runs : List (List Entry) := []
  /-- The entries since. -/
  rest : List Entry := []

namespace Cut

/-- A write adds an entry under the next number, and a flush may end the run. -/
def step (ends : List Entry → Bool) (cut : Cut) : Move → Cut
  | .write entry =>
    { cut with next := cut.next + 1, rest := cut.rest ++ [⟨cut.next, entry.payload⟩] }
  | .flush =>
    if ends cut.rest then { cut with runs := cut.runs ++ [cut.rest], rest := [] } else cut
  | .close | .arm _ | .armCall _ => cut

/-- The cut of a history that starts at a number. -/
def ofMoves (ends : List Entry → Bool) (next : UInt64) (moves : List Move) : Cut :=
  moves.foldl (step ends) { next }

/-- The runs of the cut, the entries since the last end among them. -/
def closed (cut : Cut) : List (List Entry) :=
  if cut.rest.isEmpty then cut.runs else cut.runs ++ [cut.rest]

/-- The runs that have ended are the ledger's entries from `s` up to `b`, and those from there up
to `n` came since. -/
structure Tiled (ledger : Ledger) (s b n : Nat) (cut : Cut) : Prop where
  /-- The runs that have ended. -/
  runs : ledger.Tiles s cut.runs b
  /-- The entries since. -/
  rest_eq : cut.rest = ledger.entries b n
  /-- They come behind the runs. -/
  le : b ≤ n
  /-- The next entry comes behind them. -/
  next_eq : cut.next = UInt64.ofNat n

variable {ledger : Ledger} {cut : Cut} {ends : List Entry → Bool} {entry : Entry} {s b n : Nat}

theorem tiled_begin (ledger : Ledger) (s : Nat) :
    Tiled ledger s s s { next := UInt64.ofNat s } :=
  ⟨.nil, Ledger.entries_self.symm, Nat.le_refl s, rfl⟩

namespace Tiled

theorem rest_ne_nil (h : cut.Tiled ledger s b n) (hbn : b < n) : cut.rest ≠ [] := by
  rw [h.rest_eq, Ledger.entries_cons hbn]
  exact List.cons_ne_nil _ _

theorem closed_of_lt (h : cut.Tiled ledger s b n) (hbn : b < n) :
    cut.closed = cut.runs ++ [ledger.entries b n] := by
  rw [closed, if_neg (by simpa using h.rest_ne_nil hbn), h.rest_eq]

theorem closed_of_eq (h : cut.Tiled ledger s n n) : cut.closed = cut.runs := by
  rw [closed, h.rest_eq, Ledger.entries_self, if_pos List.isEmpty_nil]

theorem tiles_closed (h : cut.Tiled ledger s b n) : ledger.Tiles s cut.closed n := by
  rcases Nat.eq_or_lt_of_le h.le with rfl | hlt
  · rw [h.closed_of_eq]
    exact h.runs
  · rw [h.closed_of_lt hlt]
    exact h.runs.snoc hlt

theorem step_write (h : cut.Tiled ledger s b n) (hpayload : entry.payload = ledger n) :
    (cut.step ends (.write entry)).Tiled ledger s b (n + 1) := by
  refine ⟨h.runs, ?_, Nat.le_succ_of_le h.le, ?_⟩
  · rw [step, h.rest_eq, h.next_eq, hpayload, Ledger.entries_succ h.le]
    rfl
  · rw [step, h.next_eq, Action.ofNat_add_one]

/-- A flush that ends the run. -/
theorem step_flush_of_ends (h : cut.Tiled ledger s b n) (hbn : b < n)
    (hends : ends cut.rest = true) : (cut.step ends .flush).Tiled ledger s n n := by
  rw [step, if_pos hends]
  refine ⟨?_, Ledger.entries_self.symm, Nat.le_refl n, h.next_eq⟩
  rw [h.rest_eq]
  exact h.runs.snoc hbn

end Tiled

end Cut

end SegmentedJournal
