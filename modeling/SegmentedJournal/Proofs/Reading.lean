import SegmentedJournal.Journal.Replay
import SegmentedJournal.Proofs.Recovery
/-!
# Reading a journal back

What a replay hands out of files that hold what they should.  A log offers the entries of a run
(`Replay.Offers`), and logs lead from one number to another if none starts behind what those before
it offer (`Replay.Leads`).  A replay of such logs hands out every entry on the way, each once
and in order, whatever overlaps, and then ends (`Replay.ensures_read`, `Replay.ensures_readAll`).

`Journal.readBack` opens a journal and reads it to the end.  Where nothing is armed it finds the
entries of the complete logs (`Archive.readBack_eq`), and with the current log those of that one,
too (`Durable.readBack_eq`).
-/

namespace SegmentedJournal

open Medium (Foiled Keeps)

/-! ### Readers of frames -/

namespace SegmentReader

variable {ledger : Ledger} {reader : SegmentReader} {c p x : Nat} {tail : Bytes}

theorem read_frames (hfits : ledger.Fits) (hpc : p < c)
    (hrest : reader.rest = ledger.frames p c ++ tail) :
    reader.read = .ok (some (ledger.entry p,
      reader.behind (ledger.entry p) (ledger.frames (p + 1) c ++ tail))) := by
  rw [Ledger.frames_cons hpc, List.append_assoc] at hrest
  exact read_encode_append (hfits p) hrest

/-- An entry of the run is found, and the reader is behind it. -/
theorem seek_frames_of_lt (reader : SegmentReader) (hfits : ledger.Fits) (hpx : p ≤ x) (hxc : x < c)
    (hc : c < UInt64.size) (hrest : reader.rest = ledger.frames p c ++ tail) :
    ∃ next, reader.seek (UInt64.ofNat x) = (.ok (some (ledger.entry x)), next) ∧
      next.segment = reader.segment ∧ next.rest = ledger.frames (x + 1) c ++ tail := by
  have hx : (UInt64.ofNat x).toNat = x := UInt64.toNat_ofNat_of_lt (by omega)
  induction hd : x - p generalizing p reader with
  | zero =>
      obtain rfl : p = x := by omega
      exact ⟨_, seek_of_reached (read_frames hfits hxc hrest) (UInt64.le_refl _), rfl, rfl⟩
  | succ d ih =>
      have hp := ledger.toNat_sequence (i := p) (by omega)
      have hbelow : (ledger.entry p).sequence < UInt64.ofNat x := by
        rw [UInt64.lt_iff_toNat_lt, hp, hx]
        omega
      rw [seek_of_below (read_frames hfits (by omega) hrest) hbelow]
      exact ih (reader.behind (ledger.entry p) (ledger.frames (p + 1) c ++ tail))
        (by omega) rfl (by omega)

/-- Behind the run there is nothing, or something that is no entry. -/
theorem seek_frames_of_le (reader : SegmentReader) (hfits : ledger.Fits) (hcx : c ≤ x)
    (hx : x < UInt64.size) (hrest : reader.rest = ledger.frames p c ++ tail)
    (htail : ∃ error, Frame.decode tail = .error error) :
    ∃ next, next.segment = reader.segment ∧
      (reader.seek (UInt64.ofNat x) = (.ok none, next) ∨
        ∃ error, reader.seek (UInt64.ofNat x) = (.error error, next) ∧
          error.isDecodeError = true) := by
  have hxself : (UInt64.ofNat x).toNat = x := UInt64.toNat_ofNat_of_lt hx
  induction hd : c - p generalizing p reader with
  | zero =>
      have htailOnly : reader.rest = tail := by
        rw [hrest, Ledger.frames, Ledger.entries_of_le (by omega)]
        rfl
      rcases read_of_refused (htailOnly ▸ htail) with hend | ⟨error, herror, hdecode⟩
      · exact ⟨reader, rfl, .inl (seek_of_end hend)⟩
      · exact ⟨reader, rfl, .inr ⟨error, seek_of_error herror, hdecode⟩⟩
  | succ d ih =>
      have hp := ledger.toNat_sequence (i := p) (by omega)
      have hbelow : (ledger.entry p).sequence < UInt64.ofNat x := by
        rw [UInt64.lt_iff_toNat_lt, hp, hxself]
        omega
      rw [seek_of_below (read_frames hfits (by omega) hrest) hbelow]
      exact ih (reader.behind (ledger.entry p) (ledger.frames (p + 1) c ++ tail))
        rfl (by omega)

end SegmentReader

namespace Replay

variable {ledger : Ledger} {files : PathMap Bytes} {reader : SegmentReader} {replay : Replay}
  {logs rest : List Segment} {log : Segment} {contents : Bytes} {medium : Medium Memory}
  {c p x y z : Nat}

/-! ### What logs offer -/

/-- Octets of a log are the frames of the entries from `p` up to `c`; the log stops there, or it is
incomplete and no frame follows. -/
def Offers (ledger : Ledger) (log : Segment) (contents : Bytes) (p c : Nat) : Prop :=
  c ≤ log.stop.toNat ∧ ∃ tail, contents = ledger.frames p c ++ tail ∧
    (log.stop.toNat = c ∨
      log.isIncomplete = true ∧ ∃ error, Frame.decode tail = .error error)

/-- Read one after the other from `x` on, the logs offer every entry up to `y`. -/
def Leads (ledger : Ledger) (files : PathMap Bytes) : Nat → List Segment → Nat → Prop
  | x, [], y => x = y
  | x, log :: logs, y =>
    log.start.toNat ≤ x ∧
      ∃ contents c, files.get? log.location = some contents ∧
        Offers ledger log contents log.start.toNat c ∧ (log.isIncomplete = true → logs = []) ∧
          Leads ledger files (max x c) logs y

theorem Leads.le (h : Leads ledger files x logs y) : x ≤ y := by
  induction logs generalizing x with
  | nil => exact Nat.le_of_eq h
  | cons log logs ih =>
      obtain ⟨-, contents, c, -, -, -, hleads⟩ := h
      exact Nat.le_trans (Nat.le_max_left x c) (ih hleads)

/-- An entry of the frames that a log begins with is yielded, unless the log stops before it. -/
theorem yield_frames (reader : SegmentReader) {tail : Bytes} (hfits : ledger.Fits) (hpx : p ≤ x)
    (hxc : x < c) (hc : c < UInt64.size) (hstop : x < reader.segment.stop.toNat)
    (hrest : reader.rest = ledger.frames p c ++ tail) :
    ∃ next, yield (UInt64.ofNat x) reader = .entry (ledger.entry x) next ∧
      next.segment = reader.segment ∧ next.rest = ledger.frames (x + 1) c ++ tail := by
  have hx : (UInt64.ofNat x).toNat = x := UInt64.toNat_ofNat_of_lt (by omega)
  have hopen : ¬ reader.segment.stop ≤ UInt64.ofNat x := by
    rw [UInt64.not_le, UInt64.lt_iff_toNat_lt, hx]
    exact hstop
  obtain ⟨next, hseek, hsegment, hnext⟩ :=
    SegmentReader.seek_frames_of_lt reader hfits hpx hxc hc hrest
  refine ⟨next, ?_, hsegment, hnext⟩
  rw [yield, if_neg hopen, hseek]
  exact if_neg (UInt64.lt_irrefl _)

/-- An entry that a log offers is yielded, and the rest is offered still. -/
theorem yield_of_lt (reader : SegmentReader) (hfits : ledger.Fits) (hpx : p ≤ x) (hxc : x < c)
    (hc : c < UInt64.size) (h : Offers ledger reader.segment reader.rest p c) :
    ∃ next, yield (UInt64.ofNat x) reader = .entry (ledger.entry x) next ∧
      next.segment = reader.segment ∧ Offers ledger next.segment next.rest (x + 1) c := by
  obtain ⟨hstop, tail, hrest, hend⟩ := h
  obtain ⟨next, hyield, hsegment, hnext⟩ :=
    yield_frames reader hfits hpx hxc hc (by omega) hrest
  refine ⟨next, hyield, hsegment, ?_⟩
  rw [hsegment]
  exact ⟨hstop, tail, hnext, hend⟩

/-- A log that offers nothing more is exhausted, or it is incomplete and torn. -/
theorem yield_of_le (reader : SegmentReader) (hfits : ledger.Fits) (hcx : c ≤ x)
    (hx : x < UInt64.size) (h : Offers ledger reader.segment reader.rest p c) :
    yield (UInt64.ofNat x) reader = .exhausted ∨
      reader.segment.isIncomplete = true ∧ yield (UInt64.ofNat x) reader = .torn := by
  obtain ⟨-, tail, hrest, hend⟩ := h
  have hxself : (UInt64.ofNat x).toNat = x := UInt64.toNat_ofNat_of_lt hx
  by_cases hstopped : reader.segment.stop ≤ UInt64.ofNat x
  · exact .inl (if_pos hstopped)
  · rw [yield, if_neg hstopped]
    rcases hend with hstop | ⟨hincomplete, htail⟩
    · rw [UInt64.le_iff_toNat_le, hxself] at hstopped
      omega
    · obtain ⟨next, hsegment, hseek | ⟨error, hseek, hdecode⟩⟩ :=
        SegmentReader.seek_frames_of_le reader hfits hcx hx hrest htail
      · rw [hseek]
        exact .inl rfl
      · rw [hseek]
        dsimp only
        rw [hsegment, hdecode, hincomplete]
        exact .inr ⟨rfl, rfl⟩

/-! ### What a replay hands out -/

/-- What is left of a replay are the entries from `x` up to `y`. -/
structure Due (ledger : Ledger) (files : PathMap Bytes) (x y : Nat) (replay : Replay) : Prop where
  /-- The next of them is expected. -/
  next_eq : replay.next = UInt64.ofNat x
  /-- The log being read and those behind it offer them. -/
  ahead : match replay.current with
    | none => Leads ledger files x replay.pending y
    | some reader => ∃ p c, p ≤ x ∧ Offers ledger reader.segment reader.rest p c ∧
        (reader.segment.isIncomplete = true → replay.pending = []) ∧
          Leads ledger files (max x c) replay.pending y

/-- A replay that hands an entry out expects the one after it. -/
theorem deliver_of_ne_zero {n : UInt64} {current : Option SegmentReader} (entry : Entry)
    (pending : List Segment) (medium : Medium Memory) (hnext : n + 1 ≠ 0) :
    deliver entry ({ pending, current, next := n }, medium) =
      .ok (some entry) ({ pending, current, next := n + 1 }, medium) := by
  unfold deliver Action.successor
  simp only [if_neg hnext]
  rfl

/-- The next entry on the way from `x` to `y`, if there is one. -/
def Found (ledger : Ledger) (files : PathMap Bytes) (x y : Nat) (found : Option Entry)
    (replay : Replay) : Prop :=
  x = y ∧ found = none ∧ replay.next = UInt64.ofNat y ∨
    x < y ∧ found = some (ledger.entry x) ∧ Due ledger files (x + 1) y replay

/-- The log at hand hands out its next entry. -/
theorem Found.of_yield {pending : List Segment} {next : SegmentReader} (medium : Medium Memory)
    (hxc : x < c) (hy : y < UInt64.size) (hoffers : Offers ledger next.segment next.rest (x + 1) c)
    (hlast : next.segment.isIncomplete = true → pending = [])
    (hleads : Leads ledger files (max x c) pending y) :
    ∃ replay', deliver (ledger.entry x)
        ({ pending, current := some next, next := UInt64.ofNat x }, medium) =
          .ok (some (ledger.entry x)) (replay', medium) ∧
      Found ledger files x y (some (ledger.entry x)) replay' := by
  have hcy := hleads.le
  refine ⟨_, deliver_of_ne_zero _ pending medium (Action.ofNat_add_one_ne_zero (by omega)),
    .inr ⟨by omega, rfl, Action.ofNat_add_one x, x + 1, c, Nat.le_refl _, hoffers, hlast, ?_⟩⟩
  rwa [Nat.max_eq_right (by omega)] at hleads ⊢

/-- The log at hand hands out the next entry; or it is exhausted, and those behind it lead on; or it
is torn, and nothing is left. -/
theorem yield_cases {pending : List Segment} (reader : SegmentReader) (medium : Medium Memory)
    (hfits : ledger.Fits) (hy : y < UInt64.size) (hpx : p ≤ x)
    (hoffers : Offers ledger reader.segment reader.rest p c)
    (hlast : reader.segment.isIncomplete = true → pending = [])
    (hleads : Leads ledger files (max x c) pending y) :
    (∃ next replay', yield (UInt64.ofNat x) reader = .entry (ledger.entry x) next ∧
      deliver (ledger.entry x)
          ({ pending, current := some next, next := UInt64.ofNat x }, medium) =
        .ok (some (ledger.entry x)) (replay', medium) ∧
      Found ledger files x y (some (ledger.entry x)) replay') ∨
    yield (UInt64.ofNat x) reader = .exhausted ∧ Leads ledger files x pending y ∨
    yield (UInt64.ofNat x) reader = .torn ∧ x = y := by
  have hle := hleads.le
  by_cases hxc : x < c
  · obtain ⟨next, hyield, hsegment, hnext⟩ :=
      yield_of_lt reader hfits hpx hxc (by omega) hoffers
    obtain ⟨replay', hdeliver, hfound⟩ := Found.of_yield medium hxc hy hnext
      (hsegment ▸ hlast) hleads
    exact .inl ⟨next, replay', hyield, hdeliver, hfound⟩
  · rw [Nat.max_eq_left (Nat.not_lt.1 hxc)] at hleads
    rcases yield_of_le reader hfits (Nat.not_lt.1 hxc) (by omega) hoffers with
      hyield | ⟨hincomplete, hyield⟩
    · exact .inr (.inl ⟨hyield, hleads⟩)
    · rw [hlast hincomplete] at hleads
      exact .inr (.inr ⟨hyield, hleads⟩)

/-- The first log that has the next entry hands it out. -/
theorem ensures_readPending (hfits : ledger.Fits) (hy : y < UInt64.size)
    (h : Leads ledger medium.storage.files x logs y) (replay : Replay) :
    Action.Ensures (fun s : Replay × Medium Memory => readPending (UInt64.ofNat x) logs s.2)
      (replay, medium)
      (fun found s => Found ledger medium.storage.files x y found s.1 ∧ Keeps medium s.2)
      (fun _ s => Foiled medium s.2) := by
  have hle := h.le
  have hx : (UInt64.ofNat x).toNat = x := UInt64.toNat_ofNat_of_lt (by omega)
  unfold Action.Ensures
  dsimp only
  induction logs generalizing medium with
  | nil => exact ⟨.inl ⟨h, rfl, congrArg UInt64.ofNat h⟩, .refl medium⟩
  | cons log logs ih =>
      obtain ⟨hstart, contents, c, hget, hoffers, hlast, hleads⟩ := h
      have hopen : ¬ UInt64.ofNat x < log.start := by
        rw [UInt64.not_lt, UInt64.le_iff_toNat_le, hx]
        exact hstart
      unfold readPending
      rw [if_neg hopen]
      rcases (SegmentReader.ensures_load hget).ok_or_error with
        ⟨_, after, hload, rfl, hkeeps⟩ | ⟨e, after, hload, -, hfoiled⟩
      · rw [hload]
        dsimp only
        rcases yield_cases { segment := log, rest := contents } after hfits hy hstart hoffers hlast
          hleads with ⟨next, replay', hyield, hdeliver, hfound⟩ | ⟨hyield, hleads⟩ | ⟨hyield, hend⟩
        · rw [hyield]
          dsimp only
          rw [hdeliver]
          exact ⟨hfound, hkeeps⟩
        · -- The logs behind it are read from the same files.
          rw [hyield]
          rw [← hkeeps.files_eq] at hleads
          have hrest := ih hleads
          rw [hkeeps.files_eq] at hrest
          dsimp only
          split at hrest
          · exact ⟨hrest.1, hkeeps.trans hrest.2⟩
          · exact hkeeps.foiled hrest
          · exact hrest
        · rw [hyield]
          exact ⟨.inl ⟨hend, rfl, congrArg UInt64.ofNat hend⟩, hkeeps⟩
      · rw [hload]
        exact hfoiled

/-- **Reading**: a replay hands out the next entry, or ends where there is none. -/
theorem ensures_read (hfits : ledger.Fits) (hy : y < UInt64.size)
    (h : Due ledger medium.storage.files x y replay) :
    read.Ensures (replay, medium)
      (fun found s => Found ledger medium.storage.files x y found s.1 ∧ Keeps medium s.2)
      (fun _ s => Foiled medium s.2) := by
  obtain ⟨pending, current, next⟩ := replay
  obtain ⟨rfl, hahead⟩ := h
  cases current with
  | none => exact ensures_readPending hfits hy hahead { pending, next := 0 }
  | some reader =>
      obtain ⟨p, c, hpx, hoffers, hlast, hleads⟩ := hahead
      unfold Action.Ensures read
      dsimp only at *
      rcases yield_cases reader medium hfits hy hpx hoffers hlast hleads with
        ⟨next, replay', hyield, hdeliver, hfound⟩ | ⟨hyield, hleads⟩ | ⟨hyield, hend⟩
      · rw [hyield]
        dsimp only
        rw [hdeliver]
        exact ⟨hfound, .refl medium⟩
      · rw [hyield]
        exact ensures_readPending hfits hy hleads { pending, current := some reader, next := 0 }
      · rw [hyield]
        exact ⟨.inl ⟨hend, rfl, congrArg UInt64.ofNat hend⟩, .refl medium⟩

theorem readAll_of_none {state state' : Replay × Medium Memory}
    (h : read state = .ok none state') : readAll state = .ok [] state' := by
  obtain ⟨replay, medium⟩ := state
  rw [readAll]
  split <;> simp_all

theorem readAll_of_some {state state' : Replay × Medium Memory} {entry : Entry}
    (h : read state = .ok (some entry) state') :
    readAll state = match readAll state' with
      | .ok entries s => .ok (entry :: entries) s
      | .error e s => .error e s := by
  obtain ⟨replay, medium⟩ := state
  obtain ⟨replay', medium'⟩ := state'
  rw [readAll]
  split
  · simp_all
  · next h' =>
    rw [h] at h'
    cases h'
    cases readAll (replay', medium') <;> rfl
  · simp_all

theorem readAll_of_error {state state' : Replay × Medium Memory} {e : Failure JournalError}
    (h : read state = .error e state') : readAll state = .error e state' := by
  obtain ⟨replay, medium⟩ := state
  rw [readAll]
  split <;> simp_all

/-- The entry handed out comes before the others. -/
theorem ensures_readAll_of_some {state state' : Replay × Medium Memory} {entry : Entry}
    {Q : List Entry → Replay × Medium Memory → Prop}
    {E : JournalError → Replay × Medium Memory → Prop} (h : read state = .ok (some entry) state')
    (hrest : readAll.Ensures state' (fun entries s => Q (entry :: entries) s) E) :
    readAll.Ensures state Q E := by
  rcases hrest.ok_or_error with ⟨entries, s, hread, hQ⟩ | ⟨e, s, hread, hE⟩
  · exact Action.ensures_of_ok (by rw [readAll_of_some h, hread]) hQ
  · exact Action.ensures_of_error (by rw [readAll_of_some h, hread]) hE

/-- **Reading on**: a replay hands out every entry that is left, each once and in order, and then
expects the number behind them. -/
theorem ensures_readAll (hfits : ledger.Fits) (hy : y < UInt64.size)
    (h : Due ledger medium.storage.files x y replay) :
    readAll.Ensures (replay, medium)
      (fun entries s => entries = ledger.entries x y ∧ s.1.next = UInt64.ofNat y ∧
        Keeps medium s.2)
      (fun _ s => Foiled medium s.2) := by
  have hread := ensures_read hfits hy h
  induction hd : y - x generalizing x replay medium with
  | zero =>
      rcases hread.ok_or_error with
        ⟨found, state, hread, ⟨rfl, rfl, hnext⟩ | ⟨hlt, -⟩, hkeeps⟩ | ⟨e, state, hread, hfoiled⟩
      · exact Action.ensures_of_ok (readAll_of_none hread)
          ⟨Ledger.entries_self.symm, hnext, hkeeps⟩
      · omega
      · exact Action.ensures_of_error (readAll_of_error hread) hfoiled
  | succ d ih =>
      rcases hread.ok_or_error with
        ⟨found, state, hread, ⟨rfl, -⟩ | ⟨hlt, rfl, hdue⟩, hkeeps⟩ | ⟨e, state, hread, hfoiled⟩
      · omega
      · obtain ⟨replay', after⟩ := state
        rw [← hkeeps.files_eq] at hdue
        refine ensures_readAll_of_some hread
          ((ih hdue (ensures_read hfits hy hdue) (by omega)).mono ?_ ?_)
        · rintro _ s ⟨rfl, hnext, hkeeps'⟩
          exact ⟨(Ledger.entries_cons hlt).symm, hnext, hkeeps.trans hkeeps'⟩
        · intro _ s hfoiled
          exact hkeeps.foiled hfoiled
      · exact Action.ensures_of_error (readAll_of_error hread) hfoiled

/-! ### Where a replay starts -/

/-- The logs of a chain that reach past a number lead from it to the chain's end. -/
theorem Leads.of_chain {reach a : Nat} {start : UInt64} (h : Chain reach y logs a) (hyx : y ≤ x)
    (hreach : reach ≤ x) (hstart : start.toNat ≤ x)
    (hoffers : ∀ log ∈ logs, start < log.stop → log.isIncomplete = false ∧
      ∃ contents, files.get? log.location = some contents ∧
        Offers ledger log contents log.start.toNat log.stop.toNat)
    (hrest : Leads ledger files (max x a) rest z) :
    Leads ledger files x (logs.filter (fun log => start < log.stop) ++ rest) z := by
  induction logs generalizing x y with
  | nil =>
      have hax : a ≤ x := by
        rcases h with rfl | ⟨-, hle⟩
        · exact hyx
        · exact Nat.le_trans hle hreach
      rwa [Nat.max_eq_left hax] at hrest
  | cons log logs ih =>
      have hstop : log.stop.toNat ≤ a := h.stop_le List.mem_cons_self
      obtain ⟨hlink, -, hchain⟩ := h
      have hbegin : log.start.toNat ≤ x := by
        rcases hlink with heq | ⟨-, hle⟩ <;> omega
      have hoffers' := fun other hother => hoffers other (List.mem_cons_of_mem log hother)
      -- A log that does not reach past the start is left out, and the next one starts no later.
      by_cases hreaches : start < log.stop
      · obtain ⟨hcomplete, contents, hget, hlog⟩ := hoffers log List.mem_cons_self hreaches
        rw [List.filter_cons, if_pos (decide_eq_true hreaches), List.cons_append]
        refine ⟨hbegin, contents, _, hget, hlog, ?_, ?_⟩
        · intro hincomplete
          rw [hcomplete] at hincomplete
          cases hincomplete
        · refine ih hchain (Nat.le_max_right ..) ?_ ?_ hoffers' ?_
          · exact Nat.le_trans hreach (Nat.le_max_left ..)
          · exact Nat.le_trans hstart (Nat.le_max_left ..)
          · rwa [Nat.max_assoc, Nat.max_eq_right hstop]
      · rw [List.filter_cons, if_neg (by simpa using hreaches)]
        rw [UInt64.not_lt, UInt64.le_iff_toNat_le] at hreaches
        exact ih hchain (Nat.le_trans hreaches hstart) hreach hstart hoffers' hrest

/-- A replay starts if the logs that reach past the number lead on from it. -/
theorem ensures_start {journal : Journal} {checkpoints complete : List Segment}
    {current : Option Segment} {withIncomplete : Bool}
    (hlists : journal.Lists medium.storage.files checkpoints complete current)
    (hhonest : medium.Honest) (hx : x < UInt64.size)
    (hleads : Leads ledger medium.storage.files x
      (logsFrom ⟨checkpoints, complete, current⟩ (UInt64.ofNat x) withIncomplete) y) :
    (start journal (UInt64.ofNat x) withIncomplete).Ensures medium
      (fun replay after => Due ledger medium.storage.files x y replay ∧ Keeps medium after)
      (fun _ after => Foiled medium after) := by
  have hxself : (UInt64.ofNat x).toNat = x := UInt64.toNat_ofNat_of_lt hx
  rw [start, Action.ensures_bind]
  refine (Journal.ensures_snapshot hlists hhonest).mono ?_ (fun _ _ h => h.2)
  rintro _ after ⟨rfl, hkeeps⟩
  generalize logsFrom _ _ _ = pending at hleads ⊢
  dsimp only
  cases pending with
  | nil => exact ⟨⟨rfl, hleads⟩, hkeeps⟩
  | cons first pending =>
      have hopen : ¬ UInt64.ofNat x < first.start := by
        rw [UInt64.not_lt, UInt64.le_iff_toNat_le, hxself]
        exact hleads.1
      rw [List.head?_cons]
      dsimp only
      rw [if_neg hopen]
      exact ⟨⟨rfl, hleads⟩, hkeeps⟩

end Replay

/-! ### Reading to the end -/

namespace Journal

/-- Opens a journal at a sequence number and reads it to the end. -/
def readBack (journal : Journal) (start : UInt64) (withIncomplete : Bool) :
    Action JournalError (Medium Memory) (List Entry) := do
  let replay ← Replay.start journal start withIncomplete
  Replay.readAll.zoom (fun medium => (replay, medium)) fun _ state => state.2

variable {journal : Journal} {ledger : Ledger} {medium : Medium Memory} {x y : Nat}

/-- Where nothing is armed a replay starts, hands out every entry on the way, and then expects the
number behind them. -/
theorem replay_of_leads {checkpoints complete : List Segment} {current : Option Segment}
    (withIncomplete : Bool) (hfits : ledger.Fits)
    (hlists : journal.Lists medium.storage.files checkpoints complete current)
    (hquiet : medium.armed = 0) (hy : y < UInt64.size)
    (hleads : Replay.Leads ledger medium.storage.files x (Replay.logsFrom
      ⟨checkpoints, complete, current⟩ (UInt64.ofNat x) withIncomplete) y) :
    ∃ replay started ended after,
      Replay.start journal (UInt64.ofNat x) withIncomplete medium = .ok replay started ∧
      Replay.readAll (replay, started) = .ok (ledger.entries x y) (ended, after) ∧
      ended.next = UInt64.ofNat y ∧ Keeps medium after := by
  have hhonest := (Medium.tame_of_armed hquiet).honest
  obtain ⟨replay, started, hstart, hdue, hkeeps⟩ :=
    (Replay.ensures_start hlists hhonest (Nat.lt_of_le_of_lt hleads.le hy) hleads).exists_ok
      fun _ _ hfoiled => hfoiled.toFired.elim hquiet
  rw [← hkeeps.files_eq] at hdue
  obtain ⟨_, ⟨ended, after⟩, hread, rfl, hnext, hkeeps'⟩ :=
    (Replay.ensures_readAll hfits hy hdue).exists_ok
      fun _ _ hfoiled => (hkeeps.foiled hfoiled).toFired.elim hquiet
  exact ⟨replay, started, ended, after, hstart, hread, hnext, hkeeps.trans hkeeps'⟩

theorem readBack_of_leads {checkpoints complete : List Segment} {current : Option Segment}
    (withIncomplete : Bool) (hfits : ledger.Fits)
    (hlists : journal.Lists medium.storage.files checkpoints complete current)
    (hquiet : medium.armed = 0) (hy : y < UInt64.size)
    (hleads : Replay.Leads ledger medium.storage.files x (Replay.logsFrom
      ⟨checkpoints, complete, current⟩ (UInt64.ofNat x) withIncomplete) y) :
    ∃ after, journal.readBack (UInt64.ofNat x) withIncomplete medium =
      .ok (ledger.entries x y) after ∧ Keeps medium after := by
  obtain ⟨replay, started, ended, after, hstart, hread, -, hkeeps⟩ :=
    replay_of_leads withIncomplete hfits hlists hquiet hy hleads
  refine ⟨after, ?_, hkeeps⟩
  refine (Action.bind_of_ok hstart).trans ?_
  unfold Action.zoom
  rw [hread]

end Journal

namespace Account

variable {account : Account} {current : Option Segment} {complete : List Segment}
  {medium : Medium Memory} {a m x : Nat}

theorem Archive.leads {z : Nat} (rest : List Segment)
    (h : account.Archive medium.storage.files complete current a) (hbase : account.base ≤ x)
    (htrusted : account.trusted ≤ x) (hreach : account.reach ≤ x) (hx : x < UInt64.size)
    (hrest : Replay.Leads account.ledger medium.storage.files (max x a) rest z) :
    Replay.Leads account.ledger medium.storage.files x
      (complete.filter (fun log => UInt64.ofNat x < log.stop) ++ rest) z := by
  have hxself : (UInt64.ofNat x).toNat = x := UInt64.toNat_ofNat_of_lt hx
  obtain ⟨y, hy, hchain⟩ := h.chain
  refine .of_chain hchain (Nat.le_trans hy hbase) hreach (Nat.le_of_eq hxself) ?_ hrest
  intro log hlog hlt
  rw [UInt64.lt_iff_toNat_lt, hxself] at hlt
  obtain ⟨rest, hget⟩ := h.sound log hlog (by omega)
  have hcomplete : log.isIncomplete = false := by
    simpa [Segment.isIncomplete] using (h.has_of_mem hlog).2
  exact ⟨hcomplete, _, hget, Nat.le_refl _, rest, rfl, .inl rfl⟩

/-- **Reading back**: the complete logs give the entries up to their end. -/
theorem Archive.readBack_eq (h : account.Archive medium.storage.files complete none a)
    (hquiet : medium.armed = 0) (hbase : account.base ≤ x) (htrusted : account.trusted ≤ x)
    (hreach : account.reach ≤ x) (hxa : x ≤ a) :
    ∃ after, account.journal.readBack (UInt64.ofNat x) false medium =
      .ok (account.ledger.entries x a) after := by
  have ha : a < UInt64.size := Nat.lt_trans h.bound (by decide)
  have hleads := h.leads [] hbase htrusted hreach (Nat.lt_of_le_of_lt hxa ha)
    (Nat.max_eq_right hxa)
  rw [List.append_nil] at hleads
  obtain ⟨after, heq, -⟩ := Journal.readBack_of_leads false account.fits
    h.lists hquiet ha hleads
  exact ⟨after, heq⟩

/-- The current log leads on to where the files durably end. -/
theorem Durable.leads (h : account.Durable medium.storage.files current a m)
    (hm : m < unknownStop.toNat) (hxm : x ≤ m) :
    Replay.Leads account.ledger medium.storage.files (max x a) current.toList m := by
  cases current with
  | none =>
      obtain rfl := h.absent rfl
      exact Nat.max_eq_right hxm
  | some log =>
      obtain ⟨-, hstop, hstart⟩ := h.stands.has_current
      obtain ⟨tail, htail, hget⟩ := h.present log rfl
      have hle := h.le
      have hbegin : log.start.toNat = a := by
        rw [hstart]
        exact toNat_ofNat_of_bound h.stands.bound
      have hincomplete : log.isIncomplete = true := Journal.isIncomplete_iff.2 hstop
      refine ⟨?_, _, m, hget, ⟨?_, tail, ?_, .inr ⟨hincomplete, Frame.decode_of_torn htail⟩⟩,
        fun _ => rfl, ?_⟩
      · exact hbegin ▸ Nat.le_max_right ..
      · exact hstop ▸ Nat.le_of_lt hm
      · rw [hbegin]
      · show max (max x a) m = m
        omega

/-- **Reading on**: with the current log, what is durable is found. -/
theorem Durable.readBack_eq (h : account.Durable medium.storage.files current a m)
    (hm : m < unknownStop.toNat) (hquiet : medium.armed = 0) (hbase : account.base ≤ x)
    (htrusted : account.trusted ≤ x) (hreach : account.reach ≤ x) (hxm : x ≤ m) :
    ∃ after, account.journal.readBack (UInt64.ofNat x) true medium =
      .ok (account.ledger.entries x m) after := by
  obtain ⟨complete, harchive⟩ := h.stands
  have hsize : m < UInt64.size := Nat.lt_trans hm (by decide)
  have hx : (UInt64.ofNat x).toNat = x := UInt64.toNat_ofNat_of_lt (by omega)
  -- The current log reaches past every number there is.
  have hkept : current.toList.filter (fun log => UInt64.ofNat x < log.stop) = current.toList := by
    rw [List.filter_eq_self]
    intro log hlog
    obtain rfl := Option.mem_toList.1 hlog
    obtain ⟨-, hstop, -⟩ := h.stands.has_current
    rw [decide_eq_true_eq, hstop, UInt64.lt_iff_toNat_lt, hx]
    omega
  have hleads := harchive.leads _ hbase htrusted hreach (by omega) (h.leads hm hxm)
  rw [← hkept, ← List.filter_append] at hleads
  obtain ⟨after, heq, -⟩ := Journal.readBack_of_leads true account.fits
    harchive.lists hquiet hsize hleads
  exact ⟨after, heq⟩

end Account

end SegmentedJournal
