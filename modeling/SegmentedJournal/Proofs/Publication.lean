import SegmentedJournal.Proofs.Calls
/-!
# What a stream in memory publishes

A stream is used for writing, flushing and closing (`Memory.Stream.Use`), and what matters of a use
that is over is whether it succeeded and whether a failure fired in it (`Memory.Stream.Served`); the
latter is read off the failures that wait before and after (`Memory.Stream.Fires`).  A stream to a
path where there was no file is used, while nobody else touches the file, in any order and with
anything going on elsewhere (`Memory.Stream.Used`).

From its uses alone one knows what the file holds (`Memory.Stream.shown`): where flushes publish,
what was written before the last flush or close that succeeded; where closing publishes, nothing
until then and everything thereafter.  What a use can do to a stream and its file is said once
(`Memory.Stream.Turn`), and when it succeeds (`Memory.Stream.Goes.accepted_iff`); each keeps the
file in step with the uses (`Memory.Stream.Tracks.turn`), and so do all of them
(`Memory.Stream.Used.tracks`).  A failure adds to the file what its fate says, and is the last that
changes anything (`Memory.Stream.Used.publishes`).
-/

namespace SegmentedJournal

namespace Fault

variable {faults rest : List Fault} {fate : Fate}

/-- The failure that fires in a write waits no more. -/
theorem perm_of_takeWrite (h : takeWrite faults = (some fate, rest)) :
    faults.Perm (.write 0 fate :: rest) := by
  fun_induction takeWrite faults generalizing rest with
  | case1 | case3 => cases h
  | case2 =>
      cases h
      exact List.Perm.refl _
  | case4 fault faults _ _ fired remaining htake ih =>
      cases h
      exact ((ih htake).cons fault).trans (List.Perm.swap _ _ _)

/-- Neither does the one that fires in a flush. -/
theorem perm_of_takeFlush (h : takeFlush faults = (some fate, rest)) :
    faults.Perm (.flush fate :: rest) := by
  fun_induction takeFlush faults generalizing rest with
  | case1 => cases h
  | case2 =>
      cases h
      exact List.Perm.refl _
  | case3 fault faults _ fired remaining htake ih =>
      cases h
      exact ((ih htake).cons fault).trans (List.Perm.swap _ _ _)

end Fault

namespace Memory.Stream

/-! ### Uses of a stream -/

/-- What a stream can be asked for. -/
inductive Use where
  /-- To take octets. -/
  | write (bytes : Bytes)
  /-- To publish what it took. -/
  | flush
  /-- To publish what it took and to take no more. -/
  | close
deriving DecidableEq

namespace Use

/-- What the stream does. -/
def run : Use → EStateM IoError (Stream × Memory) Unit
  | write bytes => Stream.write bytes
  | flush => Stream.flush
  | close => Stream.close

/-- How a use ends: whether it succeeded, with the stream and the files as they are then. -/
def serve (use : Use) (stream : Stream) (memory : Memory) : Bool × Stream × Memory :=
  match use.run (stream, memory) with
  | .ok _ after => (true, after)
  | .error _ after => (false, after)

/-- The failure of a fate that fires in such a use. -/
def fault? (fate : Fate) : Use → Option Fault
  | write _ => some (.write 0 fate)
  | flush => some (.flush fate)
  | close => none

/-- The octets that a use, failing or not, was asked to take. -/
def failing : Use → Bytes
  | write bytes => bytes
  | flush | close => []

end Use

/-- A use that is over. -/
structure Served where
  /-- What was asked for. -/
  use : Use
  /-- Whether it succeeded. -/
  accepted : Bool
  /-- The fate of the failure that fired, if one did. -/
  fate : Option Fate

/-- If a failure fired in a use, it and those that wait still are those that waited before.  If none
did, as many wait as before. -/
def Fires (use : Use) (before after : List Fault) : Option Fate → Prop
  | none => after.length = before.length
  | some fate => ∃ fault, use.fault? fate = some fault ∧ before.Perm (fault :: after)

/-- A stream was made for a path without a file, and used so far; the last use stands first.  Others
may do what they like but touch the file. -/
inductive Used (path : String) : List Served → Stream → Memory → Prop
  /-- The stream was made. -/
  | created {memory memory' : Memory} {stream : Stream} (habsent : memory.files.get? path = none)
      (hcreate : Memory.create path memory = .ok stream memory') : Used path [] stream memory'
  /-- It was used once more. -/
  | served {served : List Served} {stream stream' : Stream} {memory memory' : Memory} {use : Use}
      {accepted : Bool} {fate : Option Fate} (h : Used path served stream memory)
      (hserve : use.serve stream memory = (accepted, stream', memory'))
      (hfires : Fires use memory.faults memory'.faults fate) :
      Used path (⟨use, accepted, fate⟩ :: served) stream' memory'
  /-- Something happened elsewhere. -/
  | elsewhere {served : List Served} {stream : Stream} {memory memory' : Memory}
      (h : Used path served stream memory)
      (hfile : memory'.files.get? path = memory.files.get? path)
      (hpublishing : memory'.publishing = memory.publishing) : Used path served stream memory'

/-! ### What the uses come to -/

/-- No failure fired. -/
def Unharmed (served : List Served) : Prop :=
  ∀ event ∈ served, event.fate = none

/-- The stream was closed. -/
def Ended (served : List Served) : Prop :=
  ∃ event ∈ served, event.use = .close

instance (served : List Served) : Decidable (Ended served) :=
  inferInstanceAs (Decidable (∃ event ∈ served, event.use = .close))

/-- Everything that the stream took. -/
def written : List Served → Bytes
  | [] => []
  | ⟨.write bytes, true, _⟩ :: earlier => written earlier ++ bytes
  | _ :: earlier => written earlier

/-- What it took before the last flush or close that succeeded. -/
def flushed : List Served → Bytes
  | [] => []
  | ⟨.flush, true, _⟩ :: earlier | ⟨.close, true, _⟩ :: earlier => written earlier
  | _ :: earlier => flushed earlier

/-- What the file should hold, if there should be one. -/
def shown (publishing : Publishing) (served : List Served) : Option Bytes :=
  match publishing with
  | .onFlush => some (flushed served)
  | .onClose => if Ended served then some (written served) else none

/-- A file with octets behind it.  Of none, no file is made. -/
def grown (bytes : Bytes) : Option Bytes → Option Bytes
  | some contents => some (contents ++ bytes)
  | none => if bytes = [] then none else some bytes

variable {path : String} {publishing : Publishing} {served : List Served} {event : Served}
  {use : Use} {accepted : Bool} {fate : Option Fate} {stream stream' : Stream}
  {file file' : Option Bytes} {memory memory' : Memory} {before after : List Fault}

@[simp] theorem unharmed_nil : Unharmed [] := fun _ h => absurd h List.not_mem_nil

@[simp] theorem unharmed_cons : Unharmed (event :: served) ↔ event.fate = none ∧ Unharmed served :=
  List.forall_mem_cons

theorem not_unharmed_of_fired {later earlier : List Served} {fired : Fate} :
    ¬Unharmed (later ++ ⟨use, accepted, some fired⟩ :: earlier) :=
  fun h => Option.some_ne_none _ (h _ (List.mem_append_right later List.mem_cons_self))

@[simp] theorem not_ended_nil : ¬Ended [] := fun ⟨_, h, _⟩ => absurd h List.not_mem_nil

@[simp] theorem ended_cons : Ended (event :: served) ↔ event.use = .close ∨ Ended served := by
  simp [Ended]

/-- A use that fails adds nothing to what the stream took. -/
@[simp] theorem written_cons_failed : written (⟨use, false, fate⟩ :: served) = written served := by
  cases use <;> rfl

@[simp] theorem flushed_cons_failed : flushed (⟨use, false, fate⟩ :: served) = flushed served := by
  cases use <;> rfl

/-- A use that fails, and is no closing, leaves the file as it should be. -/
theorem shown_cons_failed (huse : use ≠ .close) :
    shown publishing (⟨use, false, fate⟩ :: served) = shown publishing served := by
  cases publishing <;> simp [shown, huse]

/-- Before the stream is closed, what it takes should not be in the file yet. -/
theorem shown_cons_write (hopen : ¬Ended served) (bytes : Bytes) :
    shown publishing (⟨.write bytes, accepted, fate⟩ :: served) = shown publishing served := by
  cases publishing <;> simp [shown, flushed, hopen]

/-- Where closing publishes, a flush changes nothing. -/
theorem shown_onClose_cons_flush :
    shown .onClose (⟨.flush, accepted, fate⟩ :: served) = shown .onClose served := by
  simp [shown, written]

/-- Once the stream is closed, everything that it took should be in the file. -/
theorem shown_cons_close :
    shown publishing (⟨.close, true, fate⟩ :: served) = some (written served) := by
  cases publishing <;> simp [shown, flushed, written]

/-! ### One use -/

/-- What a use can do to a stream and its file. -/
inductive Turn (publishing : Publishing) (stream : Stream) (file : Option Bytes) :
    Served → Stream → Option Bytes → Prop
  /-- The stream takes octets. -/
  | takes {bytes : Bytes} (hlive : stream.phase = .live) :
      Turn publishing stream file ⟨.write bytes, true, none⟩
        { stream with pending := stream.pending ++ bytes } file
  /-- A flush publishes. -/
  | publishes (hlive : stream.phase = .live) (hpublishing : publishing = .onFlush) :
      Turn publishing stream file ⟨.flush, true, none⟩ { stream with pending := [] }
        (published stream.pending false file)
  /-- A flush does not publish. -/
  | waits (hlive : stream.phase = .live) (hpublishing : publishing = .onClose) :
      Turn publishing stream file ⟨.flush, true, none⟩ stream file
  /-- The stream is closed. -/
  | closes (hlive : stream.phase = .live) :
      Turn publishing stream file ⟨.close, true, none⟩
        { stream with pending := [], phase := .closed }
        (published stream.pending (publishing = .onClose) file)
  /-- A failure fires. -/
  | breaks {use : Use} {fate : Fate} (hlive : stream.phase = .live) :
      Turn publishing stream file ⟨use, false, some fate⟩
        { stream with pending := [], phase := .broken }
        (grown (fate.survivors stream.pending use.failing) file)
  /-- A stream that cannot be used takes and publishes nothing. -/
  | refuses {use : Use} (hspent : stream.phase ≠ .live) (huse : use ≠ .close) :
      Turn publishing stream file ⟨use, false, none⟩ stream file
  /-- It can still be closed. -/
  | recloses {stream' : Stream} (hspent : stream.phase ≠ .live) (hspent' : stream'.phase ≠ .live)
      (hpending : stream.pending = [] → stream'.pending = []) :
      Turn publishing stream file ⟨.close, true, none⟩ stream' file

/-- A use leads from a stream and files to others, as it may and with a failure of a fate, if one
fires. -/
structure Goes (use : Use) (stream : Stream) (memory : Memory) (accepted : Bool)
    (fate : Option Fate) (stream' : Stream) (memory' : Memory) : Prop where
  /-- It leads there. -/
  serve_eq : use.serve stream memory = (accepted, stream', memory')
  /-- The failure fires. -/
  fires : Fires use memory.faults memory'.faults fate
  /-- The stream and its file change as they may. -/
  turn : Turn memory.publishing stream (memory.files.get? stream.path) ⟨use, accepted, fate⟩ stream'
    (memory'.files.get? stream.path)
  /-- The stream remains one to its file. -/
  path_eq : stream'.path = stream.path
  /-- What publishes remains so. -/
  publishing_eq : memory'.publishing = memory.publishing

/-- One that fired waits no more. -/
theorem Fires.length_eq {fired : Fate} (h : Fires use before after (some fired)) :
    after.length + 1 = before.length := by
  obtain ⟨fault, -, hperm⟩ := h
  exact hperm.length_eq.symm

/-- At most one failure fires in a use, and it has one fate. -/
theorem Fires.unique {fate' : Option Fate} (h : Fires use before after fate)
    (h' : Fires use before after fate') : fate = fate' := by
  cases fate with
  | none =>
      cases fate' with
      | none => rfl
      | some fired => exact absurd h (by have := h'.length_eq; simp only [Fires]; omega)
  | some fired =>
      cases fate' with
      | none => exact absurd h' (by have := h.length_eq; simp only [Fires]; omega)
      | some fired' =>
          obtain ⟨fault, hfault, hperm⟩ := h
          obtain ⟨fault', hfault', hperm'⟩ := h'
          -- It is what is left over when those that wait still are taken away.
          have hcount := (hperm.symm.trans hperm').count_eq fault
          rw [List.count_cons_self, List.count_cons] at hcount
          have hsame : fault' = fault := by
            split at hcount
            · next hbeq => exact eq_of_beq hbeq
            · omega
          subst hsame
          cases use with
          | write bytes =>
              cases hfault
              cases hfault'
              rfl
          | flush =>
              cases hfault
              cases hfault'
              rfl
          | close => cases hfault

/-- A stream that cannot be used leaves everything as it is, and takes and publishes nothing. -/
theorem Use.serve_of_not_live (use : Use) (h : stream.phase ≠ .live) (memory : Memory) :
    (use.serve stream memory).2.2 = memory ∧
      (use ≠ .close → use.serve stream memory = (false, stream, memory)) := by
  obtain ⟨e, he⟩ := Option.ne_none_iff_exists'.1 (mt refusal?_eq_none_iff.1 h)
  cases use with
  | write bytes => simp [serve, run, Stream.write, he]
  | flush => simp [serve, run, Stream.flush, he]
  | close =>
      refine ⟨?_, fun hne => absurd rfl hne⟩
      cases hphase : stream.phase with
      | live => exact absurd hphase h
      | broken => simp [serve, run, Stream.close, hphase]
      | closed => simp [serve, run, Stream.close, hphase]

/-- Of what a failure hits, the survivors are in the file; no other file is touched. -/
theorem fail_run (operation : String) (fate : Fate) (failing : Bytes) (stream : Stream)
    (memory : Memory) : ∃ e memory', fail operation fate failing (stream, memory) =
        .error e ({ stream with pending := [], phase := .broken }, memory') ∧
      memory'.files.get? stream.path =
        grown (fate.survivors stream.pending failing) (memory.files.get? stream.path) ∧
      (∀ other, stream.path ≠ other → memory'.files.get? other = memory.files.get? other) ∧
      memory'.faults = memory.faults ∧ memory'.publishing = memory.publishing := by
  refine ⟨_, _, rfl, ?_⟩
  split
  · next hnone =>
    refine ⟨?_, fun _ _ => rfl, rfl, rfl⟩
    cases hfile : memory.files.get? stream.path with
    | none => simp [grown, hnone]
    | some contents => simp [grown, hnone]
  · next hsome =>
    refine ⟨?_, ?_, faults_publish .., publishing_publish ..⟩
    · rw [get?_publish, if_pos rfl]
      cases hfile : memory.files.get? stream.path with
      | none => simp [grown, published, hsome]
      | some contents => rfl
    · intro other hne
      rw [get?_publish, if_neg hne]

/-- A failing use breaks the stream. -/
theorem goes_of_fail (operation : String) {fired : Fate} {rest : List Fault}
    (hlive : stream.phase = .live)
    (hrun : use.run (stream, memory) =
      fail operation fired use.failing (stream, { memory with faults := rest }))
    (hfires : Fires use memory.faults rest (some fired)) :
    ∃ accepted fate stream' memory', Goes use stream memory accepted fate stream' memory' := by
  obtain ⟨e, broken, hfail, hfile, -, hfaults, hpublishing⟩ :=
    fail_run operation fired use.failing stream { memory with faults := rest }
  refine ⟨false, some fired, { stream with pending := [], phase := .broken }, broken, ?_,
    hfaults ▸ hfires, ?_, rfl, hpublishing⟩
  · rw [Use.serve, hrun, hfail]
  · rw [hfile]
    exact .breaks hlive

/-- A stream that can be used takes octets unless a failure fires. -/
theorem goes_write_of_live (hlive : stream.phase = .live) (bytes : Bytes) (memory : Memory) :
    ∃ accepted fate stream' memory',
      Goes (.write bytes) stream memory accepted fate stream' memory' := by
  have husable := refusal?_eq_none_iff.2 hlive
  cases htake : Fault.takeWrite memory.faults with
  | mk fired rest =>
    cases fired with
    | none =>
        refine ⟨true, none, _, { memory with faults := rest }, ?_,
          Fault.length_of_takeWrite htake, .takes hlive, rfl, rfl⟩
        simp only [Use.serve, Use.run, Stream.write, husable, htake]
    | some fired =>
        refine goes_of_fail "write" hlive ?_ ⟨_, rfl, Fault.perm_of_takeWrite htake⟩
        simp only [Use.run, Use.failing, Stream.write, husable, htake]

/-- It publishes what it holds back unless a failure fires, where flushes publish. -/
theorem goes_flush_of_live (hlive : stream.phase = .live) (memory : Memory) :
    ∃ accepted fate stream' memory', Goes .flush stream memory accepted fate stream' memory' := by
  have husable := refusal?_eq_none_iff.2 hlive
  cases hwhen : memory.publishing with
  | onClose =>
      refine ⟨true, none, stream, memory, ?_, rfl, .waits hlive hwhen, rfl, rfl⟩
      simp only [Use.serve, Use.run, Stream.flush, husable, hwhen]
  | onFlush =>
      cases htake : Fault.takeFlush memory.faults with
      | mk fired rest =>
        cases fired with
        | none =>
            refine ⟨true, none, { stream with pending := [] },
              { memory with faults := rest }.publish stream.path stream.pending false, ?_, ?_, ?_,
              rfl, publishing_publish ..⟩
            · simp only [Use.serve, Use.run, Stream.flush, husable, hwhen, htake]
            · rw [faults_publish]
              exact Fault.length_of_takeFlush htake
            · rw [get?_publish, if_pos rfl]
              exact .publishes hlive hwhen
        | some fired =>
            refine goes_of_fail "flush" hlive ?_ ⟨_, rfl, Fault.perm_of_takeFlush htake⟩
            simp only [Use.run, Use.failing, Stream.flush, husable, hwhen, htake]

/-- Its closing does not fail, and publishes what it holds back. -/
theorem serve_close_of_live (hlive : stream.phase = .live) (memory : Memory) :
    Use.close.serve stream memory = (true, { stream with pending := [], phase := .closed },
      memory.publish stream.path stream.pending (memory.publishing = .onClose)) := by
  simp only [Use.serve, Use.run, Stream.close, hlive]

theorem goes_close_of_live (hlive : stream.phase = .live) (memory : Memory) :
    ∃ accepted fate stream' memory', Goes .close stream memory accepted fate stream' memory' := by
  refine ⟨true, none, _, _, serve_close_of_live hlive memory, ?_, ?_, rfl, publishing_publish ..⟩
  · rw [faults_publish]
    rfl
  · rw [get?_publish, if_pos rfl]
    exact .closes hlive

/-- A stream that cannot be used can still be closed, and is of no other use. -/
theorem goes_of_not_live (use : Use) (hspent : stream.phase ≠ .live) (memory : Memory) :
    ∃ accepted fate stream' memory', Goes use stream memory accepted fate stream' memory' := by
  by_cases huse : use = .close
  · subst huse
    cases hphase : stream.phase with
    | live => exact absurd hphase hspent
    | broken =>
        refine ⟨true, none, { stream with pending := [], phase := .closed }, memory, ?_, rfl,
          .recloses hspent (fun h => Phase.noConfusion h) (fun _ => rfl), rfl, rfl⟩
        simp only [Use.serve, Use.run, Stream.close, hphase]
    | closed =>
        refine ⟨true, none, stream, memory, ?_, rfl, .recloses hspent hspent id, rfl, rfl⟩
        simp only [Use.serve, Use.run, Stream.close, hphase]
  · exact ⟨false, none, stream, memory, (use.serve_of_not_live hspent memory).2 huse, rfl,
      .refuses hspent huse, rfl, rfl⟩

/-- Every use goes somewhere. -/
theorem exists_goes (use : Use) (stream : Stream) (memory : Memory) :
    ∃ accepted fate stream' memory', Goes use stream memory accepted fate stream' memory' := by
  by_cases hlive : stream.phase = .live
  · cases use with
    | write bytes => exact goes_write_of_live hlive bytes memory
    | flush => exact goes_flush_of_live hlive memory
    | close => exact goes_close_of_live hlive memory
  · exact goes_of_not_live use hlive memory

/-- And nowhere else. -/
theorem goes_of_serve (hserve : use.serve stream memory = (accepted, stream', memory'))
    (hfires : Fires use memory.faults memory'.faults fate) :
    Goes use stream memory accepted fate stream' memory' := by
  obtain ⟨_, fate', _, _, hgoes⟩ := exists_goes use stream memory
  cases hgoes.serve_eq.symm.trans hserve
  cases hgoes.fires.unique hfires
  exact hgoes

/-- Closing succeeds, and any other use of a stream that can be used, unless a failure fires. -/
theorem Turn.accepted_iff (h : Turn publishing stream file ⟨use, accepted, fate⟩ stream' file')
    (hclose : use = .close → fate = none) :
    accepted = true ↔ use = .close ∨ stream.phase = .live ∧ fate = none := by
  cases h with
  | takes hlive | publishes hlive _ | waits hlive _ => simp [hlive]
  | closes _ | recloses _ _ _ => simp
  | breaks _ =>
      have huse : use ≠ .close := fun heq => Option.some_ne_none _ (hclose heq)
      simp [huse]
  | refuses hspent huse => simp [hspent, huse]

theorem Goes.accepted_iff (h : Goes use stream memory accepted fate stream' memory') :
    accepted = true ↔ use = .close ∨ stream.phase = .live ∧ fate = none := by
  refine h.turn.accepted_iff fun huse => ?_
  subst huse
  -- There is no failure to fire in a closing.
  cases fate with
  | none => rfl
  | some fired =>
      obtain ⟨fault, hfault, -⟩ := h.fires
      cases hfault

/-! ### All uses -/

/-- A failure fired first in a use, and the file is what it left. -/
def LeftBy (publishing : Publishing) (earlier : List Served) (use : Use) (fate : Fate)
    (file : Option Bytes) : Prop :=
  Unharmed earlier ∧ ∃ buffered,
    written earlier = (shown publishing earlier).getD [] ++ buffered ∧
    file = grown (fate.survivors buffered use.failing) (shown publishing earlier)

/-- A stream and its file are what the uses of the stream come to. -/
structure Tracks (publishing : Publishing) (served : List Served) (stream : Stream)
    (file : Option Bytes) : Prop where
  /-- The stream can be used until a failure fires or it is closed. -/
  live_iff : stream.phase = .live ↔ Unharmed served ∧ ¬Ended served
  /-- Then it holds nothing back. -/
  spent : stream.phase ≠ .live → stream.pending = []
  /-- Until a failure fires, the file holds what it should. -/
  file_eq : Unharmed served → file = shown publishing served
  /-- And the stream holds the rest back. -/
  written_eq : Unharmed served →
    written served = (shown publishing served).getD [] ++ stream.pending
  /-- After a failure, the file remains what it left. -/
  left {later earlier : List Served} {use : Use} {accepted : Bool} {fate : Fate}
    (h : served = later ++ ⟨use, accepted, some fate⟩ :: earlier) :
    LeftBy publishing earlier use fate file

namespace Tracks

/-- A use in which no failure fires adds none to those before it. -/
theorem left_cons (h : Tracks publishing served stream file)
    (hsame : ¬Unharmed served → file' = file)
    {later earlier : List Served} {use' : Use} {accepted' : Bool} {fate : Fate}
    (heq : ⟨use, accepted, none⟩ :: served = later ++ ⟨use', accepted', some fate⟩ :: earlier) :
    LeftBy publishing earlier use' fate file' := by
  cases later with
  | nil => cases heq
  | cons event later =>
      obtain ⟨-, heq⟩ := List.cons.inj heq
      rw [hsame (heq ▸ not_unharmed_of_fired)]
      exact h.left heq

/-- One use keeps a stream and its file in step with the uses. -/
theorem turn (h : Tracks publishing served stream file)
    (hturn : Turn publishing stream file event stream' file') :
    Tracks publishing (event :: served) stream' file' := by
  cases hturn with
  | takes hlive =>
      obtain ⟨hunharmed, hopen⟩ := h.live_iff.1 hlive
      refine ⟨by simp [hlive, hunharmed, hopen], fun hspent => absurd hlive hspent, ?_, ?_,
        h.left_cons (absurd hunharmed)⟩
      · intro _
        rw [shown_cons_write hopen, h.file_eq hunharmed]
      · intro _
        rw [shown_cons_write hopen, written, h.written_eq hunharmed, List.append_assoc]
  | publishes hlive hpublishing =>
      obtain ⟨hunharmed, hopen⟩ := h.live_iff.1 hlive
      subst hpublishing
      have hall := h.written_eq hunharmed
      refine ⟨by simp [hlive, hunharmed, hopen], fun _ => rfl, ?_, ?_,
        h.left_cons (absurd hunharmed)⟩
      · intro _
        rw [h.file_eq hunharmed]
        exact congrArg some hall.symm
      · intro _
        simp [shown, flushed, written]
  | waits hlive hpublishing =>
      obtain ⟨hunharmed, hopen⟩ := h.live_iff.1 hlive
      subst hpublishing
      refine ⟨by simp [hlive, hunharmed, hopen], h.spent, ?_, ?_, h.left_cons (absurd hunharmed)⟩
      · intro _
        rw [shown_onClose_cons_flush, h.file_eq hunharmed]
      · intro _
        rw [shown_onClose_cons_flush, ← h.written_eq hunharmed]
        rfl
  | closes hlive =>
      obtain ⟨hunharmed, hopen⟩ := h.live_iff.1 hlive
      have hall := h.written_eq hunharmed
      refine ⟨by simp, fun _ => rfl, ?_, ?_, h.left_cons (absurd hunharmed)⟩
      · intro _
        rw [shown_cons_close, h.file_eq hunharmed, hall]
        cases publishing with
        | onFlush => rfl
        | onClose => simp [shown, hopen, published]
      · intro _
        rw [shown_cons_close]
        simp [written]
  | breaks hlive =>
      obtain ⟨hunharmed, hopen⟩ := h.live_iff.1 hlive
      refine ⟨by simp, fun _ => rfl, by simp, by simp, ?_⟩
      intro later earlier use accepted fate heq
      cases later with
      | nil =>
          cases heq
          exact ⟨hunharmed, stream.pending, h.written_eq hunharmed, by rw [h.file_eq hunharmed]⟩
      | cons event later =>
          obtain ⟨-, heq⟩ := List.cons.inj heq
          exact absurd (heq ▸ hunharmed) not_unharmed_of_fired
  | refuses hspent huse =>
      refine ⟨?_, h.spent, ?_, ?_, h.left_cons (fun _ => rfl)⟩
      · rw [h.live_iff]
        simp [huse]
      · intro hunharmed
        rw [shown_cons_failed huse, h.file_eq (unharmed_cons.1 hunharmed).2]
      · intro hunharmed
        rw [shown_cons_failed huse, written_cons_failed, h.written_eq (unharmed_cons.1 hunharmed).2]
  | recloses hspent hspent' hpending =>
      have hall : Unharmed served → shown publishing served = some (written served) := by
        intro hunharmed
        have hended : Ended served := by
          by_cases hended : Ended served
          · exact hended
          · exact absurd (h.live_iff.2 ⟨hunharmed, hended⟩) hspent
        cases publishing with
        | onClose => simp [shown, hended]
        | onFlush =>
            have := h.written_eq hunharmed
            rw [h.spent hspent, List.append_nil] at this
            rw [this]
            rfl
      refine ⟨by simp [hspent'], fun _ => hpending (h.spent hspent), ?_, ?_,
        h.left_cons (fun _ => rfl)⟩
      · intro hunharmed
        rw [shown_cons_close, h.file_eq (unharmed_cons.1 hunharmed).2,
          hall (unharmed_cons.1 hunharmed).2]
      · intro _
        rw [shown_cons_close, hpending (h.spent hspent)]
        simp [written]

/-- A stream that was made holds nothing back, and its file is empty, if there is one. -/
theorem of_create (habsent : memory.files.get? path = none)
    (hcreate : Memory.create path memory = .ok stream memory') :
    Tracks memory'.publishing [] stream (memory'.files.get? path) ∧ stream.path = path := by
  unfold Memory.create at hcreate
  split at hcreate
  · cases hcreate
  · split at hcreate
    · next hpublishing =>
      cases hcreate
      refine ⟨⟨by simp, fun _ => rfl, ?_, ?_, fun heq => absurd heq (by simp)⟩, rfl⟩
      · simp [shown, hpublishing, flushed]
      · simp [shown, hpublishing, flushed, written]
    · next hpublishing =>
      cases hcreate
      refine ⟨⟨by simp, fun _ => rfl, ?_, ?_, fun heq => absurd heq (by simp)⟩, rfl⟩
      · simp [shown, hpublishing, habsent]
      · simp [shown, hpublishing, written]

end Tracks

/-- All uses keep a stream and its file in step with them. -/
theorem Used.tracks (h : Used path served stream memory) :
    Tracks memory.publishing served stream (memory.files.get? path) ∧ stream.path = path := by
  induction h with
  | created habsent hcreate => exact Tracks.of_create habsent hcreate
  | served _ hserve hfires ih =>
      obtain ⟨ih, rfl⟩ := ih
      have hgoes := goes_of_serve hserve hfires
      exact ⟨hgoes.publishing_eq ▸ ih.turn hgoes.turn, hgoes.path_eq⟩
  | elsewhere _ hfile hpublishing ih => exact ⟨hpublishing ▸ hfile ▸ ih.1, ih.2⟩

/-- A stream to a path without a file, used in any order while nobody else touches the file.  Until
a failure fires, the file holds what was written before the last flush or close that succeeded,
where flushes publish; where closing publishes, there is none until then, and then it holds
everything that was written.  When a failure fires, nothing is added to the file if what the stream
held back is lost, all of that if it is persisted, and the first half of what a write should have
added too if it is torn; and this is what it holds ever after.  After a failure or a close, no use
changes any file or any failure that waits, and only closing does not fail.  A use succeeds if and
only if it is a closing, or there was no failure and no close before it and no failure fires. -/
theorem Used.publishes (h : Used path served stream memory) :
    (Unharmed served → memory.files.get? path = shown memory.publishing served) ∧
    (∀ (later earlier : List Served) (use : Use) (accepted : Bool) (fate : Fate),
      served = later ++ ⟨use, accepted, some fate⟩ :: earlier →
      Unharmed earlier ∧ ∃ buffered,
        written earlier = (shown memory.publishing earlier).getD [] ++ buffered ∧
        memory.files.get? path = grown
          (match fate with
            | .lost => []
            | .persisted => buffered
            | .torn => buffered ++ use.failing.take (use.failing.length / 2))
          (shown memory.publishing earlier)) ∧
    (¬Unharmed served ∨ Ended served → ∀ use : Use, (use.serve stream memory).2.2 = memory ∧
      (use ≠ .close → (use.serve stream memory).1 = false)) ∧
    ∀ use : Use, ∃ accepted fate stream' memory',
      use.serve stream memory = (accepted, stream', memory') ∧
      Used path (⟨use, accepted, fate⟩ :: served) stream' memory' ∧
      (accepted = true ↔ use = .close ∨ (Unharmed served ∧ ¬Ended served) ∧ fate = none) := by
  obtain ⟨htracks, rfl⟩ := h.tracks
  refine ⟨htracks.file_eq, ?_, ?_, ?_⟩
  · intro later earlier use accepted fate heq
    obtain ⟨hunharmed, buffered, hbuffered, hfile⟩ := htracks.left heq
    refine ⟨hunharmed, buffered, hbuffered, hfile.trans ?_⟩
    cases fate <;> rfl
  · intro hover use
    have hspent : stream.phase ≠ .live := by
      intro hlive
      obtain ⟨hunharmed, hopen⟩ := htracks.live_iff.1 hlive
      exact hover.elim (absurd hunharmed) (absurd · hopen)
    obtain ⟨hsame, hrefused⟩ := use.serve_of_not_live hspent memory
    exact ⟨hsame, fun huse => by rw [hrefused huse]⟩
  · intro use
    obtain ⟨accepted, fate, stream', memory', hgoes⟩ := exists_goes use stream memory
    refine ⟨accepted, fate, stream', memory', hgoes.serve_eq,
      h.served hgoes.serve_eq hgoes.fires, ?_⟩
    rw [← htracks.live_iff]
    exact hgoes.accepted_iff

/-- Two octets are written and flushed, and a third is written; then half of the next three comes
behind them, and closing adds nothing. -/
theorem publishes_torn : ∃ stream memory,
    Used "a" [⟨.close, true, none⟩, ⟨.write [4, 5, 6], false, some .torn⟩,
      ⟨.write [3], true, none⟩, ⟨.flush, true, none⟩, ⟨.write [1, 2], true, none⟩] stream memory ∧
        memory.files.get? "a" = some [1, 2, 3, 4] := by
  let holding (contents : Bytes) (faults : List Fault) : Memory :=
    ⟨.onFlush, PathMap.empty.insert "a" contents, faults⟩
  have hcreate : Memory.create "a" ⟨.onFlush, .empty, [.write 2 .torn]⟩ =
      .ok ⟨"a", [], .live⟩ (holding [] [.write 2 .torn]) := by
    rfl
  have hwrite : (Use.write [1, 2]).serve ⟨"a", [], .live⟩ (holding [] [.write 2 .torn]) =
      (true, ⟨"a", [1, 2], .live⟩, holding [] [.write 1 .torn]) := by
    rfl
  have hflush : Use.flush.serve ⟨"a", [1, 2], .live⟩ (holding [] [.write 1 .torn]) =
      (true, ⟨"a", [], .live⟩, holding [1, 2] [.write 1 .torn]) := by
    rfl
  have hwrite' : (Use.write [3]).serve ⟨"a", [], .live⟩ (holding [1, 2] [.write 1 .torn]) =
      (true, ⟨"a", [3], .live⟩, holding [1, 2] [.write 0 .torn]) := by
    rfl
  have hbreak : (Use.write [4, 5, 6]).serve ⟨"a", [3], .live⟩ (holding [1, 2] [.write 0 .torn]) =
      (false, ⟨"a", [], .broken⟩, holding [1, 2, 3, 4] []) := by
    rfl
  have hclose : Use.close.serve ⟨"a", [], .broken⟩ (holding [1, 2, 3, 4] []) =
      (true, ⟨"a", [], .closed⟩, holding [1, 2, 3, 4] []) := by
    rfl
  have hwritten : Used "a" [⟨.write [1, 2], true, none⟩] ⟨"a", [1, 2], .live⟩
      (holding [] [.write 1 .torn]) :=
    (Used.created (PathMap.get?_empty "a") hcreate).served hwrite rfl
  have hflushed : Used "a" [⟨.flush, true, none⟩, ⟨.write [1, 2], true, none⟩] ⟨"a", [], .live⟩
      (holding [1, 2] [.write 1 .torn]) :=
    hwritten.served hflush rfl
  have hwritten' : Used "a" [⟨.write [3], true, none⟩, ⟨.flush, true, none⟩,
      ⟨.write [1, 2], true, none⟩] ⟨"a", [3], .live⟩ (holding [1, 2] [.write 0 .torn]) :=
    hflushed.served hwrite' rfl
  have hbroken : Used "a" [⟨.write [4, 5, 6], false, some .torn⟩, ⟨.write [3], true, none⟩,
      ⟨.flush, true, none⟩, ⟨.write [1, 2], true, none⟩] ⟨"a", [], .broken⟩
      (holding [1, 2, 3, 4] []) :=
    hwritten'.served hbreak ⟨.write 0 .torn, rfl, List.Perm.refl _⟩
  have hclosed : Used "a" [⟨.close, true, none⟩, ⟨.write [4, 5, 6], false, some .torn⟩,
      ⟨.write [3], true, none⟩, ⟨.flush, true, none⟩, ⟨.write [1, 2], true, none⟩]
      ⟨"a", [], .closed⟩ (holding [1, 2, 3, 4] []) :=
    hbroken.served hclose rfl
  obtain ⟨-, buffered, hbuffered, hfile⟩ := hclosed.publishes.2.1 [_] _ _ _ _ rfl
  have hheld : buffered = [3] := (List.append_cancel_left hbuffered).symm
  exact ⟨_, _, hclosed, hfile.trans (by rw [hheld]; rfl)⟩

end Memory.Stream

end SegmentedJournal
