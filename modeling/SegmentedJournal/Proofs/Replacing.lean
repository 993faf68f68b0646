import SegmentedJournal.Proofs.Publication
/-!
# Replacing a file

A file that is made at a path should take the place of one that is there: when its stream is closed,
it should hold what the stream took and nothing else.  `Memory.Stream.Filled` says that a stream was
made for a path and took some buffers, with flushes anywhere between them, while no failure fired
and nobody else touched the file at the path; other files may have been touched, but not those at
paths that are `still`.

What closing the stream would leave in the file is known all along (`Memory.Stream.Collects`): a
write adds to it and a flush does not change it (`Memory.Stream.Collects.goes`).  Where flushes
publish, it begins empty, since making a file empties one that is there.  Where closing publishes,
making a file does not touch one that is there, and the octets of the stream come behind its own
(`Memory.Stream.retained`).  So a file is replaced if and only if flushes publish or there was
nothing to replace (`Memory.Stream.Filled.replaces_iff`).
-/

namespace SegmentedJournal

namespace Memory

variable {path other : String}

/-- Octets can be added at once or one after another. -/
theorem published_append {bytes contents : Bytes} {createMissing : Bool} {file : Option Bytes}
    (h : published bytes createMissing file = some contents) (more : Bytes) :
    published (bytes ++ more) createMissing file = some (contents ++ more) := by
  cases file with
  | some front =>
      cases h
      exact congrArg some (List.append_assoc front bytes more).symm
  | none =>
      cases createMissing with
      | false => cases h
      | true =>
          cases h
          rfl

/-- Nothing is added to a file when nothing is pending. -/
theorem published_nil (file : Option Bytes) : published [] false file = file := by
  cases file <;> simp [published]

namespace Stream

variable {still : String → Prop} {origin memory memory' : Memory} {stream stream' : Stream}
  {use : Use} {accepted : Bool} {taken : Bytes} {buffers : List Bytes}

/-! ### Other files -/

/-- No use of a stream touches another file. -/
theorem Use.get?_serve_of_ne (hne : stream.path ≠ other) (use : Use) (memory : Memory) :
    (use.serve stream memory).2.2.files.get? other = memory.files.get? other := by
  by_cases hlive : stream.phase = .live
  · have husable := refusal?_eq_none_iff.2 hlive
    cases use with
    | write bytes =>
        cases htake : Fault.takeWrite memory.faults with
        | mk fired rest =>
          cases fired with
          | none => simp only [serve, run, Stream.write, husable, htake]
          | some fate =>
              obtain ⟨e, broken, hfail, -, hsame, -⟩ :=
                fail_run "write" fate bytes stream { memory with faults := rest }
              simp only [serve, run, Stream.write, husable, htake, hfail]
              exact hsame other hne
    | flush =>
        cases hwhen : memory.publishing with
        | onClose => simp only [serve, run, Stream.flush, husable, hwhen]
        | onFlush =>
            cases htake : Fault.takeFlush memory.faults with
            | mk fired rest =>
              cases fired with
              | none =>
                  simp only [serve, run, Stream.flush, husable, hwhen, htake]
                  rw [get?_publish, if_neg hne]
              | some fate =>
                  obtain ⟨e, broken, hfail, -, hsame, -⟩ :=
                    fail_run "flush" fate [] stream { memory with faults := rest }
                  simp only [hwhen] at hfail
                  simp only [serve, run, Stream.flush, husable, hwhen, htake, hfail]
                  exact hsame other hne
    | close => rw [serve_close_of_live hlive, get?_publish, if_neg hne]
  · rw [(use.serve_of_not_live hlive memory).1]

/-! ### Streams that are being filled -/

/-- A stream was made for a path, whatever was there, and took buffers while no failure fired.
Others may do what they like but touch the file, or one at a path that is still. -/
inductive Filled (still : String → Prop) (path : String) (origin : Memory) :
    List Bytes → Stream → Memory → Prop
  /-- The stream was made. -/
  | created {stream : Stream} {memory : Memory}
      (hcreate : Memory.create path origin = .ok stream memory) :
      Filled still path origin [] stream memory
  /-- It was asked to take a buffer. -/
  | wrote {buffers : List Bytes} {bytes : Bytes} {stream stream' : Stream}
      {memory memory' : Memory} {accepted : Bool}
      (h : Filled still path origin buffers stream memory)
      (hserve : (Use.write bytes).serve stream memory = (accepted, stream', memory'))
      (hcalm : Fires (.write bytes) memory.faults memory'.faults none) :
      Filled still path origin (buffers ++ [bytes]) stream' memory'
  /-- It was flushed. -/
  | flushed {buffers : List Bytes} {stream stream' : Stream} {memory memory' : Memory}
      {accepted : Bool} (h : Filled still path origin buffers stream memory)
      (hserve : Use.flush.serve stream memory = (accepted, stream', memory'))
      (hcalm : Fires .flush memory.faults memory'.faults none) :
      Filled still path origin buffers stream' memory'
  /-- Something happened elsewhere. -/
  | elsewhere {buffers : List Bytes} {stream : Stream} {memory memory' : Memory}
      (h : Filled still path origin buffers stream memory)
      (hfile : memory'.files.get? path = memory.files.get? path)
      (hstill : ∀ other, still other → memory'.files.get? other = memory.files.get? other)
      (hpublishing : memory'.publishing = memory.publishing) :
      Filled still path origin buffers stream memory'

/-- What an old file at a path leaves in front of a new one. -/
def retained (path : String) (origin : Memory) : Bytes :=
  match origin.publishing with
  | .onFlush => []
  | .onClose => (origin.files.get? path).getD []

theorem retained_eq_nil_iff : retained path origin = [] ↔
    origin.publishing = .onFlush ∨ ∀ contents ∈ origin.files.get? path, contents = [] := by
  unfold retained
  cases origin.publishing with
  | onFlush => simp
  | onClose => cases origin.files.get? path <;> simp

/-- A stream can be used, and closing it would leave what is retained and, behind that, what it
took. -/
structure Collects (still : String → Prop) (path : String) (origin : Memory) (taken : Bytes)
    (stream : Stream) (memory : Memory) : Prop where
  /-- The stream can be used. -/
  live : stream.phase = .live
  /-- It is a stream to the file. -/
  path_eq : stream.path = path
  /-- What publishes remains so. -/
  publishing_eq : memory.publishing = origin.publishing
  /-- The file with what is pending is what it should be. -/
  due : published stream.pending (memory.publishing = .onClose) (memory.files.get? path) =
    some (retained path origin ++ taken)
  /-- Files that nobody else touches are as they were. -/
  others : ∀ other, still other → other ≠ path →
    memory.files.get? other = origin.files.get? other

/-- A use in which no failure fires adds to what closing the stream would leave. -/
theorem Turn.due {publishing : Publishing} {file file' : Option Bytes} {contents : Bytes}
    (h : Turn publishing stream file ⟨use, accepted, none⟩ stream' file')
    (hlive : stream.phase = .live) (huse : use ≠ .close)
    (hdue : published stream.pending (publishing = .onClose) file = some contents) :
    stream'.phase = .live ∧
      published stream'.pending (publishing = .onClose) file' = some (contents ++ use.failing) := by
  cases h with
  | takes _ => exact ⟨hlive, published_append hdue _⟩
  | publishes _ hwhen =>
      subst hwhen
      refine ⟨hlive, ?_⟩
      show published [] false (published stream.pending false file) = _
      rw [published_nil]
      exact hdue.trans (congrArg some (List.append_nil contents).symm)
  | waits _ _ => exact ⟨hlive, hdue.trans (congrArg some (List.append_nil contents).symm)⟩
  | closes _ => exact absurd rfl huse
  | refuses hspent _ => exact absurd hlive hspent
  | recloses hspent _ _ => exact absurd hlive hspent

namespace Collects

/-- A stream that was made took nothing. -/
theorem of_create (hcreate : Memory.create path origin = .ok stream memory) :
    Collects still path origin [] stream memory := by
  unfold Memory.create at hcreate
  split at hcreate
  · cases hcreate
  · split at hcreate
    · next hpublishing =>
      cases hcreate
      refine ⟨rfl, rfl, rfl, ?_, ?_⟩
      · simp [hpublishing, retained, published]
      · intro other _ hne
        simp [hne.symm]
    · next hpublishing =>
      cases hcreate
      refine ⟨rfl, rfl, rfl, ?_, fun _ _ _ => rfl⟩
      cases hfile : origin.files.get? path with
      | none => simp [hpublishing, hfile, retained, published]
      | some contents => simp [hpublishing, hfile, retained, published]

/-- A use in which no failure fires succeeds, and the stream collects what it was asked to take. -/
theorem goes (h : Collects still path origin taken stream memory) (huse : use ≠ .close)
    (hgoes : Goes use stream memory accepted none stream' memory') :
    accepted = true ∧ Collects still path origin (taken ++ use.failing) stream' memory' := by
  obtain ⟨hlive, rfl, hpublishing, hdue, hothers⟩ := h
  obtain ⟨hlive', hdue'⟩ := hgoes.turn.due hlive huse hdue
  refine ⟨hgoes.accepted_iff.2 (.inr ⟨hlive, rfl⟩), hlive', hgoes.path_eq,
    hgoes.publishing_eq.trans hpublishing, ?_, ?_⟩
  · rw [hgoes.publishing_eq, hdue', List.append_assoc]
  · intro other hstill hne
    have hsame := use.get?_serve_of_ne hne.symm memory
    rw [hgoes.serve_eq] at hsame
    exact hsame.trans (hothers other hstill hne)

end Collects

/-- A stream that is being filled collects the buffers. -/
theorem Filled.collects (h : Filled still path origin buffers stream memory) :
    Collects still path origin buffers.flatten stream memory := by
  induction h with
  | created hcreate => exact .of_create hcreate
  | wrote _ hserve hcalm ih =>
      have hgoes := goes_of_serve hserve hcalm
      rw [List.flatten_append, List.flatten_singleton]
      exact (ih.goes (fun h => by cases h) hgoes).2
  | flushed _ hserve hcalm ih =>
      have hgoes := goes_of_serve hserve hcalm
      rw [← List.append_nil (List.flatten _)]
      exact (ih.goes (fun h => by cases h) hgoes).2
  | elsewhere _ hfile hstill hpublishing ih =>
      refine ⟨ih.live, ih.path_eq, hpublishing.trans ih.publishing_eq, ?_, ?_⟩
      · rw [hpublishing, hfile, ih.due]
      · intro other hother hne
        rw [hstill other hother, ih.others other hother hne]

/-- A file is made at a path and filled with buffers, with flushes anywhere between them, while no
failure fires and nobody else touches the file.  Nothing fails on the way, nor does closing the
stream; then the file holds what is retained of an old one and the buffers behind it, one after
another, and every other file that nobody else touched is as it was.  So the file holds the buffers
alone if and only if flushes publish, or there was no file at the path, or an empty one. -/
theorem Filled.replaces_iff (h : Filled still path origin buffers stream memory) :
    (∃ stream' memory', Use.close.serve stream memory = (true, stream', memory') ∧
      memory'.files.get? path = some (retained path origin ++ buffers.flatten) ∧
      (memory'.files.get? path = some buffers.flatten ↔
        origin.publishing = .onFlush ∨ ∀ contents ∈ origin.files.get? path, contents = []) ∧
      ∀ other, still other → other ≠ path →
        memory'.files.get? other = origin.files.get? other) ∧
    ∀ use : Use, use ≠ .close → ∃ accepted fate stream' memory',
      use.serve stream memory = (accepted, stream', memory') ∧
      Fires use memory.faults memory'.faults fate ∧ (fate = none → accepted = true) := by
  obtain ⟨hlive, rfl, -, hdue, hothers⟩ := h.collects
  refine ⟨⟨_, _, serve_close_of_live hlive memory, ?_⟩, ?_⟩
  · have hfile : (memory.publish stream.path stream.pending
        (memory.publishing = .onClose)).files.get? stream.path =
          some (retained stream.path origin ++ buffers.flatten) := by
      rw [get?_publish, if_pos rfl, hdue]
    refine ⟨hfile, ?_, ?_⟩
    · rw [hfile, ← retained_eq_nil_iff, Option.some.injEq, List.append_left_eq_self]
    · intro other hstill hne
      rw [get?_publish, if_neg hne.symm, hothers other hstill hne]
  · intro use huse
    obtain ⟨accepted, fate, stream', memory', hgoes⟩ := exists_goes use stream memory
    refine ⟨accepted, fate, stream', memory', hgoes.serve_eq, hgoes.fires, ?_⟩
    rintro rfl
    exact (h.collects.goes huse hgoes).1

/-- Two files, one of which is going to be replaced. -/
def twoFiles (contents : Bytes) : PathMap Bytes :=
  (PathMap.empty.insert "b" [9]).insert "a" contents

/-- A file is replaced, with a flush between two buffers, and the one beside it stays. -/
theorem replaces_iff_flushed : ∃ stream memory,
    Filled (fun _ => True) "a" ⟨.onFlush, twoFiles [1], [.delete]⟩ [[2, 3], [4]] stream memory ∧
      ∃ stream' memory', Use.close.serve stream memory = (true, stream', memory') ∧
        memory'.files.get? "a" = some [2, 3, 4] ∧ memory'.files.get? "b" = some [9] := by
  have hcreate : Memory.create "a" ⟨.onFlush, twoFiles [1], [.delete]⟩ =
      .ok ⟨"a", [], .live⟩ ⟨.onFlush, twoFiles [], [.delete]⟩ := by
    rfl
  have hwrite : (Use.write [2, 3]).serve ⟨"a", [], .live⟩ ⟨.onFlush, twoFiles [], [.delete]⟩ =
      (true, ⟨"a", [2, 3], .live⟩, ⟨.onFlush, twoFiles [], [.delete]⟩) := by
    rfl
  have hflush : Use.flush.serve ⟨"a", [2, 3], .live⟩ ⟨.onFlush, twoFiles [], [.delete]⟩ =
      (true, ⟨"a", [], .live⟩, ⟨.onFlush, twoFiles [2, 3], [.delete]⟩) := by
    rfl
  have hwrite' : (Use.write [4]).serve ⟨"a", [], .live⟩ ⟨.onFlush, twoFiles [2, 3], [.delete]⟩ =
      (true, ⟨"a", [4], .live⟩, ⟨.onFlush, twoFiles [2, 3], [.delete]⟩) := by
    rfl
  have hfilled : Filled (fun _ => True) "a" ⟨.onFlush, twoFiles [1], [.delete]⟩ [[2, 3], [4]]
      ⟨"a", [4], .live⟩ ⟨.onFlush, twoFiles [2, 3], [.delete]⟩ :=
    (((Filled.created hcreate).wrote hwrite rfl).flushed hflush rfl).wrote hwrite' rfl
  obtain ⟨⟨stream', memory', hclose, hfile, -, hothers⟩, -⟩ := hfilled.replaces_iff
  exact ⟨_, _, hfilled, stream', memory', hclose, hfile,
    (hothers "b" trivial (by decide)).trans rfl⟩

/-- An object of one octet is not replaced: what the stream took comes behind it. -/
theorem grown_behind_old : ∃ stream memory,
    Filled (fun _ => True) "a" ⟨.onClose, PathMap.empty.insert "a" [1], []⟩ [[2]] stream memory ∧
      ∃ stream' memory', Use.close.serve stream memory = (true, stream', memory') ∧
        memory'.files.get? "a" = some [1, 2] ∧
        memory'.files.get? "a" ≠ some (List.flatten [[2]]) := by
  have hcreate : Memory.create "a" ⟨.onClose, PathMap.empty.insert "a" [1], []⟩ =
      .ok ⟨"a", [], .live⟩ ⟨.onClose, PathMap.empty.insert "a" [1], []⟩ := by
    rfl
  have hwrite : (Use.write [2]).serve ⟨"a", [], .live⟩
      ⟨.onClose, PathMap.empty.insert "a" [1], []⟩ =
        (true, ⟨"a", [2], .live⟩, ⟨.onClose, PathMap.empty.insert "a" [1], []⟩) := by
    rfl
  have hclose : Use.close.serve ⟨"a", [2], .live⟩ ⟨.onClose, PathMap.empty.insert "a" [1], []⟩ =
      (true, ⟨"a", [], .closed⟩, ⟨.onClose, PathMap.empty.insert "a" [1, 2], []⟩) := by
    rfl
  exact ⟨_, _, (Filled.created hcreate).wrote hwrite rfl, _, _, hclose, by decide, by decide⟩

end Stream

end Memory

end SegmentedJournal
