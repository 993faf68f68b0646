import SegmentedJournal.OpenLog
import SegmentedJournal.Proofs.Archive
import SegmentedJournal.Proofs.Observing
/-!
# Streams to the current log

`account.Feeds medium a p j stream` says that a stream to the log from `a` holds the entries from
`p` up to `j` back, and that those before `p` are in the file.  A failure may publish what was held
back, all of it or nothing, and half a frame behind it; either way the files end in whole entries
and a torn one, not before `p` and not after `j` (`Account.Durable`, `Feeds.ensures_write`,
`Feeds.ensures_flush`).
-/

namespace SegmentedJournal

open Memory (Stream)

namespace Memory

variable {path : String} {bytes contents : Bytes} {createMissing : Bool} {memory : Memory}

theorem files_publish_of_some (h : memory.files.get? path = some contents) :
    (memory.publish path bytes createMissing).files =
      memory.files.insert path (contents ++ bytes) := by
  refine PathMap.ext ?_
  intro other
  rw [get?_publish, h, published, PathMap.get?_insert]

theorem files_publish_of_none (h : memory.files.get? path = none) :
    (memory.publish path bytes true).files = memory.files.insert path bytes := by
  refine PathMap.ext ?_
  intro other
  rw [get?_publish, h, published, PathMap.get?_insert, if_pos rfl]

end Memory

namespace OpenLog

/-- A stream is let go after its closing, also after one that failed. -/
theorem ensures_closeStream (stream : Stream) (medium : Medium Memory)
    (Q : Unit → Medium Memory → Prop) (E : IoError → Medium Memory → Prop) :
    (closeStream stream : Action IoError (Medium Memory) Unit).Ensures medium Q E ↔
      (Medium.close : Action IoError (Stream × Medium Memory) Unit).Ensures (stream, medium)
        (fun _ (_, after) => Q () after) (fun e (_, after) => E e after) := by
  unfold Action.Ensures closeStream
  cases Medium.close (stream, medium) with
  | ok value state => rfl
  | error e state => cases e <;> rfl

/-- A stream that cannot be used has nothing to publish when it is closed. -/
theorem ensures_closeStream_of_not_live {stream : Stream} (h : stream.phase ≠ .live)
    (medium : Medium Memory) :
    (closeStream stream : Action IoError (Medium Memory) Unit).Ensures medium
      (fun _ after => Medium.Keeps medium after ∧ Medium.Untouched medium after)
      (fun _ after => Medium.Keeps medium after ∧ Medium.Untouched medium after) := by
  rw [ensures_closeStream, Medium.close, Action.ensures_bind, Action.ensures_onSecond]
  refine ((Medium.ensures_consult .close medium).and_leaves
    (Medium.observes_consult .close medium)).mono ?_ (fun _ _ h => h.1.elim)
  rintro fired after ⟨⟨-, hkeeps, -⟩, huntouched⟩
  rw [Action.ensures_ite]
  refine ⟨fun _ => ⟨hkeeps, huntouched⟩, ?_⟩
  intro _
  rw [Medium.ensures_onStream]
  cases hphase : stream.phase with
  | live => exact absurd hphase h
  | broken =>
      simp only [Storage.close, Stream.close, hphase]
      exact ⟨hkeeps, huntouched⟩
  | closed =>
      simp only [Storage.close, Stream.close, hphase]
      exact ⟨hkeeps, huntouched⟩

/-- Closing a stream publishes what it holds back; where the closing itself fails, nothing is
changed. -/
theorem ensures_closeStream_of_live {stream : Stream} (h : stream.phase = .live)
    (medium : Medium Memory) :
    (closeStream stream : Action IoError (Medium Memory) Unit).Ensures medium
      (fun _ after => Medium.Quieter medium after ∧ after.storage.files =
        (medium.storage.publish stream.path stream.pending
          (medium.storage.publishing = .onClose)).files)
      (fun _ after => Medium.Foiled medium after ∧
        ∃ armed ∈ medium.callFaults, armed.call = .close) := by
  rw [ensures_closeStream, Medium.close, Action.ensures_bind, Action.ensures_onSecond]
  refine (Medium.ensures_consult .close medium).mono ?_ (fun _ _ h => h.elim)
  rintro fired after ⟨hstorage, hkeeps, hfired⟩
  rw [Action.ensures_ite]
  refine ⟨hfired, ?_⟩
  intro _
  rw [Medium.ensures_onStream]
  simp only [Storage.close, Stream.close, h]
  refine ⟨hkeeps.toQuieter.trans (Medium.quieter_storage (Memory.publishing_publish ..)
    (Nat.le_of_eq (congrArg List.length (Memory.faults_publish ..)))), ?_⟩
  rw [hstorage]

end OpenLog

namespace Account

variable {account : Account} {files : PathMap Bytes} {current : Option Segment} {a p j m : Nat}
  {medium after : Medium Memory} {stream stream' : Stream} {tail : Bytes}

/-- The files hold what they should up to `a`, and whole entries up to `m` in the current log, with
a torn one behind them. -/
structure Durable (account : Account) (files : PathMap Bytes) (current : Option Segment)
    (a m : Nat) : Prop where
  /-- The files hold what they should up to `a`. -/
  stands : account.Stands files current a
  /-- The log does not end before it starts. -/
  le : a ≤ m
  /-- Without a current log there is nothing behind `a`. -/
  absent : current = none → m = a
  /-- The current log holds its entries and a torn one. -/
  present : ∀ log ∈ current, ∃ tail, Frame.Torn tail ∧
    files.get? log.location = some (account.ledger.frames a m ++ tail)

/-- A stream to the log from `a` holds the entries from `p` up to `j` back. -/
structure Feeds (account : Account) (medium : Medium Memory) (a p j : Nat) (stream : Stream) :
    Prop where
  /-- The stream is to the log. -/
  path_eq : stream.path = (account.logFrom a).location
  /-- It can be used. -/
  live : stream.phase = .live
  /-- It holds the entries back. -/
  pending_eq : stream.pending = account.ledger.frames p j
  /-- What is published starts with the log. -/
  le_left : a ≤ p
  /-- What is held back comes behind it. -/
  le_right : p ≤ j
  /-- Where flushes publish, the log is there and holds the entries before `p`. -/
  flushed : medium.storage.publishing = .onFlush →
    account.Stands medium.storage.files (some (account.logFrom a)) a ∧
      medium.storage.files.get? (account.logFrom a).location = some (account.ledger.frames a p)
  /-- Where only closing publishes, the log is not there yet. -/
  held : medium.storage.publishing = .onClose →
    account.Stands medium.storage.files none a ∧ p = a

theorem durable_none (h : account.Stands files none a) : account.Durable files none a a :=
  ⟨h, Nat.le_refl a, fun _ => rfl, fun _ hnone => (by cases hnone)⟩

theorem durable_some {log : Segment} (h : account.Stands files (some log) a) (ham : a ≤ m)
    (htail : Frame.Torn tail)
    (hget : files.get? log.location = some (account.ledger.frames a m ++ tail)) :
    account.Durable files (some log) a m := by
  refine ⟨h, ham, fun hnone => (by cases hnone), ?_⟩
  rintro _ ⟨⟩
  exact ⟨tail, htail, hget⟩

namespace Feeds

/-- What is published is durable. -/
theorem durable (h : account.Feeds medium a p j stream) :
    ∃ current, account.Durable medium.storage.files current a p := by
  cases hpublishing : medium.storage.publishing with
  | onFlush =>
      obtain ⟨hstands, hget⟩ := h.flushed hpublishing
      exact ⟨_, durable_some hstands h.le_left Frame.torn_nil (by rw [hget, List.append_nil])⟩
  | onClose =>
      obtain ⟨hstands, rfl⟩ := h.held hpublishing
      exact ⟨_, durable_none hstands⟩

/-- What is held back becomes durable if the file gets it, with a torn frame or without. -/
theorem publish (h : account.Feeds medium a p j stream) (tail : Bytes) (memory : Memory)
    (createMissing : Bool) (hfiles : memory.files = medium.storage.files)
    (hmissing : medium.storage.publishing = .onClose → createMissing = true) :
    account.Stands (memory.publish stream.path (account.ledger.frames p j ++ tail)
        createMissing).files (some (account.logFrom a)) a ∧
      (memory.publish stream.path (account.ledger.frames p j ++ tail) createMissing).files.get?
        (account.logFrom a).location = some (account.ledger.frames a j ++ tail) := by
  rw [h.path_eq]
  cases hpublishing : medium.storage.publishing with
  | onFlush =>
      obtain ⟨hstands, hget⟩ := h.flushed hpublishing
      rw [← hfiles] at hstands hget
      rw [Memory.files_publish_of_some hget, ← List.append_assoc,
        Ledger.frames_append h.le_left h.le_right]
      exact ⟨hstands.rewrite _, by simp⟩
  | onClose =>
      obtain ⟨hstands, rfl⟩ := h.held hpublishing
      rw [← hfiles] at hstands
      rw [hmissing hpublishing, Memory.files_publish_of_none (hstands.absent_logFrom hstands.bound)]
      exact ⟨hstands.begin _, by simp⟩

end Feeds

/-! ### Failures of streams -/

/-- A fate leaves nothing of a failing stream, or all it held back, with a torn frame or without. -/
theorem survivors_eq {failing : Bytes} (fate : Fate) (pending : Bytes)
    (hfailing : Frame.Torn (failing.take (failing.length / 2))) :
    fate.survivors pending failing = [] ∨
      ∃ tail, Frame.Torn tail ∧ fate.survivors pending failing = pending ++ tail := by
  cases fate with
  | persisted => exact .inr ⟨[], Frame.torn_nil, (List.append_nil pending).symm⟩
  | lost => exact .inl rfl
  | torn => exact .inr ⟨_, hfailing, rfl⟩

/-- The end of a stream that failed: it cannot be used again, a failure was used up, and the files
end somewhere in what it held back. -/
structure Broken (account : Account) (medium after : Medium Memory) (p j : Nat) (stream : Stream) :
    Prop where
  /-- The stream cannot be used. -/
  broken : stream.phase ≠ .live
  /-- A failure was used up. -/
  fired : Medium.Fired medium after
  /-- The files end somewhere in what it held back. -/
  durable : ∃ current a m, account.Durable after.storage.files current a m ∧ p ≤ m ∧ m ≤ j

theorem Feeds.fail {faults : List Fault} (h : account.Feeds medium a p j stream)
    (operation : String) (fate : Fate) (failing : Bytes)
    (hfailing : Frame.Torn (failing.take (failing.length / 2)))
    (hfaults : faults.length + 1 = medium.storage.faults.length) :
    ∃ error storage, Stream.fail operation fate failing
        (stream, { medium.storage with faults }) =
          .error error ({ stream with pending := [], phase := .broken }, storage) ∧
      account.Broken medium { medium with storage } p j
        { stream with pending := [], phase := .broken } := by
  refine ⟨_, _, rfl, fun hlive => (by cases hlive), ?_, ?_⟩
  · refine Medium.fired_storage ?_ ?_
    · dsimp only
      split
      · rfl
      · exact Memory.publishing_publish ..
    · dsimp only
      split
      · exact hfaults
      · rw [Memory.faults_publish]
        exact hfaults
  · dsimp only
    rw [h.pending_eq]
    -- The files end as before, or with everything that was held back.
    rcases survivors_eq fate (account.ledger.frames p j) hfailing with heq | ⟨tail, htail, heq⟩
    · rw [if_pos heq]
      obtain ⟨current, hdurable⟩ := h.durable
      exact ⟨current, a, p, hdurable, Nat.le_refl p, h.le_right⟩
    · obtain ⟨hstands, hget⟩ := h.publish tail { medium.storage with faults } true rfl
        fun _ => rfl
      split
      · obtain ⟨current, hdurable⟩ := h.durable
        exact ⟨current, a, p, hdurable, Nat.le_refl p, h.le_right⟩
      · rw [heq]
        exact ⟨_, a, j, durable_some hstands (Nat.le_trans h.le_left h.le_right) htail hget,
          h.le_right, Nat.le_refl j⟩

/-! ### Operations on streams -/

theorem Feeds.refusal?_eq (h : account.Feeds medium a p j stream) : stream.refusal? = none := by
  rw [Stream.refusal?, h.live]

/-- An entry is held back behind the others, or the stream breaks. -/
theorem Feeds.ensures_write {entry : Entry} (h : account.Feeds medium a p j stream)
    (hfits : entry.Fits) :
    (Medium.write entry.encode).Ensures (stream, medium)
      (fun _ (stream', after) => Medium.Keeps medium after ∧
        (entry = account.ledger.entry j → account.Feeds after a p (j + 1) stream'))
      (fun _ (stream', after) => account.Broken medium after p j stream') := by
  have hne : entry.encode.isEmpty = false := by
    rw [List.isEmpty_eq_false_iff]
    exact entry.encode_ne_nil
  rw [Medium.write, hne, if_neg Bool.false_ne_true, Medium.ensures_onStream]
  simp only [Storage.write, Stream.write, h.refusal?_eq]
  cases htake : Fault.takeWrite medium.storage.faults with
  | mk fired faults =>
    cases fired with
    | some fate =>
        obtain ⟨error, storage, hfail, hbroken⟩ := h.fail "write" fate
          entry.encode (Frame.torn_half hfits) (Fault.length_of_takeWrite htake)
        simp only [hfail]
        exact hbroken
    | none =>
        refine ⟨⟨Medium.quieter_storage rfl ?_, rfl⟩, ?_⟩
        · exact Nat.le_of_eq (Fault.length_of_takeWrite htake)
        · rintro rfl
          refine ⟨h.path_eq, h.live, ?_, h.le_left, Nat.le_succ_of_le h.le_right, h.flushed,
            h.held⟩
          show stream.pending ++ _ = _
          rw [h.pending_eq, Ledger.frames_succ h.le_right]

/-- A flush publishes what is held back, where it publishes anything. -/
theorem Feeds.ensures_flush (h : account.Feeds medium a p j stream) :
    (Medium.flush : Action IoError (Stream × Medium Memory) Unit).Ensures (stream, medium)
      (fun _ (stream', after) => Medium.Quieter medium after ∧
        (medium.storage.publishing = .onFlush ∧ account.Feeds after a j j stream' ∨
          medium.storage.publishing = .onClose ∧ account.Feeds after a p j stream'))
      (fun _ (stream', after) => medium.storage.publishing = .onFlush ∧
        account.Broken medium after p j stream') := by
  rw [Medium.flush, Medium.ensures_onStream]
  simp only [Storage.flush, Stream.flush, h.refusal?_eq]
  cases hpublishing : medium.storage.publishing with
  | onClose => exact ⟨.refl medium, .inr ⟨rfl, h⟩⟩
  | onFlush =>
      cases htake : Fault.takeFlush medium.storage.faults with
      | mk fired faults =>
        cases fired with
        | some fate =>
            obtain ⟨error, storage, hfail, hbroken⟩ := h.fail "flush" fate [] Frame.torn_nil
              (Fault.length_of_takeFlush htake)
            simp only [hpublishing] at hfail
            simp only [hfail, true_and]
            exact hbroken
        | none =>
            refine ⟨Medium.quieter_storage ?_ ?_, .inl ⟨rfl, h.path_eq, h.live, ?_, ?_,
              Nat.le_refl j, ?_, ?_⟩⟩
            · exact (Memory.publishing_publish ..).trans hpublishing.symm
            · rw [Memory.faults_publish]
              exact Nat.le_of_eq (Fault.length_of_takeFlush htake)
            · simp
            · exact Nat.le_trans h.le_left h.le_right
            · intro _
              obtain ⟨hstands, hget⟩ := h.publish [] { medium.storage with faults }
                false rfl (fun hclose => by
                  rw [hpublishing] at hclose
                  cases hclose)
              simp only [List.append_nil, ← h.pending_eq, hpublishing] at hstands hget
              exact ⟨hstands, hget⟩
            · intro hclose
              rw [Memory.publishing_publish] at hclose
              cases hclose

/-- Closing publishes what is held back; where the closing itself fails, nothing is changed. -/
theorem Feeds.ensures_closeStream (h : account.Feeds medium a p j stream) (htame : medium.Tame) :
    (OpenLog.closeStream stream : Action IoError (Medium Memory) Unit).Ensures medium
      (fun _ after => Medium.Quieter medium after ∧
        account.Stands after.storage.files (some (account.logFrom a)) a ∧
        after.storage.files.get? (account.logFrom a).location =
          some (account.ledger.frames a j))
      (fun _ after => medium.storage.publishing = .onFlush ∧ Medium.Foiled medium after) := by
  refine (OpenLog.ensures_closeStream_of_live h.live medium).mono ?_ ?_
  · rintro _ after ⟨hquieter, hfiles⟩
    obtain ⟨hstands, hget⟩ := h.publish [] medium.storage
      (decide (medium.storage.publishing = .onClose)) rfl (fun hclose => by simp [hclose])
    simp only [List.append_nil, ← h.pending_eq, ← hfiles] at hstands hget
    exact ⟨hquieter, hstands, hget⟩
  · -- On a tame medium a closing fails only where flushes publish.
    rintro _ after ⟨hfoiled, armed, harmed, hcall⟩
    exact ⟨(htame armed harmed).2.2 hcall, hfoiled⟩

end Account

end SegmentedJournal
