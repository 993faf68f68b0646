import SegmentedJournal.Proofs.Recovery
import SegmentedJournal.Writer
/-!
# Operations on open logs

What a writer does to the log it has open, read off what that does to the log's stream.  What each
entry keeps that is appended, all of them keep (`OpenLog.ensures_writeAll`).  Entries are appended
in order or the stream breaks on the way (`Feeds.ensures_append`, `Feeds.ensures_appendAll`); a log
is committed with its entries, from its stream or, once that is closed, from its file
(`Feeds.ensures_commit`, `Durable.ensures_commit`); and a stream that cannot be used is given up
without a trace (`OpenLog.ensures_abandon`).
-/

namespace SegmentedJournal

open Memory (Stream)
open Medium (Fired Foiled Keeps Quieter)

namespace OpenLog

variable {α : Type}

section

variable {σ η : Type}

theorem endsIn_onStream (stream : η) (wrap : IoError → JournalError)
    (x : Action IoError (η × Medium σ) α) (log : OpenLog η) (medium : Medium σ)
    (Q : α → OpenLog η × Medium σ → Prop) (E : JournalError → OpenLog η × Medium σ → Prop)
    (K : OpenLog η × Medium σ → Prop) :
    (onStream stream wrap x).EndsIn (log, medium) Q E K ↔ x.EndsIn (stream, medium)
      (fun value s => Q value ({ log with stream := some s.1 }, s.2))
      (fun e s => E (wrap e) ({ log with stream := some s.1 }, s.2))
      (fun s => K ({ log with stream := some s.1 }, s.2)) := by
  rw [onStream, Action.endsIn_zoom, Action.endsIn_mapError]

theorem ensures_onStream (stream : η) (wrap : IoError → JournalError)
    (x : Action IoError (η × Medium σ) α) (log : OpenLog η) (medium : Medium σ)
    (Q : α → OpenLog η × Medium σ → Prop) (E : JournalError → OpenLog η × Medium σ → Prop) :
    (onStream stream wrap x).Ensures (log, medium) Q E ↔ x.Ensures (stream, medium)
      (fun value s => Q value ({ log with stream := some s.1 }, s.2))
      (fun e s => E (wrap e) ({ log with stream := some s.1 }, s.2)) :=
  endsIn_onStream stream wrap x log medium Q E fun _ => False

theorem ensures_takeStream (log : OpenLog η) (medium : Medium σ)
    (Q : Option η → OpenLog η × Medium σ → Prop)
    (E : JournalError → OpenLog η × Medium σ → Prop) :
    takeStream.Ensures (log, medium) Q E ↔ Q log.stream ({ log with stream := none }, medium) :=
  Iff.rfl

/-- What holds of the entries appended so far, and is kept by each one that follows, holds of all
of them in the end. -/
theorem ensures_writeAll [Storage σ η] {entries : List Entry}
    {I : List Entry → OpenLog η × Medium σ → Prop} {E : JournalError → OpenLog η × Medium σ → Prop}
    {s : OpenLog η × Medium σ}
    (hstep : ∀ before entry rest s, entries = before ++ entry :: rest → I before s →
      (write entry).Ensures s (fun _ s' => I (before ++ [entry]) s') E)
    (hstart : I [] s) : (writeAll entries).Ensures s (fun _ s' => I entries s') E := by
  suffices hrest : ∀ rest before s, entries = before ++ rest → I before s →
      (writeAll rest).Ensures s (fun _ s' => I entries s') E from hrest entries [] s rfl hstart
  intro rest
  induction rest with
  | nil =>
      intro before s heq hbefore
      rw [heq, List.append_nil]
      exact hbefore
  | cons entry rest ih =>
      intro before s heq hbefore
      rw [writeAll, Action.ensures_bind]
      refine (hstep before entry rest s heq hbefore).mono (fun _ s' hafter => ?_) (fun _ _ h => h)
      exact ih (before ++ [entry]) s' (by rw [heq, List.append_assoc, List.singleton_append]) hafter

end

variable {log : OpenLog Stream} {stream : Stream} {medium : Medium Memory}

/-- The log has no stream that can be used. -/
def Adrift (log : OpenLog Stream) : Prop :=
  ∀ stream ∈ log.stream, stream.phase ≠ .live

/-- Giving up a log whose stream cannot be used leaves the medium untouched. -/
theorem ensures_abandon (h : log.Adrift) (medium : Medium Memory) :
    abandon.Ensures (log, medium)
      (fun _ s => s.1 = { log with stream := none } ∧ Keeps medium s.2 ∧
        Medium.Untouched medium s.2) (fun _ _ => False) := by
  rw [abandon, Action.ensures_bind, ensures_takeStream]
  cases hstream : log.stream with
  | none => exact ⟨rfl, .refl medium, .refl medium⟩
  | some stream =>
      dsimp only
      rw [Action.ensures_bind, Action.ensures_attempt, Action.ensures_onSecond]
      refine (ensures_closeStream_of_not_live (h stream hstream) medium).mono ?_ ?_
      · rintro _ after ⟨hkeeps, huntouched⟩
        exact ⟨rfl, hkeeps, huntouched⟩
      · rintro e after ⟨hkeeps, huntouched⟩
        dsimp only
        rw [Action.ensures_onSecond, Medium.ensures_warn]
        exact ⟨rfl, hkeeps.trans (Medium.keeps_warnings _ _),
          huntouched.trans (Medium.observes_warn (ε := JournalError) _ _)⟩

end OpenLog

namespace Account

variable {account : Account} {log : OpenLog Stream} {stream : Stream}
  {medium middle after : Medium Memory} {a p j n : Nat} {entry : Entry}

theorem Broken.mono {j' : Nat} (h : account.Broken medium after p j stream) (hj : j ≤ j') :
    account.Broken medium after p j' stream := by
  obtain ⟨current, a, m, hdurable, hp, hm⟩ := h.durable
  exact ⟨h.broken, h.fired, current, a, m, hdurable, hp, Nat.le_trans hm hj⟩

theorem Broken.after_keeps (h : account.Broken middle after p j stream)
    (hkeeps : Keeps medium middle) : account.Broken medium after p j stream :=
  ⟨h.broken, hkeeps.toQuieter.fired h.fired, h.durable⟩

namespace Feeds

/-- An entry is appended to the log, or its stream breaks. -/
theorem ensures_append (h : account.Feeds medium a p j stream) (hstream : log.stream = some stream)
    (hfits : entry.Fits) :
    (OpenLog.write entry).Ensures (log, medium)
      (fun _ s => Keeps medium s.2 ∧ ∃ stream', s.1 = { log with
          stream := some stream', written := log.written + entry.encodedLength } ∧
        (entry = account.ledger.entry j → account.Feeds s.2 a p (j + 1) stream'))
      (fun e s => e.isFatal = false ∧ ∃ stream', s.1 = { log with stream := some stream' } ∧
        account.Broken medium s.2 p j stream') := by
  rw [OpenLog.write, Action.ensures_bind, Action.ensures_get]
  dsimp only
  rw [hstream]
  dsimp only
  rw [Action.ensures_bind, OpenLog.ensures_onStream]
  refine (h.ensures_write hfits).mono ?_ ?_
  · rintro _ ⟨stream', after⟩ ⟨hkeeps, hfeeds⟩
    exact ⟨hkeeps, stream', rfl, hfeeds⟩
  · rintro e ⟨stream', after⟩ hbroken
    exact ⟨rfl, stream', rfl, hbroken⟩

/-- Entries are appended to the log in order, or its stream breaks among them. -/
theorem ensures_appendAll (h : account.Feeds medium a p j stream)
    (hstream : log.stream = some stream) (hjn : j ≤ n) :
    (OpenLog.writeAll (account.ledger.entries j n)).Ensures (log, medium)
      (fun _ s => Keeps medium s.2 ∧ s.1.segment = log.segment ∧
        log.written + (n - j) ≤ s.1.written ∧
        ∃ stream', s.1.stream = some stream' ∧ account.Feeds s.2 a p n stream')
      (fun e s => e.isFatal = false ∧ ∃ stream', s.1.stream = some stream' ∧
        account.Broken medium s.2 p n stream') := by
  induction hd : n - j generalizing j log stream medium with
  | zero =>
      obtain rfl : n = j := by omega
      rw [Ledger.entries_self]
      exact ⟨.refl medium, rfl, by simp, stream, hstream, h⟩
  | succ d ih =>
      -- Where the stream breaks at an entry, the files end at that entry at the latest.
      rw [Ledger.entries_cons (by omega), OpenLog.writeAll, Action.ensures_bind]
      refine (h.ensures_append hstream (account.fits j)).mono ?_ ?_
      · rintro _ ⟨_, middle⟩ ⟨hkeeps, stream', rfl, hfeeds⟩
        refine (ih (hfeeds rfl) rfl (by omega) (by omega)).mono ?_ ?_
        · rintro _ ⟨log', after⟩ ⟨hkeeps', hsegment, hwritten, hfeeds'⟩
          refine ⟨hkeeps.trans hkeeps', hsegment, ?_, hfeeds'⟩
          have hlength := (account.ledger.entry j).encodedLength_eq
          dsimp only at hwritten ⊢
          omega
        · rintro e ⟨log', after⟩ ⟨hmild, stream'', hstream'', hbroken⟩
          exact ⟨hmild, stream'', hstream'', hbroken.after_keeps hkeeps⟩
      · rintro e ⟨_, after⟩ ⟨hmild, stream', rfl, hbroken⟩
        exact ⟨hmild, stream', rfl, hbroken.mono (by omega)⟩

/-- A log is flushed: what it holds back is published, where flushes publish. -/
theorem ensures_flushLog (h : account.Feeds medium a p j stream)
    (hstream : log.stream = some stream) :
    OpenLog.flush.Ensures (log, medium)
      (fun _ s => Quieter medium s.2 ∧ ∃ stream', s.1 = { log with stream := some stream' } ∧
        (medium.storage.publishing = .onFlush ∧ account.Feeds s.2 a j j stream' ∨
          medium.storage.publishing = .onClose ∧ account.Feeds s.2 a p j stream'))
      (fun e s => e.isFatal = false ∧ medium.storage.publishing = .onFlush ∧
        ∃ stream', s.1 = { log with stream := some stream' } ∧
          account.Broken medium s.2 p j stream') := by
  rw [OpenLog.flush, Action.ensures_bind, Action.ensures_get]
  dsimp only
  rw [hstream]
  dsimp only
  rw [OpenLog.ensures_onStream]
  refine h.ensures_flush.mono ?_ ?_
  · rintro _ ⟨stream', after⟩ ⟨hquieter, hfeeds⟩
    exact ⟨hquieter, stream', rfl, hfeeds⟩
  · rintro e ⟨stream', after⟩ ⟨hpublishing, hbroken⟩
    exact ⟨rfl, hpublishing, stream', rfl, hbroken⟩

end Feeds

/-! ### Committing -/

/-- What is left of a commit that failed: the log's stream was let go, and either the file has
everything, or it could not be closed and the file has what was published before. -/
structure Uncommitted (account : Account) (medium after : Medium Memory) (log : Segment) (p n : Nat)
    (e : JournalError) : Prop where
  /-- The error is not fatal. -/
  mild : e.isFatal = false
  /-- A failure was used up. -/
  fired : Fired medium after
  /-- Either the file has everything, or what was published before. -/
  durable : Writer.isWriteFailure e = false ∧
      (∃ a, account.Durable after.storage.files (some log) a n) ∨
    Writer.isWriteFailure e = true ∧ medium.storage.publishing = .onFlush ∧
      ∃ current a, account.Durable after.storage.files current a p

theorem uncommitted_of_medium {file : Segment} {path : String} {source : MediumError}
    (hfired : Fired medium after) (h : account.Durable after.storage.files (some file) a n) :
    account.Uncommitted medium after file p n (.medium path source) :=
  ⟨rfl, hfired, .inl ⟨rfl, a, h⟩⟩

/-- A log without a stream is committed at its end. -/
theorem Durable.ensures_commit (h : account.Durable medium.storage.files (some log.segment) a n)
    (hn : n < unknownStop.toNat) (hstream : log.stream = none) :
    (OpenLog.commit account.journal (UInt64.ofNat n)).Ensures (log, medium)
      (fun _ s => Quieter medium s.2 ∧ account.Stands s.2.storage.files none n)
      (fun e s => s.1 = { log with stream := none } ∧
        account.Uncommitted medium s.2 log.segment n n e) := by
  rw [OpenLog.commit, Action.ensures_bind, Action.ensures_get]
  dsimp only
  rw [Action.ensures_bind, OpenLog.ensures_takeStream, hstream]
  dsimp only
  rw [Action.ensures_onSecond]
  refine (h.ensures_complete hn).mono ?_ ?_
  · rintro _ after ⟨hquieter, hfiles⟩
    exact ⟨hquieter, hfiles ▸ h.stands_sealed hn⟩
  · rintro _ after ⟨⟨path, source, rfl⟩, hfoiled⟩
    rw [← hfoiled.files_eq] at h
    exact ⟨rfl, uncommitted_of_medium hfoiled.toFired h⟩

/-- A log with a stream is closed and committed with all its entries. -/
theorem Feeds.ensures_commit (h : account.Feeds medium a p n stream)
    (hn : n < unknownStop.toNat) (hstream : log.stream = some stream)
    (hsegment : log.segment = account.logFrom a) (htame : medium.Tame) :
    (OpenLog.commit account.journal (UInt64.ofNat n)).Ensures (log, medium)
      (fun _ s => Quieter medium s.2 ∧ account.Stands s.2.storage.files none n)
      (fun e s => s.1 = { log with stream := none } ∧
        account.Uncommitted medium s.2 log.segment p n e) := by
  rw [OpenLog.commit, Action.ensures_bind, Action.ensures_get]
  dsimp only
  rw [Action.ensures_bind, OpenLog.ensures_takeStream, hstream]
  dsimp only
  rw [Action.ensures_bind, Action.ensures_onSecond, Action.ensures_mapError]
  refine (h.ensures_closeStream htame).mono ?_ ?_
  · rintro _ closed ⟨hquieter, hstands, hget⟩
    have hdurable : account.Durable closed.storage.files (some log.segment) a n := by
      rw [hsegment]
      exact durable_some hstands (Nat.le_trans h.le_left h.le_right) Frame.torn_nil
        (by rw [hget, List.append_nil])
    rw [Action.ensures_onSecond]
    refine (hdurable.ensures_complete hn).mono ?_ ?_
    · rintro _ after ⟨hquieter', hfiles⟩
      exact ⟨hquieter.trans hquieter', hfiles ▸ hdurable.stands_sealed hn⟩
    · rintro _ after ⟨⟨path, source, rfl⟩, hfoiled⟩
      rw [← hfoiled.files_eq] at hdurable
      exact ⟨rfl, uncommitted_of_medium (hquieter.fired hfoiled.toFired) hdurable⟩
  · -- The stream was let go unclosed, and what it held back with it.
    rintro e after ⟨hpublishing, hfoiled⟩
    obtain ⟨current, hdurable⟩ := h.durable
    rw [← hfoiled.files_eq] at hdurable
    exact ⟨rfl, rfl, hfoiled.toFired, .inr ⟨rfl, hpublishing, current, a, hdurable⟩⟩

end Account

end SegmentedJournal
