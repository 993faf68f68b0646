import SegmentedJournal.Proofs.Operations
/-!
# Writers in good standing

`account.Standing n d writer medium` says that a writer is one the account knows: it works and goes
on with number `n`, or it is closed; and the entries before `d` are promised.  Every operation keeps
a writer in good standing, whether it succeeds or fails (`Standing.ensures_write`,
`Standing.ensures_flush`, `Standing.ensures_close`), and so does whatever else happens to the medium
if it keeps the files as they should be (`Standing.follow`).  A writer that was started on the
files of a journal is in good standing (`Durable.ensures_start`), and one that is dropped leaves the
files where they durably end (`Standing.release`).
-/

namespace SegmentedJournal

open Memory (Stream)
open Medium (Fired Foiled Keeps Quieter)

namespace Account

variable {account account' : Account} {writer : Writer Stream} {medium after : Medium Memory}
  {a d m n : Nat} {entry : Entry}

/-- The writer goes on with number `n`, or is closed; the entries before `d` are promised. -/
structure Standing (account : Account) (n d : Nat) (writer : Writer Stream)
    (medium : Medium Memory) : Prop where
  /-- The writer goes on with the number. -/
  serves : account.Serves n writer medium
  /-- It has not crashed. -/
  sane : writer.poisoned = false
  /-- Neither has its collector. -/
  collector : ∀ collector ∈ writer.collector, collector.crashed = false
  /-- It works, or it is closed and the files end where it left them. -/
  phase : writer.closed = false ∧ account.Working n d writer medium ∨
    writer.closed = true ∧ writer.log = none ∧ ∃ m, account.Ended n d m medium

/-! ### Operations -/

theorem Standing.of_alike {writer' : Writer Stream} (h : account.Standing n d writer medium)
    (hclosed : writer.closed = false) (halike : writer.Alike writer')
    (hquieter : Quieter medium after) {d' : Nat} (hworking : account.Working n d' writer' after) :
    account.Standing n d' writer' after :=
  ⟨h.serves.of_alike halike hquieter, halike.poisoned_eq.trans h.sane,
    fun collector hsome => h.collector collector (halike.collector_eq ▸ hsome),
    .inl ⟨halike.closed_eq.trans hclosed, hworking⟩⟩

theorem Standing.of_setback {e : JournalError} {s : Writer Stream × Medium Memory}
    (h : account.Standing n d writer medium) (hclosed : writer.closed = false)
    (hfailed : account.Setback n d writer medium e s) :
    e.isFatal = false ∧ Quieter medium s.2 ∧ s.1.closed = writer.closed ∧
      account.Standing n d s.1 s.2 :=
  ⟨hfailed.mild, hfailed.fired.toQuieter, hfailed.alike.closed_eq,
    h.of_alike hclosed hfailed.alike hfailed.fired.toQuieter hfailed.working⟩

/-- An entry that is written has the next number, and the writer goes on behind it. -/
theorem Standing.ensures_write (h : account.Standing n d writer medium) (hfits : entry.Fits) :
    (Writer.write entry).Ensures (writer, medium)
      (fun q s => q = UInt64.ofNat n ∧ Quieter medium s.2 ∧ s.1.closed = writer.closed ∧
        (entry.payload = account.ledger n → n + 1 < unknownStop.toNat →
          account.Standing (n + 1) d s.1 s.2))
      (fun e s => e.isFatal = false ∧ Quieter medium s.2 ∧ s.1.closed = writer.closed ∧
        account.Standing n d s.1 s.2) := by
  refine Writer.ensures_operation _ ?_ h.sane
  rcases h.phase with ⟨hclosed, hworking⟩ | ⟨hclosed, -⟩
  · refine (hworking.ensures_append h.serves hclosed hfits).mono ?_ ?_
    · rintro q ⟨writer', after⟩ ⟨hq, hquieter, halike, hnext, hlive⟩
      refine ⟨hq, hquieter, halike.closed_eq, ?_⟩
      intro hpayload hbound
      obtain ⟨a, p, log, stream, hlive⟩ := hlive hpayload
      exact ⟨⟨halike.journal_eq.trans h.serves.journal_eq, hnext, hbound,
          Nat.le_succ_of_le h.serves.reach_le, hquieter.tame h.serves.tame⟩,
        halike.poisoned_eq.trans h.sane,
        fun collector hsome => h.collector collector (halike.collector_eq ▸ hsome),
        .inl ⟨halike.closed_eq.trans hclosed, .ready (.live a p p log stream hlive)⟩⟩
    · intro e s hfailed
      exact h.of_setback hclosed hfailed
  · rw [Writer.append, Action.ensures_bind, Action.ensures_get]
    dsimp only
    rw [hclosed, if_pos rfl, Action.ensures_bind]
    exact ⟨rfl, .refl medium, hclosed, h⟩

/-- A flush promises every entry so far. -/
theorem Standing.ensures_flush (h : account.Standing n d writer medium) :
    Writer.flush.Ensures (writer, medium)
      (fun _ s => Quieter medium s.2 ∧ s.1.closed = writer.closed ∧
        account.Standing n n s.1 s.2)
      (fun e s => e.isFatal = false ∧ Quieter medium s.2 ∧ s.1.closed = writer.closed ∧
        account.Standing n d s.1 s.2) := by
  refine Writer.ensures_operation _ ?_ h.sane
  rcases h.phase with ⟨hclosed, hworking⟩ | ⟨hclosed, -⟩
  · refine (hworking.ensures_push h.serves hclosed).mono ?_ ?_
    · rintro _ s ⟨halike, hquieter, hready⟩
      exact ⟨hquieter, halike.closed_eq, h.of_alike hclosed halike hquieter (.ready hready)⟩
    · intro e s hfailed
      exact h.of_setback hclosed hfailed
  · rw [Writer.push, Action.ensures_bind, Action.ensures_get]
    dsimp only
    rw [hclosed, if_pos rfl, Action.ensures_bind]
    exact ⟨rfl, .refl medium, hclosed, h⟩

theorem Standing.of_shut {writer' : Writer Stream} {d' : Nat}
    (h : account.Standing n d writer medium) (halike : writer.Alike writer')
    (hquieter : Quieter medium after) (hended : account.Ended n d' m after) :
    account.Standing n d' writer'.shut after :=
  ⟨⟨halike.journal_eq.trans h.serves.journal_eq, halike.next_eq.trans h.serves.next_eq,
      h.serves.bound, h.serves.reach_le, hquieter.tame h.serves.tame⟩,
    halike.poisoned_eq.trans h.sane, fun _ hnone => (by cases hnone),
    .inr ⟨rfl, rfl, m, hended⟩⟩

/-- Closing a working writer promises every entry and leaves no incomplete log; closing it again
does nothing. -/
theorem Standing.ensures_close (h : account.Standing n d writer medium) :
    Writer.close.Ensures (writer, medium)
      (fun _ s => Quieter medium s.2 ∧
        account.Standing n (if writer.closed then d else n) s.1 s.2 ∧
        (writer.closed = false → account.Stands s.2.storage.files none n))
      (fun e s => e.isFatal = false ∧ account.Standing n d s.1 s.2 ∧ Fired medium s.2) := by
  refine Writer.ensures_operation _ ?_ h.sane
  rcases h.phase with ⟨hclosed, hworking⟩ | ⟨hclosed, -⟩
  · rw [hclosed, if_neg Bool.false_ne_true]
    refine (hworking.ensures_finish h.serves hclosed h.collector).mono ?_ ?_
    · rintro _ ⟨_, after⟩ ⟨⟨writer', halike, rfl⟩, hquieter, hstands⟩
      refine ⟨hquieter, h.of_shut halike hquieter (m := n) ⟨⟨none, n, durable_none hstands⟩,
        Nat.le_refl n, Nat.le_refl n⟩, fun _ => hstands⟩
    · rintro e ⟨_, after⟩ ⟨⟨writer', halike, rfl⟩, hmild, hfired, m, hended⟩
      exact ⟨hmild, h.of_shut halike hfired.toQuieter hended, hfired⟩
  · rw [Writer.finish, Action.ensures_bind, Action.ensures_get]
    dsimp only
    rw [hclosed, if_pos rfl]
    exact ⟨.refl medium, h, fun hopen => (by cases hopen)⟩

/-! ### What happens beside the writer -/

/-- The files changed without the writer, and the account with them; incomplete logs were left
alone. -/
structure Follows (account account' : Account) (files files' : PathMap Bytes) : Prop where
  /-- It is the same journal. -/
  journal_eq : account'.journal = account.journal
  /-- It has the same entries. -/
  ledger_eq : account'.ledger = account.ledger
  /-- The files hold what they should up to where they did. -/
  stands : ∀ current a, account.Stands files current a → account'.Stands files' current a
  /-- Incomplete logs hold what they did. -/
  get?_eq : ∀ log, account.journal.Places log → log.kind = .log → log.stop = unknownStop →
    files'.get? log.location = files.get? log.location

variable {files files' : PathMap Bytes} {current : Option Segment} {log : OpenLog Stream}
  {stream : Stream} {f p j : Nat}

namespace Follows

theorem refl (account : Account) (files : PathMap Bytes) : account.Follows account files files :=
  ⟨rfl, rfl, fun _ _ h => h, fun _ _ _ _ => rfl⟩

theorem durable (h : account.Follows account' files files')
    (hdurable : account.Durable files current a m) : account'.Durable files' current a m := by
  refine ⟨h.stands current a hdurable.stands, hdurable.le, hdurable.absent, ?_⟩
  intro log hlog
  obtain rfl := Option.mem_def.1 hlog
  obtain ⟨hhas, hstop, -⟩ := hdurable.stands.has_current
  obtain ⟨tail, htail, hget⟩ := hdurable.present log hlog
  refine ⟨tail, htail, ?_⟩
  rw [h.get?_eq log hhas.places hhas.kind_eq hstop, h.ledger_eq, hget]

theorem feeds (h : account.Follows account' medium.storage.files after.storage.files)
    (hpublishing : after.storage.publishing = medium.storage.publishing)
    (hfeeds : account.Feeds medium a p j stream) : account'.Feeds after a p j stream := by
  have hlog : account'.logFrom a = account.logFrom a := by
    rw [logFrom, logFrom, h.journal_eq]
  refine ⟨?_, hfeeds.live, ?_, hfeeds.le_left, hfeeds.le_right, ?_, ?_⟩
  · rw [hlog, hfeeds.path_eq]
  · rw [h.ledger_eq, hfeeds.pending_eq]
  · intro hflush
    rw [hpublishing] at hflush
    obtain ⟨hstands, hget⟩ := hfeeds.flushed hflush
    rw [hlog, h.ledger_eq, h.get?_eq _ (places_logFrom account hstands.bound) rfl rfl]
    exact ⟨h.stands _ a hstands, hget⟩
  · intro hclose
    rw [hpublishing] at hclose
    obtain ⟨hstands, hpa⟩ := hfeeds.held hclose
    exact ⟨h.stands _ a hstands, hpa⟩

theorem working (h : account.Follows account' medium.storage.files after.storage.files)
    (hpublishing : after.storage.publishing = medium.storage.publishing)
    (hworking : account.Working n d writer medium) : account'.Working n d writer after := by
  have hentries (a b : Nat) : account'.ledger.entries a b = account.ledger.entries a b := by
    rw [h.ledger_eq]
  cases hworking with
  | ready hready =>
      refine .ready ?_
      cases hready with
      | idle hidle =>
          exact .idle ⟨hidle.log_eq, hidle.steady, hidle.queue, hidle.promised,
            h.stands _ _ hidle.stands⟩
      | parked a log hparked =>
          exact .parked a log ⟨hparked.log_eq, hparked.stream_eq, hparked.steady,
            hparked.rotating, hparked.queue, hparked.promised, h.durable hparked.durable⟩
      | live a p f log stream hlive =>
          refine .live a p f log stream ⟨hlive.log_eq, ?_, hlive.stream_eq, hlive.steady,
            h.feeds hpublishing hlive.feeds, (hentries f n).symm ▸ hlive.queue, hlive.written,
            hlive.le_left, hlive.le_right, hpublishing ▸ hlive.published, hlive.rotating,
            hlive.promised⟩
          rw [hlive.segment_eq, logFrom, logFrom, h.journal_eq]
  | damaged f current a m hdamaged =>
      exact .damaged f current a m ⟨hdamaged.needsReset, hdamaged.adrift,
        h.durable hdamaged.durable, (hentries f n).symm ▸ hdamaged.queue, hdamaged.le_left,
        hdamaged.le_right, hdamaged.promised⟩

end Follows

/-- What happens beside the writer keeps it in good standing. -/
theorem Standing.follow (h : account.Standing n d writer medium)
    (hfollows : account.Follows account' medium.storage.files after.storage.files)
    (hpublishing : after.storage.publishing = medium.storage.publishing) (htame : after.Tame)
    (hreach : account'.reach ≤ n) : account'.Standing n d writer after := by
  refine ⟨⟨h.serves.journal_eq.trans hfollows.journal_eq.symm, h.serves.next_eq, h.serves.bound,
    hreach, htame⟩, h.sane, h.collector, ?_⟩
  rcases h.phase with ⟨hclosed, hworking⟩ | ⟨hclosed, hlog, m, hended⟩
  · exact .inl ⟨hclosed, hfollows.working hpublishing hworking⟩
  · obtain ⟨current, a, hdurable⟩ := hended.durable
    exact .inr ⟨hclosed, hlog, m, ⟨current, a, hfollows.durable hdurable⟩, hended.promised,
      hended.le⟩

/-! ### The first and the last of a writer -/

/-- A writer starts on what the files hold, and takes an incomplete log over. -/
theorem Durable.ensures_start {next : UInt64} {current : Option Segment}
    (h : account.Durable medium.storage.files current a next.toNat)
    (hvalid : account.journal.config.validate = .ok ())
    (hnext : next.toNat < unknownStop.toNat) (hreach : account.reach ≤ next.toNat)
    (htame : medium.Tame) :
    (Writer.start account.journal next).Ensures medium
      (fun writer after => Keeps medium after ∧ writer.closed = false ∧
        account.Standing next.toNat next.toNat writer after)
      (fun e after => e.isFatal = false ∧ Foiled medium after) := by
  obtain ⟨complete, harchive⟩ := h.stands
  rw [Writer.start, Action.ensures_bind, hvalid, Action.ensures_ofExcept]
  refine ⟨?_, fun _ herror => (by cases herror)⟩
  intro _ _
  rw [Action.ensures_bind]
  refine (Journal.ensures_snapshot harchive.lists htame.honest).mono ?_ (fun _ _ h => h)
  rintro _ after ⟨rfl, hkeeps⟩
  have hself : next = UInt64.ofNat next.toNat := (UInt64.ofNat_toNat).symm
  have hdurable : account.Durable after.storage.files current a next.toNat :=
    hkeeps.files_eq ▸ h
  refine ⟨hkeeps, rfl, ⟨rfl, hself, hnext, hreach, hkeeps.toQuieter.tame htame⟩, rfl, ?_,
    .inl ⟨rfl, .ready ?_⟩⟩
  · intro collector hcollector
    dsimp only at hcollector
    split at hcollector
    · cases hcollector
      rfl
    · cases hcollector
  · -- An incomplete log is taken over without a stream, as one that the first write completes.
    cases current with
    | none =>
        have hstands := hdurable.stands
        rw [← h.absent rfl] at hstands
        exact .idle ⟨rfl, rfl, rfl, Nat.le_refl _, hstands⟩
    | some log =>
        exact .parked a (OpenLog.adopt log) ⟨rfl, rfl, rfl, rfl, rfl, Nat.le_refl _, hdurable⟩

/-- Wherever a writer is in good standing the files are durable to some number. -/
theorem Standing.exists_durable (h : account.Standing n d writer medium) :
    ∃ current a m, account.Durable medium.storage.files current a m := by
  rcases h.phase with ⟨-, hready | ⟨f, current, a, m, hdamaged⟩⟩ | ⟨-, -, m, hended⟩
  · cases hready with
    | idle hidle => exact ⟨none, n, n, durable_none hidle.stands⟩
    | parked a log hparked => exact ⟨_, a, n, hparked.durable⟩
    | live a p f log stream hlive =>
        obtain ⟨current, hdurable⟩ := hlive.feeds.durable
        exact ⟨current, a, p, hdurable⟩
  · exact ⟨current, a, m, hdamaged.durable⟩
  · obtain ⟨current, a, hdurable⟩ := hended.durable
    exact ⟨current, a, m, hdurable⟩

/-- A writer that needs a reset has no stream that can be used. -/
theorem Standing.adrift (h : account.Standing n d writer medium)
    (hneeds : writer.needsReset = true) : ∀ log ∈ writer.log, log.Adrift := by
  rcases h.phase with ⟨-, hready | ⟨f, current, a, m, hdamaged⟩⟩ | ⟨-, hlog, -⟩
  · rw [hready.steady] at hneeds
    cases hneeds
  · exact hdamaged.adrift
  · rw [hlog]
    exact fun _ hnone => (by cases hnone)

theorem storage_release (writer : Writer Stream) (medium : Medium Memory) :
    (writer.release medium).storage = medium.storage := by
  unfold Writer.release
  cases writer.log.bind OpenLog.stream <;> dsimp only <;> split <;> rfl

/-- A writer that is dropped, where flushes publish, leaves what was promised durable. -/
theorem Standing.release (h : account.Standing n d writer medium)
    (hflush : medium.storage.publishing = .onFlush) :
    ∃ m, account.Ended n d m (writer.release medium) := by
  -- Dropping a stream publishes nothing.
  suffices ∃ m, account.Ended n d m medium by
    obtain ⟨m, hended⟩ := this
    have hsame := congrArg Memory.files (storage_release writer medium)
    exact ⟨m, hsame ▸ hended.durable, hended.promised, hended.le⟩
  rcases h.phase with ⟨-, hworking⟩ | ⟨-, -, hended⟩
  · cases hworking with
    | ready hready =>
        cases hready with
        | idle hidle =>
            exact ⟨n, ⟨none, n, durable_none hidle.stands⟩, hidle.promised, Nat.le_refl n⟩
        | parked a log hparked =>
            exact ⟨n, ⟨_, a, hparked.durable⟩, hparked.promised, Nat.le_refl n⟩
        | live a p f log stream hlive =>
            -- Where flushes publish, what was flushed is what the stream no longer holds back.
            obtain ⟨current, hdurable⟩ := hlive.feeds.durable
            obtain rfl := hlive.flushed_eq hflush
            exact ⟨f, ⟨current, a, hdurable⟩, hlive.promised, hlive.le_right⟩
    | damaged f current a m hdamaged =>
        exact ⟨m, ⟨current, a, hdamaged.durable⟩,
          Nat.le_trans hdamaged.promised hdamaged.le_left, hdamaged.le_right⟩
  · exact hended

end Account

end SegmentedJournal
