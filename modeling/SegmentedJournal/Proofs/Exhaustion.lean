import SegmentedJournal.Proofs.Reading
/-!
# Clean ends of a replay

What it means that a replay has nothing more to hand out.  A replay takes a log off those pending
before it has opened it, and it does not look back: a log that it could not open, or whose entries
start too high, is passed over by the next read, and a log whose frames end before the log's stop is
passed over without an error.  So a clean end alone does not show that every log was read.

It does show it where the logs are whole (`Segment.isWhole`) and no read failed.  In general, the
whole logs that reach past the number at which a replay ended are no more than the failures it
answered with before (`Replay.Reads.unread_le`).  Octets that are no entry do not count: the
replay stays at them (`Replay.Reads.refused`).
-/

namespace SegmentedJournal

variable {files : PathMap Bytes} {log : Segment} {n m : UInt64}

/-! ### Logs that are whole -/

namespace Segment

/-- Whether the entries that can be read from the log's file reach the log's stop. -/
def isWhole (files : PathMap Bytes) (log : Segment) : Bool :=
  match files.get? log.location with
  | some contents =>
    (SegmentReader.greatest? { segment := log, rest := contents }).any
      fun last => log.stop.toNat ≤ last.toNat + 1
  | none => false

/-- Whether the log is whole and reaches past a number. -/
def holdsPast (files : PathMap Bytes) (n : UInt64) (log : Segment) : Bool :=
  n < log.stop && log.isWhole files

theorem holdsPast_iff : log.holdsPast files n = true ↔ n < log.stop ∧ log.isWhole files = true := by
  simp [holdsPast]

/-- How many of the logs are whole and reach past a number. -/
def unread (files : PathMap Bytes) (n : UInt64) (logs : List Segment) : Nat :=
  logs.countP (holdsPast files n)

@[simp] theorem unread_nil : unread files n [] = 0 := rfl

@[simp] theorem unread_append (logs rest : List Segment) :
    unread files n (logs ++ rest) = unread files n logs + unread files n rest :=
  List.countP_append

theorem unread_singleton_of_not (h : log.holdsPast files n = false) : unread files n [log] = 0 := by
  rw [unread, List.countP_eq_zero]
  intro other hother
  rw [List.mem_singleton.1 hother, h]
  exact Bool.false_ne_true

/-- Behind a greater number there is no more to read. -/
theorem unread_anti (h : n ≤ m) (logs : List Segment) :
    unread files m logs ≤ unread files n logs := by
  refine List.countP_mono_left fun log _ hpast => ?_
  rw [holdsPast_iff] at *
  exact ⟨UInt64.lt_of_le_of_lt h hpast.1, hpast.2⟩

end Segment

/-! ### Readers that have passed over nothing -/

namespace SegmentReader

variable {reader behind : SegmentReader} {entry : Entry}

/-- Every number known so far is below another. -/
def Below (best : Option UInt64) (n : UInt64) : Prop :=
  ∀ known ∈ best, known < n

theorem Below.greater {best : Option UInt64} (h : Below best n) (hm : m < n) :
    Below (SegmentReader.greater best m) n := by
  rintro known hknown
  obtain rfl := Option.mem_some.1 hknown
  cases best with
  | none => exact hm
  | some other =>
      show (if other ≤ m then m else other) < n
      split
      · exact hm
      · exact h other rfl

/-- Of what the file holds the reader has passed over nothing that reaches a number. -/
def Sound (files : PathMap Bytes) (n : UInt64) (reader : SegmentReader) : Prop :=
  ∃ contents best, files.get? reader.segment.location = some contents ∧ Below best n ∧
    greatest? { segment := reader.segment, rest := contents } = reader.greatestFrom best

theorem segment_of_read (h : reader.read = .ok (some (entry, behind))) :
    behind.segment = reader.segment := by
  unfold read at h
  split at h
  · cases h
  · split at h
    · cases h
      rfl
    · cases h

theorem isDecodeError_of_read {error : JournalError} (h : reader.read = .error error) :
    error.isDecodeError = true := by
  unfold read at h
  split at h
  · cases h
  · split at h
    · cases h
    · cases h
      rfl

/-- A search finds an entry that is not below the number, having passed over lower ones only; or it
has passed over all that can be read. -/
theorem seek_cases (n : UInt64) (reader : SegmentReader) :
    (∃ entry behind, reader.seek n = (.ok (some entry), behind) ∧ n ≤ entry.sequence ∧
      behind.segment = reader.segment ∧ ∀ best, Below best n → ∃ best', Below best' n ∧
        reader.greatestFrom best = behind.greatestFrom (greater best' entry.sequence)) ∨
    ∃ result behind, reader.seek n = (result, behind) ∧
      (result = .ok none ∨ ∃ error, result = .error error ∧ error.isDecodeError = true) ∧
      behind.segment = reader.segment ∧ ∀ best, Below best n → ∃ best', Below best' n ∧
        reader.greatestFrom best = best' ∧ behind.greatestFrom best' = best' := by
  fun_induction seek n reader with
  | case1 reader entry next hread hbelow ih =>
      have hsegment := segment_of_read hread
      refine ih.imp ?_ ?_
      · rintro ⟨found, behind, hseek, hle, hsame, hbest⟩
        refine ⟨found, behind, hseek, hle, hsame.trans hsegment, fun best hbest' => ?_⟩
        rw [greatestFrom_of_entry hread]
        exact hbest _ (hbest'.greater hbelow)
      · rintro ⟨result, behind, hseek, hresult, hsame, hbest⟩
        refine ⟨result, behind, hseek, hresult, hsame.trans hsegment, fun best hbest' => ?_⟩
        rw [greatestFrom_of_entry hread]
        exact hbest _ (hbest'.greater hbelow)
  | case2 reader entry next hread hreached =>
      exact .inl ⟨entry, next, rfl, UInt64.not_lt.1 hreached, segment_of_read hread,
        fun best hbest => ⟨best, hbest, greatestFrom_of_entry hread⟩⟩
  | case3 reader hread =>
      have hends : ∀ best, reader.greatestFrom best = best := fun best => by
        rw [greatestFrom]
        split <;> simp_all
      exact .inr ⟨_, reader, rfl, .inl rfl, rfl,
        fun best hbest => ⟨best, hbest, hends best, hends best⟩⟩
  | case4 reader error hread =>
      have hends : ∀ best, reader.greatestFrom best = best := fun best => by
        rw [greatestFrom]
        split <;> simp_all
      exact .inr ⟨_, reader, rfl, .inr ⟨error, rfl, isDecodeError_of_read hread⟩, rfl,
        fun best hbest => ⟨best, hbest, hends best, hends best⟩⟩

/-- Where nothing that reaches the number is left, the log is not whole or stops at the number. -/
theorem not_holdsPast_of_below {best : Option UInt64} (hbelow : Below best n)
    {contents : Bytes} (hget : files.get? log.location = some contents)
    (hgreatest : greatest? { segment := log, rest := contents } = best) :
    log.holdsPast files n = false := by
  rw [Bool.eq_false_iff, Ne, Segment.holdsPast_iff, Segment.isWhole, hget]
  rintro ⟨hlt, hwhole⟩
  dsimp only at hwhole
  rw [hgreatest] at hwhole
  cases best with
  | none => cases hwhole
  | some last =>
      have hlast := UInt64.lt_iff_toNat_lt.1 (hbelow last rfl)
      rw [Option.any_some, decide_eq_true_eq] at hwhole
      rw [UInt64.lt_iff_toNat_lt] at hlt
      omega

/-- A segment's reader holds what the file holds; a failure to open it is no refusal of octets. -/
theorem ensures_load_files (segment : Segment) (medium : Medium Memory) :
    (load segment).Ensures medium
      (fun reader after => reader.segment = segment ∧ (∀ n, reader.Sound medium.storage.files n) ∧
        after.storage.files = medium.storage.files)
      (fun e after => e.isDecodeError = false ∧ after.storage.files = medium.storage.files) := by
  cases hget : medium.storage.files.get? segment.location with
  | some contents =>
      rw [load, Action.ensures_bind, Action.ensures_mapError]
      refine (Medium.ensures_openRead medium hget).mono ?_ (fun _ _ h => ⟨rfl, h.files_eq⟩)
      rintro result after (⟨rfl, hkeeps⟩ | ⟨⟨error, rfl⟩, hfoiled⟩)
      · refine ⟨rfl, fun n => ⟨contents, none, hget, ?_, rfl⟩, hkeeps.files_eq⟩
        rintro known ⟨⟩
      · exact ⟨rfl, hfoiled.files_eq⟩
  | none =>
      simp only [load, Medium.openRead, Action.ensures_bind, Action.ensures_mapError,
        Medium.ensures_counted]
      refine (Medium.ensures_guarded _ _ medium).mono ?_ (fun _ _ h => ⟨rfl, h.files_eq⟩)
      rintro _ after ⟨hstorage, -⟩
      rw [← hstorage] at hget ⊢
      simp only [Medium.ensures_onStorage, Storage.openRead, Memory.openRead, hget]
      exact ⟨rfl, trivial⟩

/-- A segment that was opened has a file, and its reader is at the front of it. -/
theorem exists_of_load {segment : Segment} {medium after : Medium Memory}
    (h : (load segment : Action JournalError (Medium Memory) SegmentReader) medium =
      .ok reader after) :
    ∃ contents, medium.storage.files.get? segment.location = some contents ∧
      reader = { segment, rest := contents } ∧ after.storage.files = medium.storage.files := by
  obtain ⟨rfl, hsound, hsame⟩ := (ensures_load_files segment medium).of_ok h
  obtain ⟨contents, -, hget, -⟩ := hsound 0
  exact ⟨contents, hget, ((ensures_load hget).of_ok h).1, hsame⟩

end SegmentReader

namespace Replay

variable {passed pending logs : List Segment} {reader behind : SegmentReader} {replay : Replay}
  {medium : Medium Memory} {failures : Nat}

/-! ### What a read passes over -/

/-- How much an error counts: octets that are no entry are never passed over. -/
def weight (e : JournalError) : Nat :=
  if e.isDecodeError then 0 else 1

/-- The failures stand for the logs passed, and for the log at hand if its reader is not sound. -/
def Charged (files : PathMap Bytes) (n : UInt64) (passed : List Segment) (failures : Nat)
    (reader : SegmentReader) : Prop :=
  reader.Sound files n ∧ Segment.unread files n passed ≤ failures ∨
    Segment.unread files n (passed ++ [reader.segment]) ≤ failures

theorem Charged.pending_le (h : Charged files n passed failures reader)
    (hsound : reader.Sound files n → reader.segment.holdsPast files n = false) :
    Segment.unread files n (passed ++ [reader.segment]) ≤ failures := by
  rcases h with ⟨hreader, hle⟩ | hle
  · rwa [Segment.unread_append, Segment.unread_singleton_of_not (hsound hreader)]
  · exact hle

theorem Charged.mono (h : Charged files n passed failures reader) (hle : n ≤ m)
    (hsegment : behind.segment = reader.segment)
    (hsound : reader.Sound files n → behind.Sound files m) :
    Charged files m passed failures behind := by
  rcases h with ⟨hreader, hpassed⟩ | hpassed
  · exact .inl ⟨hsound hreader, Nat.le_trans (Segment.unread_anti hle passed) hpassed⟩
  · refine .inr ?_
    rw [hsegment]
    exact Nat.le_trans (Segment.unread_anti hle _) hpassed

/-- A failure more stands for the log at hand. -/
theorem Charged.succ (h : Charged files n passed failures reader)
    (hsegment : behind.segment = reader.segment) :
    Charged files n passed (failures + 1) behind := by
  refine .inr ?_
  rw [hsegment]
  rcases h with ⟨-, hle⟩ | hle
  · rw [Segment.unread_append]
    exact Nat.add_le_add hle List.countP_le_length
  · exact Nat.le_succ_of_le hle

/-- A log yields an entry and is still accounted for; or it is exhausted or torn, and is counted
among those passed; or it refuses, and the error counts if the reader has moved on. -/
theorem charged_yield (h : Charged files n passed failures reader) :
    match yield n reader with
    | .entry _ behind => behind.segment = reader.segment ∧
        ∀ later, n < later → Charged files later passed failures behind
    | .exhausted => Segment.unread files n (passed ++ [reader.segment]) ≤ failures
    | .torn => reader.segment.isIncomplete = true ∧
        Segment.unread files n (passed ++ [reader.segment]) ≤ failures
    | .refused e behind => behind.segment = reader.segment ∧
        Charged files n passed (failures + weight e) behind := by
  unfold yield
  by_cases hstopped : reader.segment.stop ≤ n
  · rw [if_pos hstopped]
    refine h.pending_le fun _ => Bool.eq_false_iff.2 fun hpast => ?_
    exact UInt64.not_lt.2 hstopped (Segment.holdsPast_iff.1 hpast).1
  rw [if_neg hstopped]
  rcases reader.seek_cases n with ⟨entry, behind, hseek, hle, hsegment, hbest⟩ |
    ⟨result, behind, hseek, hresult, hsegment, hbest⟩
  · -- Whatever is below a later number may be passed over there.
    have hsound : ∀ later, n < later → entry.sequence < later → reader.Sound files n →
        behind.Sound files later := by
      rintro later hlater hentry ⟨contents, best, hget, hbelow, hgreatest⟩
      obtain ⟨best', hbelow', hfrom⟩ := hbest best hbelow
      have hlow : SegmentReader.Below best' later := fun known hknown =>
        UInt64.lt_trans (hbelow' known hknown) hlater
      rw [← hsegment] at hget hgreatest
      exact ⟨contents, _, hget, hlow.greater hentry, hgreatest.trans hfrom⟩
    rw [hseek]
    dsimp only
    by_cases habove : n < entry.sequence
    · rw [if_pos habove]
      exact ⟨hsegment, h.succ hsegment⟩
    · rw [if_neg habove]
      refine ⟨hsegment, fun later hlater => h.mono (UInt64.le_of_lt hlater) hsegment ?_⟩
      exact hsound later hlater (UInt64.lt_of_le_of_lt (UInt64.not_lt.1 habove) hlater)
  · have hpassed : Segment.unread files n (passed ++ [reader.segment]) ≤ failures := by
      refine h.pending_le ?_
      rintro ⟨contents, best, hget, hbelow, hgreatest⟩
      obtain ⟨best', hbelow', hfrom, -⟩ := hbest best hbelow
      exact SegmentReader.not_holdsPast_of_below hbelow' hget (hgreatest.trans hfrom)
    rw [hseek]
    rcases hresult with rfl | ⟨error, rfl, hdecode⟩
    · exact hpassed
    · dsimp only
      by_cases htorn : (error.isDecodeError && behind.segment.isIncomplete) = true
      · rw [if_pos htorn]
        rw [hsegment, Bool.and_eq_true] at htorn
        exact ⟨htorn.2, hpassed⟩
      · rw [if_neg htorn]
        refine ⟨hsegment, .inr ?_⟩
        rw [weight, if_pos hdecode, hsegment]
        exact hpassed

/-- The logs are those passed, the one at hand and those pending, and the failures stand for those
passed over. -/
def Tracks (files : PathMap Bytes) (logs : List Segment) (failures : Nat) (replay : Replay) :
    Prop :=
  ∃ passed, match replay.current with
    | none => logs = passed ++ replay.pending ∧ Segment.unread files replay.next passed ≤ failures
    | some reader => logs = passed ++ [reader.segment] ++ replay.pending ∧
        Charged files replay.next passed failures reader

/-- Reads on from the log at hand. -/
def readOn (n : UInt64) (reader : SegmentReader) (pending : List Segment) (medium : Medium Memory) :
    EStateM.Result (Failure JournalError) (Replay × Medium Memory) (Option Entry) :=
  match yield n reader with
  | .entry entry reader => deliver entry ({ pending, current := some reader, next := n }, medium)
  | .exhausted => readPending n pending medium
  | .torn => .ok none ({ pending := [], next := n }, medium)
  | .refused error reader => .error (.error error) ({ pending, current := some reader, next := n },
      medium)

theorem read_of_current (n : UInt64) (reader : SegmentReader) (pending : List Segment)
    (medium : Medium Memory) :
    read ({ pending, current := some reader, next := n }, medium) =
      readOn n reader pending medium := rfl

theorem read_of_no_current (n : UInt64) (pending : List Segment) (medium : Medium Memory) :
    read ({ pending, next := n }, medium) = readPending n pending medium := rfl

/-- What a read leaves: the logs are accounted for, and where it hands out nothing the failures
stand for every log that is left unread. -/
def Accounts (files : PathMap Bytes) (logs : List Segment) (n : UInt64) (failures : Nat) :
    EStateM.Result (Failure JournalError) (Replay × Medium Memory) (Option Entry) → Prop
  | .ok found (replay, _) => Tracks files logs failures replay ∧ n ≤ replay.next ∧
      (found = none → Segment.unread files replay.next logs ≤ failures)
  | .error (.error e) (replay, _) => Tracks files logs (failures + weight e) replay ∧
      n ≤ replay.next
  | .error (.crash _) _ => True

theorem accounts_deliver {entry : Entry} (hlogs : logs = passed ++ [reader.segment] ++ pending)
    (h : ∀ later, n < later → Charged files later passed failures reader) :
    Accounts files logs n failures
      (deliver entry ({ pending, current := some reader, next := n }, medium)) := by
  unfold deliver
  dsimp only
  cases hnext : (Action.successor n : Action JournalError (Medium Memory) UInt64) medium with
  | ok next after =>
      have hlt : n < next := UInt64.lt_iff_toNat_lt.2 (by
        have hsucc := (Action.toNat_of_successor hnext).1
        omega)
      exact ⟨⟨passed, hlogs, h next hlt⟩, UInt64.le_of_lt hlt, fun hnone => (by cases hnone)⟩
  | error failure after =>
      unfold Action.successor at hnext
      split at hnext <;> cases hnext
      trivial

theorem accounts_readOn (hlogs : logs = passed ++ [reader.segment] ++ pending)
    (hlast : reader.segment.isIncomplete = true → pending = [])
    (h : Charged files n passed failures reader)
    (hrest : Segment.unread files n (passed ++ [reader.segment]) ≤ failures →
      Accounts files logs n failures (readPending n pending medium)) :
    Accounts files logs n failures (readOn n reader pending medium) := by
  have hyield := charged_yield h
  unfold readOn
  cases heq : yield n reader with
  | entry entry behind =>
      rw [heq] at hyield
      exact accounts_deliver (hyield.1 ▸ hlogs) hyield.2
  | exhausted =>
      rw [heq] at hyield
      exact hrest hyield
  | torn =>
      rw [heq] at hyield
      rw [hlast hyield.1] at hlogs
      rw [← List.append_nil (passed ++ _), ← hlogs] at hyield
      exact ⟨⟨logs, (List.append_nil _).symm, hyield.2⟩, UInt64.le_refl _, fun _ => hyield.2⟩
  | refused error behind =>
      rw [heq] at hyield
      exact ⟨⟨passed, hyield.1 ▸ hlogs, hyield.2⟩, UInt64.le_refl _⟩

/-- Only the last of the logs may be incomplete. -/
def IncompleteLast (logs : List Segment) : Prop :=
  logs.Pairwise fun log _ => log.isIncomplete = false

theorem IncompleteLast.eq_nil (h : IncompleteLast logs) (hlogs : logs = passed ++ [log] ++ pending)
    (hincomplete : log.isIncomplete = true) : pending = [] := by
  subst hlogs
  cases pending with
  | nil => rfl
  | cons other pending =>
      rw [IncompleteLast, List.pairwise_append] at h
      have hcomplete := h.2.2 log (by simp) other List.mem_cons_self
      rw [hincomplete] at hcomplete
      cases hcomplete

/-- **Accounting**: opening one log after the other, a replay accounts for each. -/
theorem accounts_readPending (hlast : IncompleteLast logs) (hlogs : logs = passed ++ pending)
    (hpassed : Segment.unread files n passed ≤ failures) (hfiles : medium.storage.files = files) :
    Accounts files logs n failures (readPending n pending medium) := by
  induction pending generalizing passed medium with
  | nil =>
      rw [List.append_nil] at hlogs
      subst hlogs
      exact ⟨⟨logs, (List.append_nil _).symm, hpassed⟩, UInt64.le_refl _, fun _ => hpassed⟩
  | cons log pending ih =>
      have hsplit : logs = passed ++ [log] ++ pending := by simpa using hlogs
      -- A log that is passed over with an error is paid for by it.
      have hskipped : ∀ e : JournalError, e.isDecodeError = false →
          Tracks files logs (failures + weight e) { pending, next := n } := by
        intro e he
        refine ⟨passed ++ [log], hsplit, ?_⟩
        rw [weight, he, Segment.unread_append]
        exact Nat.add_le_add hpassed List.countP_le_length
      unfold readPending
      by_cases habove : n < log.start
      · rw [if_pos habove]
        exact ⟨hskipped _ rfl, UInt64.le_refl _⟩
      · rw [if_neg habove]
        rcases (SegmentReader.ensures_load_files log medium).ok_or_error with
          ⟨reader, after, hload, rfl, hsound, hsame⟩ | ⟨e, after, hload, he, hsame⟩
        · rw [hload]
          rw [hfiles] at hsound hsame
          exact accounts_readOn hsplit (hlast.eq_nil hsplit) (.inl ⟨hsound n, hpassed⟩)
            fun hmore => ih hsplit hmore hsame
        · rw [hload]
          exact ⟨hskipped e he, UInt64.le_refl _⟩

/-- **Accounting**: a read accounts for every log that it passes over. -/
theorem Tracks.accounts_read (h : Tracks files logs failures replay) (hlast : IncompleteLast logs)
    (hfiles : medium.storage.files = files) :
    Accounts files logs replay.next failures (read (replay, medium)) := by
  obtain ⟨pending, current, n⟩ := replay
  obtain ⟨passed, htracks⟩ := h
  cases current with
  | none =>
      obtain ⟨hlogs, hpassed⟩ := htracks
      rw [read_of_no_current]
      exact accounts_readPending hlast hlogs hpassed hfiles
  | some reader =>
      obtain ⟨hlogs, hcharged⟩ := htracks
      rw [read_of_current]
      exact accounts_readOn hlogs (hlast.eq_nil hlogs) hcharged
        fun hmore => accounts_readPending hlast hlogs hmore hfiles

/-! ### Runs of reads -/

/-- Reads of the same files, one after the other, whatever they answer, on media in any state. -/
inductive Reads (files : PathMap Bytes) (opened : Replay) : Nat → Replay → Prop
  /-- None was made. -/
  | opened : Reads files opened 0 opened
  /-- One answered with an entry, or with none. -/
  | found {failures : Nat} {replay replay' : Replay} {medium after : Medium Memory}
      {found : Option Entry} (h : Reads files opened failures replay)
      (hfiles : medium.storage.files = files)
      (hread : read (replay, medium) = .ok found (replay', after)) :
      Reads files opened failures replay'
  /-- One stopped at octets that are no entry. -/
  | refused {failures : Nat} {replay replay' : Replay} {medium after : Medium Memory}
      {e : JournalError} (h : Reads files opened failures replay)
      (hfiles : medium.storage.files = files)
      (hread : read (replay, medium) = .error (.error e) (replay', after))
      (hdecode : e.isDecodeError = true) : Reads files opened failures replay'
  /-- One failed in another way. -/
  | failed {failures : Nat} {replay replay' : Replay} {medium after : Medium Memory}
      {e : JournalError} (h : Reads files opened failures replay)
      (hfiles : medium.storage.files = files)
      (hread : read (replay, medium) = .error (.error e) (replay', after))
      (hdecode : e.isDecodeError = false) : Reads files opened (failures + 1) replay'

theorem Reads.tracks {opened : Replay} (h : Reads files opened failures replay)
    (hopened : opened.current = none) (hlast : IncompleteLast opened.pending) :
    Tracks files opened.pending failures replay ∧ opened.next ≤ replay.next := by
  induction h with
  | opened =>
      refine ⟨⟨[], ?_⟩, UInt64.le_refl _⟩
      rw [hopened]
      exact ⟨rfl, Nat.le_refl _⟩
  | found h hfiles hread ih =>
      have hstep := ih.1.accounts_read hlast hfiles
      rw [hread] at hstep
      exact ⟨hstep.1, UInt64.le_trans ih.2 hstep.2.1⟩
  | refused h hfiles hread hdecode ih =>
      have hstep := ih.1.accounts_read hlast hfiles
      rw [hread] at hstep
      refine ⟨?_, UInt64.le_trans ih.2 hstep.2⟩
      have htracks := hstep.1
      rwa [weight, if_pos hdecode] at htracks
  | failed h hfiles hread hdecode ih =>
      have hstep := ih.1.accounts_read hlast hfiles
      rw [hread] at hstep
      refine ⟨?_, UInt64.le_trans ih.2 hstep.2⟩
      have htracks := hstep.1
      rwa [weight, hdecode] at htracks

/-! ### Clean ends -/

theorem logs_of_ofSegments {root : String} {checkpoints segments : List Segment}
    {snapshot : Snapshot} (h : Snapshot.ofSegments root checkpoints segments = .ok snapshot) :
    snapshot.logs = segments.filter (fun log => !log.isIncomplete) ∧
      snapshot.current.toList = segments.filter Segment.isIncomplete := by
  unfold Snapshot.ofSegments at h
  dsimp only at h
  split at h
  · next hnone =>
    cases h
    exact ⟨rfl, hnone.symm⟩
  · next hone =>
    cases h
    exact ⟨rfl, hone.symm⟩
  · cases h

theorem isIncomplete_of_ofSegments {root : String} {checkpoints segments : List Segment}
    {snapshot : Snapshot} (h : Snapshot.ofSegments root checkpoints segments = .ok snapshot)
    (hlog : log ∈ snapshot.logs) : log.isIncomplete = false := by
  rw [(logs_of_ofSegments h).1] at hlog
  simpa using (List.mem_filter.1 hlog).2

/-- Whatever the listings answer, a snapshot is put together from the segments that names stand
for. -/
theorem ends_snapshot_of_names (journal : Journal) (medium : Medium Memory) :
    journal.snapshot.Ends medium (fun snapshot _ => ∃ checkpoints names, Snapshot.ofSegments
        journal.location checkpoints (journal.segmentsNamed .log names) = .ok snapshot)
      (fun _ _ => True) True := by
  rw [Journal.snapshot, Action.ends_bind]
  refine (Action.ends_run _ _).mono (fun checkpoints middle _ => ?_) fun _ _ _ => trivial
  rw [Action.ends_bind, Journal.listSegments, Action.ends_bind]
  refine (Action.ends_run _ _).mono (fun names after _ => ?_) fun _ _ _ => trivial
  rw [Action.ends_pure, Action.ends_bind, Action.ends_ofExcept]
  refine ⟨fun snapshot hsnapshot => ?_, fun _ _ => trivial⟩
  have hnamed : ∃ checkpoints names, Snapshot.ofSegments journal.location checkpoints
      (journal.segmentsNamed .log names) = .ok snapshot := ⟨checkpoints, names, hsnapshot⟩
  dsimp only
  rw [Action.ends_ite]
  refine ⟨fun _ => hnamed, fun _ => ?_⟩
  rw [Action.ends_bind, Medium.ends_warn]
  exact hnamed

theorem ends_snapshot (journal : Journal) (medium : Medium Memory) :
    journal.snapshot.Ends medium (fun snapshot _ => ∀ log ∈ snapshot.logs, log.isIncomplete = false)
      (fun _ _ => True) True := by
  refine (ends_snapshot_of_names journal medium).mono ?_ fun _ _ h => h
  rintro snapshot - ⟨checkpoints, names, hsnapshot⟩ log hlog
  exact isIncomplete_of_ofSegments hsnapshot hlog

theorem incompleteLast_logsFrom {snapshot : Snapshot} (withIncomplete : Bool)
    (h : ∀ log ∈ snapshot.logs, log.isIncomplete = false) :
    IncompleteLast (logsFrom snapshot n withIncomplete) := by
  have hcomplete : snapshot.logs.Pairwise fun log _ => log.isIncomplete = false :=
    List.pairwise_iff_forall_sublist.2 fun hsub =>
      h _ (hsub.subset List.mem_cons_self)
  refine List.Pairwise.filter _ ?_
  split
  · refine List.pairwise_append.2 ⟨hcomplete, ?_, fun log hlog _ _ => h log hlog⟩
    cases snapshot.current with
    | none => exact .nil
    | some current => exact List.pairwise_singleton _ _
  · exact hcomplete

theorem unread_logs_le (snapshot : Snapshot) (withIncomplete : Bool) (h : n ≤ m) :
    Segment.unread files m snapshot.logs ≤
      Segment.unread files m (logsFrom snapshot n withIncomplete) := by
  have hlogs : Segment.unread files m snapshot.logs =
      Segment.unread files m (snapshot.logs.filter fun log => n < log.stop) := by
    rw [Segment.unread, Segment.unread, List.countP_filter]
    refine List.countP_congr fun log _ => ?_
    rw [Bool.and_eq_true, decide_eq_true_eq]
    refine ⟨fun hpast => ⟨hpast, ?_⟩, And.left⟩
    exact UInt64.lt_of_le_of_lt h (Segment.holdsPast_iff.1 hpast).1
  rw [hlogs, logsFrom]
  refine List.Sublist.countP_le (List.Sublist.filter _ ?_)
  split
  · exact List.sublist_append_left _ _
  · exact .refl _

/-- What a replay is opened with: the logs of a snapshot that reach past the number. -/
theorem opened_of_start {journal : Journal} {snapshot : Snapshot} {opened : Replay}
    {withIncomplete : Bool} {seen after : Medium Memory}
    (hsnapshot : journal.snapshot medium = .ok snapshot seen)
    (hstart : start journal n withIncomplete medium = .ok opened after) :
    opened = { pending := logsFrom snapshot n withIncomplete, next := n } ∧ after = seen := by
  rw [start, Action.bind_of_ok hsnapshot] at hstart
  generalize logsFrom snapshot n withIncomplete = pending at hstart ⊢
  cases pending with
  | nil =>
      cases hstart
      exact ⟨rfl, rfl⟩
  | cons first pending =>
      by_cases habove : n < first.start
      · simp only [List.head?_cons, if_pos habove] at hstart
        cases hstart
      · simp only [List.head?_cons, if_neg habove] at hstart
        cases hstart
        exact ⟨rfl, rfl⟩

/-- **Clean ends**: where a replay has nothing more to hand out, the complete logs that are whole
and reach past the number it expects are no more than the failures it answered with before.  So
where every complete log is whole and no read failed, it has come to the end of each. -/
theorem Reads.unread_le {journal : Journal} {snapshot : Snapshot} {opened ended : Replay}
    {withIncomplete : Bool} {seen started after before : Medium Memory}
    (hsnapshot : journal.snapshot before = .ok snapshot seen)
    (hstart : start journal n withIncomplete before = .ok opened started)
    (hreads : Reads files opened failures replay) (hfiles : medium.storage.files = files)
    (hend : read (replay, medium) = .ok none (ended, after)) :
    Segment.unread files ended.next snapshot.logs ≤ failures ∧
      (failures = 0 → (∀ log ∈ snapshot.logs, log.isWhole files = true) →
        ∀ log ∈ snapshot.logs, log.stop ≤ ended.next) := by
  have hcomplete := (ends_snapshot journal before).of_ok hsnapshot
  have hopened := (opened_of_start hsnapshot hstart).1
  have hlast : IncompleteLast opened.pending := by
    rw [hopened]
    exact incompleteLast_logsFrom withIncomplete hcomplete
  obtain ⟨htracks, hle⟩ := hreads.tracks (by rw [hopened]) hlast
  have hread := htracks.accounts_read hlast hfiles
  rw [hend] at hread
  obtain ⟨-, hnext, hunread⟩ := hread
  have hn : n ≤ ended.next := by
    rw [hopened] at hle
    exact UInt64.le_trans hle hnext
  have hcount : Segment.unread files ended.next snapshot.logs ≤ failures := by
    refine Nat.le_trans (unread_logs_le snapshot withIncomplete hn) ?_
    rw [hopened] at hunread
    exact hunread rfl
  refine ⟨hcount, ?_⟩
  rintro rfl hwhole log hlog
  have hnone := List.countP_eq_zero.1 (Nat.le_zero.1 hcount) log hlog
  rw [Segment.holdsPast_iff] at hnone
  exact UInt64.not_lt.1 fun hlt => hnone ⟨hlt, hwhole log hlog⟩

/-! ### A log that is passed over -/

/-- Where nothing is armed, a journal with the one log of the numbers 0 and 1 is opened, and has it
still to be read. -/
theorem start_single {journal : Journal} {contents : Bytes} (medium : Medium Memory)
    (hquiet : medium.armed = 0)
    (hfiles : medium.storage.files = PathMap.empty.insert (journal.log 0 2).location contents) :
    ∃ seen, journal.snapshot medium = .ok ⟨[], [journal.log 0 2], none⟩ seen ∧
      start journal 0 false medium = .ok { pending := [journal.log 0 2], next := 0 } seen := by
  have hlog : journal.Places (journal.log 0 2) := journal.places_log (by decide) (by decide)
  have hlists : journal.Lists medium.storage.files [] [journal.log 0 2] none := by
    rw [hfiles]
    exact (Journal.lists_of_snapshotOf_eq journal.snapshotOf_empty).insert_complete hlog rfl
      (UInt64.ne_of_lt (by decide : (2 : UInt64) < unknownStop)) fun _ hnone => (by cases hnone)
  obtain ⟨_, seen, hsnapshot, rfl, -⟩ :=
    (Journal.ensures_snapshot hlists (Medium.tame_of_armed hquiet).honest).exists_ok
      fun _ _ hfoiled => hfoiled.2.toFired.elim hquiet
  exact ⟨seen, hsnapshot, (Action.bind_of_ok hsnapshot).trans rfl⟩

/-- For example, where the only log could not be opened: one failure, and one log unread. -/
theorem unread_le_one :
    let journal := Journal.rooted "journal" {}
    let ledger : Ledger := fun i => [UInt8.ofNat i]
    let files := PathMap.empty.insert (journal.log 0 2).location (ledger.frames 0 2)
    let medium : Medium Memory := { storage := { publishing := .onFlush, files } }
    ∃ snapshot seen opened started replay ended after,
      journal.snapshot medium = .ok snapshot seen ∧
      start journal 0 false medium = .ok opened started ∧ Reads files opened 1 replay ∧
      read (replay, medium) = .ok none (ended, after) ∧
      Segment.unread files ended.next snapshot.logs ≤ 1 := by
  intro journal ledger files medium
  obtain ⟨seen, hsnapshot, hstart⟩ := start_single medium rfl rfl
  let failing : Medium Memory := { medium with callFaults := [{ call := .openRead, after := 0 }] }
  let opened : Replay := { pending := [journal.log 0 2], next := 0 }
  let missed : Replay := { pending := [], next := 0 }
  have hfailed : (read.error? (opened, failing)).map JournalError.isDecodeError = some false ∧
      (read.leaves (opened, failing)).1 = missed := by
    decide +kernel
  obtain ⟨e, herror, hdecode⟩ := Option.map_eq_some_iff.1 hfailed.1
  have hreads : Reads files opened 1 missed := by
    rw [← hfailed.2]
    exact Reads.opened.failed (rfl : failing.storage.files = files) (Action.eq_error_leaves herror)
      hdecode
  have hend : read (missed, medium) = .ok none (missed, medium) := rfl
  exact ⟨_, _, _, _, _, _, _, hsnapshot, hstart, hreads, hend,
    (hreads.unread_le hsnapshot hstart rfl hend).1⟩

/-- So a replay can end with a log unread, whole though it is: its opening failed once.  Nor is it
noticed that a log ends before its stop. -/
theorem ends_with_log_unread :
    let journal := Journal.rooted "journal" {}
    let ledger : Ledger := fun i => [UInt8.ofNat i]
    let holding (contents : Bytes) (callFaults : List CallFault) : Medium Memory :=
      { storage := ⟨.onFlush, PathMap.empty.insert (journal.log 0 2).location contents, []⟩
        callFaults }
    (∃ snapshot seen opened started e replay failed ended after,
      journal.snapshot (holding (ledger.frames 0 2) []) = .ok snapshot seen ∧
      start journal 0 false (holding (ledger.frames 0 2) []) = .ok opened started ∧
      read (opened, holding (ledger.frames 0 2) [{ call := .openRead, after := 0 }]) =
        .error (.error e) (replay, failed) ∧
      read (replay, holding (ledger.frames 0 2) []) = .ok none (ended, after) ∧
      ∃ log ∈ snapshot.logs, ended.next < log.stop) ∧
    ∃ snapshot seen opened started replay middle ended after,
      journal.snapshot (holding (ledger.frames 0 1) []) = .ok snapshot seen ∧
      start journal 0 false (holding (ledger.frames 0 1) []) = .ok opened started ∧
      read (opened, holding (ledger.frames 0 1) []) =
        .ok (some (ledger.entry 0)) (replay, middle) ∧
      read (replay, middle) = .ok none (ended, after) ∧
      ∃ log ∈ snapshot.logs, ended.next < log.stop := by
  intro journal ledger holding
  let opened : Replay := { pending := [journal.log 0 2], next := 0 }
  constructor
  · obtain ⟨seen, hsnapshot, hstart⟩ :=
      start_single (holding (ledger.frames 0 2) []) rfl rfl
    let failing : Medium Memory :=
      holding (ledger.frames 0 2) [{ call := .openRead, after := 0 }]
    have hread : (read.error? (opened, failing)).isSome = true ∧
        (read.leaves (opened, failing)).1 = { pending := [], next := 0 } := by
      decide +kernel
    obtain ⟨hsome, hmissed⟩ := hread
    obtain ⟨e, herror⟩ := Option.isSome_iff_exists.1 hsome
    have hfailed := Action.eq_error_leaves herror
    generalize read.leaves (opened, failing) = state at hfailed hmissed
    obtain ⟨missed, failed⟩ := state
    obtain rfl : missed = { pending := [], next := 0 } := hmissed
    exact ⟨_, _, _, _, e, _, failed, _, _, hsnapshot, hstart, hfailed, rfl, _,
      List.mem_singleton_self _, (by decide : (0 : UInt64) < 2)⟩
  · obtain ⟨seen, hsnapshot, hstart⟩ :=
      start_single (holding (ledger.frames 0 1) []) rfl rfl
    let short : Medium Memory := holding (ledger.frames 0 1) []
    have hread : read.value? (opened, short) = some (some (ledger.entry 0)) ∧
        read.value? (read.leaves (opened, short)) = some none ∧
        (read.leaves (read.leaves (opened, short))).1.next = 1 := by
      decide +kernel
    obtain ⟨hvalue, hnone, hnext⟩ := hread
    have hfirst := Action.eq_ok_leaves hvalue
    generalize read.leaves (opened, short) = first at hfirst hnone hnext
    have hend := Action.eq_ok_leaves hnone
    generalize read.leaves first = last at hend hnext
    obtain ⟨replay, middle⟩ := first
    obtain ⟨ended, after⟩ := last
    have hunread : ended.next < (journal.log 0 2).stop := by
      rw [show ended.next = 1 from hnext]
      exact (by decide : (1 : UInt64) < 2)
    exact ⟨_, _, _, _, replay, middle, ended, after, hsnapshot, hstart, hfirst, hend, _,
      List.mem_singleton_self _, hunread⟩

end Replay

end SegmentedJournal
