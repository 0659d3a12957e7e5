/-
What verification says of audit files that are not as `record` left
them.

Whoever changes segment files but cannot sign a checkpoint is caught
(`tampering_detected`). The same strictness meets a torn append: a segment
that does not end with a line end is refused as a whole, so one byte of a
record whose write was cut short keeps the log from opening, and nothing
removes it.
-/
import SovereignVault.Audit.Recovery

namespace SovereignVault.Audit

open Crash Prog List Except

variable {codec : Codec} {key : MasterKey} {c : Content} {d : Disk} {n : Nat}
  {checkpoint : Checkpoint}

-- ==== tamper evidence

variable {report : VerifyReport} {prev : Mac}

theorem scanLine_error
    {line : Bytes} (h : scanLine codec key line n prev = .error report) : report.ok = false := by
  unfold scanLine at h
  split at h
  · rw [← error.inj h]
    rfl
  split at h
  · split at h
    · rw [← error.inj h]
      rfl
    · rw [← error.inj h]
      rfl
  · split at h
    · rw [← error.inj h]
      rfl
    · cases h

theorem scanLines_invalid {ls : List Bytes}
    (h : scanLines codec key ls n prev = .invalid report) : report.ok = false := by
  induction ls generalizing n prev with
  | nil => cases h
  | cons line ls ih =>
    unfold scanLines at h
    split at h
    · next hline =>
      injection h with h
      subst h
      exact scanLine_error hline
    · exact ih h

theorem scanSegment_invalid {path : String} {raw : Bytes}
    (h : scanSegment codec key path raw n prev = .invalid report) : report.ok = false := by
  unfold scanSegment at h
  split at h
  · injection h with h
    rw [← h]
    rfl
  split at h
  · exact scanLines_invalid h
  · injection h with h
    rw [← h]
    rfl

theorem scanPathsFrom_invalid {segments : List Segment}
    (h : scanPathsFrom codec key d segments n prev
      = .ok (.invalid report)) : report.ok = false := by
  induction segments generalizing n prev with
  | nil => cases h
  | cons s segments ih =>
    unfold scanPathsFrom at h
    split at h
    · cases h
    split at h
    · next hseg =>
      injection h with h
      injection h with h
      subst h
      exact scanSegment_invalid hseg
    · exact ih h

theorem verifyActiveFrom_success (h : verifyActiveFrom codec key d checkpoint n prev = .ok report)
    (hok : report.ok = true) : scanPathsFrom codec key d [.active] n prev
      = .ok (.valid checkpoint.recordCount checkpoint.headMac) := by
  unfold verifyActiveFrom at h
  cases hscan : scanPathsFrom codec key d [.active] n prev with
  | error e =>
    rw [hscan] at h
    cases h
  | ok result =>
    rw [hscan, ok_bind] at h
    cases result with
    | invalid report' =>
      have hbad := scanPathsFrom_invalid hscan
      have heq : report' = report := ok.inj h
      rw [heq, hok] at hbad
      cases hbad
    | valid entries head =>
      dsimp only at h
      split at h
      · rw [← ok.inj h] at hok
        cases hok
      split at h
      · rw [← ok.inj h] at hok
        cases hok
      · next hn hm =>
        rw [not_not] at hn hm
        rw [hn, hm]

theorem verifyAgainst_success (h : verifyAgainst codec key d checkpoint = .ok report)
    (hok : report.ok = true) : archiveSegments d = .ok (Finset.range checkpoint.activeSegment)
      ∧ ∃ n prev, scanPaths codec key d
          (archivesBelow checkpoint.activeSegment) = .ok (.valid n prev)
        ∧ scanPathsFrom codec key d [.active] n prev
          = .ok (.valid checkpoint.recordCount checkpoint.headMac) := by
  have hbad : ∀ {report' : VerifyReport}, report'.ok = false →
      (ok report' : Except AuditError VerifyReport) = .ok report →
      False := by
    intro report' hfalse heq
    rw [ok.inj heq, hok] at hfalse
    cases hfalse
  unfold verifyAgainst at h
  split at h
  · exact (hbad rfl h).elim
  next archives harch =>
  dsimp only at h
  split at h
  · exact (hbad rfl h).elim
  next hset =>
  rw [not_not] at hset
  subst hset
  refine ⟨harch, ?_⟩
  split at h
  · exact (hbad rfl h).elim
  cases hscan : scanPaths codec key d
      (archivesBelow checkpoint.activeSegment) with
  | error e =>
    rw [hscan] at h
    cases h
  | ok result =>
    rw [hscan, ok_bind] at h
    cases result with
    | invalid report' => exact (hbad (scanPathsFrom_invalid hscan) h).elim
    | valid n prev =>
      dsimp only at h
      cases hstart : startSequence checkpoint with
      | error e =>
        rw [hstart] at h
        cases h
      | ok start =>
        rw [hstart, ok_bind] at h
        split at h
        · exact (hbad rfl h).elim
        · exact ⟨n, prev, rfl, verifyActiveFrom_success h hok⟩

/-- Whatever became of the segment files: as long as the checkpoint is the
one that commits `c`, a successful `verify_chain` means that the records
of the directory are those of `c`. -/
theorem tampering_detected
    (codec : Codec) (key : MasterKey) (c : Content) (d₀ d d' : Disk) (report : VerifyReport)
    (hcommitted : Settled codec key c d₀) (hcheckpoint : d.checkpoint = d₀.checkpoint)
    (hverify : (verifyChain codec key).run d = (.ok report, d'))
    (hok : report.ok = true) : (storedRecords codec d).map AuditRecord.event = c.events := by
  have hc : Commits key c d := hcheckpoint.trans hcommitted.checkpoint
  rw [verifyChain, (observes_reading _).run d] at hverify
  have hlocked := (Prod.mk.inj hverify).1
  unfold verifyLocked at hlocked
  rw [hc.loadCheckpoint, ok_bind] at hlocked
  obtain ⟨hsegs, n, prev, harch, hactive⟩ := verifyAgainst_success hlocked hok
  rw [storedRecords_of_scans hsegs harch hactive, recordsFrom_event]

namespace Sample

def oneEvent : Content := ⟨[], [unlocked]⟩

noncomputable def oneEventLog : Disk where
  active := some (oneEvent.activeText unaryCodec (.generate 0))
  archives := ∅
  strays := []
  checkpoint := some (.parsed (oneEvent.checkpoint (.generate 0)))

theorem oneEvent_settled : Settled unaryCodec (.generate 0) oneEvent oneEventLog where
  archives := ⟨rfl, fun _ => rfl⟩
  active := rfl
  checkpoint := rfl

end Sample

open Sample

theorem tampering_detected_untouched : (storedRecords unaryCodec oneEventLog).map AuditRecord.event
      = [unlocked] := by
  have hdone : Committed unaryCodec (.generate 0) [unlocked] oneEventLog :=
    ⟨oneEvent, rfl, oneEvent_settled⟩
  exact tampering_detected unaryCodec (.generate 0) oneEvent oneEventLog
    oneEventLog _ _ oneEvent_settled rfl hdone.verifyChain rfl

-- ==== a torn append

/-- The directory after an append of which only `n` bytes were written. -/
def torn (d : Disk) (line : Bytes) (n : Nat) : Disk := d.append (line.take n)

def incomplete : AuditError :=
  .integrity s!"segment has an incomplete final record: {AUDIT_FILE}"

theorem torn_zero (line : Bytes) : torn d line 0 = d := by
  unfold torn Disk.append
  rw [take_zero]
  cases d with
  | mk active archives strays checkpoint =>
    cases active with
    | none => rfl
    | some raw => simp

theorem take_line_last {r : AuditRecord} (hpos : 0 < n)
    (hlt : n < (codec.line r).length) (raw : Bytes) : raw ++ (codec.line r).take n ≠ []
      ∧ (raw ++ (codec.line r).take n).getLast? ≠ some NEWLINE := by
  have hle : n ≤ (codec.encodeRecord r).length := by
    unfold Codec.line at hlt
    rw [length_append, length_singleton] at hlt
    omega
  have htake : (codec.line r).take n = (codec.encodeRecord r).take n := by
    exact take_append_of_le_length hle
  have hne : (codec.encodeRecord r).take n ≠ [] := by
    intro h
    have hlen := congrArg List.length h
    rw [length_take, length_nil] at hlen
    omega
  rw [htake]
  constructor
  · intro h
    exact hne (append_eq_nil_iff.1 h).2
  · intro h
    rw [getLast?_append_of_ne_nil _ hne] at h
    exact codec.newline_notMem r (mem_of_mem_take (mem_of_getLast? h))

section Torn

variable {n : Nat} {e : AuditEvent}

theorem reading_run {α : Type} {f : Disk → Except AuditError α} {a : α}
    (h : f d = .ok a) : (reading f).run d = (.ok a, d) := by
  rw [(observes_reading f).run d, h]

theorem scan_torn
    (h : Settled codec key c d) (hpos : 0 < n) (hlt : n < (codec.line (c.nextRecord key e)).length)
    (start : Nat) (prev : Mac) : scanPathsFrom codec key
        (torn d (codec.line (c.nextRecord key e)) n) [.active] start prev
      = .ok (.invalid (.failure start 0
        s!"segment has an incomplete final record: {AUDIT_FILE}")) := by
  have hfile : (torn d (codec.line (c.nextRecord key e)) n).file .active
      = some (c.activeText codec key
        ++ (codec.line (c.nextRecord key e)).take n) := by
    unfold torn Disk.append Disk.file
    rw [h.active]
    rfl
  unfold scanPathsFrom
  rw [hfile]
  dsimp only
  unfold scanSegment
  rw [if_pos (take_line_last hpos hlt _)]
  rfl

theorem torn_archives (h : Settled codec key c d) (line : Bytes) :
    ArchivesAre (torn d line n) (c.archiveTexts codec key) ∧ Commits key c (torn d line n)
      ∧ ∃ raw, (torn d line n).active = some raw := by
  refine ⟨⟨h.archives.strays, h.archives.lookup⟩, h.checkpoint, ?_⟩
  unfold torn Disk.append
  rw [h.active]
  exact ⟨_, rfl⟩

theorem recover_torn (h : Settled codec key c d) (hpos : 0 < n)
    (hlt : n < (codec.line (c.nextRecord key e)).length) : (recoverInterruptedCommit codec key).run
        (torn d (codec.line (c.nextRecord key e)) n)
      = (.ok false, torn d (codec.line (c.nextRecord key e)) n) := by
  obtain ⟨harch, hc, raw, hraw⟩ := torn_archives (n := n) h (codec.line (c.nextRecord key e))
  have hverdict : activeVerdict codec key (torn d (codec.line (c.nextRecord key e)) n)
      (c.checkpoint key) c.archived.length = .ok .other := by
    unfold activeVerdict
    rw [scan_torn h hpos hlt]
    rfl
  have hsome : (torn d (codec.line (c.nextRecord key e)) n).active.isSome := by
    rw [hraw]
    rfl
  have hnone : wp Faults.none
      (fun _ => True) (recoverRotation codec key (c.checkpoint key)) (fun res d' => res = .ok false
        ∧ d' = torn d (codec.line (c.nextRecord key e)) n)
      (torn d (codec.line (c.nextRecord key e)) n) :=
    wp_recoverRotation_none harch trivial ⟨rfl, rfl⟩ fun ⟨_, hf⟩ => hf.elim
  have hwp := wp_recoverInterruptedCommit
    hc trivial (fun ⟨_, hf⟩ => hf.elim) (.inr ⟨hsome, hverdict⟩) hnone fun ⟨_, hf⟩ => hf.elim
  exact Prod.ext hwp.run.1 hwp.run.2

theorem openLog_torn (h : Settled codec key c d) (hpos : 0 < n)
    (hlt : n < (codec.line (c.nextRecord key e)).length) (maxBytes : Nat) :
    (openLog codec key maxBytes).run (torn d (codec.line (c.nextRecord key e)) n)
      = (.error incomplete, torn d (codec.line (c.nextRecord key e)) n) := by
  obtain ⟨harch, hc, raw, hraw⟩ := torn_archives (n := n) h (codec.line (c.nextRecord key e))
  have hall : ArchivesAre (torn d (codec.line (c.nextRecord key e)) n)
      (segmentsFrom codec key 0 .genesis (c.segs ++ [])) := by
    rw [append_nil]
    exact harch
  have hcommitted := verifyCommittedArchives_ok hall (Nat.zero_le _)
  have hsegs := harch.segments
  rw [archiveTexts_length] at hsegs
  have hlocked : verifyLocked codec key (torn d (codec.line (c.nextRecord key e)) n)
        = .ok (.failure c.archived.length 0
          s!"segment has an incomplete final record: {AUDIT_FILE}") := by
    unfold verifyLocked
    rw [hc.loadCheckpoint, ok_bind]
    unfold verifyAgainst
    rw [hsegs]
    simp only [c.checkpoint_activeSegment, ne_eq, not_true_eq_false,
      if_false, ensureActive hraw, scan_archives_settled harch, ok_bind,
      startSequence_checkpoint, c.checkpoint_activeStartPrevMac, or_self]
    unfold verifyActiveFrom
    rw [scan_torn h hpos hlt]
    rfl
  unfold openLog
  rw [bind_eq, run_bind_ok (reading_run hc.loadCheckpoint),
    bind_eq, run_bind_ok (reading_run hcommitted), bind_eq, run_bind_ok
    rfl, bind_eq, run_bind_ok (recover_torn h hpos hlt), bind_eq, run_bind_ok (reading_run hlocked)]
  rfl

theorem record_torn
    (h : Settled codec key c d) (hpos : 0 < n) (hlt : n < (codec.line (c.nextRecord key e)).length)
    (maxBytes : Nat) (event : AuditEvent) : (record codec key maxBytes event).run
        (torn d (codec.line (c.nextRecord key e)) n)
      = (.error incomplete, torn d (codec.line (c.nextRecord key e)) n) := by
  obtain ⟨harch, hc, raw, hraw⟩ := torn_archives (n := n) h (codec.line (c.nextRecord key e))
  have hactive : verifyActiveAgainst codec key
      (torn d (codec.line (c.nextRecord key e)) n) (c.checkpoint key)
        = .ok (.failure c.archived.length 0
          s!"segment has an incomplete final record: {AUDIT_FILE}") := by
    unfold verifyActiveAgainst
    simp only [ensureActive hraw, ok_bind, startSequence_checkpoint]
    rw [scan_torn h hpos hlt]
    rfl
  unfold record
  rw [bind_eq, run_bind_ok (recover_torn h hpos hlt), bind_eq,
    run_bind_ok (reading_run hc.loadCheckpoint), bind_eq]
  refine run_bind_error ?_
  rw [ensureVerified, if_neg (by decide), bind_eq,
    run_bind_ok (reading_run hactive)]
  rfl

theorem record_run_ok (maxBytes : Nat) (event : AuditEvent) {L : List AuditEvent}
    (h : Holds codec key L d) (hfits : (nextLine codec key L (codec.redact key event)).length
      ≤ MAX_ACTIVE_VERIFY_BYTES) : ∃ d', (record codec key maxBytes event).run d = (.ok (), d')
      ∧ Committed codec key (L ++ [codec.redact key event]) d' := by
  have hrecord := (wp_record (F := Faults.none) maxBytes event h).run
  rcases hrecord with ⟨hres, hdone⟩ | ⟨⟨_, _, hf⟩ | hlong, _⟩
  · exact ⟨_, Prod.ext hres rfl, hdone⟩
  · exact hf.elim
  · omega

end Torn

/-- A torn append is not recovered. The committed records are untouched;
but `open` succeeds, and later records go through, exactly if no byte of
the new one was written. Otherwise every `open` and every `record` is
refused and leaves the directory as it is. -/
theorem torn_append_fails_closed (codec : Codec) (key : MasterKey)
    (c : Content) (d : Disk) (event : AuditEvent) (n maxBytes : Nat) (hd : Settled codec key c d)
    (hn : n < (nextLine codec key c.events (codec.redact key event)).length) :
    ((∃ log d', (openLog codec key maxBytes).run (torn d
        (nextLine codec key c.events (codec.redact key event)) n) = (.ok log, d')) ↔ n = 0)
      ∧ (n = 0 → ∃ log d', (openLog codec key maxBytes).run (torn d
          (nextLine codec key c.events (codec.redact key event)) n)
            = (.ok log, d') ∧ Committed codec key c.events d'
          ∧ ∀ next, (nextLine codec key c.events
              (codec.redact key next)).length ≤ MAX_ACTIVE_VERIFY_BYTES →
            ∃ d'', (record codec key maxBytes next).run d' = (.ok (), d'')
              ∧ Committed codec key (c.events ++ [codec.redact key next]) d'')
      ∧ (n ≠ 0 → (openLog codec key maxBytes).run (torn d
          (nextLine codec key c.events (codec.redact key event)) n)
            = (.error incomplete, torn d (nextLine codec key c.events (codec.redact key event)) n)
        ∧ ∀ next, (record codec key maxBytes next).run (torn d
          (nextLine codec key c.events (codec.redact key event)) n) = (.error incomplete, torn d
              (nextLine codec key c.events (codec.redact key event)) n)) := by
  have hwhole : n = 0 → ∃ log d', (openLog codec key maxBytes).run (torn d
      (nextLine codec key c.events (codec.redact key event)) n)
        = (.ok log, d') ∧ Committed codec key c.events d' := by
    rintro rfl
    rw [torn_zero]
    exact openLog_run_ok maxBytes (.settled c rfl hd)
  have htorn : n ≠ 0 → (openLog codec key maxBytes).run (torn d
      (nextLine codec key c.events (codec.redact key event)) n)
        = (.error incomplete, torn d (nextLine codec key c.events (codec.redact key event)) n) := by
    intro hne
    exact openLog_torn hd (Nat.pos_of_ne_zero hne) hn maxBytes
  refine ⟨⟨?_, ?_⟩, ?_, fun hne => ⟨htorn hne, ?_⟩⟩
  · rintro ⟨log, d', hopen⟩
    by_contra hne
    rw [htorn hne] at hopen
    cases hopen
  · intro hzero
    obtain ⟨log, d', hopen, _⟩ := hwhole hzero
    exact ⟨log, d', hopen⟩
  · intro hzero
    obtain ⟨log, d', hopen, hdone⟩ := hwhole hzero
    exact ⟨log, d', hopen, hdone, fun next hfits => record_run_ok maxBytes next hdone.holds hfits⟩
  · exact record_torn hd (Nat.pos_of_ne_zero hne) hn maxBytes

theorem nextLine_length (codec : Codec) (key : MasterKey)
    (L : List AuditEvent) (e : AuditEvent) : 1 < (nextLine codec key L e).length := by
  have hne := codec.encode_ne_nil (signRecord L.length (headFrom key 0 .genesis L) e key)
  have hpos := length_pos_iff.2 hne
  unfold nextLine Codec.line
  rw [length_append, length_singleton]
  omega

theorem torn_append_fails_closed_one_byte :
    (openLog unaryCodec (.generate 0) 1024).run (torn oneEventLog
        (nextLine unaryCodec (.generate 0) [unlocked] unlocked) 1)
      = (.error incomplete, torn oneEventLog
        (nextLine unaryCodec (.generate 0) [unlocked] unlocked) 1) :=
  ((torn_append_fails_closed unaryCodec (.generate 0) oneEvent oneEventLog
    unlocked 1 1024 oneEvent_settled
    (nextLine_length unaryCodec (.generate 0) _ _)).2.2 (by decide)).1

/-- The whole next record without its line end: the log does not open,
and no record goes through. -/
theorem torn_append_not_recovered : Settled unaryCodec (.generate 0) oneEvent oneEventLog
      ∧ ∃ n, n + 1 = (nextLine unaryCodec (.generate 0) [unlocked] unlocked).length
        ∧ (∀ log d', (openLog unaryCodec (.generate 0) 1024).run
          (torn oneEventLog (nextLine unaryCodec (.generate 0) [unlocked]
            unlocked) n) ≠ (.ok log, d'))
        ∧ ∀ next d', (record unaryCodec (.generate 0) 1024 next).run
          (torn oneEventLog (nextLine unaryCodec (.generate 0) [unlocked]
            unlocked) n) ≠ (.ok (), d') := by
  have hlen := nextLine_length unaryCodec (.generate 0) [unlocked] unlocked
  obtain ⟨n, hn⟩ : ∃ n, n + 1 = (nextLine unaryCodec (.generate 0)
      [unlocked] unlocked).length := ⟨_, Nat.sub_add_cancel (by omega)⟩
  have hlt : n < (unaryCodec.line (oneEvent.nextRecord (.generate 0) unlocked)).length := by
    show n < (nextLine unaryCodec (.generate 0) [unlocked] unlocked).length
    omega
  refine ⟨oneEvent_settled, n, hn, fun log d' hopen => ?_, fun next d' hrec => ?_⟩
  · have := hopen.symm.trans (openLog_torn oneEvent_settled (by omega) hlt 1024)
    cases this
  · have := hrec.symm.trans
      (record_torn oneEvent_settled (by omega) hlt 1024 next)
    cases this

end SovereignVault.Audit
