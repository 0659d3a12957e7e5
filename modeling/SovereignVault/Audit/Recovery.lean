/-
The audit log over crashes and failures.

`Holds L d`: the directory holds exactly the events `L`, committed or
one step short of it. Every call keeps this at every point: `record`
moves from `L` to `L` with the event at its end, `open` leaves `L` as it
is, and both end, when nothing fails, in a settled directory.
-/
import SovereignVault.Audit.Layout
import SovereignVault.Crash.Run

namespace SovereignVault.Audit

open Crash Prog

variable {codec : Codec} {key : MasterKey} {F : Faults Disk AuditError} {I : Disk → Prop}
  {c : Content} {d : Disk} {L : List AuditEvent} {Q : Except AuditError Checkpoint → Disk → Prop}
  {report : VerifyReport} (maxBytes : Nat) (event : AuditEvent)

-- ==== small steps

theorem observes_reading {α : Type} (f : Disk → Except AuditError α) : Observes (reading f) f :=
  (observes_bind observes_get fun d => observes_ret (f d)).congr fun _ => rfl

def Faulty (F : Faults Disk AuditError) : Prop := ∃ d e, F d e

theorem wp_writeCheckpoint {checkpoint : Checkpoint}
    {Q : Except AuditError Unit → Disk → Prop} (hi : I d)
    (hi' : I { d with checkpoint := some (.parsed checkpoint) })
    (hq : Q (.ok ()) { d with checkpoint := some (.parsed checkpoint) })
    (hfail : Faulty F → ∀ e, Q (.error e) d ∧ Q (.error e)
      { d with checkpoint := some (.parsed checkpoint) }) :
    wp F I (writeCheckpoint checkpoint) Q d :=
  wp_modify_sync hi hi' hq (fun e he => (hfail ⟨_, e, he⟩ e).1) fun e he => (hfail ⟨_, e, he⟩ e).2

-- ==== what a log holds

variable (codec key) in
inductive Holds (L : List AuditEvent) (d : Disk) : Prop where
  | settled (c : Content) (hc : c.events = L) (h : Settled codec key c d)
  | appended (c : Content) (e : AuditEvent) (hc : c.events ++ [e] = L)
      (h : Appended codec key c e d)
  | rotating (c : Content) (hc : c.events = L) (h : Rotating codec key c d)

variable (codec key) in
def Committed (L : List AuditEvent) (d : Disk) : Prop :=
  ∃ c, c.events = L ∧ Settled codec key c d

theorem Committed.holds (h : Committed codec key L d) : Holds codec key L d := by
  obtain ⟨c, hc, hs⟩ := h
  exact .settled c hc hs

theorem Appended.commit {e : AuditEvent} (h : Appended codec key c e d) :
    Settled codec key (c.push e)
      { d with checkpoint := some (.parsed ((c.push e).checkpoint key)) } where
  archives := ⟨h.archives.strays, h.archives.lookup⟩
  active := h.active
  checkpoint := rfl

theorem Rotating.commit
    (h : Rotating codec key c d) (hactive : d.active = some []) : Settled codec key c.rotated
      { d with checkpoint := some (.parsed (c.rotated.checkpoint key)) } where
  archives := ⟨h.archives.strays, h.archives.lookup⟩
  active := hactive
  checkpoint := rfl

theorem Rotating.emptied (h : Rotating codec key c d) :
    Rotating codec key c { d with active := some [] } where
  archives := ⟨h.archives.strays, h.archives.lookup⟩
  active := .inr rfl
  checkpoint := h.checkpoint
  nonempty := h.nonempty

-- ==== recovery

theorem checkpoint_rotated (c : Content) : Checkpoint.signed (c.checkpoint key).recordCount
        (c.checkpoint key).headMac ((c.checkpoint key).activeSegment + 1) 0
        (c.checkpoint key).headMac key
      = c.rotated.checkpoint key := by
  unfold Content.checkpoint
  rw [c.events_rotated, c.head_rotated, c.startMac_rotated]
  unfold Content.rotated
  simp [Checkpoint.signed]

theorem checkpoint_push (c : Content) (e : AuditEvent) :
    Checkpoint.signed (c.push e).events.length ((c.push e).head key)
        (c.checkpoint key).activeSegment ((c.checkpoint key).activeRecordCount + 1)
        (c.checkpoint key).activeStartPrevMac key
      = (c.push e).checkpoint key := by
  unfold Content.checkpoint
  simp [Checkpoint.signed, Content.push, Content.startMac, Content.archived]

theorem wp_recoverRotation_none
    {Q : Except AuditError Bool → Disk → Prop} (harch : ArchivesAre d (c.archiveTexts codec key))
    (hi : I d) (hq : Q (.ok false) d) (hfault : (∃ e, F d e) → ∀ e, Q (.error e) d) :
    wp F I (recoverRotation codec key (c.checkpoint key)) Q d := by
  refine (observes_reading _).wp_then hi (rotationInterrupted_settled harch) hfault ?_
  exact ⟨hi, hq⟩

/-- What recovery leaves: the same events, committed, unless something
failed. -/
def Recovered (codec : Codec) (key : MasterKey) (F : Faults Disk AuditError)
    (L : List AuditEvent) (res : Except AuditError Bool) (d : Disk) : Prop :=
  (res = .ok true ∧ Committed codec key L d) ∨ (Faulty F ∧ Holds codec key L d ∧ res ≠ .ok true)

theorem Recovered.failed (hf : Faulty F) (h : Holds codec key L d)
    (e : AuditError) : Recovered codec key F L (.error e) d :=
  .inr ⟨hf, h, nofun⟩

theorem wp_recoverRotation (hc : c.events = L) (h : Rotating codec key c d) :
    wp F (Holds codec key L) (recoverRotation codec key (c.checkpoint key))
      (Recovered codec key F L) d := by
  have hhold : Holds codec key L d := .rotating c hc h
  have hfailed : (∃ e, F d e) → ∀ e, Recovered codec key F L (.error e) d :=
    fun ⟨e, he⟩ => Recovered.failed ⟨d, e, he⟩ hhold
  have hfinish : ∀ d', Rotating codec key c d' → d'.active = some [] →
      wp F (Holds codec key L) (recoverRotation.finish key (c.checkpoint key))
        (Recovered codec key F L) d' := by
    intro d' h' hactive
    have hdone : Committed codec key L { d' with
        checkpoint := some (.parsed (c.rotated.checkpoint key)) } :=
      ⟨c.rotated, by rw [c.events_rotated, hc], h'.commit hactive⟩
    unfold recoverRotation.finish
    rw [checkpoint_rotated, bind_eq, wp_bind]
    refine wp_writeCheckpoint (.rotating c hc h') hdone.holds ?_ ?_
    · exact ⟨hdone.holds, .inl ⟨rfl, hdone⟩⟩
    · exact fun hf e => ⟨.failed hf (.rotating c hc h') e, .failed hf hdone.holds e⟩
  refine (observes_reading _).wp_then hhold h.rotationInterrupted hfailed ?_
  rw [if_pos rfl]
  refine (observes_reading _).wp_then hhold rfl hfailed ?_
  rcases h.active with hactive | hactive
  · rw [hactive]
    have h' := h.emptied
    simp only [bind_eq]
    rw [wp_bind]
    refine wp_modify_sync hhold (.rotating c hc h') ?_ ?_ ?_
    · exact hfinish _ h' rfl
    · exact fun e he => .failed ⟨_, e, he⟩ hhold e
    · exact fun e he => .failed ⟨_, e, he⟩ (.rotating c hc h') e
  · rw [hactive]
    exact hfinish d h hactive

theorem wp_recoverInterruptedCommit
    {v : ActiveVerdict} {Q : Except AuditError Bool → Disk → Prop} (hc : Commits key c d)
    (hi : I d) (hfault : (∃ e, F d e) → ∀ e, Q (.error e) d) (hv : (d.active = none ∧ v = .other)
      ∨ (d.active.isSome ∧ activeVerdict codec key d (c.checkpoint key) c.archived.length = .ok v))
    (hseen : wp F I (commitActive codec key (c.checkpoint key) v) Q d)
    (hblind : (∃ e, F d e) → wp F I (recoverRotation codec key (c.checkpoint key)) Q d) :
    wp F I (recoverInterruptedCommit codec key) Q d := by
  refine (observes_reading _).wp_then hi hc.loadCheckpoint hfault ?_
  refine (observes_ret _).wp_then hi (startSequence_checkpoint c) hfault ?_
  rw [bind_eq, wp_bind, wp_attempt]
  refine observes_reading _ F I _ d hi ?_ fun hex e => ?_
  · rcases hv with ⟨hnone, rfl⟩ | ⟨hsome, hverdict⟩
    · have hmissing : ensureRegularFile d .active "active audit log"
          = .error (.integrity s!"active audit log is missing: {AUDIT_FILE}")
          := by
        unfold ensureRegularFile Disk.file
        rw [hnone]
        rfl
      rw [hmissing]
      exact hseen
    · obtain ⟨raw, hraw⟩ := Option.isSome_iff_exists.1 hsome
      rw [ensureActive hraw]
      refine (observes_reading _).wp_then hi hverdict hfault ?_
      exact hseen
  · exact hblind hex

theorem wp_recover (h : Holds codec key L d) :
    wp F (Holds codec key L) (recoverInterruptedCommit codec key) (Recovered codec key F L) d := by
  have hfailed : (∃ e, F d e) → ∀ e, Recovered codec key F L (.error e) d :=
    fun ⟨e, he⟩ => Recovered.failed ⟨d, e, he⟩ h
  have hnone : ∀ c', ArchivesAre d (Content.archiveTexts codec key c') →
      (∃ e, F d e) → wp F (Holds codec key L)
        (recoverRotation codec key (Content.checkpoint key c'))
        (Recovered codec key F L) d := by
    intro c' harch hex
    obtain ⟨e, he⟩ := hex
    refine wp_recoverRotation_none harch h ?_ hfailed
    exact .inr ⟨⟨d, e, he⟩, h, nofun⟩
  have hhold := h
  cases h with
  | settled c hc hs =>
    have hsome : d.active.isSome := by
      rw [hs.active]
      rfl
    refine wp_recoverInterruptedCommit hs.checkpoint hhold hfailed
      (.inr ⟨hsome, hs.activeVerdict⟩) ?_ (hnone c hs.archives)
    exact ⟨hhold, .inl ⟨rfl, c, hc, hs⟩⟩
  | appended c e hc hs =>
    have hsome : d.active.isSome := by
      rw [hs.active]
      rfl
    refine wp_recoverInterruptedCommit hs.checkpoint hhold hfailed
      (.inr ⟨hsome, hs.activeVerdict⟩) ?_ (hnone c hs.archives)
    have hdone : Committed codec key L { d with
        checkpoint := some (.parsed ((c.push e).checkpoint key)) } :=
      ⟨c.push e, by rw [c.events_push, hc], hs.commit⟩
    simp only [commitActive, checkpoint_push, bind_eq]
    rw [wp_bind]
    refine wp_writeCheckpoint hhold hdone.holds ?_ ?_
    · exact ⟨hdone.holds, .inl ⟨rfl, hdone⟩⟩
    · exact fun hf e => ⟨.failed hf hhold e, .failed hf hdone.holds e⟩
  | rotating c hc hs =>
    have hrot := wp_recoverRotation (F := F) hc hs
    refine wp_recoverInterruptedCommit (v := .other) hs.checkpoint hhold
      hfailed ?_ hrot fun _ => hrot
    rcases hs.active with hactive | hactive
    · exact .inl ⟨hactive, rfl⟩
    · refine .inr ⟨?_, hs.activeVerdict hactive⟩
      rw [hactive]
      rfl

-- ==== opening

theorem Holds.commits (h : Holds codec key L d) :
    ∃ c more, Commits key c d ∧ more.length ≤ 1 ∧ ArchivesAre d
      (segmentsFrom codec key 0 .genesis (c.segs ++ more)) := by
  cases h with
  | settled c _ hs | appended c e _ hs =>
    refine ⟨c, [], hs.checkpoint, Nat.zero_le _, ?_⟩
    rw [List.append_nil]
    exact hs.archives
  | rotating c _ hs => exact ⟨c, [c.act], hs.checkpoint, le_rfl, hs.archives⟩

theorem Committed.verifyLocked (h : Committed codec key L d) :
    verifyLocked codec key d = .ok (.success L.length) := by
  obtain ⟨c, rfl, hs⟩ := h
  unfold Audit.verifyLocked
  rw [hs.checkpoint.loadCheckpoint, ok_bind, hs.verifyAgainst]

def Opened (codec : Codec) (key : MasterKey) (F : Faults Disk AuditError)
    (L : List AuditEvent) (res : Except AuditError AuditLog) (d : Disk) : Prop :=
  ((∃ log, res = .ok log) ∧ Committed codec key L d) ∨ (Faulty F ∧ Holds codec key L d)

theorem wp_openLog (h : Holds codec key L d) : wp F (Holds codec key L) (openLog codec key maxBytes)
      (Opened codec key F L) d := by
  obtain ⟨c, more, hc, hmore, harch⟩ := h.commits
  have hfault : ∀ d', Holds codec key L d' → (∃ e, F d' e) →
      ∀ e, Opened codec key F L (.error e) d' :=
    fun d' h' ⟨e, he⟩ _ => .inr ⟨⟨d', e, he⟩, h'⟩
  refine (observes_reading _).wp_then h hc.loadCheckpoint (hfault d h) ?_
  refine (observes_reading _).wp_then h (verifyCommittedArchives_ok harch hmore) (hfault d h) ?_
  refine (observes_ret _).wp_then h rfl (hfault d h) ?_
  rw [bind_eq, wp_bind]
  refine (wp_recover h).post fun res d' hold hpost => ?_
  rcases hpost with ⟨rfl, hdone⟩ | ⟨hf, hold, -⟩
  · rw [seqPost_ok]
    refine (observes_reading _).wp_then hold hdone.verifyLocked (hfault d' hold) ?_
    refine (observes_ret _).wp_then hold rfl (hfault d' hold) ?_
    exact ⟨hold, .inl ⟨⟨_, rfl⟩, hdone⟩⟩
  have hany : ∀ res, Opened codec key F L res d' := fun _ => .inr ⟨hf, hold⟩
  cases res with
  | error e => exact hany _
  | ok _ =>
    rw [seqPost_ok]
    refine (observes_reading _).wp_seq hold (fun _ => hany _) fun _ _ => ?_
    refine (observes_ret _).wp_seq hold (fun _ => hany _) fun _ _ => ?_
    exact ⟨hold, hany _⟩

-- ==== recording

theorem ArchivesAre.insert {texts : List Bytes} {raw : Bytes}
    (h : ArchivesAre d texts) (hactive : d.active = some raw) :
    ArchivesAre (d.archiveActive texts.length) (texts ++ [raw]) := by
  unfold Disk.archiveActive
  rw [hactive]
  refine ⟨h.strays, fun n => ?_⟩
  by_cases hn : n = texts.length
  · subst hn
    simp
  rw [AList.lookup_insert_ne hn, h.lookup n]
  by_cases hlt : n < texts.length
  · rw [List.getElem?_append_left hlt]
  · rw [List.getElem?_eq_none (by omega),
      List.getElem?_eq_none (by simp; omega)]

theorem Settled.archiveActive (h : Settled codec key c d) (hne : c.act ≠ []) :
    Rotating codec key c (d.archiveActive c.segs.length) := by
  have harch := h.archives.insert h.active
  rw [archiveTexts_length, ← Content.archiveTexts_rotated] at harch
  refine ⟨harch, .inl ?_, ?_, hne⟩
  · unfold Disk.archiveActive
    rw [h.active]
  · unfold Disk.archiveActive
    rw [h.active]
    exact h.checkpoint

theorem Settled.append (h : Settled codec key c d) (e : AuditEvent) :
    Appended codec key c e (d.append (codec.line (c.nextRecord key e))) where
  archives := ⟨h.archives.strays, h.archives.lookup⟩
  active := by
    unfold Disk.append
    rw [h.active, Content.activeText_push]
    rfl
  checkpoint := h.checkpoint

def Recording (codec : Codec) (key : MasterKey) (L : List AuditEvent)
    (e : AuditEvent) (d : Disk) : Prop :=
  Holds codec key L d ∨ Holds codec key (L ++ [e]) d

/-- What `record` leaves: the event at the end, committed; or an error,
because something failed or the record is too long. -/
def Recorded (codec : Codec) (key : MasterKey) (F : Faults Disk AuditError) (L : List AuditEvent)
    (e : AuditEvent) (tooLong : Prop) (res : Except AuditError Unit) (d : Disk) : Prop :=
  (res = .ok () ∧ Committed codec key (L ++ [e]) d)
    ∨ ((Faulty F ∨ tooLong) ∧ (∃ error, res = .error error) ∧ Recording codec key L e d)

variable {tooLong : Prop} {e : AuditEvent}

theorem Recorded.failed (hf : Faulty F) (h : Recording codec key L e d)
    (error : AuditError) : Recorded codec key F L e tooLong (.error error) d :=
  .inr ⟨.inl hf, ⟨error, rfl⟩, h⟩

theorem wp_appendRecord (hc : c.events = L) (h : Settled codec key c d) :
    wp F (Recording codec key L e) (appendRecord codec key (c.checkpoint key) (c.nextRecord key e))
      (Recorded codec key F L e tooLong) d := by
  have hold : Recording codec key L e d := .inl (.settled c hc h)
  have happ := h.append e
  have hmid : Recording codec key L e (d.append (codec.line (c.nextRecord key e))) :=
    .inr (.appended c e (by rw [hc]) happ)
  have hdone : Committed codec key (L ++ [e])
      { d.append (codec.line (c.nextRecord key e)) with
        checkpoint := some (.parsed ((c.push e).checkpoint key)) } :=
    ⟨c.push e, by rw [c.events_push, hc], happ.commit⟩
  refine (observes_reading _).wp_then hold
    (by rw [h.active]; rfl) (fun ⟨e, he⟩ => .failed ⟨d, e, he⟩ hold) ?_
  have hcheckpoint : Checkpoint.signed
      ((c.checkpoint key).recordCount + 1) (c.nextRecord key e).mac (c.checkpoint key).activeSegment
      ((c.checkpoint key).activeRecordCount + 1) (c.checkpoint key).activeStartPrevMac key
        = (c.push e).checkpoint key := by
    rw [← checkpoint_push, c.events_push, c.head_push, List.length_append]
    rfl
  rw [hcheckpoint, bind_eq, bind_eq, wp_bind, wp_modify]
  refine ⟨hold, ⟨hmid, ?_⟩, fun e he => .failed ⟨_, e, he⟩ hold e⟩
  rw [seqPost_ok, wp_bind, wp_sync]
  refine ⟨hmid, ?_, fun e he => .failed ⟨_, e, he⟩ hmid e⟩
  rw [seqPost_ok]
  refine wp_writeCheckpoint hmid (.inr hdone.holds) (.inl ⟨rfl, hdone⟩) ?_
  exact fun hf e => ⟨.failed hf hmid e, .failed hf (.inr hdone.holds) e⟩

theorem wp_rotate_steps {checkpoint rotated : Checkpoint} {J : Disk → Prop}
    (hrotated : .signed checkpoint.recordCount checkpoint.headMac
      (checkpoint.activeSegment + 1) 0 checkpoint.headMac key = rotated)
    (h : J d) (h₁ : J (d.archiveActive checkpoint.activeSegment))
    (h₂ : J { d.archiveActive checkpoint.activeSegment with
      active := some [] })
    (h₃ : J { d.archiveActive checkpoint.activeSegment with
      active := some [], checkpoint := some (.parsed rotated) })
    (hI : ∀ d', J d' → I d')
    (hfail : Faulty F ∨ (d.archives.lookup checkpoint.activeSegment).isSome
      ∨ d.active = none → ∀ e d', J d' → Q (.error e) d')
    (hq : d.archives.lookup checkpoint.activeSegment = none → d.active.isSome → Q (.ok rotated)
        { d.archiveActive checkpoint.activeSegment with
          active := some [], checkpoint := some (.parsed rotated) }) :
    wp F I (rotate key checkpoint) Q d := by
  have hfault : ∀ d', J d' → ∀ e, F d' e → Q (.error e) d' :=
    fun d' h' e he => hfail (.inl ⟨d', e, he⟩) e d' h'
  unfold rotate
  rw [bind_eq, wp_bind]
  refine observes_reading _ F I _ d (hI d h) ?_ fun ⟨e, he⟩ e' => hfail (.inl ⟨d, e, he⟩) e' d h
  split
  · next hsome => exact hfail (.inr (.inl hsome)) _ d h
  next hnone =>
  unfold ensureRegularFile
  split
  · next hsome =>
    rw [seqPost_ok, bind_eq, wp_bind, wp_modify]
    refine ⟨hI d h, ⟨hI _ h₁, ?_⟩, hfault d h⟩
    rw [seqPost_ok, bind_eq, wp_bind, wp_sync]
    refine ⟨hI _ h₁, ?_, hfault _ h₁⟩
    rw [seqPost_ok, bind_eq, wp_bind]
    refine wp_modify_sync (hI _ h₁) (hI _ h₂) ?_ (hfault _ h₁) (hfault _ h₂)
    rw [seqPost_ok, hrotated, bind_eq, wp_bind]
    exact wp_writeCheckpoint (hI _ h₂) (hI _ h₃)
      ⟨hI _ h₃, hq (by simpa using hnone) hsome⟩
      fun hf e => ⟨hfail (.inl hf) e _ h₂, hfail (.inl hf) e _ h₃⟩
  · next hnone =>
    exact hfail (.inr (.inr (Option.not_isSome_iff_eq_none.1 hnone))) _ d h

theorem wp_rotate (hc : c.events = L) (h : Settled codec key c d)
    (hne : c.act ≠ []) (hI : ∀ d, Holds codec key L d → I d)
    (hfail : Faulty F → ∀ e d, Holds codec key L d → Q (.error e) d)
    (hq : ∀ d, Settled codec key c.rotated d → Q (.ok (c.rotated.checkpoint key)) d) :
    wp F I (rotate key (c.checkpoint key)) Q d := by
  have hrot := h.archiveActive hne
  have hdone := hrot.emptied.commit rfl
  refine wp_rotate_steps
    (checkpoint_rotated c) (.settled c hc h) (.rotating c hc hrot) (.rotating c hc hrot.emptied)
    (.settled c.rotated (c.events_rotated.trans hc) hdone) hI ?_ fun _ _ => hq _ hdone
  rintro (hf | hsome | hnone)
  · exact hfail hf
  · rw [c.checkpoint_activeSegment, h.archives.lookup,
      List.getElem?_eq_none (by rw [archiveTexts_length])] at hsome
    cases hsome
  · rw [h.active] at hnone
    cases hnone

def nextLine (codec : Codec) (key : MasterKey) (L : List AuditEvent) (e : AuditEvent) : Bytes :=
  codec.line (signRecord L.length (headFrom key 0 .genesis L) e key)

theorem wp_recordAfter (hc : c.events = L) (h : Settled codec key c d) :
    wp F (Recording codec key L (codec.redact key event))
      (recordAfter codec key maxBytes (c.checkpoint key) event)
      (Recorded codec key F L (codec.redact key event)
        ((nextLine codec key L (codec.redact key event)).length > MAX_ACTIVE_VERIFY_BYTES)) d := by
  have hold : Recording codec key L (codec.redact key event) d := .inl (.settled c hc h)
  have hline : codec.line (signRecord (c.checkpoint key).recordCount
      (c.checkpoint key).headMac (codec.redact key event) key)
        = nextLine codec key L (codec.redact key event) := by
    rw [← hc]
    rfl
  unfold recordAfter
  dsimp only
  rw [hline]
  by_cases hlong : (nextLine codec key L (codec.redact key event)).length > MAX_ACTIVE_VERIFY_BYTES
  · rw [if_pos hlong]
    exact ⟨hold, .inr ⟨.inr hlong, ⟨_, rfl⟩, hold⟩⟩
  rw [if_neg hlong]
  refine (observes_reading _).wp_then
    (a := (c.activeText codec key).length) hold (by rw [h.active])
    (fun ⟨e, he⟩ => .failed ⟨d, e, he⟩ hold) ?_
  split
  · next hfull =>
    have hne : c.act ≠ [] := by
      intro hnil
      have hlen := hfull.1
      unfold Content.activeText at hlen
      rw [hnil] at hlen
      exact absurd hlen (by simp)
    rw [bind_eq, wp_bind]
    refine wp_rotate hc h hne (fun _ h => .inl h)
      (fun hf e d' h' => .failed hf (.inl h') e) fun d' h' => ?_
    exact wp_appendRecord (c := c.rotated) (c.events_rotated.trans hc) h'
  · exact wp_appendRecord hc h

theorem Holds.settled_of_verified (h : Holds codec key L d) {c' : Content}
    (hc' : Commits key c' d) (hreport : verifyActiveAgainst codec key d (c'.checkpoint key)
      = .ok report) (hok : report.ok = true) : ∃ c, c.events = L ∧ Settled codec key c d
      ∧ c.checkpoint key = c'.checkpoint key := by
  have hsame : ∀ c, Commits key c d → Content.checkpoint key c = c'.checkpoint key := by
    intro c hc
    have := hc.symm.trans hc'
    injection this with this
    injection this
  cases h with
  | settled c hc hs => exact ⟨c, hc, hs, hsame c hs.checkpoint⟩
  | appended c e hc hs | rotating c hc hs =>
    obtain ⟨report', hreport', hbad⟩ := hs.verifyActiveAgainst
    rw [hsame c hs.checkpoint, hreport] at hreport'
    rw [← Except.ok.inj hreport', hok] at hbad
    cases hbad

theorem requireOk_ok {fallback : String}
    (h : requireOk report fallback = .ok ()) : report.ok = true := by
  unfold requireOk at h
  split at h
  · next hok => exact hok
  · cases h

theorem wp_record (h : Holds codec key L d) : wp F (Recording codec key L (codec.redact key event))
      (record codec key maxBytes event) (Recorded codec key F L (codec.redact key event)
        ((nextLine codec key L (codec.redact key event)).length > MAX_ACTIVE_VERIFY_BYTES)) d := by
  unfold record
  rw [bind_eq, wp_bind]
  refine wp_mono (wp_recover h) (fun _ h => .inl h) ?_
  intro res d' hold hpost
  have hrec : Recording codec key L (codec.redact key event) d' := .inl hold
  rcases hpost with ⟨rfl, c, hc, hs⟩ | ⟨hf, -, hne⟩
  · rw [seqPost_ok]
    refine (observes_reading _).wp_then hrec hs.checkpoint.loadCheckpoint
      (fun ⟨e, he⟩ => .failed ⟨d', e, he⟩ hrec) ?_
    exact wp_recordAfter maxBytes event hc hs
  have hfail (error : AuditError) : Recorded codec key F L (codec.redact key event)
        ((nextLine codec key L (codec.redact key event)).length
          > MAX_ACTIVE_VERIFY_BYTES) (.error error) d' :=
    .failed hf hrec error
  cases res with
  | error e => exact hfail e
  | ok verified =>
    have hfalse : verified = false := by
      cases verified with
      | false => rfl
      | true => exact absurd rfl hne
    subst hfalse
    obtain ⟨c', _, hc', _⟩ := hold.commits
    rw [seqPost_ok]
    refine (observes_reading _).wp_then hrec hc'.loadCheckpoint (fun _ => hfail) ?_
    rw [ensureVerified, if_neg (by decide), bind_eq, wp_bind]
    refine (observes_reading _).wp_seq hrec hfail fun report hr => ?_
    refine ⟨hrec, ?_⟩
    cases hok : requireOk report "verification failed" with
    | error e => exact hfail e
    | ok _ =>
      obtain ⟨c, hc, hs, heq⟩ := hold.settled_of_verified hc' hr (requireOk_ok hok)
      rw [seqPost_ok, ← heq]
      exact wp_recordAfter maxBytes event hc hs

-- ==== whole histories

inductive LogCall where
  | openLog (maxBytes : Nat)
  | record (maxBytes : Nat) (event : AuditEvent)

def LogCall.prog (codec : Codec) (key : MasterKey) : LogCall → AuditM Unit
  | .openLog maxBytes => do
    let _ ← Audit.openLog codec key maxBytes
  | .record maxBytes event => Audit.record codec key maxBytes event

def auditLog (codec : Codec) (key : MasterKey) : Service Disk AuditError LogCall Unit where
  prog _ call := some (call.prog codec key)
  reset := id

def Adds (codec : Codec) (key : MasterKey) (L : List AuditEvent) :
    LogCall → Outcome AuditError Unit → List AuditEvent → Prop
  | .openLog _, _, L' => L' = L
  | .record _ event, .returned (.ok _), L' => L' = L ++ [codec.redact key event]
  | .record _ event, _, L' => L' = L ∨ L' = L ++ [codec.redact key event]

/-- The events a history, latest call first, can have left in the log:
recorded ones once and in call order, failed and crashed ones at most
once. -/
def Logged (codec : Codec) (key : MasterKey) (L₀ : List AuditEvent) :
    List (Event Disk AuditError LogCall Unit) → List AuditEvent → Prop
  | [], L => L = L₀
  | e :: h, L => ∃ L₁, Logged codec key L₀ h L₁ ∧ Adds codec key L₁ e.call e.outcome L

theorem Holds.step {ev : Event Disk AuditError LogCall Unit} (h : Holds codec key L ev.before)
    (hstep : (auditLog codec key).Step F ev) : ∃ L', Adds codec key L ev.call ev.outcome L'
      ∧ Holds codec key L' ev.after := by
  obtain ⟨d, call, outcome, d'⟩ := ev
  cases call with
  | openLog maxBytes =>
    have hopen : wp F (Holds codec key L)
        ((LogCall.openLog maxBytes).prog codec key) (fun _ => Holds codec key L) d := by
      simp only [LogCall.prog, bind_eq]
      rw [wp_bind]
      refine (wp_openLog maxBytes h).post fun res d'' hold _ => ?_
      cases res with
      | error e => exact hold
      | ok log => exact ⟨hold, hold⟩
    cases hstep with
    | returned hp hr =>
      obtain rfl := Option.some.inj hp
      exact ⟨L, rfl, hopen.returns hr⟩
    | crashed hp hr =>
      obtain rfl := Option.some.inj hp
      exact ⟨L, rfl, hopen.reaches hr⟩
  | record maxBytes event =>
    have hrecord := wp_record (F := F) maxBytes event h
    cases hstep with
    | returned hp hr =>
      obtain rfl := Option.some.inj hp
      rcases hrecord.returns hr with
        ⟨rfl, hdone⟩ | ⟨-, ⟨error, rfl⟩, hold | hold⟩
      · exact ⟨_, rfl, hdone.holds⟩
      · exact ⟨L, .inl rfl, hold⟩
      · exact ⟨_, .inr rfl, hold⟩
    | crashed hp hr =>
      obtain rfl := Option.some.inj hp
      rcases hrecord.reaches hr with hold | hold
      · exact ⟨L, .inl rfl, hold⟩
      · exact ⟨_, .inr rfl, hold⟩

theorem Holds.run {d₀ : Disk} {L₀ : List AuditEvent}
    {h : List (Event Disk AuditError LogCall Unit)} {allowed : Disk → LogCall → Prop}
    (h₀ : Holds codec key L₀ d₀) (hrun : (auditLog codec key).Run F allowed d₀ h d) :
    ∃ L, Logged codec key L₀ h L ∧ Holds codec key L d := by
  induction hrun with
  | nil => exact ⟨L₀, rfl, h₀⟩
  | step _ _ hstep ih =>
    obtain ⟨L₁, hlog, hold⟩ := ih
    obtain ⟨L, hadds, hold'⟩ := hold.step hstep
    exact ⟨L, ⟨L₁, hlog, hadds⟩, hold'⟩

theorem create_settled (codec : Codec) (key : MasterKey) (maxBytes : Nat) :
    Settled codec key ⟨[], []⟩ ((create key maxBytes).run .empty).2 where
  archives := ⟨rfl, fun _ => rfl⟩
  active := rfl
  checkpoint := rfl

theorem openLog_run_ok (h : Holds codec key L d) :
    ∃ log d', (openLog codec key maxBytes).run d = (.ok log, d')
      ∧ Committed codec key L d' := by
  have hopen := (wp_openLog (F := Faults.none) maxBytes h).run
  rcases hopen with ⟨⟨log, hlog⟩, hdone⟩ | ⟨⟨_, _, hf⟩, _⟩
  · exact ⟨log, _, Prod.ext hlog rfl, hdone⟩
  · exact hf.elim

theorem Committed.verifyChain (h : Committed codec key L d) :
    (verifyChain codec key).run d = (.ok (.success L.length), d) := by
  rw [Audit.verifyChain, (observes_reading _).run d, h.verifyLocked]

/-- The audit log survives crashes and failures: the next `open` that runs
to its end succeeds, `verify_chain` then reports success, and the records
are numbered without a gap and carry the events of the history. -/
theorem audit_survives (F : Faults Disk AuditError) (codec : Codec)
    (key : MasterKey) (maxBytes₀ : Nat) (d : Disk) (h : List (Event Disk AuditError LogCall Unit))
    (hrun : (auditLog codec key).Run F (fun _ _ => True)
      ((create key maxBytes₀).run .empty).2 h d) :
    ∃ L, Logged codec key [] h L ∧ ∀ maxBytes, ∃ log d',
      (openLog codec key maxBytes).run d = (.ok log, d')
        ∧ (verifyChain codec key).run d' = (.ok (.success L.length), d')
        ∧ (storedRecords codec d').map AuditRecord.event = L
        ∧ (storedRecords codec d').map AuditRecord.sequence = List.range L.length := by
  have h₀ : Holds codec key [] ((create key maxBytes₀).run .empty).2 :=
    .settled ⟨[], []⟩ rfl (create_settled codec key maxBytes₀)
  obtain ⟨L, hlog, hold⟩ := h₀.run hrun
  refine ⟨L, hlog, fun maxBytes => ?_⟩
  obtain ⟨log, d', hopen, hdone⟩ := openLog_run_ok maxBytes hold
  refine ⟨log, d', hopen, hdone.verifyChain, ?_⟩
  obtain ⟨c, rfl, hs⟩ := hdone
  rw [hs.storedRecords, recordsFrom_event, recordsFrom_sequence, List.range_eq_range']
  exact ⟨rfl, rfl⟩

namespace Sample

def unlocked : AuditEvent where
  timestamp := 0
  action := .vaultUnlock
  decision := .allowed
  transport := "desktop-ui"
  container := none
  fileName := none
  mode := none
  byteSize := none
  detail := none
  error := none
  agentId := none
  presence := none

def newLog : Disk := ((create (.generate 0) 1024).run .empty).2

noncomputable def crashedLog : Disk :=
  (record unaryCodec (.generate 0) 1024 unlocked).haltAfter 1 newLog

noncomputable def crashedCall : Event Disk AuditError LogCall Unit :=
  ⟨newLog, .record 1024 unlocked, .crashed, crashedLog⟩

end Sample

open Sample

/-- A log whose first `record` crashed opens and verifies, with that
event or without it. -/
theorem audit_survives_crashed : ∃ L, (L = [] ∨ L = [unlocked]) ∧ ∃ log d',
      (openLog unaryCodec (.generate 0) 1024).run crashedLog = (.ok log, d')
        ∧ (verifyChain unaryCodec (.generate 0)).run d' = (.ok (.success L.length), d') := by
  have hrun : (auditLog unaryCodec (.generate 0)).Run Faults.none
      (fun _ _ => True) newLog [crashedCall] crashedLog :=
    .step (e := crashedCall) .nil trivial (.crashed rfl (haltAfter_reaches _ _ 1 newLog))
  obtain ⟨L, ⟨L₁, rfl, hadds⟩, hopen⟩ := audit_survives Faults.none
    unaryCodec (.generate 0) 1024 crashedLog [crashedCall] hrun
  obtain ⟨log, d', hlog, hverify, -⟩ := hopen 1024
  exact ⟨L, hadds, log, d', hlog, hverify⟩

end SovereignVault.Audit
