/-
Rotation is invisible to the chain.

`rotate` puts the active segment under its archive name and signs the
checkpoint of an empty one, with the count and the head it found. So the
record `record` appends after it is the one it would have appended
without it. `Within` holds at every point of every run: `record` appends
where the line fits, or to an empty segment.
-/
import SovereignVault.Audit.Recovery

namespace SovereignVault.Audit

open Crash Prog Sample

variable {r : AuditRecord}

def LogCall.maxBytes : LogCall → Nat
  | .openLog maxBytes => maxBytes
  | .record maxBytes _ => maxBytes

variable {codec : Codec} {key : MasterKey} {F : Faults Disk AuditError}
  {checkpoint : Checkpoint} {maxBytes : Nat} {d : Disk}

-- ==== the size of the active segment

/-- The active segment is within its limit, or is a single record. -/
def Within (codec : Codec) (maxBytes : Nat) (d : Disk) : Prop :=
  ∀ raw, d.active
    = some raw → min maxBytes MAX_ACTIVE_VERIFY_BYTES < raw.length → ∃ r, raw = codec.line r

theorem within_empty (h : d.active = some []) : Within codec maxBytes d := by
  intro raw hraw hlong
  rw [h] at hraw
  cases hraw
  cases hlong

theorem within_append (hfits : ∀ raw, d.active = some raw → raw = []
      ∨ raw.length + (codec.line r).length ≤ min maxBytes MAX_ACTIVE_VERIFY_BYTES) :
    Within codec maxBytes (d.append (codec.line r)) := by
  intro raw' hraw' hlong
  obtain ⟨raw, hraw, rfl⟩ := Option.map_eq_some_iff.1 hraw'
  rcases hfits raw hraw with rfl | hle
  · exact ⟨r, rfl⟩
  · rw [List.length_append] at hlong
    exact absurd hlong (not_lt.2 hle)

-- ==== what keeps it

instance {J : Disk → Prop} {α : Type} (f : Disk → Except AuditError α) : Keeps J (reading f) :=
  ⟨(observes_reading f).stable⟩

theorem keeps_atomicReplace {J : Disk → Prop} {f : Disk → Disk}
    (hf : ∀ d, J d → J (f d)) : Keeps J (atomicReplace f) :=
  ⟨stable_bind (stable_modify hf) fun _ => stable_sync⟩

instance : Keeps (Within codec maxBytes) (writeCheckpoint checkpoint) :=
  keeps_atomicReplace fun _ h => h

instance : Keeps (Within codec maxBytes) (atomicReplace fun d => { d with active := some [] }) :=
  keeps_atomicReplace fun _ _ => within_empty rfl

instance : Keeps (Within codec maxBytes) (recoverRotation codec key checkpoint) := by
  unfold recoverRotation recoverRotation.finish
  refine keeps_bind fun interrupted => ?_
  split
  · refine keeps_bind fun active => ?_
    split <;> infer_instance
  · infer_instance

instance : Keeps (Within codec maxBytes) (recoverInterruptedCommit codec key) := by
  unfold recoverInterruptedCommit
  refine keeps_bind fun checkpoint => keeps_bind fun start => keeps_bind fun present => ?_
  have hverdict : ∀ verdict, Keeps (Within codec maxBytes)
      (commitActive codec key checkpoint verdict) := by
    intro verdict
    cases verdict <;> unfold commitActive <;> infer_instance
  cases present <;> infer_instance

instance (n : Nat) : Keeps (Within codec maxBytes) (openLog codec key n) := by
  unfold openLog
  infer_instance

theorem wp_appendRecord_within (h : Within codec maxBytes d)
    (hfits : ∀ raw, d.active = some raw → raw = []
      ∨ raw.length + (codec.line r).length ≤ min maxBytes MAX_ACTIVE_VERIFY_BYTES) :
    wp F (Within codec maxBytes) (appendRecord codec key checkpoint r)
      (fun _ => Within codec maxBytes) d := by
  refine (observes_reading _).wp_seq h (fun _ => h) fun _ _ => ?_
  rw [bind_eq, wp_bind, wp_modify]
  exact ⟨h, ⟨within_append hfits, Keeps.stable F _ (within_append hfits)⟩, fun _ _ => h⟩

theorem stable_record {n : Nat} (hn : n ≤ maxBytes) (event : AuditEvent) :
    Stable (Within codec maxBytes) (record codec key n event) := by
  have hafter : ∀ checkpoint, Stable (Within codec maxBytes)
      (recordAfter codec key n checkpoint event) := by
    intro checkpoint F d h
    unfold recordAfter
    dsimp only
    split
    · exact ⟨h, h⟩
    refine (observes_reading _).wp_seq h (fun _ => h) fun len hlen => ?_
    split
    · rw [bind_eq, wp_bind]
      have h₁ : Within codec maxBytes (d.archiveActive checkpoint.activeSegment) := by
        unfold Disk.archiveActive
        split
        · exact fun _ hraw => nomatch hraw
        · exact h
      have hrotate : wp F (Within codec maxBytes) (rotate key checkpoint)
          (fun res d' => ∀ rotated, res = .ok rotated → d'.active = some []) d :=
        wp_rotate_steps rfl h h₁ (within_empty rfl) (within_empty rfl)
          (fun _ h => h) (fun _ _ _ _ => nofun) fun _ _ _ _ => rfl
      refine hrotate.post fun res d' h' hempty => ?_
      cases res with
      | error e => exact h'
      | ok rotated =>
        refine wp_appendRecord_within h' fun raw hraw => .inl ?_
        rw [hempty rotated rfl] at hraw
        exact (Option.some.inj hraw).symm
    · next hfull =>
      refine wp_appendRecord_within h fun raw hraw => ?_
      rw [hraw] at hlen
      cases hlen
      rcases not_and_or.1 hfull with hnil | hle
      · exact .inl (List.length_eq_zero_iff.1 (by omega))
      · exact .inr ((not_lt.1 hle).trans (min_le_min_right _ hn))
  have hverified : ∀ verified checkpoint, Keeps (Within codec maxBytes)
      (ensureVerified codec key verified checkpoint) := by
    intro verified checkpoint
    unfold ensureVerified
    infer_instance
  exact stable_bind Keeps.stable fun verified => stable_bind Keeps.stable
    fun checkpoint => stable_bind (hverified _ _).stable fun _ =>
    hafter checkpoint

variable {h : List (Event Disk AuditError LogCall Unit)}

theorem Within.run {maxBytes₀ : Nat} (hrun : (auditLog codec key).Run
      F (fun _ call => call.maxBytes ≤ maxBytes) ((create key maxBytes₀).run .empty).2 h d) :
    Within codec maxBytes d := by
  refine hrun.invariant (within_empty rfl) ?_ fun _ h => h
  intro d call p h hcall hp
  cases hp
  cases call with
  | openLog n => exact stable_bind Keeps.stable (fun _ => stable_ret _) F d h
  | record n event => exact stable_record hcall event F d h

-- ==== the chain

variable {L : List AuditEvent}

theorem rotate_ok {rotated : Checkpoint}
    {d' : Disk} (hold : Holds codec key L d) (hloaded : loadCheckpoint key d = .ok checkpoint)
    (hrun : (rotate key checkpoint).run d = (.ok rotated, d')) :
    rotated.recordCount = checkpoint.recordCount
    ∧ rotated.headMac = checkpoint.headMac
    ∧ loadCheckpoint key d' = .ok rotated
    ∧ archiveSegments d' = .ok (Finset.range rotated.activeSegment) := by
  obtain ⟨c, more, hc, hmore, harch⟩ := hold.commits
  cases hc.loadCheckpoint.symm.trans hloaded
  have hwp : wp Faults.none (fun _ => True) (rotate key (c.checkpoint key))
      (fun res d' => ∀ rotated, res = .ok rotated →
        rotated = c.rotated.checkpoint key ∧ Commits key c.rotated d'
        ∧ archiveSegments d' = .ok (Finset.range (c.segs.length + 1))) d := by
    refine wp_rotate_steps (J := fun _ => True) (checkpoint_rotated c)
      trivial trivial trivial trivial (fun _ h => h)
      (fun _ _ _ _ => nofun) fun hfree hsome => ?_
    rintro _ ⟨rfl⟩
    refine ⟨rfl, rfl, ?_⟩
    obtain ⟨raw, hraw⟩ := Option.isSome_iff_exists.1 hsome
    -- the archive name is free, so no rotation was interrupted here
    have hlen : (segmentsFrom codec key 0 .genesis (c.segs ++ more)).length = c.segs.length := by
      rw [c.checkpoint_activeSegment, harch.lookup, List.getElem?_eq_none_iff] at hfree
      rw [segmentsFrom_length, List.length_append] at hfree ⊢
      omega
    have harch' := harch.insert hraw
    rw [hlen] at harch'
    have hsegs := harch'.segments
    rw [List.length_append, hlen] at hsegs
    exact hsegs
  have hdone := hwp.run
  rw [hrun] at hdone
  obtain ⟨rfl, hcommits, hsegs⟩ := hdone rotated rfl
  refine ⟨?_, c.head_rotated key, hcommits.loadCheckpoint, ?_⟩
  · rw [c.rotated.checkpoint_recordCount, c.events_rotated]
    rfl
  · rw [hsegs, c.rotated.checkpoint_activeSegment, Content.rotated, List.length_append]
    rfl

/-- Rotation is invisible to the chain: it changes neither the count nor
the head and leaves all archives; a record is signed over the same count
and head whether its call rotates or not; and the active segment exceeds
the limit only as a single record. -/
theorem rotation_invisible
    (F : Faults Disk AuditError) (codec : Codec) (key : MasterKey) (maxBytes maxBytes₀ : Nat)
    (d : Disk) (h : List (Event Disk AuditError LogCall Unit)) (hrun : (auditLog codec key).Run F
      (fun _ call => call.maxBytes ≤ maxBytes) ((create key maxBytes₀).run .empty).2 h d) :
    Within codec maxBytes d
    ∧ (∀ checkpoint rotated d', loadCheckpoint key d = .ok checkpoint → (rotate key checkpoint).run
      d = (.ok rotated, d') → rotated.recordCount = checkpoint.recordCount
      ∧ rotated.headMac = checkpoint.headMac
      ∧ loadCheckpoint key d' = .ok rotated
      ∧ archiveSegments d' = .ok (Finset.range rotated.activeSegment))
    ∧ ∃ L, Logged codec key [] h L ∧ ∀ n event,
      (nextLine codec key L (codec.redact key event)).length ≤ MAX_ACTIVE_VERIFY_BYTES →
      ∃ checkpoint d', (record codec key n event).run d = (.ok (), d')
        ∧ loadCheckpoint key d' = .ok checkpoint
        ∧ archiveSegments d' = .ok (Finset.range checkpoint.activeSegment)
        ∧ storedRecords codec d' = recordsFrom key 0 .genesis L
          ++ [signRecord L.length (headFrom key 0 .genesis L) (codec.redact key event) key] := by
  have h₀ : Holds codec key [] ((create key maxBytes₀).run .empty).2 :=
    .settled ⟨[], []⟩ rfl (create_settled codec key maxBytes₀)
  obtain ⟨L, hlog, hold⟩ := h₀.run hrun
  refine ⟨Within.run hrun, fun _ _ _ => rotate_ok hold, L, hlog, fun n event hshort => ?_⟩
  rcases (wp_record (F := Faults.none) n event hold).run with
    ⟨hok, c, hc, hs⟩ | ⟨⟨_, _, hf⟩ | hlong, -⟩
  · have hsegs := hs.archives.segments
    rw [archiveTexts_length] at hsegs
    refine ⟨_, _, Prod.ext hok rfl, hs.checkpoint.loadCheckpoint, hsegs, ?_⟩
    rw [hs.storedRecords, hc, recordsFrom_append, Nat.zero_add]
    rfl
  · exact hf.elim
  · exact absurd hlong (not_lt.2 hshort)

theorem rotation_invisible_crashed : Within unaryCodec 1024 crashedLog := by
  have hrun : (auditLog unaryCodec (.generate 0)).Run Faults.none
      (fun _ call => call.maxBytes ≤ 1024) newLog [crashedCall] crashedLog :=
    .step (e := crashedCall) .nil le_rfl
      (.crashed rfl (haltAfter_reaches _ _ 1 newLog))
  exact (rotation_invisible Faults.none unaryCodec (.generate 0) 1024 1024
    crashedLog [crashedCall] hrun).1

end SovereignVault.Audit
