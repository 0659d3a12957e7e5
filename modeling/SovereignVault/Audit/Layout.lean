/-
The states the audit directory can be in, and what the log's functions
see in each.

A `Content` is a list of events cut into archived segments and the active
one. `Settled` is the directory of a committed content. `Appended` has one
valid record more than the checkpoint. `Rotating` has the active segment
under its archive name already, and no active file or an empty one.
-/
import SovereignVault.Audit.Chain

namespace SovereignVault.Audit

open List

-- ==== the content

structure Content where
  segs : List (List AuditEvent)
  act : List AuditEvent

namespace Content

variable (c : Content) (e : AuditEvent)

def archived (c : Content) : List AuditEvent := c.segs.flatten

def events (c : Content) : List AuditEvent := c.archived ++ c.act

def push (c : Content) (e : AuditEvent) : Content := ⟨c.segs, c.act ++ [e]⟩

def rotated (c : Content) : Content := ⟨c.segs ++ [c.act], []⟩

@[simp] theorem events_push : (c.push e).events = c.events ++ [e] := by
  simp [events, archived, push]

@[simp] theorem events_rotated : c.rotated.events = c.events := by simp [events, archived, rotated]

theorem archived_rotated : c.rotated.archived = c.events := by simp [events, archived, rotated]

variable (codec : Codec) (key : MasterKey)

def startMac (c : Content) : Mac := headFrom key 0 .genesis c.archived

def head (c : Content) : Mac := headFrom key 0 .genesis c.events

def archiveTexts (c : Content) : List Bytes :=
  segmentsFrom codec key 0 .genesis c.segs

def activeText (c : Content) : Bytes :=
  textFrom codec key c.archived.length (c.startMac key) c.act

def checkpoint (c : Content) : Checkpoint :=
  .signed c.events.length (c.head key) c.segs.length c.act.length (c.startMac key) key

@[simp] theorem checkpoint_recordCount : (c.checkpoint key).recordCount = c.events.length := rfl

@[simp] theorem checkpoint_headMac : (c.checkpoint key).headMac = c.head key := rfl

@[simp] theorem checkpoint_activeSegment : (c.checkpoint key).activeSegment = c.segs.length := rfl

@[simp] theorem checkpoint_activeRecordCount :
    (c.checkpoint key).activeRecordCount = c.act.length := rfl

@[simp] theorem checkpoint_activeStartPrevMac :
    (c.checkpoint key).activeStartPrevMac = c.startMac key := rfl

theorem head_eq : headFrom key c.archived.length (c.startMac key) c.act = c.head key := by
  unfold head events startMac
  rw [headFrom_append, Nat.zero_add]

theorem head_push : (c.push e).head key
      = .record key FORMAT_VERSION c.events.length (c.head key) e := by
  unfold head
  rw [events_push, headFrom_snoc, Nat.zero_add]

theorem startMac_rotated : c.rotated.startMac key = c.head key := by
  unfold startMac head
  rw [archived_rotated]

theorem head_rotated : c.rotated.head key = c.head key := by
  unfold head
  rw [events_rotated]

theorem head_canonical : (c.head key).canonical := headFrom_canonical key 0 rfl _

theorem startMac_canonical : (c.startMac key).canonical := headFrom_canonical key 0 rfl _

theorem events_length : c.events.length = c.archived.length + c.act.length := by exact length_append

theorem archiveTexts_rotated : c.rotated.archiveTexts codec key
      = c.archiveTexts codec key ++ [c.activeText codec key] := by
  unfold archiveTexts rotated activeText startMac archived
  rw [segmentsFrom_append, Nat.zero_add]
  rfl

def nextRecord (c : Content) (e : AuditEvent) : AuditRecord :=
  signRecord c.events.length (c.head key) e key

theorem activeText_push : (c.push e).activeText codec key
      = c.activeText codec key ++ codec.line (c.nextRecord key e) := by
  unfold activeText nextRecord
  show textFrom codec key c.archived.length (c.startMac key) (c.act ++ [e]) = _
  rw [textFrom_snoc, head_eq, events_length]

end Content

-- ==== the states

section States

variable (codec : Codec) (key : MasterKey)

/-- The archives are these texts, and nothing else is named like one. -/
structure ArchivesAre (d : Disk) (texts : List Bytes) : Prop where
  strays : d.strays = []
  lookup : ∀ n, d.archives.lookup n = texts[n]?

def Commits (c : Content) (d : Disk) : Prop :=
  d.checkpoint = some (.parsed (c.checkpoint key))

structure Settled (c : Content) (d : Disk) : Prop where
  archives : ArchivesAre d (c.archiveTexts codec key)
  active : d.active = some (c.activeText codec key)
  checkpoint : Commits key c d

structure Appended (c : Content) (e : AuditEvent) (d : Disk) : Prop where
  archives : ArchivesAre d (c.archiveTexts codec key)
  active : d.active = some ((c.push e).activeText codec key)
  checkpoint : Commits key c d

structure Rotating (c : Content) (d : Disk) : Prop where
  archives : ArchivesAre d (c.rotated.archiveTexts codec key)
  active : d.active = none ∨ d.active = some []
  checkpoint : Commits key c d
  nonempty : c.act ≠ []

end States

section Reading

variable {codec : Codec} {key : MasterKey} {c : Content} {d : Disk}
  {more : List (List AuditEvent)} {texts : List Bytes} {e : AuditEvent}

theorem Commits.loadCheckpoint (h : Commits key c d) :
    loadCheckpoint key d = .ok (c.checkpoint key) := by
  have hle : c.act.length ≤ c.events.length := by
    rw [c.events_length]
    omega
  unfold Audit.loadCheckpoint
  rw [h]
  simp only [Content.checkpoint]
  rw [Checkpoint.verify_signed key (c.head_canonical key) (c.startMac_canonical key) hle]
  rfl

theorem startSequence_checkpoint (c : Content) :
    startSequence (c.checkpoint key) = .ok c.archived.length := by
  have hlen := c.events_length
  unfold startSequence
  rw [c.checkpoint_recordCount, c.checkpoint_activeRecordCount, if_pos (by omega)]
  congr 1
  omega

-- ==== the archives are there

theorem ArchivesAre.segments (h : ArchivesAre d texts) :
    archiveSegments d = .ok (Finset.range texts.length) := by
  unfold archiveSegments
  rw [h.strays]
  simp only
  congr 1
  ext n
  rw [mem_toFinset, ← AList.mem_keys, ← AList.lookup_isSome, h.lookup n, Finset.mem_range]
  simp

theorem ArchivesAre.files (h : ArchivesAre d texts)
    {k : Nat} (hk : k ≤ texts.length) : (archivesBelow k).map d.file = (texts.take k).map some := by
  apply ext_getElem?
  intro n
  unfold archivesBelow
  rw [map_map, getElem?_map, getElem?_map, getElem?_take]
  by_cases hn : n < k
  · rw [getElem?_range hn, if_pos hn]
    have hlt : n < texts.length := by omega
    rw [getElem?_eq_getElem hlt]
    show some (d.archives.lookup n) = _
    rw [h.lookup n, getElem?_eq_getElem hlt]
    rfl
  · rw [if_neg hn, getElem?_eq_none (by simp; omega)]
    rfl

theorem ArchivesAre.scan (h : ArchivesAre d (segmentsFrom codec key 0 .genesis (c.segs ++ more))) :
    scanPaths codec key d (archivesBelow c.segs.length)
      = .ok (.valid c.archived.length (c.startMac key)) := by
  have hlen : c.segs.length = (segmentsFrom codec key 0 .genesis c.segs).length :=
    (segmentsFrom_length 0 .genesis c.segs).symm
  have hfiles := h.files (k := c.segs.length) (by
    rw [segmentsFrom_length, length_append]
    omega)
  rw [segmentsFrom_append, take_left' hlen.symm] at hfiles
  unfold scanPaths
  rw [scanPathsFrom_segments _ 0 rfl c.segs hfiles, Nat.zero_add]
  rfl

theorem scan_archives_settled (h : ArchivesAre d (c.archiveTexts codec key)) :
    scanPaths codec key d (archivesBelow c.segs.length)
      = .ok (.valid c.archived.length (c.startMac key)) := by
  have hall : ArchivesAre d (segmentsFrom codec key 0 .genesis (c.segs ++ [])) := by
    rw [append_nil]
    exact h
  exact hall.scan

theorem scan_archives_rotating (h : ArchivesAre d (c.rotated.archiveTexts codec key)) :
    scanPaths codec key d (archivesBelow (c.segs.length + 1))
      = .ok (.valid c.events.length (c.head key)) := by
  have hscan := scan_archives_settled h
  rw [Content.archived_rotated, Content.startMac_rotated] at hscan
  have hlen : c.rotated.segs.length = c.segs.length + 1 := by exact length_append
  rw [hlen] at hscan
  exact hscan

theorem scan_active {n : Nat} {prev : Mac} {es : List AuditEvent}
    (hprev : prev.canonical) (h : d.active = some (textFrom codec key n prev es)) :
    scanPathsFrom codec key d [.active] n prev
      = .ok (.valid (n + es.length) (headFrom key n prev es)) := by
  have hfiles : [Segment.active].map d.file = (segmentsFrom codec key n prev [es]).map some := by
    show [d.active] = _
    rw [h]
    rfl
  rw [scanPathsFrom_segments _ n hprev [es] hfiles]
  simp

theorem scan_active_content (h : d.active = some (c.activeText codec key)) :
    scanPathsFrom codec key d [.active] c.archived.length (c.startMac key)
      = .ok (.valid c.events.length (c.head key)) := by
  rw [scan_active (c.startMac_canonical key) h, c.head_eq, c.events_length]

theorem ensureActive {raw : Bytes} (h : d.active = some raw)
    (label : String) : ensureRegularFile d .active label = .ok () := by
  unfold ensureRegularFile
  rw [if_pos]
  show d.active.isSome = true
  rw [h]
  rfl

-- ==== a settled log

theorem archiveTexts_length (c : Content) : (c.archiveTexts codec key).length = c.segs.length :=
  segmentsFrom_length 0 .genesis c.segs

theorem Settled.verifyAgainst (h : Settled codec key c d) :
    verifyAgainst codec key d (c.checkpoint key)
      = .ok (.success c.events.length) := by
  have hsegs := h.archives.segments
  rw [archiveTexts_length] at hsegs
  unfold Audit.verifyAgainst
  rw [hsegs]
  simp only [c.checkpoint_activeSegment, ne_eq, not_true_eq_false, if_false,
    ensureActive h.active, scan_archives_settled h.archives, ok_bind,
    startSequence_checkpoint, c.checkpoint_activeStartPrevMac, or_self]
  unfold verifyActiveFrom
  rw [scan_active_content h.active]
  simp only [ok_bind, c.checkpoint_recordCount, c.checkpoint_headMac, ne_eq,
    not_true_eq_false, if_false]
  rfl

theorem Settled.activeVerdict (h : Settled codec key c d) :
    activeVerdict codec key d (c.checkpoint key) c.archived.length
      = .ok .committed := by
  unfold Audit.activeVerdict
  simp only [c.checkpoint_activeStartPrevMac, scan_active_content
    h.active, ok_bind, c.checkpoint_recordCount, c.checkpoint_headMac, and_self, if_true]
  rfl

theorem verifyCommittedArchives_ok
    (h : ArchivesAre d (segmentsFrom codec key 0 .genesis (c.segs ++ more)))
    (hmore : more.length ≤ 1) : verifyCommittedArchives codec key d (c.checkpoint key)
      = .ok (.success c.archived.length) := by
  have hsegs := h.segments
  rw [segmentsFrom_length, length_append] at hsegs
  have hset : ¬ (Finset.range (c.segs.length + more.length) ≠ Finset.range c.segs.length
      ∧ Finset.range (c.segs.length + more.length) ≠ Finset.range (c.segs.length + 1)) := by
    rintro ⟨hne, hne'⟩
    rcases Nat.le_one_iff_eq_zero_or_eq_one.1 hmore with h0 | h1
    · exact hne (by rw [h0, Nat.add_zero])
    · exact hne' (by rw [h1])
  unfold verifyCommittedArchives
  simp only [hsegs, ok_bind, c.checkpoint_activeSegment, if_neg hset,
    h.scan, startSequence_checkpoint, c.checkpoint_activeStartPrevMac, ne_eq,
    not_true_eq_false, or_self, if_false]
  rfl

theorem rotationInterrupted_settled (h : ArchivesAre d (c.archiveTexts codec key)) :
    rotationInterrupted codec key d (c.checkpoint key) = .ok false := by
  have hsegs := h.segments
  rw [archiveTexts_length] at hsegs
  have hne : Finset.range c.segs.length ≠ Finset.range (c.segs.length + 1) := by
    intro heq
    have := congrArg Finset.card heq
    simp at this
  unfold rotationInterrupted
  simp only [hsegs, ok_bind, c.checkpoint_activeSegment, ne_eq, hne, not_false_eq_true, if_true]
  rfl

theorem Appended.activeVerdict (h : Appended codec key c e d) :
    activeVerdict codec key d (c.checkpoint key) c.archived.length
      = .ok (.successor (c.push e).events.length ((c.push e).head key)) := by
  have hscan := scan_active_content h.active
  have hlen : (c.push e).events.length = c.events.length + 1 := by
    rw [c.events_push, length_append]
    rfl
  have hne : (c.push e).head key ≠ c.head key := by
    rw [c.head_push]
    exact Mac.record_ne key _ _ _ e
  unfold Audit.activeVerdict
  rw [c.checkpoint_activeStartPrevMac]
  rw [show scanPathsFrom codec key d [.active] c.archived.length (c.startMac key) = _ from hscan]
  simp only [ok_bind, c.checkpoint_recordCount, c.checkpoint_headMac, hne,
    and_false, if_false, hlen, ne_eq, not_false_eq_true, and_self, if_true]
  rfl

theorem Appended.verifyActiveAgainst (h : Appended codec key c e d) :
    ∃ report, verifyActiveAgainst codec key d (c.checkpoint key) = .ok report
      ∧ report.ok = false := by
  have hscan := scan_active_content h.active
  have hlen : (c.push e).events.length ≠ c.events.length := by
    rw [c.events_push, length_append, length_singleton]
    omega
  refine ⟨.failure (c.push e).events.length 0
    "active segment does not match checkpoint", ?_, rfl⟩
  unfold Audit.verifyActiveAgainst
  simp only [ensureActive h.active, ok_bind, startSequence_checkpoint,
    c.checkpoint_activeStartPrevMac]
  rw [show scanPathsFrom codec key d [.active] c.archived.length (c.startMac key) = _ from hscan]
  simp only [ok_bind, c.checkpoint_recordCount, ne_eq, hlen, not_false_eq_true, true_or, if_true]
  rfl

-- ==== a rotation not committed

theorem Rotating.rotationInterrupted (h : Rotating codec key c d) :
    rotationInterrupted codec key d (c.checkpoint key) = .ok true := by
  have hsegs := h.archives.segments
  rw [archiveTexts_length] at hsegs
  have hlen : c.rotated.segs.length = c.segs.length + 1 := by exact length_append
  rw [hlen] at hsegs
  unfold Audit.rotationInterrupted
  simp only [hsegs, ok_bind, c.checkpoint_activeSegment, ne_eq,
    not_true_eq_false, if_false, scan_archives_rotating h.archives,
    c.checkpoint_recordCount, c.checkpoint_headMac, and_self, decide_true]
  rfl

theorem Rotating.scan_empty (h : Rotating codec key c d) (hactive : d.active = some []) :
    scanPathsFrom codec key d [.active] c.archived.length (c.startMac key)
      = .ok (.valid c.archived.length (c.startMac key))
      ∧ c.archived.length < c.events.length := by
  constructor
  · have hnil : d.active = some
        (textFrom codec key c.archived.length (c.startMac key) []) := hactive
    have hscan := scan_active (c.startMac_canonical key) hnil
    simpa using hscan
  · rw [c.events_length]
    have := length_pos_iff.2 h.nonempty
    omega

theorem Rotating.activeVerdict (h : Rotating codec key c d)
    (hactive : d.active = some []) : activeVerdict codec key d (c.checkpoint key) c.archived.length
      = .ok .other := by
  obtain ⟨hscan, hlt⟩ := h.scan_empty hactive
  have hne : c.archived.length ≠ c.events.length := by omega
  have hne' : c.archived.length ≠ c.events.length + 1 := by omega
  unfold Audit.activeVerdict
  simp only [c.checkpoint_activeStartPrevMac, hscan, ok_bind,
    c.checkpoint_recordCount, hne, hne', false_and, if_false]
  rfl

theorem Rotating.verifyActiveAgainst (h : Rotating codec key c d) :
    ∃ report, verifyActiveAgainst codec key d (c.checkpoint key) = .ok report
      ∧ report.ok = false := by
  rcases h.active with hactive | hactive
  · refine ⟨.failure 0 0 (AuditError.integrity
      s!"active audit log is missing: {AUDIT_FILE}").toString, ?_, rfl⟩
    unfold Audit.verifyActiveAgainst ensureRegularFile Disk.file
    rw [hactive]
    rfl
  · obtain ⟨hscan, hlt⟩ := h.scan_empty hactive
    have hne : c.archived.length ≠ c.events.length := by omega
    refine ⟨.failure c.archived.length 0
      "active segment does not match checkpoint", ?_, rfl⟩
    unfold Audit.verifyActiveAgainst
    simp only [ensureActive hactive, ok_bind, startSequence_checkpoint,
      c.checkpoint_activeStartPrevMac, hscan, c.checkpoint_recordCount, hne,
      ne_eq, not_false_eq_true, true_or, if_true]
    rfl

-- ==== the stored records

def segmentsInOrder (d : Disk) : List Segment :=
  (d.archives.keys.toFinset.sort (· ≤ ·)).map Segment.archive ++ [.active]

def storedRecords (codec : Codec) (d : Disk) : List AuditRecord :=
  (segmentsInOrder d).flatMap fun s => decoded codec ((d.file s).getD [])

theorem storedRecords_of_scans {k n : Nat} {prev : Mac}
    (hsegs : archiveSegments d = .ok (Finset.range k))
    (harch : scanPaths codec key d (archivesBelow k) = .ok (.valid n prev))
    (hactive : scanPathsFrom codec key d [.active] n prev
      = .ok (.valid c.events.length (c.head key))) :
    storedRecords codec d = recordsFrom key 0 .genesis c.events := by
  have horder : segmentsInOrder d = archivesBelow k ++ [.active] := by
    unfold archiveSegments at hsegs
    split at hsegs
    · cases hsegs
    · unfold segmentsInOrder archivesBelow
      rw [Except.ok.inj hsegs, Finset.sort_range]
  obtain ⟨es, hes, rfl, rfl⟩ := scanPathsFrom_sound rfl harch
  obtain ⟨fs, hfs, -, hhead⟩ := scanPathsFrom_sound (headFrom_canonical key 0 rfl es) hactive
  rw [← headFrom_append] at hhead
  have hall : c.events = es ++ fs := headFrom_injective key hhead
  unfold storedRecords
  rw [horder, flatMap_append, hes, hfs, hall, recordsFrom_append]

theorem Settled.storedRecords (h : Settled codec key c d) :
    storedRecords codec d = recordsFrom key 0 .genesis c.events := by
  have hsegs := h.archives.segments
  rw [archiveTexts_length] at hsegs
  exact storedRecords_of_scans hsegs (scan_archives_settled h.archives)
    (scan_active_content h.active)

end Reading

end SovereignVault.Audit
