/-
The record chain of a list of events, and what the scanner makes of it.

`recordsFrom` signs a list of events from a sequence number and a
previous MAC on; `textFrom` is what such records are on disk. The scanner
accepts that text (`scanSegment_textFrom`), and whatever it accepts
decodes to such records (`scanSegment_sound`). The MAC at the head of a
chain determines its events (`headFrom_injective`).
-/
import SovereignVault.Audit.Log

namespace SovereignVault.Audit

open List

variable (codec : Codec) (key : MasterKey) (r : AuditRecord) (rs : List AuditRecord)

-- ==== the chain

def recordsFrom : Nat → Mac → List AuditEvent → List AuditRecord
  | _, _, [] => []
  | n, prev, e :: es =>
    signRecord n prev e key :: recordsFrom (n + 1) (signRecord n prev e key).mac es

def headFrom : Nat → Mac → List AuditEvent → Mac
  | _, prev, [] => prev
  | n, prev, e :: es => headFrom (n + 1) (signRecord n prev e key).mac es

def textFrom (n : Nat) (prev : Mac) (es : List AuditEvent) : Bytes :=
  (recordsFrom key n prev es).flatMap codec.line

@[simp] theorem headFrom_nil (n : Nat) (prev : Mac) : headFrom key n prev [] = prev := rfl

@[simp] theorem textFrom_nil (n : Nat) (prev : Mac) : textFrom codec key n prev [] = [] := rfl

theorem headFrom_append (n : Nat) (prev : Mac) (es fs : List AuditEvent) :
    headFrom key n prev (es ++ fs)
      = headFrom key (n + es.length) (headFrom key n prev es) fs := by
  induction es generalizing n prev with
  | nil => rfl
  | cons e es ih =>
    simp only [cons_append, headFrom, length_cons]
    rw [ih]
    congr 1
    omega

theorem recordsFrom_append (n : Nat) (prev : Mac) (es fs : List AuditEvent) :
    recordsFrom key n prev (es ++ fs) = recordsFrom key n prev es
      ++ recordsFrom key (n + es.length) (headFrom key n prev es) fs := by
  induction es generalizing n prev with
  | nil => rfl
  | cons e es ih =>
    simp only [cons_append, recordsFrom, headFrom, length_cons]
    rw [ih]
    congr 3
    omega

theorem textFrom_append (n : Nat) (prev : Mac) (es fs : List AuditEvent) :
    textFrom codec key n prev (es ++ fs) = textFrom codec key n prev es
      ++ textFrom codec key (n + es.length) (headFrom key n prev es) fs := by
  unfold textFrom
  rw [recordsFrom_append, flatMap_append]

theorem headFrom_snoc (n : Nat) (prev : Mac) (es : List AuditEvent)
    (e : AuditEvent) : headFrom key n prev (es ++ [e]) = .record key FORMAT_VERSION
      (n + es.length) (headFrom key n prev es) e := by
  rw [headFrom_append]
  rfl

theorem textFrom_snoc (n : Nat) (prev : Mac) (es : List AuditEvent)
    (e : AuditEvent) : textFrom codec key n prev (es ++ [e]) = textFrom codec key n prev es
      ++ codec.line (signRecord (n + es.length) (headFrom key n prev es) e key) := by
  rw [textFrom_append]
  simp [textFrom, recordsFrom]

variable {prev : Mac} {n entries : Nat}

theorem headFrom_canonical (n : Nat) (hprev : prev.canonical)
    (es : List AuditEvent) : (headFrom key n prev es).canonical := by
  induction es generalizing n prev with
  | nil => exact hprev
  | cons e es ih => exact ih (n + 1) rfl

theorem recordsFrom_event (n : Nat) (prev : Mac) (es : List AuditEvent) :
    (recordsFrom key n prev es).map AuditRecord.event = es := by
  induction es generalizing n prev with
  | nil => rfl
  | cons e es ih =>
    simp only [recordsFrom, map_cons, ih]
    rfl

theorem recordsFrom_sequence (n : Nat) (prev : Mac) (es : List AuditEvent) :
    (recordsFrom key n prev es).map AuditRecord.sequence
      = List.range' n es.length := by
  induction es generalizing n prev with
  | nil => rfl
  | cons e es ih =>
    simp only [recordsFrom, map_cons, ih, length_cons, range'_succ]
    rfl

theorem headFrom_injective {es fs : List AuditEvent}
    (h : headFrom key 0 .genesis es = headFrom key 0 .genesis fs) : es = fs := by
  induction es using List.reverseRecOn generalizing fs with
  | nil =>
    induction fs using List.reverseRecOn with
    | nil => rfl
    | append_singleton fs f _ =>
      rw [headFrom_snoc] at h
      cases h
  | append_singleton es e ih =>
    induction fs using List.reverseRecOn with
    | nil =>
      rw [headFrom_snoc] at h
      cases h
    | append_singleton fs f _ =>
      rw [headFrom_snoc, headFrom_snoc] at h
      injection h with _ _ _ hprev hevent
      rw [ih hprev, hevent]

-- ==== lines of text

theorem splitLines_line {l : Bytes} (h : NEWLINE ∉ l) (rest : Bytes) :
    splitLines (l ++ NEWLINE :: rest) = l :: splitLines rest := by
  induction l with
  | nil => simp [splitLines]
  | cons b l ih =>
    have hb : b ≠ NEWLINE := fun hb => h (by simp [hb])
    have hl : NEWLINE ∉ l := fun hm => h (mem_cons_of_mem _ hm)
    simp only [cons_append, splitLines, if_neg hb, ih hl]

variable {codec key}

theorem stripCr_encode : stripCr (codec.encodeRecord r) = codec.encodeRecord r :=
  if_neg (codec.no_trailing_cr r)

theorem lines_records : lines (rs.flatMap codec.line) = rs.map codec.encodeRecord := by
  unfold lines
  induction rs with
  | nil => rfl
  | cons r rs ih =>
    rw [flatMap_cons, Codec.line, append_assoc, singleton_append,
      splitLines_line (codec.newline_notMem r), map_cons, ih, stripCr_encode, map_cons]

theorem validUtf8_line : validUtf8 (codec.line r) :=
  validUtf8_append (codec.encode_utf8 r) (by decide)

theorem validUtf8_records : validUtf8 (rs.flatMap codec.line) := by
  induction rs with
  | nil => exact (by decide : validUtf8 [] = true)
  | cons r rs ih => exact validUtf8_append (validUtf8_line r) ih

theorem records_terminated : ¬ (rs.flatMap codec.line ≠ []
      ∧ (rs.flatMap codec.line).getLast? ≠ some NEWLINE) := by
  rintro ⟨hne, hlast⟩
  induction rs using List.reverseRecOn with
  | nil => exact hne rfl
  | append_singleton rs r _ =>
    apply hlast
    rw [flatMap_append, flatMap_cons, flatMap_nil, append_nil, Codec.line, ← append_assoc]
    exact getLast?_concat

-- ==== the scanner accepts

theorem scanLine_signed (n : Nat) (hprev : prev.canonical) (e : AuditEvent) :
    scanLine codec key (codec.encodeRecord (signRecord n prev e key)) n prev
      = .ok (signRecord n prev e key).mac := by
  unfold scanLine
  rw [if_neg (codec.encode_ne_nil _), codec.decode_encode]
  simp only
  rw [(verifyRecord_ok_iff hprev).2 rfl]

theorem scanLines_records
    (n : Nat) (hprev : prev.canonical) (es : List AuditEvent) : scanLines codec key
        ((recordsFrom key n prev es).map codec.encodeRecord) n prev
      = .valid (n + es.length) (headFrom key n prev es) := by
  induction es generalizing n prev with
  | nil => rfl
  | cons e es ih =>
    simp only [recordsFrom, map_cons, scanLines, headFrom]
    rw [scanLine_signed n hprev e]
    simp only
    rw [ih (n + 1) rfl, length_cons]
    congr 1
    omega

theorem scanSegment_textFrom (path : String) (n : Nat) (hprev : prev.canonical)
    (es : List AuditEvent) : scanSegment codec key path (textFrom codec key n prev es) n prev
      = .valid (n + es.length) (headFrom key n prev es) := by
  unfold scanSegment textFrom
  rw [if_neg (records_terminated _), if_pos (validUtf8_records _), lines_records]
  exact scanLines_records n hprev es

-- ==== what it accepts is a chain

def decoded (codec : Codec) (raw : Bytes) : List AuditRecord :=
  (lines raw).filterMap codec.decodeRecord

theorem scanLine_sound {line : Bytes} {n : Nat}
    {prev mac : Mac} (hprev : prev.canonical) (h : scanLine codec key line n prev = .ok mac) :
    ∃ e, codec.decodeRecord line = some (signRecord n prev e key)
      ∧ mac = (signRecord n prev e key).mac := by
  unfold scanLine at h
  split at h
  · cases h
  split at h
  · split at h
    · cases h
    · cases h
  next r hr =>
  split at h
  · cases h
  next hv =>
  have hsigned := (verifyRecord_ok_iff hprev).1 hv
  refine ⟨r.event, ?_, ?_⟩
  · rw [hr, ← hsigned]
  · rw [← hsigned]
    exact (Except.ok.inj h).symm

theorem scanLines_sound {ls : List Bytes} {prev head : Mac}
    (hprev : prev.canonical) (h : scanLines codec key ls n prev = .valid entries head) :
    ∃ es, ls.filterMap codec.decodeRecord = recordsFrom key n prev es
      ∧ entries = n + es.length ∧ head = headFrom key n prev es := by
  induction ls generalizing n prev with
  | nil =>
    injection h with hn hp
    exact ⟨[], rfl, hn.symm, hp.symm⟩
  | cons line ls ih =>
    unfold scanLines at h
    split at h
    · cases h
    next mac hline =>
    obtain ⟨e, hdec, rfl⟩ := scanLine_sound hprev hline
    obtain ⟨es, hrest, hn, hh⟩ := ih rfl h
    refine ⟨e :: es, ?_, ?_, hh⟩
    · rw [filterMap_cons, hdec]
      exact congrArg _ hrest
    · rw [hn, length_cons]
      omega

theorem scanSegment_sound {path : String} {raw : Bytes} {prev head : Mac}
    (hprev : prev.canonical) (h : scanSegment codec key path raw n prev = .valid entries head) :
    ∃ es, decoded codec raw = recordsFrom key n prev es
      ∧ entries = n + es.length ∧ head = headFrom key n prev es := by
  unfold scanSegment at h
  split at h
  · cases h
  · split at h
    · exact scanLines_sound hprev h
    · cases h

-- ==== several segments

def segmentsFrom (codec : Codec) (key : MasterKey) : Nat → Mac → List (List AuditEvent) → List Bytes
  | _, _, [] => []
  | n, prev, es :: rest => textFrom codec key n prev es
      :: segmentsFrom codec key (n + es.length) (headFrom key n prev es) rest

theorem segmentsFrom_length (n : Nat) (prev : Mac) (segs : List (List AuditEvent)) :
    (segmentsFrom codec key n prev segs).length = segs.length := by
  induction segs generalizing n prev with
  | nil => rfl
  | cons es segs ih => simp [segmentsFrom, ih]

theorem segmentsFrom_append (n : Nat)
    (prev : Mac) (segs more : List (List AuditEvent)) : segmentsFrom codec key n prev (segs ++ more)
      = segmentsFrom codec key n prev segs ++ segmentsFrom codec key (n + segs.flatten.length)
          (headFrom key n prev segs.flatten) more := by
  induction segs generalizing n prev with
  | nil => rfl
  | cons es segs ih =>
    simp only [cons_append, segmentsFrom, flatten_cons, length_append]
    rw [ih, headFrom_append]
    congr 3
    omega

theorem scanPathsFrom_segments {d : Disk} (segments : List Segment)
    (n : Nat) (hprev : prev.canonical) (segs : List (List AuditEvent)) (hfiles : segments.map d.file
      = (segmentsFrom codec key n prev segs).map some) :
    scanPathsFrom codec key d segments n prev = .ok (.valid (n + segs.flatten.length)
        (headFrom key n prev segs.flatten)) := by
  induction segs generalizing n prev segments with
  | nil =>
    obtain rfl : segments = [] := map_eq_nil_iff.1 hfiles
    rfl
  | cons es segs ih =>
    cases segments with
    | nil => cases hfiles
    | cons s segments =>
      simp only [segmentsFrom, map_cons, List.cons.injEq] at hfiles
      unfold scanPathsFrom
      rw [hfiles.1]
      simp only
      rw [scanSegment_textFrom _ n hprev es]
      simp only
      rw [ih segments _ (headFrom_canonical key n hprev es) hfiles.2,
        flatten_cons, length_append, headFrom_append]
      congr 2
      omega

theorem scanPathsFrom_sound {d : Disk} {segments : List Segment}
    {prev head : Mac} (hprev : prev.canonical) (h : scanPathsFrom codec key d segments n prev
      = .ok (.valid entries head)) :
    ∃ es, (segments.flatMap fun s => decoded codec ((d.file s).getD [])) = recordsFrom key n prev es
      ∧ entries = n + es.length ∧ head = headFrom key n prev es := by
  induction segments generalizing n prev with
  | nil =>
    injection h with h
    injection h with hn hp
    exact ⟨[], rfl, hn.symm, hp.symm⟩
  | cons s segments ih =>
    unfold scanPathsFrom at h
    split at h
    · cases h
    next raw hraw =>
    split at h
    · cases h
    next n' prev' hseg =>
    obtain ⟨es, hdec, rfl, rfl⟩ := scanSegment_sound hprev hseg
    obtain ⟨fs, hrest, hn, hh⟩ := ih (headFrom_canonical key n hprev es) h
    refine ⟨es ++ fs, ?_, ?_, ?_⟩
    · rw [flatMap_cons, hraw, Option.getD_some, hdec, hrest, recordsFrom_append]
    · rw [hn, length_append]
      omega
    · rw [hh, headFrom_append]

end SovereignVault.Audit
