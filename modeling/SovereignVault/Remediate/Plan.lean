/-
`sv-remediate/src/plan.rs`, `verify.rs` and `diff.rs`: plans, their
verification and their preview.

A text is its UTF-8 bytes. A keyed digest is ideal: it says which bytes
were digested under which key. A path is what `Path::components` yields.
What other crates do (JSON, the detectors, the marker format) is a
parameter, `Crates`.
-/
import SovereignVault.Privacy.Scan
import Mathlib.Data.Prod.Lex
import Mathlib.Data.String.Basic
import Mathlib.Data.List.Lex

namespace SovereignVault.Remediate

open List

open Privacy (PiiCategory)

-- ==== paths

inductive Component where
  | rootDir
  | curDir
  | parentDir
  | normal (segment : String)
  deriving DecidableEq

abbrev Path := List Component

inductive PlanError where
  | invalidKey
  | notRelative
  | spanOutOfBounds
  | spanNotCharBoundary
  | markerSpan
  | overlappingSpans (path : Path)
  | serialization (detail : String)
  | identityUnavailable
  deriving DecidableEq

def PlanError.display : PlanError → String
  | .invalidKey => "plan key must be exactly 32 bytes"
  | .notRelative => "path must be relative and stay inside the project"
  | .spanOutOfBounds => "span out of bounds or empty"
  | .spanNotCharBoundary => "span is not on a UTF-8 character boundary"
  | .markerSpan => "span already contains a durable locator marker"
  | .overlappingSpans _ => "plan contains overlapping spans in one file"
  | .serialization detail => s!"serialization failed: {detail}"
  | .identityUnavailable => "file identity unavailable on this platform or filesystem"

def normalized : Path → Except PlanError Path
  | [] => .ok []
  | .normal segment :: rest => (normalized rest).map (.normal segment :: ·)
  | .curDir :: rest => normalized rest
  | _ :: _ => .error .notRelative

def normalizeRelative (path : Path) : Except PlanError Path :=
  match normalized path with
  | .error e => .error e
  | .ok [] => .error .notRelative
  | .ok out => .ok out

-- ==== digests

structure PlanKey where
  bytes : Bytes
  length : bytes.length = 32
  deriving DecidableEq

structure Digest where
  key : PlanKey
  bytes : Bytes
  deriving DecidableEq

def keyedDigest (key : PlanKey) (bytes : Bytes) : Digest := ⟨key, bytes⟩

-- ==== spans

def isCharBoundary (src : Bytes) (i : Nat) : Bool :=
  i = 0 || match src[i]? with
    | some c => c < 0x80 || 0xC0 ≤ c
    | none => i = src.length

structure ByteSpan where
  start : Nat
  stop : Nat
  deriving DecidableEq

namespace ByteSpan

def slice (span : ByteSpan) (src : Bytes) : Except PlanError Bytes :=
  if src.length < span.stop || span.stop ≤ span.start then
    .error .spanOutOfBounds
  else if !isCharBoundary src span.start
      || !isCharBoundary src span.stop then
    .error .spanNotCharBoundary
  else .ok ((src.drop span.start).take (span.stop - span.start))

def overlaps (span other : ByteSpan) : Bool :=
  span.start < other.stop && other.start < span.stop

theorem slice_ok {span : ByteSpan} {src found : Bytes}
    (h : span.slice src = .ok found) : span.start < span.stop ∧ span.stop ≤ src.length
    ∧ isCharBoundary src span.start = true
    ∧ isCharBoundary src span.stop = true
    ∧ found = (src.drop span.start).take (span.stop - span.start) := by
  unfold slice at h
  split at h
  · cases h
  · split at h
    · cases h
    · cases h
      simp_all

end ByteSpan

def replaceRange (text : Bytes) (span : ByteSpan) (replacement : Bytes) : Bytes :=
  text.take span.start ++ replacement ++ text.drop span.stop

-- ==== items

inductive FileIdentity where
  | unix (device inode : Nat)
  | windows (volume index : Nat)
  deriving DecidableEq

structure RulePin where
  detectorVersion : String
  packId : String
  packVersion : String
  deriving DecidableEq

inductive FindingKind where
  | pii (category : PiiCategory)
  | secret (ruleId : String)
  | jurisdiction (packId packVersion ruleId : String) (validated : Option Bool)
  deriving DecidableEq

structure PlanItem where
  projectId : String
  path : Path
  identity : FileIdentity
  wholeFileDigest : Digest
  span : ByteSpan
  matchedDigest : Digest
  rulePin : RulePin
  replacement : Bytes
  kind : FindingKind
  deriving DecidableEq

structure PlanItemDraft where
  projectId : String
  path : Path
  identity : FileIdentity
  source : Bytes
  span : ByteSpan
  replacement : Bytes
  kind : FindingKind
  rulePin : RulePin

structure ScanFinding where
  start : Nat
  stop : Nat
  kind : FindingKind

structure Crates where
  encode : List PlanItem → Except String Bytes
  /-- `PublicLocator::parse` accepts the text. -/
  isMarker : Bytes → Bool
  validUtf8 : Bytes → Bool
  scanVersion : String
  detectSecrets : Bytes → Path → List ScanFinding
  detectPii : Bytes → Path → List ScanFinding
  loadBuiltin : String → Except String Unit
  /-- `sv_scan::detect_jurisdiction` with the pack of that id. -/
  detectJurisdiction : String → Bytes → Path → List ScanFinding

section

variable (crates : Crates)

def PlanItem.build (draft : PlanItemDraft) (key : PlanKey) : Except PlanError PlanItem := do
  let path ← normalizeRelative draft.path
  let matched ← draft.span.slice draft.source
  if crates.isMarker matched then throw .markerSpan
  pure
    { projectId := draft.projectId
      path := path
      identity := draft.identity
      wholeFileDigest := keyedDigest key draft.source
      span := draft.span
      matchedDigest := keyedDigest key matched
      rulePin := draft.rulePin
      replacement := draft.replacement
      kind := draft.kind }

-- ==== plans

def Component.rank : Component → Nat ×ₗ String
  | .rootDir => toLex (0, "")
  | .curDir => toLex (1, "")
  | .parentDir => toLex (2, "")
  | .normal segment => toLex (3, segment)

theorem Component.rank_injective : Function.Injective Component.rank := by
  intro a b h
  cases a <;> cases b <;> simp_all [Component.rank]

instance : LinearOrder Component :=
  LinearOrder.lift' Component.rank Component.rank_injective

def PlanItem.sortKey (item : PlanItem) : String ×ₗ Path ×ₗ Nat ×ₗ Nat :=
  toLex (item.projectId, toLex (item.path, toLex (item.span.start, item.span.stop)))

def PlanItem.Le (a b : PlanItem) : Prop := a.sortKey ≤ b.sortKey

instance : DecidableRel PlanItem.Le := fun a b =>
  inferInstanceAs (Decidable (a.sortKey ≤ b.sortKey))

instance : Std.Total PlanItem.Le := ⟨fun a b => le_total a.sortKey b.sortKey⟩

instance : IsTrans PlanItem PlanItem.Le :=
  ⟨fun _ _ _ hab hbc => le_trans (α := String ×ₗ Path ×ₗ Nat ×ₗ Nat) hab hbc⟩

def PlanItem.clashes (a b : PlanItem) : Bool :=
  a.projectId = b.projectId && a.path = b.path && a.span.overlaps b.span

def firstClash : List PlanItem → Option PlanItem
  | a :: b :: rest =>
    if a.clashes b then some a else firstClash (b :: rest)
  | _ => none

structure RewritePlan where
  items : List PlanItem
  planDigest : Digest
  deriving DecidableEq

def RewritePlan.build (items : List PlanItem) (key : PlanKey) : Except PlanError RewritePlan :=
  let sorted := items.insertionSort PlanItem.Le
  match firstClash sorted with
  | some a => .error (.overlappingSpans a.path)
  | none =>
    match crates.encode sorted with
    | .error e => .error (.serialization e)
    | .ok encoded => .ok ⟨sorted, keyedDigest key encoded⟩

-- ==== verification

inductive VerifyOutcome where
  | verified
  | stale
  deriving DecidableEq

def verifyPlanItem (item : PlanItem) (key : PlanKey) (current : Bytes) : VerifyOutcome :=
  if keyedDigest key current ≠ item.wholeFileDigest then .stale
  else match item.span.slice current with
    | .error _ => .stale
    | .ok found =>
      if keyedDigest key found ≠ item.matchedDigest then .stale
      else .verified

def PlanItem.spanAt (item : PlanItem) (f : ScanFinding) : Bool :=
  f.start = item.span.start && f.stop = item.span.stop

def isRule (ruleId packVersion : String) : FindingKind → Bool
  | .jurisdiction _ v r _ => r = ruleId && v = packVersion
  | _ => false

/-- `pinned_evidence`; the error is the reason the detector is
unavailable. -/
def pinnedEvidence (item : PlanItem) (content : Bytes) : Except String Bool :=
  if item.rulePin.detectorVersion ≠ crates.scanVersion then
    .error (s!"plan pinned detector {item.rulePin.detectorVersion}, "
      ++ s!"current is {crates.scanVersion}")
  else match item.kind with
    | .secret _ => .ok ((crates.detectSecrets content item.path).any item.spanAt)
    | .pii category =>
      .ok ((crates.detectPii content item.path).any fun f =>
        item.spanAt f && f.kind = .pii category)
    | .jurisdiction packId packVersion ruleId _ =>
      if item.rulePin.packId ≠ packId
          || item.rulePin.packVersion ≠ packVersion then
        .error "plan pin does not match the finding's rule pack"
      else match crates.loadBuiltin packId with
        | .error e => .error s!"pinned rule pack unavailable: {e}"
        | .ok () =>
          .ok ((crates.detectJurisdiction packId content item.path).any fun f =>
              item.spanAt f && isRule ruleId packVersion f.kind)

end

-- ==== preview

def ByteSpan.fits (span : ByteSpan) (text : Bytes) : Bool :=
  span.stop ≤ text.length && isCharBoundary text span.start && isCharBoundary text span.stop

namespace Sample

def crates : Crates where
  encode items := .ok (items.flatMap (·.replacement))
  isMarker text := text.head? = some 64
  validUtf8 _ := true
  scanVersion := "1"
  detectSecrets text _ := (List.range text.length).filterMap fun i =>
    if (text.drop i).take 4 = [65, 65, 65, 65]
        || (text.drop i).take 4 = [66, 66, 66, 66] then
      some ⟨i, i + 4, .secret "letters"⟩
    else none
  detectPii _ _ := []
  loadBuiltin _ := .error "unknown pack"
  detectJurisdiction _ _ _ := []

def key : PlanKey := ⟨List.replicate 32 11, by decide⟩

def original : Bytes := [107, 61, 65, 65, 65, 65, 32, 66, 66, 66, 66]

def draft (name : String) (start : Nat) (replacement : Bytes) : PlanItemDraft where
  projectId := "project"
  path := [.normal name]
  identity := .unix 1 10
  source := original
  span := ⟨start, start + 4⟩
  replacement := replacement
  kind := .secret "letters"
  rulePin := ⟨"1", "baseline", "1"⟩

def item (name : String) (start : Nat) (replacement : Bytes) : PlanItem :=
  let d := draft name start replacement
  { projectId := d.projectId
    path := d.path
    identity := d.identity
    wholeFileDigest := keyedDigest key d.source
    span := d.span
    matchedDigest := keyedDigest key ((d.source.drop start).take 4)
    rulePin := d.rulePin
    replacement := d.replacement
    kind := d.kind }

def planOf (items : List PlanItem) : RewritePlan :=
  ⟨items, keyedDigest key (items.flatMap (·.replacement))⟩

def both : RewritePlan := planOf [item "a" 2 [35], item "a" 7 [36]]

def single : RewritePlan := planOf [item "a" 2 [35]]

end Sample

open Sample

-- ==== canonical plans

section

variable (crates : Crates)

def PlanItem.Built (item : PlanItem) : Prop :=
  ∃ draft key, PlanItem.build crates draft key = .ok item

def PlanItem.Disjoint (a b : PlanItem) : Prop :=
  a.projectId = b.projectId → a.path = b.path → ∀ i, ¬ ((a.span.start ≤ i ∧ i < a.span.stop)
      ∧ b.span.start ≤ i ∧ i < b.span.stop)

def PlanItem.file (item : PlanItem) : String ×ₗ Path :=
  toLex (item.projectId, item.path)

def PlanItem.Precedes (a b : PlanItem) : Prop :=
  (a.file < b.file ∨ a.file = b.file ∧ a.span.stop ≤ b.span.start) ∧ b.span.start < b.span.stop

variable {crates} {a b : PlanItem} {items items' : List PlanItem}

theorem PlanItem.Built.start_lt (h : a.Built crates) : a.span.start < a.span.stop := by
  obtain ⟨draft, key, hbuild⟩ := h
  unfold PlanItem.build at hbuild
  cases hpath : normalizeRelative draft.path with
  | error e =>
    rw [hpath] at hbuild
    cases hbuild
  | ok path =>
    cases hslice : draft.span.slice draft.source with
    | error e =>
      rw [hpath, hslice] at hbuild
      cases hbuild
    | ok matched =>
      rw [hpath, hslice] at hbuild
      dsimp only [bind, Except.bind] at hbuild
      split at hbuild
      · cases hbuild
      · cases hbuild
        exact (ByteSpan.slice_ok hslice).1

theorem PlanItem.Disjoint.symm (h : a.Disjoint b) : b.Disjoint a :=
  fun hproject hpath i hi => h hproject.symm hpath.symm i hi.symm

instance : Trans PlanItem.Precedes PlanItem.Precedes PlanItem.Precedes where
  trans {a b c} hab hbc := by
    refine ⟨?_, hbc.2⟩
    rcases hab.1 with hlt | ⟨heq, hle⟩
    · rcases hbc.1 with hlt' | ⟨heq', -⟩
      · exact .inl (hlt.trans hlt')
      · exact .inl (heq' ▸ hlt)
    · rcases hbc.1 with hlt' | ⟨heq', hle'⟩
      · exact .inl (heq ▸ hlt')
      · exact .inr ⟨heq.trans heq', by have := hab.2; omega⟩

theorem PlanItem.Precedes.disjoint (h : a.Precedes b) : a.Disjoint b := by
  intro hproject hpath i hi
  rcases h.1 with hlt | ⟨-, hle⟩
  · have heq : a.file = b.file := by
      unfold PlanItem.file
      rw [hproject, hpath]
    exact absurd heq hlt.ne
  · omega

theorem PlanItem.Le.precedes (h : a.Le b) (hclash : a.clashes b = false)
    (hb : b.span.start < b.span.stop) : a.Precedes b := by
  refine ⟨?_, hb⟩
  rcases Prod.Lex.le_iff.1 h with hlt | ⟨hproject, hle⟩
  · exact .inl (Prod.Lex.lt_iff.2 (.inl hlt))
  rcases Prod.Lex.le_iff.1 hle with hlt | ⟨hpath, hle⟩
  · exact .inl (Prod.Lex.lt_iff.2 (.inr ⟨hproject, hlt⟩))
  have hproject : a.projectId = b.projectId := hproject
  have hpath : a.path = b.path := hpath
  have hstart : a.span.start ≤ b.span.start := by
    rcases Prod.Lex.le_iff.1 hle with hlt | ⟨heq, -⟩
    · exact le_of_lt hlt
    · exact le_of_eq heq
  have hspans : a.span.overlaps b.span = false := by
    simpa [PlanItem.clashes, hproject, hpath] using hclash
  refine .inr ⟨by unfold PlanItem.file; rw [hproject, hpath], ?_⟩
  by_contra hlt
  simp [ByteSpan.overlaps] at hspans
  omega

theorem firstClash_eq_none : firstClash items = none
    ↔ items.IsChain fun a b => a.clashes b = false := by
  induction items with
  | nil => simp [firstClash]
  | cons a rest ih =>
    cases rest with
    | nil => simp [firstClash]
    | cons b rest =>
      rw [firstClash, isChain_cons_cons, ← ih]
      cases a.clashes b <;> simp

theorem sorted_precedes (hspans : ∀ item ∈ items, item.span.start < item.span.stop)
    (hclash : firstClash (items.insertionSort PlanItem.Le) = none) :
    (items.insertionSort PlanItem.Le).Pairwise PlanItem.Precedes := by
  have hmem : ∀ item ∈ items.insertionSort PlanItem.Le, item.span.start < item.span.stop :=
    fun item h => hspans item ((mem_insertionSort _).1 h)
  have hsorted := (pairwise_insertionSort PlanItem.Le items).isChain
  refine List.IsChain.pairwise ?_
  rw [firstClash_eq_none] at hclash
  refine isChain_iff_getElem.2 fun i hi => ?_
  exact PlanItem.Le.precedes (isChain_iff_getElem.1 hsorted i hi)
    (isChain_iff_getElem.1 hclash i hi) (hmem _ (getElem_mem _))

theorem firstClash_sorted_iff (hspans : ∀ item ∈ items, item.span.start < item.span.stop) :
    firstClash (items.insertionSort PlanItem.Le) = none
      ↔ items.Pairwise PlanItem.Disjoint := by
  have hperm := perm_insertionSort PlanItem.Le items
  rw [← hperm.pairwise_iff PlanItem.Disjoint.symm]
  constructor
  · intro hclash
    exact (sorted_precedes hspans hclash).imp PlanItem.Precedes.disjoint
  intro hdisjoint
  refine firstClash_eq_none.2 (List.Pairwise.isChain ?_)
  refine hdisjoint.imp_of_mem fun {a b} ha hb hab => ?_
  have hspan := hspans a (hperm.mem_iff.1 ha)
  have hspan' := hspans b (hperm.mem_iff.1 hb)
  by_contra hclash
  simp only [PlanItem.clashes, ByteSpan.overlaps, Bool.not_eq_false,
    Bool.and_eq_true, decide_eq_true_eq] at hclash
  obtain ⟨⟨hproject, hpath⟩, hlt, hlt'⟩ := hclash
  exact hab hproject hpath (max a.span.start b.span.start) (by omega)

theorem sorted_unique (hspans : ∀ item ∈ items, item.span.start < item.span.stop)
    (hdisjoint : items.Pairwise PlanItem.Disjoint) (h : items.Perm items') :
    items'.insertionSort PlanItem.Le = items.insertionSort PlanItem.Le := by
  have hspans' : ∀ item ∈ items', item.span.start < item.span.stop :=
    fun item hitem => hspans item (h.mem_iff.2 hitem)
  have hdisjoint' := (h.pairwise_iff PlanItem.Disjoint.symm).1 hdisjoint
  refine List.Perm.eq_of_pairwise (fun a b _ _ hab hba => ?_)
    (sorted_precedes hspans' ((firstClash_sorted_iff hspans').2 hdisjoint'))
    (sorted_precedes hspans ((firstClash_sorted_iff hspans).2 hdisjoint))
    (((perm_insertionSort _ _).trans h.symm).trans (perm_insertionSort _ _).symm)
  -- no item ends before itself
  have haa := Trans.trans hab hba
  rcases haa.1 with hlt | ⟨-, hle⟩
  · exact absurd hlt (lt_irrefl _)
  · have := haa.2
    omega

theorem build_eq_ok {key : PlanKey} {plan : RewritePlan} :
    RewritePlan.build crates items key = .ok plan
      ↔ firstClash (items.insertionSort PlanItem.Le) = none
        ∧ ∃ encoded, crates.encode (items.insertionSort PlanItem.Le) = .ok encoded
          ∧ plan = ⟨items.insertionSort PlanItem.Le, keyedDigest key encoded⟩ := by
  unfold RewritePlan.build
  dsimp only
  cases firstClash (items.insertionSort PlanItem.Le) with
  | some a => simp
  | none =>
    cases crates.encode (items.insertionSort PlanItem.Le) with
    | error e => simp
    | ok encoded => simp [eq_comm]

/-- **Canonical plans**: a plan can be built of items exactly if every two
of them in one file are disjoint; it is the same for the items in any
order, and others have another digest. -/
theorem build_canonical (key : PlanKey)
    (hjson : ∀ items items' encoded, crates.encode items = .ok encoded →
      crates.encode items' = .ok encoded → items = items')
    (hencode : ∃ encoded, crates.encode (items.insertionSort PlanItem.Le) = .ok encoded)
    (hbuilt : ∀ item ∈ items, item.Built crates) :
    ((∃ plan, RewritePlan.build crates items key = .ok plan) ↔ items.Pairwise PlanItem.Disjoint)
    ∧ ∀ plan, RewritePlan.build crates items key = .ok plan → (∀ items', items.Perm items' →
        RewritePlan.build crates items' key = .ok plan)
      ∧ ∀ items' plan', RewritePlan.build crates items' key = .ok plan' →
        ¬ items.Perm items' → plan.planDigest ≠ plan'.planDigest := by
  have hspans : ∀ item ∈ items, item.span.start < item.span.stop :=
    fun item hitem => (hbuilt item hitem).start_lt
  refine ⟨⟨?_, ?_⟩, ?_⟩
  · intro ⟨plan, hplan⟩
    exact (firstClash_sorted_iff hspans).1 (build_eq_ok.1 hplan).1
  · intro hdisjoint
    obtain ⟨encoded, hencoded⟩ := hencode
    exact ⟨_, build_eq_ok.2 ⟨(firstClash_sorted_iff hspans).2 hdisjoint, encoded, hencoded, rfl⟩⟩
  intro plan hplan
  obtain ⟨hclash, encoded, hencoded, rfl⟩ := build_eq_ok.1 hplan
  have hdisjoint := (firstClash_sorted_iff hspans).1 hclash
  refine ⟨fun items' hperm => ?_, fun items' plan' hplan' hperm heq => ?_⟩
  · rw [build_eq_ok, sorted_unique hspans hdisjoint hperm]
    exact ⟨hclash, encoded, hencoded, rfl⟩
  obtain ⟨-, encoded', hencoded', rfl⟩ := build_eq_ok.1 hplan'
  cases congrArg Digest.bytes heq
  have hsame := hjson _ _ _ hencoded hencoded'
  refine hperm ((perm_insertionSort PlanItem.Le items).symm.trans ?_)
  rw [hsame]
  exact perm_insertionSort PlanItem.Le items'

end

theorem both_canonical :
    let crates := { crates with encode := fun items =>
      if items = both.items then .ok [] else .error "" }
    RewritePlan.build crates both.items.reverse key = .ok ⟨both.items, keyedDigest key []⟩ := by
  refine ((@build_canonical _ both.items key ?_ ⟨[], by decide +kernel⟩
    ?_).2 _ (by decide +kernel)).1 _ (reverse_perm _).symm
  · intro items items' encoded h h'
    dsimp only at h h'
    split at h <;> split at h' <;> simp_all
  intro item hitem
  simp only [both, planOf, mem_cons, not_mem_nil, or_false] at hitem
  rcases hitem with rfl | rfl
  · exact ⟨draft "a" 2 [35], key, by decide +kernel⟩
  · exact ⟨draft "a" 7 [36], key, by decide +kernel⟩

end SovereignVault.Remediate
