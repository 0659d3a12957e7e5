/-
A project under remediation: its tree of files and the vault behind the
sink, and the calls that work on both.

An answer of the file system agrees with the tree when it is given, or is
an error. The atomic replacement gives the file another identity; an error
of it may come before or after the file was replaced. A sink call that
fails may have stored what it was given.
-/
import SovereignVault.Dialogue.Pool
import SovereignVault.Remediate.Managed

namespace SovereignVault.Remediate

open Dialogue Talk List

variable {o : RemOp}

-- ==== the state

structure File where
  bytes : Bytes
  identity : FileIdentity
  permissions : PermissionSnapshot
  deriving DecidableEq

inductive Node where
  | file (f : File)
  | dir
  | symlink
  deriving DecidableEq

def Node.kind : Node → Kind
  | .file _ => .file
  | .dir => .dir
  | .symlink => .symlink

structure Snapshot where
  reference : String
  path : Path
  bytes : Bytes
  deriving DecidableEq

structure Vault where
  snapshots : List Snapshot
  records : List RecoveryRecord
  journal : List JournalEntry

structure Project where
  tree : Place → Option Node
  vault : Vault

namespace Project

def put (d : Project) (place : Place) (node : Option Node) : Project :=
  { d with tree := Function.update d.tree place node }

def withSnapshot (d : Project) (snapshot : Snapshot) : Project :=
  { d with vault := { d.vault with snapshots := snapshot :: d.vault.snapshots } }

def withRecord (d : Project) (record : RecoveryRecord) : Project :=
  { d with vault := { d.vault with records := record :: d.vault.records } }

def withEntry (d : Project) (entry : JournalEntry) : Project :=
  { d with vault := { d.vault with journal := d.vault.journal ++ [entry] } }

def Fresh (d : Project) (place : Place) (identity : FileIdentity) : Prop :=
  ∀ f, d.tree place = some (.file f) → f.identity ≠ identity

end Project

theorem place_unique {place place' : Place}
    (h : place.map Component.normal = place'.map Component.normal) : place = place' :=
  map_injective_iff.2 (fun _ _ heq => Component.normal.inj heq) h

-- ==== answers

def FsOp.Answers (d d' : Project) : (o : FsOp) → o.Ans → Prop
  | .canonicalizeRoot, _ => d' = d
  | .rootIsDir, _ => d' = d
  | .symlinkMetadata place, a => d' = d ∧ ∀ kind, a = .ok kind →
      ∃ node, d.tree place = some node ∧ node.kind = kind
  | .permissions place,
      a => d' = d ∧ ∀ f perms, d.tree place = some (.file f) → a = .ok perms → perms = f.permissions
  | .captureIdentity place, a => d'
      = d ∧ ∀ f identity, d.tree place = some (.file f) → a = some identity → identity = f.identity
  | .readLocked place, a => d' = d ∧ ∀ bytes, a = .ok bytes →
      ∃ f, d.tree place = some (.file f) ∧ f.bytes = bytes
  | .read place, a => d' = d ∧ ∀ bytes, a = .ok bytes →
      ∃ f, d.tree place = some (.file f) ∧ f.bytes = bytes
  | .replaceAtomic place content perms, a =>
    (a ≠ .ok () ∧ d' = d)
    ∨ ∃ identity, d.Fresh place identity ∧ d.tree place ≠ some .dir
      ∧ d' = d.put place (some (.file ⟨content, identity, perms⟩))
  | .removeFile place, a =>
    (a ≠ .ok () ∧ d' = d)
    ∨ (a = .ok () ∧ ∃ node, d.tree place = some node ∧ node ≠ .dir ∧ d' = d.put place none)
  | .createDirAll _, _ => d'.vault = d.vault ∧ ∀ place, d'.tree place = d.tree place
      ∨ (d.tree place = none ∧ d'.tree place = some .dir)

def SinkOp.Answers (d d' : Project) : (o : SinkOp) → o.Ans → Prop
  | .storeSnapshot item original, a =>
    ((∃ e, a = .error e) ∧ d' = d)
    ∨ ∃ reference, (∀ r, a = .ok r → r = reference)
      ∧ d' = d.withSnapshot ⟨reference, item.path, original⟩
  | .commitLocator _ _, _ => d' = d
  | .storeRecovery record, a => (a ≠ .ok () ∧ d' = d) ∨ d' = d.withRecord record
  | .appendJournal entry, a => (a ≠ .ok () ∧ d' = d) ∨ d' = d.withEntry entry
  | .audit _ _, _ => d' = d
  | .loadSnapshot _, _ => d' = d
  | .storeManagedSnapshot _ path original, a =>
    ((∃ e, a = .error e) ∧ d' = d)
    ∨ ∃ reference, (∀ r, a = .ok r → r = reference)
      ∧ d' = d.withSnapshot ⟨reference, path, original⟩
  | .startupCheck _ _ _, _ => d' = d

def RemOp.Answers (d d' : Project) : (o : RemOp) → o.Ans → Prop
  | .fs o, a => o.Answers d d' a
  | .sink o, a => o.Answers d d' a
  | .now, _ => d' = d

-- ==== what answers do

structure Vault.Grows (v v' : Vault) : Prop where
  snapshots : v.snapshots ⊆ v'.snapshots
  records : v.records ⊆ v'.records
  journal : v.journal <+: v'.journal

theorem Vault.Grows.refl (v : Vault) : v.Grows v :=
  ⟨List.Subset.refl _, List.Subset.refl _, prefix_rfl⟩

theorem Vault.Grows.trans {v v' v'' : Vault} (h : v.Grows v') (h' : v'.Grows v'') : v.Grows v'' :=
  ⟨List.Subset.trans h.snapshots h'.snapshots, List.Subset.trans h.records h'.records,
    h.journal.trans h'.journal⟩

def Holds (v : Vault) : RemExchange → Prop
  | ⟨.sink (.storeSnapshot item original), .ok reference⟩ =>
    ⟨reference, item.path, original⟩ ∈ v.snapshots
  | ⟨.sink (.storeManagedSnapshot _ path original), .ok reference⟩ =>
    ⟨reference, path, original⟩ ∈ v.snapshots
  | ⟨.sink (.storeRecovery record), .ok _⟩ => record ∈ v.records
  | ⟨.sink (.appendJournal entry), .ok _⟩ => entry ∈ v.journal
  | _ => True

theorem Holds.mono {v v' : Vault} {e : RemExchange} (h : Holds v e)
    (hgrows : v.Grows v') : Holds v' e := by
  unfold Holds at h ⊢
  split
  · exact hgrows.snapshots h
  · exact hgrows.snapshots h
  · exact hgrows.records h
  · exact hgrows.journal.subset h
  · trivial

theorem FsOp.Answers.vault {d d' : Project} {o : FsOp} {a : o.Ans}
    (h : o.Answers d d' a) : d'.vault = d.vault := by
  cases o with
  | canonicalizeRoot | rootIsDir => exact congrArg Project.vault h
  | replaceAtomic place content perms => rcases h with ⟨-, rfl⟩ | ⟨identity, -, -, rfl⟩ <;> rfl
  | removeFile place => rcases h with ⟨-, rfl⟩ | ⟨-, node, -, -, rfl⟩ <;> rfl
  | createDirAll place => exact h.1
  | _ => exact congrArg Project.vault h.1

theorem SinkOp.Answers.tree {d d' : Project} {o : SinkOp} {a : o.Ans}
    (h : o.Answers d d' a) : d'.tree = d.tree := by
  cases o with
  | storeSnapshot item original
  | storeManagedSnapshot projectId path original =>
    rcases h with ⟨-, rfl⟩ | ⟨reference, -, rfl⟩ <;> rfl
  | storeRecovery record | appendJournal entry => rcases h with ⟨-, rfl⟩ | rfl <;> rfl
  | _ => exact congrArg Project.tree h

theorem Project.withSnapshot_grows (d : Project) (snapshot : Snapshot) :
    d.vault.Grows (d.withSnapshot snapshot).vault :=
  ⟨subset_cons_self _ _, List.Subset.refl _, prefix_rfl⟩

theorem Project.withRecord_grows (d : Project) (record : RecoveryRecord) :
    d.vault.Grows (d.withRecord record).vault :=
  ⟨List.Subset.refl _, subset_cons_self _ _, prefix_rfl⟩

theorem Project.withEntry_grows (d : Project) (entry : JournalEntry) :
    d.vault.Grows (d.withEntry entry).vault :=
  ⟨List.Subset.refl _, List.Subset.refl _, prefix_append _ _⟩

theorem RemOp.Answers.grows {d d' : Project} {a : o.Ans} (h : o.Answers d d' a) :
    d.vault.Grows d'.vault ∧ Holds d'.vault ⟨o, a⟩ := by
  cases o with
  | fs o => exact ⟨FsOp.Answers.vault h ▸ .refl _, trivial⟩
  | now =>
    cases h
    exact ⟨.refl _, trivial⟩
  | sink o =>
    cases o with
    | storeSnapshot item original
    | storeManagedSnapshot projectId path original =>
      rcases h with ⟨⟨e, rfl⟩, rfl⟩ | ⟨reference, hok, rfl⟩
      · exact ⟨.refl _, trivial⟩
      refine ⟨d.withSnapshot_grows _, ?_⟩
      cases a with
      | error e => trivial
      | ok r =>
        cases hok r rfl
        exact mem_cons_self
    | storeRecovery record =>
      rcases h with ⟨hne, rfl⟩ | rfl
      · refine ⟨.refl _, ?_⟩
        cases a with
        | error e => trivial
        | ok u => exact absurd rfl hne
      · refine ⟨d.withRecord_grows _, ?_⟩
        cases a with
        | error e => trivial
        | ok u => exact mem_cons_self
    | appendJournal entry =>
      rcases h with ⟨hne, rfl⟩ | rfl
      · refine ⟨.refl _, ?_⟩
        cases a with
        | error e => trivial
        | ok u => exact absurd rfl hne
      · refine ⟨d.withEntry_grows _, ?_⟩
        cases a with
        | error e => trivial
        | ok u => exact mem_append_right _ mem_cons_self
    | commitLocator item snapshotRef | audit action digest
    | loadSnapshot record
    | startupCheck adapter manifestPath consumedPath =>
      cases h
      exact ⟨.refl _, trivial⟩

theorem RemOp.Answers.journal {d d' : Project} {a : o.Ans}
    (h : o.Answers d d' a) : d'.vault.journal = d.vault.journal
      ∨ ∃ entry, o = .sink (.appendJournal entry)
        ∧ d'.vault.journal = d.vault.journal ++ [entry] := by
  cases o with
  | fs o => exact .inl (congrArg Vault.journal (FsOp.Answers.vault h))
  | now =>
    cases h
    exact .inl rfl
  | sink o =>
    cases o with
    | storeSnapshot item original
    | storeManagedSnapshot projectId path original =>
      rcases h with ⟨-, rfl⟩ | ⟨reference, -, rfl⟩ <;> exact .inl rfl
    | storeRecovery record => rcases h with ⟨-, rfl⟩ | rfl <;> exact .inl rfl
    | appendJournal entry =>
      rcases h with ⟨-, rfl⟩ | rfl
      · exact .inl rfl
      · exact .inr ⟨entry, rfl, rfl⟩
    | commitLocator item snapshotRef | audit action digest
    | loadSnapshot record
    | startupCheck adapter manifestPath consumedPath =>
      cases h
      exact .inl rfl

theorem RemOp.Answers.tree_cases
    {d d' : Project} {a : o.Ans} (hans : o.Answers d d' a) : d'.tree = d.tree
    ∨ (∃ place content perms identity, o = .fs (.replaceAtomic place content perms)
      ∧ d'.tree = Function.update d.tree place (some (.file ⟨content, identity, perms⟩)))
    ∨ (∃ place, o = .fs (.removeFile place) ∧ d'.tree = Function.update d.tree place none)
    ∨ ∃ place, o = .fs (.createDirAll place) ∧ ∀ q,
      d'.tree q = d.tree q ∨ (d.tree q = none ∧ d'.tree q = some .dir) := by
  cases o with
  | sink o => exact .inl (SinkOp.Answers.tree hans)
  | now => exact .inl (congrArg Project.tree hans)
  | fs o =>
    cases o with
    | canonicalizeRoot | rootIsDir => exact .inl (congrArg Project.tree hans)
    | replaceAtomic place content perms =>
      rcases hans with ⟨-, rfl⟩ | ⟨identity, -, -, rfl⟩
      · exact .inl rfl
      · exact .inr (.inl ⟨place, content, perms, identity, rfl, rfl⟩)
    | removeFile place =>
      rcases hans with ⟨-, rfl⟩ | ⟨-, node, -, -, rfl⟩
      · exact .inl rfl
      · exact .inr (.inr (.inl ⟨place, rfl, rfl⟩))
    | createDirAll place => exact .inr (.inr (.inr ⟨place, rfl, hans.2⟩))
    | _ => exact .inl (congrArg Project.tree hans.1)

theorem FsOp.Answers.readLocked {d d' : Project} {place : Place}
    {a : (FsOp.readLocked place).Ans} {bytes : Bytes} (h : (FsOp.readLocked place).Answers d d' a)
    (ha : a = .ok bytes) : ∃ f, d.tree place = some (.file f) ∧ f.bytes = bytes := h.2 bytes ha

-- ==== paths

/-- What `resolveFrom` and `resolveNewFrom` share: they go down a path,
look at each component, and go on or fail. -/
structure Walks (walk : Place → Path → RemM Place) : Prop where
  nil : ∀ probe, walk probe [] = pure probe
  normal : ∀ probe segment rest, ∃ k, walk probe (.normal segment :: rest)
      = (ask (.fs (.symlinkMetadata (probe ++ [segment])))).bind k
    ∧ (∀ kind, k kind = walk (probe ++ [segment]) rest ∨ ∃ e, k kind = throw e)
    ∧ ∀ kind, kind ≠ .symlink → k (.ok kind) = walk (probe ++ [segment]) rest
  other : ∀ probe c rest,
    (∃ segment, c = .normal segment) ∨ ∃ e, walk probe (c :: rest) = throw e

theorem walks_resolveFrom : Walks resolveFrom where
  nil _ := rfl
  normal probe segment rest := by
    refine ⟨_, rfl, fun kind => ?_, fun kind hne => if_neg hne⟩
    cases kind with
    | error e => exact .inr ⟨_, rfl⟩
    | ok kind =>
      by_cases hlink : kind = .symlink
      · exact .inr ⟨_, if_pos hlink⟩
      · exact .inl (if_neg hlink)
  other probe c rest := by
    cases c with
    | normal segment => exact .inl ⟨segment, rfl⟩
    | _ => exact .inr ⟨_, rfl⟩

theorem walks_resolveNewFrom : Walks resolveNewFrom where
  nil _ := rfl
  normal probe segment rest := by
    refine ⟨_, rfl, fun kind => ?_, fun kind hne => ?_⟩
    · match kind with
      | .ok .symlink => exact .inr ⟨_, rfl⟩
      | .ok .file | .ok .dir | .error _ => exact .inl rfl
    · cases kind with
      | symlink => exact absurd rfl hne
      | file | dir => rfl
  other probe c rest := by
    cases c with
    | normal segment => exact .inl ⟨segment, rfl⟩
    | _ => exact .inr ⟨_, rfl⟩

-- ==== the calls

inductive RewriteCall where
  | execute (mode : ApplyMode) (assurance : IdentityAssurance)
  | resume (journal : RewriteJournal) (assurance : IdentityAssurance)

/-- The rewriting of a project by the calls on one plan; nothing else
writes to it. -/
def rewriting (crates : Crates) (key : PlanKey) (plan : RewritePlan) :
    System remInterface ApplyError ApplyOutcome Project RewriteCall Empty where
  begins d call p d' := d' = d ∧
    match call with
    | .execute mode assurance => p = execute crates key plan mode assurance
    | .resume journal assurance =>
      journal.entries = d.vault.journal
      ∧ p = resume crates key plan journal assurance
  answers d _ _ e d' := e.op.Answers d d' e.ans
  ends d _ _ d' := d' = d
  moves _ _ _ := False

structure IngestCall where
  plan : ManagedFilePlan
  assurance : IdentityAssurance

structure Write where
  place : Place
  file : File

/-- Ingestion into the vault, with other writers in the project. -/
def ingestion (texts : Texts) (key : PlanKey) :
    System remInterface ApplyError ManagedIngestStatus Project IngestCall Write where
  begins d call p d' := d' = d ∧ p = ingestManagedFile texts call.plan key call.assurance
  answers d _ _ e d' := e.op.Answers d d' e.ans
  ends d _ _ d' := d' = d
  moves d m d' := d' = d.put m.place (some (.file m.file))

end SovereignVault.Remediate
