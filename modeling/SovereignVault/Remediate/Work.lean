/-
A machine that works.

A `Work` answers every question of the destructive path at once, with
whatever references, locators and times its sink hands out; its answers
are among those a project may give (`Work.answer_answers`).
-/
import SovereignVault.Remediate.Project

namespace SovereignVault.Remediate

open Dialogue Talk List Project

variable {d : Project} {place : Place}

-- ==== a working world

structure Work where
  /-- The platform yields file identities. -/
  identities : Bool
  fresh : Project → Place → FileIdentity
  freshness : ∀ (d : Project) place, d.Fresh place (fresh d place)
  reference : Project → Path → Bytes → String
  locator : Project → PlanItem → String → Except String (Option Bytes)
  startup : Project → Except String Unit
  now : Project → Nat

def Project.HasParent (d : Project) (place : Place) : Prop :=
  place.dropLast = [] ∨ d.tree place.dropLast = some .dir

instance (d : Project) (place : Place) : Decidable (d.HasParent place) :=
  inferInstanceAs (Decidable (_ ∨ _))

def Project.fileAt (d : Project) (place : Place) : Except String File :=
  match d.tree place with
  | some (.file f) => .ok f
  | some .dir => .error "Is a directory (os error 21)"
  | _ => .error "No such file or directory (os error 2)"

def Project.kindAt (d : Project) (place : Place) : Except String Kind :=
  match d.tree place with
  | some node => .ok node.kind
  | none => .error "No such file or directory (os error 2)"

def Project.withDirs (d : Project) (place : Place) : Project :=
  { d with tree := fun q =>
      if !q.isEmpty && q.isPrefixOf place && (d.tree q).isNone then
        some .dir
      else d.tree q }

def Project.clearTo (d : Project) (place : Place) : Bool :=
  place.inits.all fun q => q.isEmpty || d.tree q = none || d.tree q = some .dir

namespace Work

variable (w : Work)

def fs (d : Project) : (o : FsOp) → o.Ans × Project
  | .canonicalizeRoot => (.ok (), d)
  | .rootIsDir => (true, d)
  | .symlinkMetadata place => (d.kindAt place, d)
  | .permissions place => ((d.fileAt place).map (·.permissions), d)
  | .captureIdentity place =>
    (if w.identities then (d.fileAt place).toOption.map (·.identity)
      else none, d)
  | .readLocked place => (((d.fileAt place).map (·.bytes)).mapError .io, d)
  | .read place => ((d.fileAt place).map (·.bytes), d)
  | .replaceAtomic place content permissions =>
    if d.HasParent place ∧ d.tree place ≠ some .dir then
      (.ok (), d.put place (some (.file ⟨content, w.fresh d place, permissions⟩)))
    else (.error "Is a directory (os error 21)", d)
  | .removeFile place =>
    match d.tree place with
    | none => (.error "No such file or directory (os error 2)", d)
    | some .dir => (.error "Is a directory (os error 21)", d)
    | some _ => (.ok (), d.put place none)
  | .createDirAll place =>
    if d.clearTo place then (.ok (), d.withDirs place)
    else (.error "Not a directory (os error 20)", d)

def sink (d : Project) : (o : SinkOp) → o.Ans × Project
  | .storeSnapshot item original =>
    let reference := w.reference d item.path original
    (.ok reference, d.withSnapshot ⟨reference, item.path, original⟩)
  | .commitLocator item snapshotRef => (w.locator d item snapshotRef, d)
  | .storeRecovery record => (.ok (), d.withRecord record)
  | .appendJournal entry => (.ok (), d.withEntry entry)
  | .audit _ _ => (.ok (), d)
  | .loadSnapshot record =>
    (match d.vault.snapshots.find? (·.reference = record.snapshotRef) with
      | some snapshot => .ok snapshot.bytes
      | none => .error "no such snapshot", d)
  | .storeManagedSnapshot _ path original =>
    let reference := w.reference d path original
    (.ok reference, d.withSnapshot ⟨reference, path, original⟩)
  | .startupCheck _ _ _ => (w.startup d, d)

def answer (d : Project) : (o : RemOp) → o.Ans × Project
  | .fs o => w.fs d o
  | .sink o => w.sink d o
  | .now => (w.now d, d)

theorem fs_answers (d : Project) (o : FsOp) : o.Answers d (w.fs d o).2 (w.fs d o).1 := by
  have hfile : ∀ {place : Place} {f : File}, d.fileAt place = .ok f →
      d.tree place = some (.file f) := by
    intro place f heq
    unfold fileAt at heq
    split at heq <;> cases heq
    assumption
  have hread : ∀ {place : Place} {bytes : Bytes}, (d.fileAt place).map
      (·.bytes) = .ok bytes → ∃ f, d.tree place = some (.file f) ∧ f.bytes = bytes := by
    intro place bytes heq
    cases hat : d.fileAt place with
    | error e =>
      rw [hat] at heq
      cases heq
    | ok f =>
      rw [hat] at heq
      cases heq
      exact ⟨f, hfile hat, rfl⟩
  cases o with
  | canonicalizeRoot | rootIsDir => exact rfl
  | symlinkMetadata place =>
    refine ⟨rfl, fun kind heq => ?_⟩
    change d.kindAt place = _ at heq
    unfold kindAt at heq
    split at heq
    · next node hnode =>
      cases heq
      exact ⟨node, hnode, rfl⟩
    · cases heq
  | permissions place =>
    refine ⟨rfl, fun f perms hf heq => ?_⟩
    have hat : d.fileAt place = .ok f := by
      unfold fileAt
      rw [hf]
    change (d.fileAt place).map (·.permissions) = _ at heq
    rw [hat] at heq
    cases heq
    rfl
  | captureIdentity place =>
    refine ⟨rfl, fun f identity hf heq => ?_⟩
    have hat : d.fileAt place = .ok f := by
      unfold fileAt
      rw [hf]
    change (if w.identities then (d.fileAt place).toOption.map (·.identity) else none) = _ at heq
    rw [hat] at heq
    split at heq
    · cases heq
      rfl
    · cases heq
  | readLocked place =>
    refine ⟨rfl, fun bytes heq => ?_⟩
    change ((d.fileAt place).map (·.bytes)).mapError ApplyError.io = _ at heq
    cases hmap : (d.fileAt place).map (·.bytes) with
    | error e =>
      rw [hmap] at heq
      cases heq
    | ok bytes' =>
      rw [hmap] at heq
      cases heq
      exact hread hmap
  | read place => exact ⟨rfl, fun bytes heq => hread heq⟩
  | replaceAtomic place content perms =>
    unfold fs
    dsimp only
    split
    · next hcan =>
      exact .inr ⟨_, w.freshness d place, hcan.2, rfl⟩
    · exact .inl ⟨by simp, rfl⟩
  | removeFile place =>
    unfold fs
    dsimp only
    split
    · exact .inl ⟨by simp, rfl⟩
    · exact .inl ⟨by simp, rfl⟩
    · next node hnotdir hnode =>
      exact .inr ⟨rfl, node, hnode, hnotdir, rfl⟩
  | createDirAll place =>
    unfold fs
    dsimp only
    split
    · refine ⟨rfl, fun q => ?_⟩
      change (if _ then some Node.dir else d.tree q) = d.tree q
        ∨ _ ∧ (if _ then some Node.dir else d.tree q) = _
      split
      · next hnone =>
        simp only [Bool.and_eq_true, Option.isNone_iff_eq_none] at hnone
        exact .inr ⟨hnone.2, rfl⟩
      · exact .inl rfl
    · exact ⟨rfl, fun _ => .inl rfl⟩

theorem sink_answers (d : Project) (o : SinkOp) : o.Answers d (w.sink d o).2 (w.sink d o).1 := by
  cases o with
  | storeSnapshot item original =>
    refine .inr ⟨w.reference d item.path original, fun r heq => ?_, rfl⟩
    cases heq
    rfl
  | storeManagedSnapshot projectId path original =>
    refine .inr ⟨w.reference d path original, fun r heq => ?_, rfl⟩
    cases heq
    rfl
  | storeRecovery record | appendJournal entry => exact .inr rfl
  | _ => exact rfl

theorem answer_answers (d : Project) (o : RemOp) :
    o.Answers d (w.answer d o).2 (w.answer d o).1 := by
  cases o with
  | fs o => exact w.fs_answers d o
  | sink o => exact w.sink_answers d o
  | now => exact rfl

def rewriter (crates : Crates) (key : PlanKey) (plan : RewritePlan) :
    Player (rewriting crates key plan) where
  begin d call :=
    match call with
    | .execute mode assurance => some (execute crates key plan mode assurance, d)
    | .resume journal assurance =>
      if journal.entries = d.vault.journal then
        some (resume crates key plan journal assurance, d)
      else none
  answer d _ _ o := some (w.answer d o)
  finish d _ _ := some d
  move _ m := m.elim
  begins := by
    intro d call p d' heq
    cases call with
    | execute mode assurance =>
      cases heq
      exact ⟨rfl, rfl⟩
    | resume journal assurance =>
      dsimp only at heq
      split at heq
      · next hjournal =>
        cases heq
        exact ⟨rfl, hjournal, rfl⟩
      · cases heq
  answers := by
    intro d _ _ o a d' heq
    have hans := w.answer_answers d o
    rw [Option.some.inj heq] at hans
    exact hans
  ends := by
    intro d _ _ d' heq
    exact (Option.some.inj heq).symm
  moves := by
    intro d m d' _
    exact m.elim

/-- The machine at work on whole files, with others that write. -/
def ingester (texts : Texts) (key : PlanKey) : Player (ingestion texts key) where
  begin d call := some (ingestManagedFile texts call.plan key call.assurance, d)
  answer d _ _ o := some (w.answer d o)
  finish d _ _ := some d
  move d m := some (d.put m.place (some (.file m.file)))
  begins := by
    intro d call p d' heq
    cases heq
    exact ⟨rfl, rfl⟩
  answers := by
    intro d _ _ o a d' heq
    have hans := w.answer_answers d o
    rw [Option.some.inj heq] at hans
    exact hans
  ends := by
    intro d _ _ d' heq
    exact (Option.some.inj heq).symm
  moves := by
    intro d m d' heq
    exact (Option.some.inj heq).symm

end Work

-- ==== tasks at work

def Project.Dirs (d : Project) (place : Place) : Prop :=
  ∀ q, q ≠ [] → q <+: place → q ≠ place → d.tree q = some .dir

theorem Project.Dirs.kind
    {f : File} (hdirs : d.Dirs place) (hf : d.tree place = some (.file f)) {q : Place}
    (hq : q ≠ []) (hpre : q <+: place) : ∃ kind, d.kindAt q = .ok kind ∧ kind ≠ .symlink := by
  unfold kindAt
  by_cases heq : q = place
  · rw [heq, hf]
    exact ⟨.file, rfl, by decide⟩
  · rw [hdirs q hq hpre heq]
    exact ⟨.dir, rfl, by decide⟩

theorem Project.Dirs.hasParent (hdirs : d.Dirs place) : d.HasParent place := by
  by_cases hnil : place.dropLast = []
  · exact .inl hnil
  refine .inr (hdirs _ hnil ( dropLast_prefix _) fun heq => ?_)
  have hlength := congrArg List.length heq
  rw [length_dropLast] at hlength
  cases place with
  | nil => exact hnil rfl
  | cons a rest => simp at hlength

theorem Project.Dirs.clearTo (hdirs : d.Dirs place) : d.clearTo place.dropLast = true := by
  refine all_eq_true.2 fun q hmem => ?_
  have hpre := mem_inits _ _ |>.1 hmem
  by_cases hnil : q = []
  · simp [hnil]
  have hne : q ≠ place := by
    rintro rfl
    have hlength := hpre.length_le
    rw [length_dropLast] at hlength
    cases q with
    | nil => exact hnil rfl
    | cons a rest => simp at hlength
  simp [hdirs q hnil (hpre.trans ( dropLast_prefix _)) hne]

theorem Project.withDirs_of_some {q : Place}
    {node : Node} (hnode : d.tree q = some node) : (d.withDirs place).tree q = some node := by
  simp [withDirs, hnode]

theorem Project.fileAt_of_tree {f : File} (hf : d.tree place = some (.file f)) :
    d.fileAt place = .ok f := by
  unfold fileAt
  rw [hf]

section

variable (w : Work) {d : Project} {place : Place} {f : File}

theorem answered_asked {α : Type} {o : RemOp} {a : o.Ans} {d' : Project}
    {k : o.Ans → RemM α} (h : w.answer d o = (a, d')) :
    ((ask o).bind k).answered w.answer d = (k a).answered w.answer d' := by
  change (k (w.answer d o).1).answered w.answer (w.answer d o).2 = _
  rw [h]

theorem answered_orThrow_ok {ε α β : Type} {f : ε → ApplyError} {a : α}
    {k : α → RemM β} : ((orThrow f (.ok a)).bind k).answered w.answer d
      = (k a).answered w.answer d := rfl

theorem answered_usableRoot : usableRoot.answered w.answer d = (.ok (), d) := rfl

theorem Walks.answered {walk : Place → Path → RemM Place} (hwalks : Walks walk)
    (probe rest : Place) (hkind : ∀ q, q ≠ [] → q <+: probe ++ rest →
      ∃ kind, d.kindAt q = .ok kind ∧ kind ≠ .symlink) :
    (walk probe (rest.map .normal)).answered w.answer d = (.ok (probe ++ rest), d) := by
  induction rest generalizing probe with
  | nil =>
    rw [append_nil, map_nil, hwalks.nil]
    rfl
  | cons segment rest ih =>
    have hassoc : probe ++ segment :: rest = (probe ++ [segment]) ++ rest := by simp
    rw [hassoc] at hkind ⊢
    obtain ⟨kind, hkindAt, hne⟩ := hkind (probe ++ [segment]) (by simp) (prefix_append _ _)
    obtain ⟨k, heq, -, hk⟩ := hwalks.normal probe segment (rest.map .normal)
    have hanswer : w.answer d (.fs (.symlinkMetadata (probe ++ [segment]))) = (.ok kind, d) := by
      rw [← hkindAt]
      rfl
    rw [map_cons, heq, answered_asked w hanswer, hk kind hne]
    exact ih _ hkind

theorem answered_resolveTarget (hdirs : d.Dirs place)
    (hf : d.tree place = some (.file f)) : (resolveTarget (place.map .normal)).answered w.answer d
      = (.ok place, d) := by
  have hfrom := walks_resolveFrom.answered w [] place fun q hq hpre => hdirs.kind hf hq hpre
  have hanswer : w.answer d (.fs (.symlinkMetadata place)) = (.ok .file, d) := by
    change (d.kindAt place, d) = _
    unfold kindAt
    rw [hf]
    rfl
  rw [nil_append] at hfrom
  rw [resolveTarget, bind_eq, answered_bind_ok hfrom, bind_eq, answered_asked w hanswer]
  rfl

end

-- ==== a plain machine

def FileIdentity.another : FileIdentity → FileIdentity
  | .unix device inode => .unix device (inode + 1)
  | .windows volume index => .windows volume (index + 1)

def Project.nextIdentity (d : Project) (place : Place) : FileIdentity :=
  match d.tree place with
  | some (.file f) => f.identity.another
  | _ => .unix 1 0

theorem Project.nextIdentity_fresh (d : Project) (place : Place) :
    d.Fresh place (d.nextIdentity place) := by
  intro f hf
  unfold nextIdentity
  rw [hf]
  dsimp only
  cases f.identity <;> simp [FileIdentity.another]

/-- A machine with a sink that may refuse locators and startups. -/
def Work.plain (locator : PlanItem → Except String (Option Bytes))
    (startup : Except String Unit) : Work where
  identities := true
  fresh := nextIdentity
  freshness := nextIdentity_fresh
  reference _ _ _ := "snapshot"
  locator _ item _ := locator item
  startup _ := startup
  now _ := 0

namespace Sample

def permissions : PermissionSnapshot := ⟨false, some 0o600⟩

def project : Project where
  tree place :=
    if place = ["a"] then
      some (.file ⟨original, .unix 1 10, permissions⟩)
    else none
  vault := ⟨[], [], []⟩

def working : Work := .plain (fun _ => .ok none) (.ok ())

def upTo {κ μ : Type} (tid : Nat) (call : κ) (n : Nat) : List (Act κ μ) :=
  .call tid call :: List.replicate n (.answer tid)

end Sample

end SovereignVault.Remediate
