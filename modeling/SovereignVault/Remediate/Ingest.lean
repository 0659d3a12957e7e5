/-
Whole-file ingestion: what it removes, and what it leaves.

The file is removed only after its bytes were read and stored in the vault
(`IngestLawful`), but it is not looked at again. So the bytes that are
removed are the stored ones as long as nobody else touches the file in
between (`removes_vaulted`).

The manifest is written over whatever stands at its path and removed when
the startup check fails (`keeps_files`).
-/
import SovereignVault.Remediate.Lawful
import SovereignVault.Remediate.Work

namespace SovereignVault.Remediate

open Dialogue Talk List Function ManagedFilePlan

variable {h : List RemExchange} {plan : ManagedFilePlan}

-- ==== histories

def RemOp.removes : RemOp → Option Place
  | .fs (.removeFile place) => some place
  | _ => none

def Meek (h : List RemExchange) : Prop :=
  ∀ e ∈ h, RemOp.removes e.op = none

theorem Meek.cons {e : RemExchange} (hmeek : Meek h)
    (he : RemOp.removes e.op = none) : Meek (e :: h) :=
  forall_mem_cons.2 ⟨he, hmeek⟩

theorem Meek.append {h' : List RemExchange} (hmeek : Meek h) (hmeek' : Meek h') : Meek (h ++ h') :=
  forall_mem_append.2 ⟨hmeek, hmeek'⟩

theorem Probing.meek (hprobing : Probing h) : Meek h := by
  intro e hmem
  obtain ⟨place, heq⟩ := hprobing e hmem
  rw [heq]
  rfl

def Vaulted (plan : ManagedFilePlan) (place : Place) (h : List RemExchange) : Prop :=
  ∃ bytes reference, ⟨.fs (.read place), .ok bytes⟩ ∈ h
    ∧ ⟨.sink (.storeManagedSnapshot plan.projectId plan.path bytes),
      .ok reference⟩ ∈ h

theorem Vaulted.mono {place : Place} {h' : List RemExchange}
    (hvaulted : Vaulted plan place h) (hsub : h ⊆ h') : Vaulted plan place h' := by
  obtain ⟨bytes, reference, hread, hstored⟩ := hvaulted
  exact ⟨bytes, reference, hsub hread, hsub hstored⟩

def IngestLawful (plan : ManagedFilePlan) (h : List RemExchange) : RemOp → Prop
  | .fs (.replaceAtomic place _ _) => plan.manifestPath = place.map .normal
  | .fs (.removeFile place) => Meek h ∧ (plan.manifestPath = place.map .normal
        ∨ plan.path = place.map .normal ∧ Vaulted plan place h)
  | _ => True

def Leaves (plan : ManagedFilePlan) (h : List RemExchange) : Prop :=
  ∀ e ∈ h, ∀ place, RemOp.removes e.op = some place → plan.path ≠ place.map .normal

/-- A call whose startup check failed did not ask for its removal. -/
def IngestReports (plan : ManagedFilePlan)
    (r : Except ApplyError ManagedIngestStatus) (h : List RemExchange) : Prop :=
  ∀ reason, r = .ok (.startupCheckFailed reason) → plan.path ≠ plan.manifestPath → Leaves plan h

theorem ingestReports_of_ne {r : Except ApplyError ManagedIngestStatus}
    (hne : ∀ reason, r ≠ .ok (.startupCheckFailed reason)) :
    IngestReports plan r h := fun reason heq => absurd heq (hne reason)

-- ==== the tasks

section

variable {texts : Texts} {key : PlanKey} {plan : ManagedFilePlan} {h : List RemExchange}

theorem wp_vaultManaged {bytes : Bytes} (hmeek : Meek h) :
    wp (IngestLawful plan) (vaultManaged plan bytes)
      (fun r h' => Meek h' ∧ h ⊆ h' ∧ (r.isOk → ∃ reference,
        ⟨.sink (.storeManagedSnapshot plan.projectId plan.path bytes), .ok reference⟩ ∈ h')) h := by
  refine ⟨trivial, fun stored => wp_orThrow (fun reference hstored => ?_)
    fun e _ => ⟨hmeek.cons rfl, subset_cons_self _ _,
      nofun⟩⟩
  subst hstored
  refine ⟨trivial, fun now => ⟨trivial, fun recorded => ?_⟩⟩
  have hmeek' := ((hmeek.cons (e := ⟨.sink (.storeManagedSnapshot
    plan.projectId plan.path bytes), .ok reference⟩) rfl).cons
    (e := ⟨.now, now⟩) rfl).cons (e := ⟨.sink (.storeRecovery
    (managedRecord plan reference now)), recorded⟩) rfl
  refine wp_orThrow (fun _ _ => ?_) fun e _ => ⟨hmeek', fun e hmem => by simp [hmem], nofun⟩
  refine ⟨trivial, fun now' => ⟨trivial, fun journalled => wp_orThrow
    (fun _ _ => ?_) fun e _ => ?_⟩⟩
  · exact ⟨(hmeek'.cons rfl).cons rfl, fun e hmem => by simp [hmem],
      fun _ => ⟨reference, by simp⟩⟩
  · exact ⟨(hmeek'.cons rfl).cons rfl, fun e hmem => by simp [hmem],
      nofun⟩

theorem wp_writeManifest {reference : String} (hmeek : Meek h) :
    wp (IngestLawful plan) (writeManifest texts plan reference)
      (fun r h' => Meek h' ∧ h ⊆ h' ∧ ∀ place, r = .ok place →
        plan.manifestPath = place.map .normal) h := by
  have hfail : ∀ {h' : List RemExchange} {e : ApplyError}, Meek h' →
      h ⊆ h' → Meek h' ∧ h ⊆ h' ∧ ∀ place, (.error e : Except ApplyError Place) = .ok place →
        plan.manifestPath = place.map .normal :=
    fun hm hsub => ⟨hm, hsub, nofun⟩
  refine wp_bind.2 (walks_resolveNewFrom.wp (fun _ _ => trivial) _
    (fun new place hnew hplace => ?_) fun new e hnew => hfail
      (hnew.meek.append hmeek) (subset_append_right _ _))
  have hmeek' := hnew.meek.append hmeek
  refine ⟨trivial, fun created => wp_orThrow (fun _ _ => ?_)
    fun e _ => hfail (hmeek'.cons rfl) fun e hmem => by simp [hmem]⟩
  refine ⟨trivial, fun now => wp_orThrow (fun encoded _ => ?_)
    fun e _ => hfail ((hmeek'.cons rfl).cons rfl) fun e hmem => by simp [hmem]⟩
  refine ⟨hplace, fun replaced => wp_orThrow (fun _ _ => ?_)
    fun e _ => hfail (((hmeek'.cons rfl).cons rfl).cons rfl) fun e hmem => by simp [hmem]⟩
  refine ⟨((hmeek'.cons rfl).cons rfl).cons rfl, fun e hmem => by simp [hmem], fun place' heq => ?_⟩
  cases heq
  exact hplace

theorem wp_removeStep
    {target manifestTarget : Place} (hmeek : Meek h) (htarget : plan.path = target.map .normal)
    (hmanifest : plan.manifestPath = manifestTarget.map .normal) (hvaulted : Vaulted plan target h)
    : wp (IngestLawful plan) (removeStep plan target manifestTarget) (IngestReports plan) h := by
  refine ⟨trivial, fun checked => ?_⟩
  cases checked with
  | error e =>
    refine ⟨⟨hmeek.cons rfl, .inl hmanifest⟩, fun removed => ?_⟩
    intro reason _ hne
    refine forall_mem_cons.2 ⟨fun place heq => ?_, fun e' hmem place heq => ?_⟩
    · cases heq
      rwa [← hmanifest]
    · rw [hmeek.cons (e := ⟨.sink (.startupCheck plan.adapter
        plan.manifestPath plan.path), .error e⟩) rfl e' hmem] at heq
      cases heq
  | ok _ =>
    refine ⟨⟨hmeek.cons rfl, .inr ⟨htarget,
      hvaulted.mono (subset_cons_self _ _)⟩⟩, fun removed => ?_⟩
    cases removed with
    | error e => exact ingestReports_of_ne (by simp)
    | ok _ =>
      refine ⟨trivial, fun now => ⟨trivial, fun journalled =>
        wp_orThrow (fun _ _ => ?_) fun e _ => ingestReports_of_ne (by simp)⟩⟩
      exact ⟨trivial, fun audited => wp_orThrow
        (fun _ _ => ingestReports_of_ne (by simp))
        fun e _ => ingestReports_of_ne (by simp)⟩

theorem wp_ingestChecked {target : Place} (hmeek : Meek h)
    (htarget : plan.path = target.map .normal) (check : IdentityCheck) :
    wp (IngestLawful plan) (ingestChecked texts plan key target check) (IngestReports plan) h := by
  cases check with
  | differs | unavailable => exact ingestReports_of_ne (by simp)
  | passes =>
    refine ⟨trivial, fun bytes => wp_orThrow (fun bytes hread => ?_)
      fun e _ => ingestReports_of_ne (by simp)⟩
    subst hread
    split
    · exact ingestReports_of_ne (by simp)
    refine wp_bind.2 (wp_mono (wp_vaultManaged (hmeek.cons rfl)) ?_)
    rintro (e | reference) h₁ ⟨hmeek₁, hsub₁, hstored⟩
    · exact ingestReports_of_ne (by simp)
    obtain ⟨reference', hstored⟩ := hstored rfl
    refine wp_bind.2 (wp_mono (wp_writeManifest hmeek₁) ?_)
    rintro (e | manifestTarget) h₂ ⟨hmeek₂, hsub₂, hmanifest⟩
    · exact ingestReports_of_ne (by simp)
    exact wp_removeStep hmeek₂ htarget (hmanifest manifestTarget rfl)
      ⟨bytes, reference', hsub₂ (hsub₁ mem_cons_self), hsub₂ hstored⟩

theorem wp_ingestManagedFile {assurance : IdentityAssurance} :
    wp (IngestLawful plan) (ingestManagedFile texts plan key assurance)
      (IngestReports plan) [] := by
  unfold ingestManagedFile
  split
  · exact ingestReports_of_ne (by simp)
  refine ⟨trivial, fun canonical => ?_⟩
  cases canonical with
  | error e => exact ingestReports_of_ne (by simp)
  | ok _ =>
    refine ⟨trivial, fun isDir => ?_⟩
    cases isDir with
    | false => exact ingestReports_of_ne (by simp)
    | true =>
      change wp _ ((resolveTarget plan.path).bind _) _ _
      refine wp_bind.2 (wp_resolveTarget (fun _ _ => trivial)
        (fun new target hnew htarget => ?_)
        fun new e hnew => ingestReports_of_ne (by simp))
      refine ⟨trivial, fun identity => wp_ingestChecked ?_ htarget _⟩
      refine Meek.cons (hnew.meek.append ?_) rfl
      exact forall_mem_cons.2 ⟨rfl, forall_mem_cons.2
        ⟨rfl, fun _ hmem => absurd hmem not_mem_nil⟩⟩

end

-- ==== the runs

abbrev IngestConfig :=
  Config remInterface ApplyError ManagedIngestStatus Project IngestCall

abbrev IngestEntry :=
  Entry remInterface ApplyError ManagedIngestStatus Project IngestCall Write

abbrev IngestThread :=
  Thread remInterface ApplyError ManagedIngestStatus IngestCall

/-- What is known of every call on its way: it asks lawfully, and the
vault holds what it was told. -/
structure Ingesting (c : IngestConfig) : Prop where
  lawful : ∀ tid t, c.threads tid = some t →
    wp (IngestLawful t.call.plan) t.origin (IngestReports t.call.plan) []
  said : ∀ tid t, c.threads tid = some t → ∀ e ∈ t.said, Holds c.shared.vault e

section

variable {texts : Texts} {key : PlanKey} {x : IngestEntry}
  {c₀ c : IngestConfig} {h : List IngestEntry}

theorem ingestion_grows (hs : (ingestion texts key).Step x) :
    x.before.shared.vault.Grows x.after.shared.vault := by
  cases hs with
  | call hfree hbegins =>
    cases hbegins.1
    exact .refl _
  | exchange ht hhears hans => exact (RemOp.Answers.grows hans).1
  | finish ht hr hends =>
    cases hends
    exact .refl _
  | move hmoves =>
    cases hmoves
    exact .refl _

theorem Ingesting.step (hi : Ingesting x.before)
    (hs : (ingestion texts key).Step x) : Ingesting x.after := by
  have hgrows := ingestion_grows hs
  refine ⟨fun tid t ht => ?_, fun tid t ht => ?_⟩
  · rcases hs.thread_cases ht with ⟨hold, -⟩ | ⟨call, p, -, rfl, hbegins⟩
        | ⟨e, t₀, -, ht₀, hhears, -⟩
    · exact hi.lawful tid t hold
    · obtain ⟨-, rfl⟩ := hbegins
      exact wp_ingestManagedFile
    · rw [hhears.call, hhears.origin]
      exact hi.lawful tid t₀ ht₀
  · rcases hs.thread_cases ht with ⟨hold, -⟩ | ⟨call, p, -, rfl, -⟩
        | ⟨e, t₀, -, ht₀, hhears, hans⟩
    · exact fun e' hmem => (hi.said tid t hold e' hmem).mono hgrows
    · exact fun _ hmem => absurd hmem not_mem_nil
    · rw [hhears.said]
      refine forall_mem_cons.2 ⟨(RemOp.Answers.grows hans).2, ?_⟩
      exact fun e' hmem => (hi.said tid t₀ ht₀ e' hmem).mono hgrows

-- ==== the removal

/-- The file of a call that has read it and not removed it keeps its bytes
when somebody else acts. -/
def Undisturbed (x : IngestEntry) : Prop :=
  ∀ tid t place bytes, x.before.threads tid = some t → ¬ x.event.By
    tid → t.call.plan.path = place.map .normal → ⟨.fs (.read place), .ok bytes⟩
    ∈ t.said → Meek t.said → ∀ f, x.before.shared.tree
    place = some (.file f) → ∃ f', x.after.shared.tree place = some (.file f') ∧ f'.bytes = f.bytes

def Elsewhere (x : IngestEntry) : Prop :=
  ∀ tid call, x.event = .call tid call → call.plan.path ≠ call.plan.manifestPath

def RemovesVaulted (x : IngestEntry) : Prop :=
  ∀ tid t place, x.event = .exchange tid ⟨.fs (.removeFile place), .ok ()⟩ →
    x.before.threads tid = some t → t.call.plan.path = place.map .normal →
    ∃ f reference, x.before.shared.tree place = some (.file f)
      ∧ ⟨.sink (.storeManagedSnapshot t.call.plan.projectId
        t.call.plan.path f.bytes), .ok reference⟩ ∈ t.said
      ∧ ⟨reference, t.call.plan.path, f.bytes⟩ ∈ x.before.shared.vault.snapshots

/-- What every point of a run keeps: the file of a call is what the call
has read, until it is removed. -/
structure Watched (c : IngestConfig) : Prop where
  ingesting : Ingesting c
  elsewhere : ∀ tid t, c.threads tid = some t → t.call.plan.path ≠ t.call.plan.manifestPath
  content : ∀ tid t place bytes, c.threads tid
    = some t → t.call.plan.path = place.map .normal → ⟨.fs (.read place), .ok bytes⟩
    ∈ t.said → Meek t.said → ∃ f, c.shared.tree place = some (.file f) ∧ f.bytes = bytes

theorem Watched.exchange {tid : Nat} {t : IngestThread} {e : RemExchange} {d : Project}
    (hw : Watched c) (ht : c.threads tid = some t) (hlaw : IngestLawful t.call.plan t.said e.op)
    (hans : RemOp.Answers c.shared d e.op e.ans) {place : Place}
    (hplace : t.call.plan.path = place.map .normal) (hkeeps : RemOp.removes e.op = none)
    {f : File} (hf : c.shared.tree place = some (.file f)) : d.tree place = some (.file f) := by
  rcases RemOp.Answers.tree_cases hans with heq
      | ⟨place', content, perms, identity, hop, heq⟩
      | ⟨place', hop, -⟩ | ⟨place', -, hdirs⟩
  · rw [heq, hf]
  · rw [hop] at hlaw
    have hne : place ≠ place' := by
      rintro rfl
      exact hw.elsewhere tid t ht (hplace.trans hlaw.symm)
    rw [heq, update_of_ne hne, hf]
  · rw [hop] at hkeeps
    cases hkeeps
  · rcases hdirs place with heq | ⟨hnone, -⟩
    · rw [heq, hf]
    · rw [hf] at hnone
      cases hnone

theorem Watched.step (hw : Watched x.before) (hundisturbed : Undisturbed x)
    (helsewhere : Elsewhere x) (hs : (ingestion texts key).Step x) : Watched x.after := by
  refine ⟨hw.ingesting.step hs, fun tid t ht => ?_,
    fun tid t place bytes ht hplace hmem hmeek => ?_⟩
  · rcases hs.thread_cases ht with ⟨hold, -⟩ | ⟨call, p, hevent, rfl, -⟩
        | ⟨e, t₀, -, ht₀, hhears, -⟩
    · exact hw.elsewhere tid t hold
    · exact helsewhere tid call hevent
    · rw [hhears.call]
      exact hw.elsewhere tid t₀ ht₀
  · rcases hs.thread_cases ht with ⟨hold, hother⟩ | ⟨call, p, -, rfl, -⟩
        | ⟨e, t₀, -, ht₀, hhears, hans⟩
    · obtain ⟨f, hf, rfl⟩ := hw.content tid t place bytes hold hplace hmem hmeek
      exact hundisturbed tid t place _ hold hother hplace hmem hmeek f hf
    · exact absurd hmem not_mem_nil
    have hlaw := hhears.guard (hw.ingesting.lawful tid t₀ ht₀)
    rw [hhears.call] at hplace
    rw [hhears.said] at hmem hmeek
    obtain ⟨hkeeps, hmeek⟩ := forall_mem_cons.1 hmeek
    have hfile : ∃ f, x.before.shared.tree place = some (.file f)
        ∧ f.bytes = bytes := by
      rcases mem_cons.1 hmem with rfl | hmem
      · exact hans.2 bytes rfl
      · exact hw.content tid t₀ place bytes ht₀ hplace hmem hmeek
    obtain ⟨f, hf, hbytes⟩ := hfile
    exact ⟨f, hw.exchange ht₀ hlaw hans hplace hkeeps hf, hbytes⟩

theorem Watched.removes (hw : Watched x.before)
    (hs : (ingestion texts key).Step x) : RemovesVaulted x := by
  intro tid t place hevent ht hplace
  obtain ⟨t₀, t', ht₀, hhears, -, -⟩ := hs.exchange_inv hevent
  cases ht.symm.trans ht₀
  obtain ⟨hmeek, hmanifest | ⟨-, bytes, reference, hread, hstored⟩⟩ :=
    hhears.guard (hw.ingesting.lawful tid t ht)
  · exact absurd (hplace.trans hmanifest.symm) (hw.elsewhere tid t ht)
  · obtain ⟨f, hf, rfl⟩ := hw.content tid t place bytes ht hplace hread hmeek
    exact ⟨f, reference, hf, hstored, hw.ingesting.said tid t ht _ hstored⟩

/-- What an ingestion removes is what it has stored, as long as nobody
else touches its file after it was read. -/
theorem removes_vaulted (hidle : ∀ tid, c₀.threads tid = none) (hrun : (ingestion texts key).Run
      (fun x => Undisturbed x ∧ Elsewhere x) c₀ h c) : ∀ x ∈ h, RemovesVaulted x := by
  have hnone : ∀ {tid : Nat} {t : IngestThread}, c₀.threads tid ≠ some t := by
    intro tid t
    rw [hidle]
    exact (Option.some_ne_none t).symm
  have hall := hrun.invariant (P := fun h c => Watched c ∧ ∀ x ∈ h, RemovesVaulted x)
    ⟨⟨⟨fun _ _ ht => absurd ht hnone, fun _ _ ht => absurd ht hnone⟩,
      fun _ _ ht => absurd ht hnone, fun _ _ _ _ ht => absurd ht hnone⟩,
      fun _ hmem => absurd hmem not_mem_nil⟩
    fun h x ⟨hw, hremoves⟩ hallow hs => ⟨hw.step hallow.1 hallow.2 hs,
      forall_mem_cons.2 ⟨hw.removes hs, hremoves⟩⟩
  exact hall.2

-- ==== the others

def begun (texts : Texts) (key : PlanKey) (plan : ManagedFilePlan)
    (assurance : IdentityAssurance) (d : Project) : IngestConfig :=
  ⟨d, update (fun _ => none) 0 (some (.start ⟨plan, assurance⟩
    (ingestManagedFile texts plan key assurance)))⟩

def Alone (x : IngestEntry) : Prop := ∃ e, x.event = .exchange 0 e

def FilesKept (d d' : Project) : Prop :=
  ∀ place f, d.tree place = some (.file f) →
    ∃ f', d'.tree place = some (.file f') ∧ f'.bytes = f.bytes

def Unremoved (plan : ManagedFilePlan) (h : List RemExchange) : Prop :=
  ∀ place, plan.path = place.map .normal → (⟨.fs (.removeFile place), .ok ()⟩ : RemExchange) ∉ h

/-- However the sink and the file system answer, a call that returns
without having removed its file leaves every file as it was. -/
def KeepsFiles (texts : Texts) (key : PlanKey) (plan : ManagedFilePlan)
    (assurance : IdentityAssurance) (d : Project) : Prop :=
  ∀ h c t r, (ingestion texts key).Run Alone (begun texts key plan assurance d)
    h c → c.threads 0 = some t → t.talk = .ret r → Unremoved plan t.said → FilesKept d c.shared

def ManifestFree (plan : ManagedFilePlan) (d : Project) : Prop :=
  ∀ place f, plan.manifestPath = place.map .normal → d.tree place ≠ some (.file f)

variable {plan : ManagedFilePlan} {assurance : IdentityAssurance} {d : Project}

structure Sparing (plan : ManagedFilePlan) (d : Project) (c : IngestConfig) : Prop where
  lawful : ∀ t, c.threads 0 = some t → t.call.plan = plan
    ∧ wp (IngestLawful plan) t.origin (IngestReports plan) []
  files : ∀ t, c.threads 0 = some t → ∀ place f,
    d.tree place = some (.file f) → c.shared.tree place = some (.file f)
    ∨ plan.path = place.map .normal ∧ ⟨.fs (.removeFile place), .ok ()⟩ ∈ t.said

theorem Sparing.step (hfree : ManifestFree plan d) (hspares : Sparing plan d x.before)
    (halone : Alone x) (hs : (ingestion texts key).Step x) : Sparing plan d x.after := by
  obtain ⟨e, hevent⟩ := halone
  obtain ⟨t₀, t', ht₀, hhears, ht', hans⟩ := hs.exchange_inv hevent
  obtain ⟨hplan, hwp⟩ := hspares.lawful t₀ ht₀
  have hlaw := hhears.guard hwp
  refine ⟨fun t ht => ?_, fun t ht place f hf => ?_⟩
  · cases ht'.symm.trans ht
    rw [hhears.call, hhears.origin]
    exact ⟨hplan, hwp⟩
  cases ht'.symm.trans ht
  rw [hhears.said]
  rcases hspares.files t₀ ht₀ place f hf with hold | ⟨hpath, hmem⟩
  · rcases RemOp.Answers.tree_cases hans with heq
        | ⟨place', content, perms, identity, hop, heq⟩
        | ⟨place', hop, heq⟩ | ⟨place', -, hdirs⟩
    · exact .inl (by rw [heq, hold])
    · rw [hop] at hlaw
      have hne : place ≠ place' := by
        rintro rfl
        exact hfree place f hlaw hf
      exact .inl (by rw [heq, update_of_ne hne, hold])
    · by_cases hplace : place = place'
      · subst hplace
        obtain ⟨o, a⟩ := e
        cases hop
        rcases hlaw.2 with hmanifest | ⟨hpath, -⟩
        · exact absurd hf (hfree place f hmanifest)
        · rcases hans with ⟨-, hsame⟩ | ⟨rfl, -⟩
          · exact .inl (by rw [hsame, hold])
          · exact .inr ⟨hpath, mem_cons_self⟩
      · exact .inl (by rw [heq, update_of_ne hplace, hold])
    · rcases hdirs place with heq | ⟨hnone, -⟩
      · exact .inl (by rw [heq, hold])
      · rw [hold] at hnone
        cases hnone
  · exact .inr ⟨hpath, mem_cons_of_mem _ hmem⟩

theorem keepsFiles_of_manifestFree (hfree : ManifestFree plan d) :
    KeepsFiles texts key plan assurance d := by
  intro h c t r hrun ht _ hunremoved place f hf
  have hspares := hrun.invariant (P := fun _ c => Sparing plan d c)
    ⟨fun t ht => ?_, fun t ht place f hf => .inl hf⟩
    fun _ _ hspares halone hs => hspares.step hfree halone hs
  · rcases hspares.files t ht place f hf with hold | ⟨hpath, hmem⟩
    · exact ⟨f, hold, rfl⟩
    · exact absurd hmem (hunremoved place hpath)
  · cases ht
    exact ⟨rfl, wp_ingestManagedFile⟩

-- ==== the manifest

def Accepted (texts : Texts) (plan : ManagedFilePlan) : Prop :=
  ∃ projectId path adapter manifestPath binding key said,
    Follows (build texts projectId path adapter
      manifestPath binding key) said (.ret (.ok plan))

theorem Accepted.elsewhere (haccepted : Accepted texts plan) : plan.path ≠ plan.manifestPath := by
  obtain ⟨projectId, path, adapter, manifestPath, binding, key, said, hfollows⟩ := haccepted
  have hwp : wp (fun _ _ => True) (build texts projectId
      path adapter manifestPath binding key) (fun r _ => ∀ plan,
        r = .ok plan → plan.path ≠ plan.manifestPath) [] := by
    have herror (e : ApplyError) (plan : ManagedFilePlan) (heq : .error e = Except.ok plan) :
        plan.path ≠ plan.manifestPath := by cases heq
    unfold build
    split
    · exact herror _
    refine wp_orThrow (fun normal _ => ?_) fun _ _ => herror _
    refine wp_orThrow (fun manifest _ => ?_) fun _ _ => herror _
    split
    · exact herror _
    next hne =>
    refine wp_bind.2 (wp_resolveTarget (fun _ _ => trivial) (fun new target _ _ => ?_)
      fun _ _ _ => herror _)
    refine ⟨trivial, fun perms => wp_orThrow (fun perms' _ => ?_) fun _ _ => herror _⟩
    refine ⟨trivial, fun bytes => wp_orThrow (fun bytes' _ => ?_) fun _ _ => herror _⟩
    refine ⟨trivial, fun identity plan heq => ?_⟩
    cases heq
    exact hne
  exact hwp.returns hfollows plan rfl

/-- The project is as it was planned, and there is room for a manifest. -/
structure Fits (texts : Texts) (key : PlanKey) (plan : ManagedFilePlan) (d : Project) : Prop where
  eligible : checkEligibility texts plan.path = .whollySensitive
  target : ∃ place f, plan.path = place.map .normal ∧ d.Dirs place
    ∧ d.tree place = some (.file f) ∧ f.identity = plan.identity
    ∧ keyedDigest key f.bytes = plan.snapshotDigest
  manifest : ∀ place, plan.manifestPath = place.map .normal → d.Dirs place
  encodes : ∀ manifest, ∃ bytes, texts.toVecPretty manifest = .ok bytes

section

variable (w : Work) {place : Place} {f : File} {reason : String}

theorem answered_writeManifest (reference : String) (hplace : plan.manifestPath = place.map .normal)
    (hdirs : d.Dirs place) (hf : d.tree place = some (.file f))
    (hencodes : ∀ manifest, ∃ bytes, texts.toVecPretty manifest = .ok bytes) :
    ∃ d' f', (writeManifest texts plan reference).answered w.answer d
      = (.ok place, d') ∧ d'.tree place = some (.file f') := by
  have hnew := walks_resolveNewFrom.answered w [] place fun q hq hpre => hdirs.kind hf hq hpre
  rw [nil_append] at hnew
  let d₁ := d.withDirs place.dropLast
  have hcreate : w.answer d (.fs (.createDirAll place.dropLast))
      = (.ok (), d₁) := if_pos hdirs.clearTo
  have hf₁ : d₁.tree place = some (.file f) := Project.withDirs_of_some hf
  have hparent : d₁.HasParent place := by
    rcases hdirs.hasParent with hnil | hdir
    · exact .inl hnil
    · exact .inr (Project.withDirs_of_some hdir)
  obtain ⟨bytes, hbytes⟩ := hencodes (manifestOf texts plan reference (w.now d₁))
  have hreplace : w.answer d₁ (.fs (.replaceAtomic place bytes
      .restricted)) = (.ok (), d₁.put place (some (.file
        ⟨bytes, w.fresh d₁ place, .restricted⟩))) := by
    refine if_pos ⟨hparent, ?_⟩
    rw [hf₁]
    exact nofun
  have hnow : w.answer d₁ .now = (w.now d₁, d₁) := rfl
  refine ⟨d₁.put place _, ⟨bytes, w.fresh d₁ place, .restricted⟩, ?_, update_self _ _ _⟩
  rw [writeManifest, resolveTargetAfterCreate, hplace, bind_eq,
    answered_bind_ok hnew, bind_eq, answered_asked w hcreate, bind_eq, answered_orThrow_ok, bind_eq,
    answered_asked w hnow, hbytes, bind_eq, answered_orThrow_ok, bind_eq, answered_asked w hreplace]
  rfl

theorem answered_removeStep
    (plan : ManagedFilePlan) (target : Place) (hf : d.tree place = some (.file f))
    (hstartup : w.startup d = .error reason) : (removeStep plan target place).answered w.answer d
      = (.ok (.startupCheckFailed reason), d.put place none) := by
  have hremove : w.answer d (.fs (.removeFile place)) = (.ok (), d.put place none) := by
    change w.fs d (.removeFile place) = _
    unfold Work.fs
    dsimp only
    rw [hf]
  have hchecked : w.answer d (.sink (.startupCheck plan.adapter
      plan.manifestPath plan.path)) = (.error reason, d) := by
    rw [← hstartup]
    rfl
  rw [removeStep, bind_eq, answered_asked w hchecked]
  change ((ask (.fs (.removeFile place))).bind _).answered w.answer d = _
  rw [answered_asked w hremove]
  rfl

theorem answered_vaultManaged (plan : ManagedFilePlan) (bytes : Bytes) :
    ∃ reference d', (vaultManaged plan bytes).answered w.answer d
      = (.ok reference, d') ∧ d'.tree = d.tree := ⟨_, _, rfl, rfl⟩

theorem answered_ingestManagedFile (assurance : IdentityAssurance) (hfits : Fits texts key plan d)
    (hidentities : w.identities = true) (hstartup : ∀ d, w.startup d = .error reason)
    (hplace : plan.manifestPath = place.map .normal) (hf : d.tree place = some (.file f)) :
    ∃ d', (ingestManagedFile texts plan key assurance).answered w.answer d
      = (.ok (.startupCheckFailed reason), d')
      ∧ d'.tree place = none := by
  obtain ⟨target, f₀, hpath, hdirs, hf₀, hidentity, hdigest⟩ := hfits.target
  have hcapture : w.answer d (.fs (.captureIdentity target)) = (some f₀.identity, d) := by
    change (if w.identities then (d.fileAt target).toOption.map (·.identity) else none, d) = _
    rw [hidentities, Project.fileAt_of_tree hf₀]
    rfl
  have hread : w.answer d (.fs (.read target)) = (.ok f₀.bytes, d) := by
    change ((d.fileAt target).map (·.bytes), d) = _
    rw [Project.fileAt_of_tree hf₀]
    rfl
  have hpasses : checkIdentity assurance (some f₀.identity) plan.identity
      = .passes := if_pos hidentity
  obtain ⟨reference, d₁, hvault, htree⟩ := answered_vaultManaged w (d := d) plan f₀.bytes
  have hdirs' : d₁.Dirs place := by
    intro q hq hpre hne
    rw [htree]
    exact hfits.manifest place hplace q hq hpre hne
  obtain ⟨d₂, f₂, hmanifest, hf₂⟩ := answered_writeManifest w
    reference hplace hdirs' (htree ▸ hf) hfits.encodes
  have hremove := answered_removeStep w plan target hf₂ (hstartup d₂)
  refine ⟨d₂.put place none, ?_, update_self _ _ _⟩
  rw [ingestManagedFile, hfits.eligible]
  rw [bind_eq, answered_bind_ok (answered_usableRoot w), bind_eq, hpath, answered_bind_ok
    (answered_resolveTarget w hdirs hf₀), bind_eq, answered_asked w hcapture, hpasses,
    ingestChecked, bind_eq, answered_asked w hread, bind_eq, answered_orThrow_ok, if_neg (not_not.2
    hdigest), bind_eq, answered_bind_ok hvault, bind_eq, answered_bind_ok hmanifest, hremove]

end

theorem manifestFree_of_keepsFiles (haccepted : Accepted texts plan) (hfits : Fits texts key plan d)
    (hkeeps : KeepsFiles texts key plan assurance d) : ManifestFree plan d := by
  intro place f hplace hf
  let w : Work := .plain (fun _ => .ok none) (.error "does not start")
  obtain ⟨d', heval, hgone⟩ := answered_ingestManagedFile w
    assurance hfits rfl (fun _ => rfl) hplace hf
  have ht : (begun texts key plan assurance d).threads 0
      = some (.start ⟨plan, assurance⟩ (ingestManagedFile texts plan key
        assurance)) := by simp [begun]
  obtain ⟨h, c, t, hrun, ht', -, horigin, htalk, hshared⟩ :=
    System.Run.completes (S := ingestion texts key) (fun s _ o => w.answer_answers s o) ht rfl
  have hresult : t.talk = .ret (.ok (.startupCheckFailed
      "does not start")) := by
    rw [htalk]
    exact congrArg (fun r => Talk.ret r.1) heval
  have hwp : wp (IngestLawful plan) t.origin (IngestReports plan) [] := by
    rw [horigin]
    exact wp_ingestManagedFile
  have hleaves := Thread.returned hresult hwp _ rfl haccepted.elsewhere
  obtain ⟨f', hf', -⟩ := hkeeps h c t _ hrun ht' hresult
    (fun place' hpath hmem => hleaves _ hmem place' rfl hpath) place f hf
  have hshared' : c.shared = d' := by
    rw [hshared]
    exact congrArg Prod.snd heval
  rw [hshared', hgone] at hf'
  cases hf'

/-- An ingestion that does not remove its file leaves every file as it was
if no file stands where its manifest goes, and on a project that is as it
was planned only then. -/
theorem keeps_files_iff_free (haccepted : Accepted texts plan) :
    (ManifestFree plan d → KeepsFiles texts key plan assurance d)
    ∧ (Fits texts key plan d → KeepsFiles texts key plan assurance d → ManifestFree plan d) :=
  ⟨keepsFiles_of_manifestFree, manifestFree_of_keepsFiles haccepted⟩

end

namespace Sample

variable {c : IngestConfig}

def texts : Texts where
  toLowercase := id
  toStringLossy _ := ".env"
  toVecPretty _ := .ok [123, 125]

def env : File := ⟨original, .unix 1 10, permissions⟩

def envPlan : ManagedFilePlan where
  projectId := "project"
  path := [.normal ".env"]
  identity := .unix 1 10
  permissions := permissions
  adapter := .envInjection
  manifestPath := [.normal ".env.json"]
  snapshotDigest := keyedDigest key original
  binding := .independent

def envProject (manifest : Option Node) : Project where
  tree place :=
    if place = [".env"] then some (.file env)
    else if place = [".env.json"] then manifest
    else none
  vault := ⟨[], [], []⟩

def envStart : IngestConfig := ⟨envProject none, fun _ => none⟩

def ingestActs : List (Act IngestCall Write) :=
  upTo 0 ⟨envPlan, .enforced⟩ 17

def overtakenActs : List (Act IngestCall Write) :=
  upTo 0 ⟨envPlan, .enforced⟩ 15
    ++ [.move ⟨[".env"], { env with bytes := [66] }⟩, .answer 0, .answer 0]

def ingested : List IngestEntry × IngestConfig :=
  (working.ingester texts key).play envStart ingestActs

def overtaken : List IngestEntry × IngestConfig :=
  (working.ingester texts key).play envStart overtakenActs

def ofZero (x : IngestEntry) : Bool :=
  match x.event with
  | .call tid call => tid = 0 && call.plan.path ≠ call.plan.manifestPath
  | .exchange tid _ | .finish tid => tid = 0
  | .move _ => false

theorem undisturbed_of_ofZero
    {h : List IngestEntry} (hrun : (ingestion texts key).Run (fun _ => True) envStart h c)
    (hall : h.all ofZero = true) : ∀ x ∈ h, Undisturbed x ∧ Elsewhere x := by
  have hzero : ∀ x ∈ h, ofZero x = true := all_eq_true.1 hall
  intro x hmem
  have hx := hzero x hmem
  refine ⟨fun tid t place bytes ht hother => ?_, fun tid call hevent => ?_⟩
  · obtain ⟨later, earlier, rfl⟩ := append_of_mem hmem
    obtain ⟨hbefore, -, -⟩ := hrun.split
    obtain ⟨y, hy, call, hcall⟩ := hbefore.called rfl ht
    have hyzero := hzero y (by simp [hy])
    have htid : tid = 0 := by
      unfold ofZero at hyzero
      rw [hcall] at hyzero
      simp only [Bool.and_eq_true, decide_eq_true_eq] at hyzero
      exact hyzero.1
    exfalso
    apply hother
    unfold ofZero at hx
    cases hevent : x.event <;> rw [hevent] at hx <;>
      simp_all [Happening.By]
  · unfold ofZero at hx
    rw [hevent] at hx
    simp only [Bool.and_eq_true, decide_eq_true_eq] at hx
    exact hx.2

def built : RemM ManagedFilePlan :=
  build texts "project" [.normal ".env"] .envInjection
    [.curDir, .normal ".env.json"] .independent key

def returns (p : RemM ManagedFilePlan) (plan : ManagedFilePlan) : Bool :=
  match p with
  | .ret (.ok plan') => plan' = plan
  | _ => false

theorem of_returns {p : RemM ManagedFilePlan} {plan : ManagedFilePlan}
    (h : returns p plan = true) : p = .ret (.ok plan) := by
  unfold returns at h
  split at h
  · cases of_decide_eq_true h
    rfl
  · cases h

theorem envPlan_accepted : Accepted texts envPlan := by
  let answer : (o : RemOp) → o.Ans := fun o => (working.answer (envProject none) o).1
  have hreturns : (converse (I := remInterface) answer built 5).2
      = .ret (.ok envPlan) := of_returns (by decide +kernel)
  have hfollows := converse_follows (I := remInterface) answer built 5
  rw [hreturns] at hfollows
  exact ⟨"project", [.normal ".env"], .envInjection,
    [.curDir, .normal ".env.json"], .independent, key, _, hfollows⟩

theorem env_place {place : Place} {name : String}
    (h : [Component.normal name] = place.map .normal) : place = [name] :=
  (place_unique (show [name].map Component.normal = _ from h)).symm

def wipes (x : IngestEntry) : Bool :=
  (match x.event, x.before.threads 0 with
    | .exchange 0 ⟨.fs (.removeFile [".env"]), .ok _⟩, some t => t.call.plan = envPlan
    | _, _ => false)
  && x.before.shared.tree [".env"] = some (.file { env with bytes := [66] })
  && x.after.shared.tree [".env"] = none
  && x.before.shared.vault.snapshots.all (·.bytes ≠ [66])

def older : File := ⟨[66], .unix 1 12, permissions⟩

def broken : Work := .plain (fun _ => .ok none) (.error "does not start")

def brokenStart : IngestConfig :=
  begun texts key envPlan .enforced (envProject (some (.file older)))

def brokenRun : List IngestEntry × IngestConfig :=
  (broken.ingester texts key).play brokenStart (List.replicate 17 (.answer 0))

def answersZero (x : IngestEntry) : Bool :=
  match x.event with
  | .exchange tid _ => tid = 0
  | _ => false

theorem alone_of_answersZero {x : IngestEntry} (h : answersZero x = true) : Alone x := by
  unfold answersZero at h
  split at h
  · next tid e hevent =>
    cases of_decide_eq_true h
    exact ⟨e, hevent⟩
  · cases h

def refused (c : IngestConfig) : Bool :=
  match c.threads 0 with
  | none => false
  | some t =>
    (match t.talk with
      | .ret (.ok (.startupCheckFailed _)) => true
      | _ => false)
    && t.said.all fun e => RemOp.removes e.op ≠ some [".env"]

theorem of_refused (h : refused c = true) : ∃ t reason, c.threads 0 = some t
      ∧ t.talk = .ret (.ok (.startupCheckFailed reason))
      ∧ Unremoved envPlan t.said := by
  unfold refused at h
  split at h
  · cases h
  next t ht =>
  obtain ⟨hret, hsaid⟩ := Bool.and_eq_true_iff.1 h
  split at hret
  · next reason htalk =>
    refine ⟨t, reason, ht, htalk, fun place hpath hmem => ?_⟩
    cases env_place hpath
    have hne := all_eq_true.1 hsaid _ hmem
    exact absurd rfl (of_decide_eq_true hne)
  · cases hret

end Sample

open Sample

theorem removes_vaulted_env : (∀ x ∈ ingested.1, RemovesVaulted x)
    ∧ ingested.2.shared.tree [".env"] = none
    ∧ ingested.2.shared.vault.snapshots
      = [⟨"snapshot", [.normal ".env"], original⟩] := by
  have hrun : (ingestion texts key).Run (fun _ => True) envStart ingested.1 ingested.2 :=
    (working.ingester _ _).play_run
  refine ⟨removes_vaulted (fun _ => rfl) (hrun.restrict fun x hmem _ => ?_),
    by decide +kernel, by decide +kernel⟩
  exact undisturbed_of_ofZero hrun (by decide +kernel) x hmem

/-- Somebody writes to the file while the startup check runs: the new
bytes are removed, and are nowhere in the vault. -/
theorem removes_unvaulted : ∃ h c, (ingestion texts key).Run (fun _ => True) envStart h c
    ∧ ∃ x ∈ h, x.before.shared.tree [".env"]
        = some (.file { env with bytes := [66] })
      ∧ x.after.shared.tree [".env"] = none
      ∧ (∀ snapshot ∈ x.before.shared.vault.snapshots, snapshot.bytes ≠ [66])
      ∧ ¬ RemovesVaulted x := by
  refine ⟨overtaken.1, overtaken.2, (working.ingester _ _).play_run, ?_⟩
  have hany : overtaken.1.any wipes = true := by decide +kernel
  obtain ⟨x, hmem, hwipes⟩ := any_eq_true.1 hany
  unfold wipes at hwipes
  simp only [Bool.and_eq_true, decide_eq_true_eq, all_eq_true] at hwipes
  obtain ⟨⟨⟨hevent, hbefore⟩, hafter⟩, hsnapshots⟩ := hwipes
  refine ⟨x, hmem, hbefore, hafter, hsnapshots, fun hvaulted => ?_⟩
  split at hevent
  · next u t hx ht =>
    have hplan := of_decide_eq_true hevent
    obtain ⟨f, reference, hf, -, hstored⟩ := hvaulted 0 t [".env"] hx ht
      (by rw [hplan]; rfl)
    rw [hbefore] at hf
    cases hf
    exact hsnapshots _ hstored rfl
  · cases hevent

theorem keeps_files_env : KeepsFiles texts key envPlan .enforced (envProject none) := by
  refine (keeps_files_iff_free envPlan_accepted).1 ?_
  intro place f hplace
  cases env_place hplace
  exact nofun

/-- A file stands there, and the startup check fails: the file is gone. -/
theorem manifest_overwrites : Accepted texts envPlan
    ∧ ∃ h c t reason, (ingestion texts key).Run Alone (begun texts key envPlan .enforced
        (envProject (some (.file older)))) h c
    ∧ c.threads 0 = some t
    ∧ t.talk = .ret (.ok (.startupCheckFailed reason))
    ∧ Unremoved envPlan t.said
    ∧ c.shared.tree [".env.json"] = none
    ∧ ¬ KeepsFiles texts key envPlan .enforced (envProject (some (.file older))) := by
  have hrun : (ingestion texts key).Run Alone brokenStart brokenRun.1 brokenRun.2 :=
    (broken.ingester _ _).play_tested (fun _ _ => alone_of_answersZero) (by decide +kernel)
  have hgone : brokenRun.2.shared.tree [".env.json"] = none := by decide +kernel
  obtain ⟨t, reason, ht, htalk, hunremoved⟩ := of_refused
    (show refused brokenRun.2 = true by decide +kernel)
  refine ⟨envPlan_accepted, _, _, t, reason, hrun, ht, htalk, hunremoved, hgone, fun hkeeps => ?_⟩
  obtain ⟨f, hf, -⟩ := hkeeps _ _ t _ hrun ht htalk hunremoved [".env.json"]
    older rfl
  rw [hgone] at hf
  cases hf

end SovereignVault.Remediate
