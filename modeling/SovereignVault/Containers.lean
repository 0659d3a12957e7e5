/-
Containers and their rules: the protection of a container is durable
before the container can be seen.

`create_container` commits the rule and then makes the directory;
`delete_container` removes the directory and then the rule. So wherever a
call stops, a directory that exists has its rule (`Protected`); what a
crash can leave is a rule without a directory, which nothing reads and the
next creation under that name replaces.
-/
import SovereignVault.Crash.Run
import SovereignVault.Storage

namespace SovereignVault

open Crash List Function

namespace Storage

open Prog

variable {modes : String → SecurityMode} {description : Option String}
  {name : String} {w : World} {mode : SecurityMode} {m : Manifest}

-- ==== rules of a manifest

def rulePattern (name : String) : String := name ++ "/**"

theorem rulePattern_injective : Injective rulePattern := by
  intro a b h
  have hlist := congrArg String.toList h
  simp only [rulePattern, String.toList_append, append_cancel_right_eq] at hlist
  exact String.toList_inj.1 hlist

def withoutRule (body : ManifestBody) (name : String) : ManifestBody :=
  { body with
    rules := body.rules.filter fun r => r.pattern ≠ rulePattern name }

def withRule (body : ManifestBody) (name : String) (mode : SecurityMode)
    (description : Option String) : ManifestBody :=
  { body with
    rules := (withoutRule body name).rules ++ [⟨rulePattern name, mode, description⟩] }

def RulesUnique (body : ManifestBody) : Prop :=
  (body.rules.map ManifestRule.pattern).Nodup

variable {body : ManifestBody} {m m' : Manifest}

theorem RulesUnique.withoutRule (h : RulesUnique body) (name : String) :
    RulesUnique (withoutRule body name) :=
  h.sublist (filter_sublist.map _)

theorem RulesUnique.withRule (h : RulesUnique body) (name : String) (mode : SecurityMode)
    (description : Option String) : RulesUnique (withRule body name mode description) := by
  unfold RulesUnique Storage.withRule
  rw [map_append, nodup_append]
  refine ⟨h.withoutRule name, nodup_singleton _, ?_⟩
  intro pattern hmem pattern' hmem'
  obtain ⟨r, hr, rfl⟩ := mem_map.1 hmem
  obtain rfl := mem_singleton.1 hmem'
  have hne := (mem_filter.1 hr).2
  simpa using hne

theorem effectiveMode_withoutRule {other : String} (hm : m'.body = withoutRule m.body name)
    (hne : other ≠ name) : effectiveMode m' other = effectiveMode m other := by
  have hfind : containerRule m' other = containerRule m other := by
    unfold containerRule
    rw [hm, withoutRule, ← filter_reverse, find?_filter]
    congr 1
    funext r
    by_cases hr : r.pattern = rulePattern other
    · have hother : r.pattern ≠ rulePattern name := by
        rw [hr]
        exact fun h => hne (rulePattern_injective h)
      rw [rulePattern] at hr
      simp [hr] at hother ⊢
      exact hother
    · rw [rulePattern] at hr
      simp [hr]
  have hdefault : m'.body.defaultMode = m.body.defaultMode := by rw [hm, withoutRule]
  unfold effectiveMode
  rw [hfind, hdefault]

theorem effectiveMode_withRule_self
    (hm : m'.body = withRule m.body name mode description) : effectiveMode m' name = mode := by
  unfold effectiveMode containerRule
  rw [hm, withRule, reverse_append, reverse_singleton]
  simp [rulePattern]

theorem effectiveMode_withRule_of_ne {other : String}
    (hm : m'.body = withRule m.body name mode description) (hne : other ≠ name) :
    effectiveMode m' other = effectiveMode m other := by
  have hdropped : effectiveMode ⟨withoutRule m.body name, none⟩ other
      = effectiveMode m other := effectiveMode_withoutRule rfl hne
  rw [← hdropped]
  have hpattern : ¬ rulePattern name = other ++ "/**" := by
    intro h
    exact hne (rulePattern_injective h.symm)
  unfold effectiveMode containerRule
  rw [hm, withRule, reverse_append, reverse_singleton,
    singleton_append, find?_cons_of_neg (by simpa using hpattern)]
  rfl

-- ==== one state

/-- The manifest verifies under `key`, has at most one rule per pattern,
and gives every existing container its mode. -/
structure Protected (key : MasterKey) (modes : String → SecurityMode)
    (w : World) (m : Manifest) : Prop where
  verified : verifiedManifest key w.manifest = .ok m
  unique : RulesUnique m.body
  enforced : ∀ name ∈ w.containers, effectiveMode m name = modes name

theorem Protected.key_eq {key key' : MasterKey} (h : Protected key modes w m)
    (h' : verifiedManifest key' w.manifest = .ok m') : key' = key ∧ m' = m := by
  have hfile := verifiedManifest_isSome h.verified
  have hfile' := verifiedManifest_isSome h'
  rw [hfile] at hfile'
  obtain rfl := Option.some.inj hfile'
  have htag := (verifiedManifest_ok h.verified).2
  have htag' := (verifiedManifest_ok h').2
  rw [htag] at htag'
  have hkeys := Option.some.inj htag'
  simp only [ManifestIntegrity.mk.injEq, ManifestTag.mk.injEq] at hkeys
  exact ⟨hkeys.2.1.symm, rfl⟩

def rewritten (w : World) (key : MasterKey) (body : ManifestBody) : World :=
  { w with manifest := some (authenticated key body) }

theorem Protected.rewritten {key : MasterKey} (h : Protected key modes w m)
    (hschema : body.schemaVersion = m.body.schemaVersion)
    (hunique : RulesUnique body) (hkept : ∀ name ∈ w.containers,
      effectiveMode (authenticated key body) name = effectiveMode m name) :
    Protected key modes (rewritten w key body) (authenticated key body) where
  verified := verifiedManifest_authenticated key (hschema.trans (verifiedManifest_ok h.verified).1)
  unique := hunique
  enforced := fun name hname => (hkept name hname).trans (h.enforced name hname)

-- ==== the calls

section Calls

variable {F : Faults World CoreError} {I : World → Prop} {v : Vault}
  {w : World} {name : String} {description : Option String} {mode : SecurityMode} {m : Manifest}

def withContainer (w : World) (name : String) : World :=
  { w with containers := name :: w.containers }

def withoutContainer (w : World) (name : String) : World :=
  { w with containers := w.containers.filter fun c => c ≠ name }

variable {Q : Except CoreError Unit → World → Prop}

theorem wp_createContainer (hi : I w) (hfail : ∀ e, Q (.error e) w)
    (hrule : ∀ m, validateContainerName name = .ok () → name ∉ w.containers →
      verifiedManifest v.manifestAuthKey w.manifest = .ok m →
      (I (rewritten w v.manifestAuthKey (withRule m.body name mode description))
        ∧ ∀ e, Q (.error e) (rewritten w v.manifestAuthKey (withRule m.body name mode description)))
      ∧ I (withContainer (rewritten w v.manifestAuthKey
          (withRule m.body name mode description)) name)
        ∧ ∀ res, Q res (withContainer (rewritten w v.manifestAuthKey
          (withRule m.body name mode description)) name)) :
    wp F I (createContainer v name mode description) Q w := by
  refine (observes_ret _).wp_seq hi hfail fun _ hv => ?_
  refine observes_get.wp_seq hi hfail fun _ hw => ?_
  obtain rfl := Except.ok.inj hw
  by_cases hc : name ∈ w.containers
  · rw [if_pos hc]
    exact ⟨hi, hfail _⟩
  rw [if_neg hc]
  refine (observes_readManifest _).wp_seq hi hfail fun m hm => ?_
  obtain ⟨⟨hi₁, hq₁⟩, hi₂, hq₂⟩ := hrule m hv hc hm
  rw [bind_eq, wp_bind]
  refine wp_writeAtomic hi hi₁ ?_ (fun e _ => hfail e) fun e _ => hq₁ e
  rw [seqPost_ok]
  exact wp_writeAtomic hi₁ hi₂ (hq₂ _) (fun e _ => hq₁ e) fun e _ => hq₂ _

theorem wp_removeDirAll {J : World → Prop}
    (hJ : ∀ w path, J w → J { w with files := w.files.erase path }) (hI : ∀ w, J w → I w) (hw : J w)
    (hfail : ∀ e w', J w' → Q (.error e) w')
    (hgone : ∀ w', J w' → I (withoutContainer w' name) ∧ Q (.ok ()) (withoutContainer w' name)) :
    wp F I (removeDirAll name) Q w := by
  unfold removeDirAll
  rw [bind_eq, wp_bind]
  refine observes_get F I _ w (hI w hw) ?_ fun _ e => hfail e w hw
  rw [seqPost_ok, bind_eq, wp_bind]
  have hloop : Stable J (Prog.forEach (fun file => Prog.modify fun w : World =>
        { w with files := w.files.erase (name, file) })
      (fileNames w name) : VaultM Unit) :=
    stable_forEach (fun file => stable_modify fun w hw => hJ w (name, file) hw) _
  refine (hloop.yields hw hI).post fun res w' _ hw' => ?_
  cases res with
  | error e => exact hfail e w' hw'
  | ok _ =>
    obtain ⟨hi', hq⟩ := hgone w' hw'
    rw [seqPost_ok, wp_modify]
    exact ⟨hI w' hw', ⟨hi', hq⟩, fun e _ => hfail e w' hw'⟩

theorem wp_dropRule (hi : I w) (hfail : ∀ e, Q (.error e) w)
    (hgone : ∀ m, verifiedManifest v.manifestAuthKey w.manifest = .ok m →
      I (rewritten w v.manifestAuthKey (withoutRule m.body name)) ∧ ∀ res, Q res
          (rewritten w v.manifestAuthKey (withoutRule m.body name))) : wp F I (do
      let m ← readManifest v.manifestAuthKey
      writeManifest (withoutRule m.body name) v.manifestAuthKey) Q w := by
  refine (observes_readManifest _).wp_seq hi hfail fun m hm => ?_
  obtain ⟨hi', hq⟩ := hgone m hm
  exact wp_writeAtomic hi hi' (hq _) (fun e _ => hfail e) fun e _ => hq _

theorem deleteContainer_eq (v : Vault) (name : String) : deleteContainer v name = (do
      Prog.ret (validateContainerName name)
      (do
        let w ← Prog.get
        if name ∈ w.containers then
          removeDirAll name
          Prog.sync)
      let m ← readManifest v.manifestAuthKey
      writeManifest (withoutRule m.body name) v.manifestAuthKey) := by
  unfold deleteContainer
  simp only [bind_eq]
  congr 1
  funext _
  rw [bind_assoc]
  congr 1
  funext w
  by_cases hc : name ∈ w.containers
  · simp only [hc, if_true, bind_assoc]
    rfl
  · simp only [hc, if_false, pure_eq, bind_ret_ok]
    rfl

structure Reached (key : MasterKey) (modes : String → SecurityMode) (w w' : World) : Prop where
  safe : ∃ m, Protected key modes w' m
  subset : ∀ name ∈ w'.containers, name ∈ w.containers

variable {key : MasterKey} {modes : String → SecurityMode}

theorem Reached.of_subset
    {w' w'' : World} (h : Reached key modes w w') (hm : w''.manifest = w'.manifest)
    (hc : ∀ name ∈ w''.containers, name ∈ w'.containers) : Reached key modes w w'' := by
  obtain ⟨m, hprot⟩ := h.safe
  refine ⟨⟨m, ?_, hprot.unique, fun name hname => ?_⟩, fun name hname =>
    h.subset name (hc name hname)⟩
  · rw [hm]
    exact hprot.verified
  · exact hprot.enforced name (hc name hname)

theorem Reached.dropRule {w' : World} (h : Reached key modes w w') (hgone : name ∉ w'.containers)
    {key' : MasterKey} (hm : verifiedManifest key' w'.manifest = .ok m) :
    Reached key modes w (rewritten w' key' (withoutRule m.body name)) := by
  obtain ⟨m₀, hprot⟩ := h.safe
  obtain ⟨rfl, rfl⟩ := hprot.key_eq hm
  refine ⟨⟨_, hprot.rewritten rfl (hprot.unique.withoutRule name) ?_⟩, h.subset⟩
  intro other hother
  refine effectiveMode_withoutRule rfl ?_
  rintro rfl
  exact hgone hother

theorem wp_deleteContainer (hw : Reached key modes w w) :
    wp F (Reached key modes w) (deleteContainer v name) (fun _ => Reached key modes w) w := by
  rw [deleteContainer_eq]
  refine (observes_ret _).wp_seq hw (fun _ => hw) fun _ _ => ?_
  rw [bind_eq, wp_bind]
  have hrule : ∀ w', Reached key modes w w' → name ∉ w'.containers →
      wp F (Reached key modes w) (do
        let m ← readManifest v.manifestAuthKey
        writeManifest (withoutRule m.body name) v.manifestAuthKey)
        (fun _ => Reached key modes w) w' := by
    intro w' hw' hgone
    refine wp_dropRule hw' (fun _ => hw') fun m hm => ?_
    exact ⟨hw'.dropRule hgone hm, fun _ => hw'.dropRule hgone hm⟩
  refine observes_get.wp_seq hw (fun _ => hw) fun _ hget => ?_
  obtain rfl := Except.ok.inj hget
  by_cases hc : name ∈ w.containers
  · rw [if_pos hc, bind_eq, wp_bind]
    refine wp_removeDirAll (J := Reached key modes w)
      (fun w' path hw' => hw'.of_subset rfl fun _ h => h)
      (fun _ h => h) hw (fun _ _ h => h) fun w' hw' => ?_
    have hsub : ∀ other ∈ (withoutContainer w' name).containers,
        other ∈ w'.containers := fun other hother =>
      (mem_filter.1 hother).1
    have hgone : name ∉ (withoutContainer w' name).containers := by simp [withoutContainer]
    have hw'' : Reached key modes w (withoutContainer w' name) := hw'.of_subset rfl hsub
    refine ⟨hw'', ?_⟩
    rw [seqPost_ok, wp_sync]
    exact ⟨hw'', hrule _ hw'' hgone, fun _ _ => hw''⟩
  · rw [if_neg hc]
    exact ⟨hw, hrule w hw hc⟩

/-- What `create_container` leaves: the containers there were, or one
more, created under its mode. -/
def CreateLeaves (key : MasterKey) (modes : String → SecurityMode)
    (name : String) (mode : SecurityMode) (w w' : World) : Prop :=
  Reached key modes w w' ∨ (name ∉ w.containers ∧ validateContainerName name = .ok ()
      ∧ (∃ m, Protected key (update modes name mode) w' m)
      ∧ w'.containers = name :: w.containers)

theorem wp_createContainer_protected (hw : Protected key modes w m) :
    wp F (CreateLeaves key modes name mode w) (createContainer v name mode description)
      (fun _ => CreateLeaves key modes name mode w) w := by
  have hself : Reached key modes w w := ⟨⟨m, hw⟩, fun _ h => h⟩
  refine wp_createContainer (.inl hself) (fun _ => .inl hself) ?_
  intro m' hvalid hfresh hm'
  obtain ⟨rfl, rfl⟩ := hw.key_eq hm'
  have hother : ∀ other ∈ w.containers, other ≠ name := by
    rintro other hmem rfl
    exact hfresh hmem
  have hunique := hw.unique.withRule name mode description
  have hrule : Protected v.manifestAuthKey modes (rewritten w v.manifestAuthKey
        (withRule m'.body name mode description)) _ :=
    hw.rewritten rfl hunique fun other hmem => effectiveMode_withRule_of_ne rfl (hother other hmem)
  have hcommitted : CreateLeaves v.manifestAuthKey modes name mode w (rewritten w v.manifestAuthKey
        (withRule m'.body name mode description)) :=
    .inl ⟨⟨_, hrule⟩, fun _ h => h⟩
  have hmade : CreateLeaves v.manifestAuthKey modes name mode w
      (withContainer (rewritten w v.manifestAuthKey
        (withRule m'.body name mode description)) name) := by
    refine .inr ⟨hfresh, hvalid, ⟨_, hrule.verified, hrule.unique, ?_⟩, rfl⟩
    intro other hmem
    rcases mem_cons.1 hmem with rfl | hmem
    · rw [update_self]
      exact effectiveMode_withRule_self rfl
    · rw [update_of_ne (hother other hmem)]
      exact hrule.enforced other hmem
  exact ⟨⟨hcommitted, fun _ => hcommitted⟩, hmade, fun _ => hmade⟩

end Calls

-- ==== whole histories

inductive ContainerCall where
  | createContainer (v : Vault) (name : String) (mode : SecurityMode) (description : Option String)
  | deleteContainer (v : Vault) (name : String)

def ContainerCall.prog : ContainerCall → VaultM Unit
  | .createContainer v name mode description => Storage.createContainer v name mode description
  | .deleteContainer v name => Storage.deleteContainer v name

def containerStore : Service World CoreError ContainerCall Unit where
  prog _ call := some call.prog
  reset := World.crashed

def Creates (name : String) (mode : SecurityMode)
    (e : Event World CoreError ContainerCall Unit) : Prop :=
  name ∉ e.before.containers ∧ ∃ v description, e.call = .createContainer v name mode description

/-- The container exists after the history, latest event first, and was
created with `mode`, by a call of the history or before it. -/
def CreatedWith (w₀ : World) (m₀ : Manifest)
    (name : String) (mode : SecurityMode) : List (Event World CoreError ContainerCall Unit) → Prop
  | [] => isValidContainerName name ∧ name ∈ w₀.containers ∧ effectiveMode m₀ name = mode
  | e :: h => name ∈ e.after.containers ∧ (Creates name mode e
        ∨ (name ∈ e.before.containers ∧ CreatedWith w₀ m₀ name mode h))

section Histories

variable {F : Faults World CoreError} {key : MasterKey} {w₀ w : World} {m₀ : Manifest}
  {h : List (Event World CoreError ContainerCall Unit)} {modes : String → SecurityMode}

/-- The modes enforced in `w` are those the containers were created
with. -/
def ModesOf (key : MasterKey) (w₀ : World) (m₀ : Manifest)
    (h : List (Event World CoreError ContainerCall Unit)) (w : World)
    (modes : String → SecurityMode) : Prop :=
  (∃ m, Protected key modes w m) ∧ (∀ name mode, CreatedWith w₀ m₀ name mode h →
      name ∈ w.containers ∧ isValidContainerName name ∧ modes name = mode)
    ∧ ∀ name ∈ w.containers, isValidContainerName name → ∃ mode, CreatedWith w₀ m₀ name mode h

variable {e : Event World CoreError ContainerCall Unit}

theorem ModesOf.reached (hmodes : ModesOf key w₀ m₀ h e.before modes)
    (hr : Reached key modes e.before e.after) : ModesOf key w₀ m₀ (e :: h) e.after modes := by
  refine ⟨hr.safe, ?_, fun name hthere hvalid => ?_⟩
  · rintro name mode ⟨hthere, ⟨hnew, _⟩ | ⟨_, hold⟩⟩
    · exact absurd (hr.subset name hthere) hnew
    · exact ⟨hthere, (hmodes.2.1 name mode hold).2⟩
  · have hbefore := hr.subset name hthere
    obtain ⟨mode, hold⟩ := hmodes.2.2 name hbefore hvalid
    exact ⟨mode, hthere, .inr ⟨hbefore, hold⟩⟩

theorem ModesOf.made {v : Vault} {name : String} {mode : SecurityMode}
    {description : Option String} (hmodes : ModesOf key w₀ m₀ h e.before modes)
    (hcall : e.call = .createContainer v name mode description)
    (hfresh : name ∉ e.before.containers) (hvalid : validateContainerName name = .ok ())
    (hsafe : ∃ m, Protected key (update modes name mode) e.after m)
    (hcont : e.after.containers = name :: e.before.containers) :
    ModesOf key w₀ m₀ (e :: h) e.after (update modes name mode) := by
  refine ⟨hsafe, ?_, fun other hthere hother => ?_⟩
  · rintro other mode' ⟨hthere, hother⟩
    by_cases heq : other = name
    · subst heq
      rcases hother with ⟨_, v', d', hcall'⟩ | ⟨hbefore, _⟩
      · rw [hcall] at hcall'
        injection hcall' with _ _ hmode _
        rw [update_self]
        exact ⟨hthere, validateContainerName_ok.1 hvalid, hmode⟩
      · exact absurd hbefore hfresh
    · rw [update_of_ne heq]
      rcases hother with ⟨_, v', d', hcall'⟩ | ⟨_, hold⟩
      · rw [hcall] at hcall'
        injection hcall' with _ hname _ _
        exact absurd hname.symm heq
      · exact ⟨hthere, (hmodes.2.1 other mode' hold).2⟩
  · have hmem := hthere
    rw [hcont] at hmem
    rcases mem_cons.1 hmem with rfl | hbefore
    · exact ⟨mode, hthere, .inl ⟨hfresh, v, description, hcall⟩⟩
    · obtain ⟨mode', hold⟩ := hmodes.2.2 other hbefore hother
      exact ⟨mode', hthere, .inr ⟨hbefore, hold⟩⟩

theorem ModesOf.step (hmodes : ModesOf key w₀ m₀ h e.before modes)
    (hstep : containerStore.Step F e) : ∃ modes', ModesOf key w₀ m₀ (e :: h) e.after modes' := by
  obtain ⟨p, s', hp, hr, hafter⟩ := hstep.reaches
  have hp : e.call.prog = p := Option.some.inj hp
  -- a crash clears the handle, which nothing here reads
  have hsame : e.after.manifest = s'.manifest
      ∧ e.after.containers = s'.containers := by
    rcases hafter with heq | heq
    · rw [heq]
      exact ⟨rfl, rfl⟩
    · rw [heq]
      exact ⟨rfl, rfl⟩
  have hkeep : ∀ modes', Reached key modes' e.before s' → Reached key modes' e.before e.after := by
    intro modes' hs'
    refine hs'.of_subset hsame.1 fun name hname => ?_
    rw [← hsame.2]
    exact hname
  obtain ⟨m, hprot⟩ := hmodes.1
  cases hcall : e.call with
  | deleteContainer v name =>
    rw [hcall] at hp
    subst hp
    have hs' : Reached key modes e.before s' := by
      apply (wp_deleteContainer ?_).reaches hr
      exact ⟨⟨m, hprot⟩, fun _ h => h⟩
    exact ⟨modes, hmodes.reached (hkeep modes hs')⟩
  | createContainer v name mode description =>
    rw [hcall] at hp
    subst hp
    have hleaves : CreateLeaves key modes name mode e.before s' :=
      (wp_createContainer_protected hprot).reaches hr
    rcases hleaves with hs' | ⟨hfresh, hvalid, ⟨m', hm'⟩, hcont⟩
    · exact ⟨modes, hmodes.reached (hkeep modes hs')⟩
    refine ⟨_, hmodes.made hcall hfresh hvalid ⟨m', ?_, hm'.unique, ?_⟩ (hsame.2.trans hcont)⟩
    · rw [hsame.1]
      exact hm'.verified
    · rw [hsame.2]
      exact hm'.enforced

theorem ModesOf.run (hm₀ : verifiedManifest key w₀.manifest = .ok m₀)
    (hunique : RulesUnique m₀.body) (hrun : containerStore.Run F (fun _ _ => True) w₀ h w) :
    ∃ modes, ModesOf key w₀ m₀ h w modes := by
  induction hrun with
  | nil =>
    refine ⟨effectiveMode m₀, ⟨m₀, hm₀, hunique, fun _ _ => rfl⟩, ?_,
      fun name hmem hvalid => ⟨_, hvalid, hmem, rfl⟩⟩
    rintro name mode ⟨hvalid, hmem, hmode⟩
    exact ⟨hmem, hvalid, hmode⟩
  | step _ _ hstep ih =>
    obtain ⟨modes, hmodes⟩ := ih
    exact hmodes.step hstep

end Histories

theorem containerMode_run {v : Vault} (hvalid : isValidContainerName name)
    (hc : name ∈ w.containers) (hm : verifiedManifest v.manifestAuthKey w.manifest = .ok m) :
    (containerMode v name).run w = (.ok (effectiveMode m name), w) := by
  have hs : Succeeds Faults.none (fun _ => True) (containerMode v name)
      (fun mode w' => mode = effectiveMode m name ∧ w' = w) w := by
    unfold containerMode
    rw [validateContainerName_ok.2 hvalid, bind_eq, bind_ret_ok, bind_eq, succeeds_bind]
    refine succeeds_ensureContainer hc trivial ?_
    rw [bind_eq, succeeds_bind]
    refine (observes_readManifest _).succeeds trivial hm ?_
    exact succeeds_ret trivial ⟨rfl, rfl⟩
  have hwp := hs.wp_none (Q := fun res w' => res = .ok (effectiveMode m name) ∧ w' = w)
    fun mode w' _ h => ⟨congrArg Except.ok h.1, h.2⟩
  exact Prod.ext hwp.run.1 hwp.run.2

/-- Along every run of creations and removals, stopped or failing
anywhere, every container was created with the mode it has, and the
manifest names no pattern twice. -/
theorem container_mode_durable (F : Faults World CoreError) (key : MasterKey)
    (w₀ w : World) (m₀ : Manifest) (h : List (Event World CoreError ContainerCall Unit))
    (hm₀ : verifiedManifest key w₀.manifest = .ok m₀)
    (hunique : RulesUnique m₀.body) (hrun : containerStore.Run F (fun _ _ => True) w₀ h w) :
    (∃ m, verifiedManifest key w.manifest = .ok m ∧ RulesUnique m.body)
      ∧ (∀ name ∈ w.containers, isValidContainerName name → ∃ mode, CreatedWith w₀ m₀ name mode h)
      ∧ ∀ name mode, CreatedWith w₀ m₀ name mode h →
        name ∈ w.containers ∧ ∀ v : Vault, v.manifestAuthKey = key →
          (containerMode v name).run w = (.ok mode, w) := by
  obtain ⟨modes, ⟨m, hprot⟩, hcreated, hall⟩ := ModesOf.run hm₀ hunique hrun
  refine ⟨⟨m, hprot.verified, hprot.unique⟩, hall, fun name mode hc => ?_⟩
  obtain ⟨hmem, hvalid, hmode⟩ := hcreated name mode hc
  refine ⟨hmem, fun v hv => ?_⟩
  subst hv
  rw [containerMode_run hvalid hmem hprot.verified, hprot.enforced name hmem, hmode]

namespace Sample

def bareRoot : World :=
  { World.empty with
    manifest := some (authenticated (.generate 2) defaultManifest) }

def keeper : Vault := singleKeyVault (.generate 0) (.generate 2)

def otpCall : ContainerCall := .createContainer keeper "notes" .otp none

def approvalCall : ContainerCall :=
  .createContainer keeper "notes" .approval none

def ruleOnly : World := (otpCall.prog.haltAfter 1 bareRoot).crashed

def recreated : World := (approvalCall.prog.run ruleOnly).2

def containerHistory : List (Event World CoreError ContainerCall Unit) :=
  [⟨ruleOnly, approvalCall, .returned (.ok ()), recreated⟩, ⟨bareRoot, otpCall, .crashed, ruleOnly⟩]

end Sample

open Sample

/-- A creation under OTP that crashed with its rule committed, and one
under approval after it: the container has the mode of the second. -/
theorem container_mode_durable_recreated : verifiedManifest (.generate 2) bareRoot.manifest
        = .ok (authenticated (.generate 2) defaultManifest)
      ∧ ruleOnly.manifest ≠ bareRoot.manifest ∧ ruleOnly.containers = []
      ∧ (containerMode keeper "notes").run recreated
        = (.ok .approval, recreated) := by
  have hm : verifiedManifest (.generate 2) bareRoot.manifest
      = .ok (authenticated (.generate 2) defaultManifest) := by decide
  have hrun : containerStore.Run Faults.none (fun _ _ => True) bareRoot
      containerHistory recreated := by
    refine .step (e := ⟨_, _, _, _⟩) (.step (e := ⟨_, _, _, _⟩) .nil
      trivial ?_) trivial ?_
    · exact .crashed rfl (haltAfter_reaches _ otpCall.prog 1 bareRoot)
    · exact .returned rfl (run_returns _ approvalCall.prog ruleOnly)
  have hcreated : CreatedWith bareRoot
      (authenticated (.generate 2) defaultManifest) "notes" .approval
      containerHistory :=
    ⟨mem_cons_self, .inl ⟨not_mem_nil, keeper, none, rfl⟩⟩
  have hdurable := container_mode_durable Faults.none (.generate 2) bareRoot
    recreated _ containerHistory hm nodup_nil hrun
  exact ⟨hm, by decide, rfl, (hdurable.2.2 "notes" .approval hcreated).2
    keeper rfl⟩

end Storage

-- ==== looking it up

section Lookups

open Crash Prog

variable {ε ε' α : Type}

theorem mapError_eq_ok {x : Except ε α} {f : ε → ε'} {a : α}
    (h : x.mapError f = .ok a) : x = .ok a := by
  cases x with
  | error e => cases h
  | ok a' =>
    cases h
    rfl

def Looks (estr : CoreError → String) (p : VaultM α) (w : World) (a : Except String α) : Prop :=
  ∃ r w', Returns Faults.any p w r w' ∧ a = r.mapError estr

def modeNow (w : World) (container : String) : Option SecurityMode :=
  w.handle.bind fun handle => ((Storage.containerMode handle.vault container).run w).1.toOption

variable {estr : CoreError → String} {handle : VaultHandle} {w : World}

theorem Looks.modeNow {container : String} {mode : SecurityMode}
    (hlooks : Looks estr (Storage.containerMode handle.vault container) w
      (.ok mode)) (hhandle : w.handle = some handle) :
    SovereignVault.modeNow w container = some mode := by
  obtain ⟨r, w', hreturns, hr⟩ := hlooks
  rw [mapError_eq_ok hr.symm] at hreturns
  have hobserves := Storage.observes_containerMode handle.vault container
  unfold SovereignVault.modeNow
  rw [hhandle, Option.bind_some, hobserves.run, (hobserves.returns hreturns).2]
  rfl

end Lookups

end SovereignVault
