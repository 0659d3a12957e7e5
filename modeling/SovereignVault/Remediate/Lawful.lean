/-
What a call on a span plan asks, and what must have come before.

A file is replaced only by the approved content of an item of the plan,
after that content was read, and after the vault side was journalled by
this call or by the journal it resumes. A journal entry for the vault side
follows the snapshot and the recovery record of the item; one for the file
follows the replacement.
-/
import SovereignVault.Remediate.Project

namespace SovereignVault.Remediate

open Dialogue Talk List

variable {e : RemExchange}

-- ==== histories

def RemOp.replaces : RemOp → Option Place
  | .fs (.replaceAtomic place _ _) => some place
  | _ => none

def Quiet (h : List RemExchange) : Prop :=
  ∀ e ∈ h, RemOp.replaces e.op = none

variable {h : List RemExchange}

theorem Quiet.cons (hquiet : Quiet h) (he : RemOp.replaces e.op = none) :
    Quiet (e :: h) := forall_mem_cons.2 ⟨he, hquiet⟩

theorem quiet_nil : Quiet [] := fun _ hmem => absurd hmem not_mem_nil

def Probing (h : List RemExchange) : Prop :=
  ∀ e ∈ h, ∃ place, e.op = .fs (.symlinkMetadata place)

theorem probing_nil : Probing [] := fun _ hmem => absurd hmem not_mem_nil

theorem Probing.cons (hprobing : Probing h) {place : Place}
    {a : (RemOp.fs (.symlinkMetadata place)).Ans} :
    Probing (⟨.fs (.symlinkMetadata place), a⟩ :: h) :=
  forall_mem_cons.2 ⟨⟨place, rfl⟩, hprobing⟩

theorem Probing.append {h h' : List RemExchange} (hprobing : Probing h)
    (hprobing' : Probing h') : Probing (h ++ h') :=
  forall_mem_append.2 ⟨hprobing, hprobing'⟩

theorem Probing.quiet (hprobing : Probing h) : Quiet h := by
  intro e hmem
  obtain ⟨place, heq⟩ := hprobing e hmem
  rw [heq]
  rfl

def Own (item : PlanItem) (h : List RemExchange) : Prop :=
  ∀ e ∈ h, ∀ place, RemOp.replaces e.op = some place → item.path = place.map .normal

theorem Quiet.own (hquiet : Quiet h) (item : PlanItem) : Own item h := by
  intro e hmem place he
  rw [hquiet e hmem] at he
  cases he

theorem Own.cons {item : PlanItem} (hown : Own item h)
    (he : RemOp.replaces e.op = none) : Own item (e :: h) := by
  refine forall_mem_cons.2 ⟨fun place heq => ?_, hown⟩
  rw [he] at heq
  cases heq

def PlanItem.planned (item : PlanItem) : Bytes := item.wholeFileDigest.bytes

def PlanItem.updated (item : PlanItem) : Bytes :=
  replaceRange item.planned item.span item.replacement

def Stocked (key : PlanKey) (planDigest : Digest) (item : PlanItem)
    (locator : Option Bytes) (h : List RemExchange) : Prop :=
  ∃ reference now, ⟨.sink (.storeSnapshot item item.planned), .ok reference⟩ ∈ h
    ∧ ⟨.sink (.storeRecovery (recordOf key item planDigest item.planned
        reference locator now)), .ok ()⟩ ∈ h

def Journalled (item : PlanItem) (h : List RemExchange) : Prop :=
  ∃ locator now, ⟨.sink (.appendJournal
    ⟨item.path, .vaultStored locator, now⟩), .ok ()⟩ ∈ h

def Replaced (item : PlanItem) (h : List RemExchange) : Prop :=
  ∃ place perms, item.path = place.map .normal
    ∧ ⟨.fs (.replaceAtomic place item.updated perms), .ok ()⟩ ∈ h

/-- The call goes on from a journal that has the vault side of the
item. -/
def RewriteCall.ResumesAt (call : RewriteCall) (item : PlanItem) : Prop :=
  ∃ journal assurance locator, call = .resume journal assurance
    ∧ latestState journal item.path = some (.vaultStored locator)

/-- The replacement of a file rests on the vault side of an item. -/
structure Rests (call : RewriteCall) (item : PlanItem) (place : Place)
    (content : Bytes) (h : List RemExchange) : Prop where
  path : item.path = place.map .normal
  content : content = item.updated
  fits : item.span.start ≤ item.planned.length
  wasRead : ⟨.fs (.readLocked place), .ok item.planned⟩ ∈ h
  vault : Journalled item h ∨ call.ResumesAt item

section

variable (key : PlanKey) (plan : RewritePlan) (call : RewriteCall) {item : PlanItem}
  {h : List RemExchange} {apply : PlanItem → RemM FileApplyStatus} {d : Project} {crates : Crates}

def Lawful (h : List RemExchange) : RemOp → Prop
  | .sink (.appendJournal ⟨path, .vaultStored locator, _⟩) =>
    ∃ item ∈ plan.items, item.path = path ∧ Stocked key plan.planDigest item locator h
  | .sink (.appendJournal ⟨path, .fileReplaced, _⟩) =>
    ∃ item ∈ plan.items, item.path = path ∧ Replaced item h
  | .sink (.appendJournal _) => False
  | .fs (.replaceAtomic place content _) => ∃ item ∈ plan.items, Rests call item place content h
  | .fs (.removeFile _) => False
  | .fs (.createDirAll _) => False
  | _ => True

variable {key plan call}

variable {h h' : List RemExchange} {items : List PlanItem} {status : FileApplyStatus}

theorem Stocked.mono {planDigest : Digest} {locator : Option Bytes}
    (hs : Stocked key planDigest item locator h) (hsub : h ⊆ h') :
    Stocked key planDigest item locator h' := by
  obtain ⟨reference, now, hsnapshot, hrecord⟩ := hs
  exact ⟨reference, now, hsub hsnapshot, hsub hrecord⟩

theorem Journalled.mono (hj : Journalled item h) (hsub : h ⊆ h') : Journalled item h' := by
  obtain ⟨locator, now, hmem⟩ := hj
  exact ⟨locator, now, hsub hmem⟩

theorem Replaced.mono (hr : Replaced item h) (hsub : h ⊆ h') : Replaced item h' := by
  obtain ⟨place, perms, hpath, hmem⟩ := hr
  exact ⟨place, perms, hpath, hsub hmem⟩

theorem Lawful.mono {o : RemOp} (hlaw : Lawful key plan call h o)
    (hsub : h ⊆ h') : Lawful key plan call h' o := by
  unfold Lawful at hlaw ⊢
  split
  · obtain ⟨item, hmem, hpath, hstocked⟩ := hlaw
    exact ⟨item, hmem, hpath, hstocked.mono hsub⟩
  · obtain ⟨item, hmem, hpath, hreplaced⟩ := hlaw
    exact ⟨item, hmem, hpath, hreplaced.mono hsub⟩
  · simp_all
  · obtain ⟨item, hmem, hrests⟩ := hlaw
    exact ⟨item, hmem, hrests.path, hrests.content, hrests.fits,
      hsub hrests.wasRead, hrests.vault.imp (·.mono hsub) id⟩
  · exact hlaw
  · exact hlaw
  · trivial

theorem wp_orThrow {ε α β : Type}
    {f : ε → ApplyError} {x : Except ε α} {g : α → RemM β} {G : List RemExchange → RemOp → Prop}
    {Q : Except ApplyError β → List RemExchange → Prop} (hok : ∀ a, x = .ok a → wp G (g a) Q h)
    (herror : ∀ e, x = .error e → Q (.error (f e)) h) : wp G ((orThrow f x).bind g) Q h := by
  cases x with
  | ok a => exact hok a rfl
  | error e => exact herror e rfl

theorem approves_true {bytes : Bytes} (happroves : approves crates key item bytes = .ok true) :
    bytes = item.planned ∧ crates.validUtf8 bytes = true
    ∧ ∃ found, item.span.slice bytes = .ok found := by
  unfold approves at happroves
  split at happroves
  · cases happroves
  next hdigest =>
  refine ⟨congrArg Digest.bytes (not_not.1 hdigest), ?_⟩
  split at happroves
  · cases happroves
  next hutf8 =>
  refine ⟨by simpa using hutf8, ?_⟩
  split at happroves
  · cases happroves
  next hverified =>
  unfold verifyPlanItem at hverified
  rw [if_neg hdigest] at hverified
  split at hverified
  · exact absurd rfl hverified
  · next found hslice => exact ⟨found, hslice⟩

section

variable {G : List RemExchange → RemOp → Prop} (hG : ∀ h place, G h (.fs (.symlinkMetadata place)))
include hG

variable {Q : Except ApplyError Place → List RemExchange → Prop} {h : List RemExchange}

theorem Walks.wp {walk : Place → Path → RemM Place} (hwalks : Walks walk) (path : Path)
    {probe : Place} (hok : ∀ new place, Probing new →
      probe.map .normal ++ path = place.map .normal →
      Q (.ok place) (new ++ h)) (herror : ∀ new e, Probing new → Q (.error e) (new ++ h)) :
    wp G (walk probe path) Q h := by
  induction path generalizing probe h with
  | nil =>
    rw [hwalks.nil]
    exact hok [] probe probing_nil (append_nil _)
  | cons c rest ih =>
    rcases hwalks.other probe c rest with ⟨segment, rfl⟩ | ⟨e, hthrow⟩
    · obtain ⟨k, heq, hk, -⟩ := hwalks.normal probe segment rest
      rw [heq]
      refine ⟨hG h _, fun kind => ?_⟩
      have hone : Probing [⟨.fs (.symlinkMetadata (probe ++ [segment])), kind⟩] := probing_nil.cons
      change wp G (k kind) Q _
      rcases hk kind with hwalk | ⟨e, hthrow⟩
      · rw [hwalk]
        refine ih (fun new place hnew heq => ?_) fun new e hnew => ?_
        · have hq := hok _ place (hnew.append hone) (by simpa using heq)
          rwa [append_assoc] at hq
        · have hq := herror _ e (hnew.append hone)
          rwa [append_assoc] at hq
      · rw [hthrow]
        exact herror _ _ hone
    · rw [hthrow]
      exact herror [] _ probing_nil

theorem wp_resolveTarget {path : Path} (hok : ∀ new place, Probing new → path = place.map .normal →
      Q (.ok place) (new ++ h)) (herror : ∀ new e, Probing new → Q (.error e) (new ++ h)) :
    wp G (resolveTarget path) Q h := by
  refine wp_bind.2 (walks_resolveFrom.wp hG path (fun new place hnew heq => ?_) herror)
  refine ⟨hG _ _, fun kind => wp_orThrow (fun kind' _ => ?_)
    fun e _ => herror (_ :: new) _ hnew.cons⟩
  split
  · exact herror (_ :: new) _ hnew.cons
  · exact hok (_ :: new) place hnew.cons heq

end

-- ==== an item

/-- What the outcome of an item says of its history. -/
structure ItemReport (item : PlanItem) (r : Except ApplyError
    FileApplyStatus) (h : List RemExchange) : Prop where
  own : Own item h
  stale : r = .ok .stale → Quiet h
  applied : ∀ locator, r = .ok (.applied locator) → Replaced item h
  ran : r ≠ .ok .alreadyReplaced

theorem ItemReport.of_quiet {r : Except ApplyError FileApplyStatus}
    (hquiet : Quiet h) (happlied : ∀ locator, r ≠ .ok (.applied locator))
    (hran : r ≠ .ok .alreadyReplaced) : ItemReport item r h :=
  ⟨hquiet.own item, fun _ => hquiet, fun locator heq => absurd heq (happlied locator), hran⟩

section

variable {crates : Crates} {item : PlanItem} (hitem : item ∈ plan.items)
include hitem

variable {h : List RemExchange} {perms : PermissionSnapshot}
  {point : ResumePoint} {mode : ApplyMode} {target : Place}

theorem wp_vaultSteps (hquiet : Quiet h) : wp (Lawful key plan call)
      (vaultSteps crates key item plan.planDigest item.planned)
      (fun r h' => Quiet h' ∧ ∀ locator, r = .ok locator → Journalled item h') h := by
  have hfail : ∀ {h' : List RemExchange} {e : ApplyError}, Quiet h' →
      Quiet h' ∧ ∀ locator, (.error e : Except ApplyError (Option Bytes))
        = .ok locator → Journalled item h' :=
    fun hq => ⟨hq, nofun⟩
  refine ⟨trivial, fun stored => wp_orThrow (fun snapshotRef hstored => ?_)
    fun e _ => hfail (hquiet.cons rfl)⟩
  refine ⟨trivial, fun committed => wp_orThrow (fun locator _ => ?_)
    fun e _ => hfail ((hquiet.cons rfl).cons rfl)⟩
  split
  · exact hfail ((hquiet.cons rfl).cons rfl)
  refine ⟨trivial, fun now => ⟨trivial, fun recorded => wp_orThrow
    (fun _ hrecorded => ?_) fun e _ => hfail ((((hquiet.cons rfl).cons rfl).cons rfl).cons rfl)⟩⟩
  subst hstored hrecorded
  refine ⟨trivial, fun now' => ⟨⟨item, hitem, rfl, snapshotRef, now,
    by simp, by simp⟩, fun journalled => wp_orThrow
      (fun _ hjournalled => ?_) fun e _ => hfail ?_⟩⟩
  · subst hjournalled
    refine ⟨?_, fun _ heq => ?_⟩
    · exact (((((hquiet.cons rfl).cons rfl).cons rfl).cons rfl).cons
        rfl).cons rfl
    · cases heq
      exact ⟨locator, now', mem_cons_self⟩
  · exact (((((hquiet.cons rfl).cons rfl).cons rfl).cons rfl).cons
      rfl).cons rfl

theorem wp_replaceStep
    {locator : Option Bytes} (hquiet : Quiet h) (htarget : item.path = target.map .normal)
    (hvault : Journalled item h ∨ call.ResumesAt item) : wp (Lawful key plan call)
      (replaceStep crates key item plan.planDigest target perms locator) (ItemReport item) h := by
  refine ⟨trivial, fun current => wp_orThrow (fun bytes hread => ?_)
    fun e _ => .of_quiet (hquiet.cons rfl) (by simp) (by simp)⟩
  subst hread
  refine wp_orThrow (fun approved happroved => ?_)
    fun e _ => .of_quiet (hquiet.cons rfl) (by simp) (by simp)
  split
  · next htrue =>
    subst htrue
    obtain ⟨rfl, -, found, hslice⟩ := approves_true happroved
    have hbounds := ByteSpan.slice_ok hslice
    refine ⟨⟨item, hitem, htarget, rfl, by omega, mem_cons_self,
      hvault.imp (·.mono (subset_cons_self _ _)) id⟩,
      fun replaced => ?_⟩
    -- from here on the replacement is the only one
    have hown : Own item (⟨.fs (.replaceAtomic target item.updated perms),
        replaced⟩ :: ⟨.fs (.readLocked target), .ok item.planned⟩ :: h) := by
      refine forall_mem_cons.2 ⟨fun place heq => ?_, (hquiet.cons rfl).own item⟩
      cases heq
      exact htarget
    refine wp_orThrow (fun _ hreplaced => ?_) fun e _ => ?_
    · subst hreplaced
      have hdone : Replaced item (⟨.fs (.replaceAtomic target item.updated perms), .ok ()⟩ :: ⟨.fs
          (.readLocked target), .ok item.planned⟩ :: h) := ⟨target, perms, htarget, mem_cons_self⟩
      refine ⟨trivial, fun now => ⟨⟨item, hitem, rfl,
        hdone.mono (subset_cons_self _ _)⟩, fun journalled => ?_⟩⟩
      cases journalled with
      | error e => exact ⟨(hown.cons rfl).cons rfl, by simp, by simp, by simp⟩
      | ok _ =>
        refine ⟨trivial, fun audited => ?_⟩
        have hown' := ((hown.cons (e := ⟨.now, now⟩) rfl).cons (e :=
          ⟨.sink (.appendJournal ⟨item.path, .fileReplaced, now⟩),
            .ok ()⟩) rfl).cons (e := ⟨.sink (.audit .planExecute
          plan.planDigest), audited⟩) rfl
        cases audited with
        | error e => exact ⟨hown', by simp, by simp, by simp⟩
        | ok _ =>
          refine ⟨hown', by simp, fun _ _ => hdone.mono ?_, by simp⟩
          intro e hmem
          simp only [mem_cons] at hmem ⊢
          tauto
    · exact ⟨hown, by simp, by simp, by simp⟩
  · exact .of_quiet (hquiet.cons rfl) (by simp) (by simp)

theorem wp_applyChecked (hpoint : ∀ locator, point = .vaultStored locator →
      call.ResumesAt item) (check : IdentityCheck) (hquiet : Quiet h)
    (htarget : item.path = target.map .normal) :
    wp (Lawful key plan call) (applyChecked crates key item
      plan.planDigest mode point target perms check) (ItemReport item) h := by
  cases check with
  | differs | unavailable => exact .of_quiet hquiet (by simp) (by simp)
  | passes =>
    refine ⟨trivial, fun bytes => wp_orThrow (fun bytes' _ => ?_)
      fun e _ => .of_quiet (hquiet.cons rfl) (by simp) (by simp)⟩
    refine wp_orThrow (fun approved happroved => ?_)
      fun e _ => .of_quiet (hquiet.cons rfl) (by simp) (by simp)
    cases approved with
    | false => exact .of_quiet (hquiet.cons rfl) (by simp) (by simp)
    | true =>
      obtain ⟨rfl, -⟩ := approves_true happroved
      cases mode with
      | dryRun => exact .of_quiet (hquiet.cons rfl) (by simp) (by simp)
      | commit =>
        cases point with
        | fresh =>
          refine wp_bind.2 (wp_mono (wp_vaultSteps hitem (hquiet.cons rfl)) ?_)
          rintro (e | locator) h' ⟨hquiet', hjournalled⟩
          · exact .of_quiet hquiet' (by simp) (by simp)
          · exact wp_replaceStep hitem hquiet' htarget (.inl (hjournalled locator rfl))
        | vaultStored locator =>
          exact wp_replaceStep hitem (hquiet.cons rfl) htarget (.inr (hpoint _ rfl))

theorem wp_applyItem {assurance : IdentityAssurance} (hpoint : ∀ locator,
      point = .vaultStored locator → call.ResumesAt item) :
    wp (Lawful key plan call) (applyItem crates key assurance item
      plan.planDigest mode point) (ItemReport item) [] := by
  refine wp_bind.2 (wp_resolveTarget (fun _ _ => trivial)
    (fun new target hprobing htarget => ?_) fun new e hprobing => ?_)
  · have hnew := hprobing.quiet
    rw [append_nil]
    refine ⟨trivial, fun perms => wp_orThrow (fun perms' _ => ?_)
      fun e _ => .of_quiet (hnew.cons rfl) (by simp) (by simp)⟩
    exact ⟨trivial, fun identity => wp_applyChecked hitem hpoint _
      ((hnew.cons rfl).cons rfl) htarget⟩
  · rw [append_nil]
    exact .of_quiet hprobing.quiet (by simp) (by simp)

end

-- ==== a plan

def RewriteCall.Finds (call : RewriteCall) (item : PlanItem) : Prop :=
  ∃ journal assurance, call = .resume journal assurance
    ∧ latestState journal item.path = some .fileReplaced

def Spared (item : PlanItem) (h : List RemExchange) : Prop :=
  ∀ e ∈ h, ∀ place, RemOp.replaces e.op = some place → item.path ≠ place.map .normal

/-- What the status of an item says of the history of its call. -/
structure Told (call : RewriteCall) (item : PlanItem)
    (status : FileApplyStatus) (h : List RemExchange) : Prop where
  already : status = .alreadyReplaced → call.Finds item
  applied : ∀ locator, status = .applied locator → Replaced item h
  stale : status = .stale → Spared item h ∧ ¬ call.Finds item

def Apart (items : List PlanItem) : Prop :=
  items.Pairwise fun a b => a.path ≠ b.path

instance : DecidablePred Apart := fun items =>
  inferInstanceAs (Decidable (items.Pairwise fun a b => a.path ≠ b.path))

theorem Apart.unique (hapart : Apart items) {a b : PlanItem}
    (ha : a ∈ items) (hb : b ∈ items) (hpath : a.path = b.path) : a = b :=
  inj_on_of_nodup_map (pairwise_map.2 hapart) ha hb hpath

def ItemTold (call : RewriteCall) (item : PlanItem)
    (r : Except ApplyError FileApplyStatus) (h : List RemExchange) : Prop :=
  ∃ status, r = .ok status ∧ Own item h ∧ Told call item status h

theorem wp_orFailed {p : RemM FileApplyStatus} (hfinds : ¬ call.Finds item)
    (hp : wp (Lawful key plan call) p (ItemReport item) []) :
    wp (Lawful key plan call) (orFailed p) (ItemTold call item) [] := by
  refine wp_bind.2 (wp_attempt.2 (wp_mono hp ?_))
  rintro (e | status) h hreport
  · exact ⟨_, rfl, hreport.own, ⟨by simp, by simp, by simp⟩⟩
  refine ⟨status, rfl, hreport.own, ?_, ?_, ?_⟩
  · rintro rfl
    exact absurd rfl hreport.ran
  · rintro locator rfl
    exact hreport.applied locator rfl
  · rintro rfl
    refine ⟨fun e hmem place he => ?_, hfinds⟩
    rw [hreport.stale rfl e hmem] at he
    cases he

def Among (items : List PlanItem) (h : List RemExchange) : Prop :=
  ∀ e ∈ h, ∀ place, RemOp.replaces e.op = some place → ∃ item ∈ items, item.path = place.map .normal

def ItemsTold (call : RewriteCall) (items : List PlanItem)
    (r : Except ApplyError (List FileApplyResult)) (h : List RemExchange) : Prop :=
  ∃ results, r = .ok results ∧ Among items h ∧ (Apart items → List.Forall₂
      (fun item result => Told call item result.status h) items results)

theorem Told.append_own
    {new : List RemExchange} (htold : Told call item status h) (hnew : Among items new)
    (hother : ∀ other ∈ items, item.path ≠ other.path) : Told call item status (new ++ h) := by
  refine ⟨htold.already, fun locator heq => (htold.applied locator
    heq).mono (subset_append_right _ _), fun heq => ?_⟩
  refine ⟨forall_mem_append.2 ⟨fun e hmem place he => ?_, (htold.stale heq).1⟩, (htold.stale heq).2⟩
  obtain ⟨other, hitem, hpath⟩ := hnew e hmem place he
  rw [← hpath]
  exact hother other hitem

theorem Told.append_other
    {other : PlanItem} {new : List RemExchange} (htold : Told call other status new)
    (hown : Own item h) (hother : item.path ≠ other.path) : Told call other status (new ++ h) := by
  refine ⟨htold.already, fun locator heq => (htold.applied locator
    heq).mono (subset_append_left _ _), fun heq => ?_⟩
  refine ⟨forall_mem_append.2 ⟨(htold.stale heq).1, fun e hmem place he => ?_⟩, (htold.stale heq).2⟩
  rw [← hown e hmem place he]
  exact hother.symm

theorem Told.append_quiet {new : List RemExchange}
    (htold : Told call item status new) (hquiet : Quiet h) : Told call item status (new ++ h) := by
  refine ⟨htold.already, fun locator heq => (htold.applied locator
    heq).mono (subset_append_left _ _), fun heq => ?_⟩
  refine ⟨forall_mem_append.2 ⟨(htold.stale heq).1, fun e hmem place he => ?_⟩, (htold.stale heq).2⟩
  rw [hquiet e hmem] at he
  cases he

theorem wp_eachItem (happly : ∀ item ∈ items,
      wp (Lawful key plan call) (apply item) (ItemTold call item) []) :
    wp (Lawful key plan call) (eachItem apply items) (ItemsTold call items) [] := by
  induction items with
  | nil => exact ⟨[], rfl, fun _ hmem => absurd hmem not_mem_nil, fun _ => .nil⟩
  | cons item rest ih =>
    have ih := ih fun other hmem => happly other (mem_cons_of_mem _ hmem)
    refine wp_bind.2 (wp_mono (happly item mem_cons_self) ?_)
    rintro _ h ⟨status, rfl, hown, htold⟩
    -- the rest says what it says after the history of this item
    refine wp_after (h := []) (wp_bind.2 (wp_mono (wp_weaken ih ?_) ?_))
    · intro new o hlaw
      exact hlaw.mono (subset_append_left _ _)
    rintro _ new ⟨results, rfl, hamong, htolds⟩
    refine ⟨_, rfl, forall_mem_append.2 ⟨?_, ?_⟩, fun hapart => ?_⟩
    · intro e hmem place he
      obtain ⟨other, hother, hpath⟩ := hamong e hmem place he
      exact ⟨other, mem_cons_of_mem _ hother, hpath⟩
    · intro e hmem place he
      exact ⟨item, mem_cons_self, hown e hmem place he⟩
    obtain ⟨hfirst, hrest⟩ := pairwise_cons.1 hapart
    refine .cons (htold.append_own hamong hfirst) ?_
    have htolds := forall₂_iff_zip.1 (htolds hrest)
    refine forall₂_iff_zip.2 ⟨htolds.1, fun hzip => ?_⟩
    exact (htolds.2 hzip).append_other hown (hfirst _ (of_mem_zip hzip).1)

def Reports (plan : RewritePlan) (call : RewriteCall)
    (r : Except ApplyError ApplyOutcome) (h : List RemExchange) : Prop :=
  ∀ outcome, r = .ok outcome → Apart plan.items →
    List.Forall₂ (fun item result => Told call item result.status h) plan.items outcome.results

theorem wp_onRoot {mode : ApplyMode} (happly : ∀ item ∈ plan.items,
      wp (Lawful key plan call) (apply item) (ItemTold call item) []) :
    wp (Lawful key plan call) (usableRoot.bind fun _ =>
      (eachItem apply plan.items).bind fun results =>
        .ret (.ok ⟨mode, results⟩)) (Reports plan call) [] := by
  refine ⟨trivial, fun canonical => ?_⟩
  cases canonical with
  | error e =>
    intro outcome heq
    cases heq
  | ok _ =>
    refine ⟨trivial, fun isDir => ?_⟩
    cases isDir with
    | false =>
      intro outcome heq
      cases heq
    | true =>
      refine wp_after (wp_bind.2 (wp_mono (wp_weaken (wp_eachItem happly) ?_) ?_))
      · intro new o hlaw
        exact hlaw.mono (subset_append_left _ _)
      · rintro _ new ⟨results, rfl, -, htolds⟩ outcome heq hapart
        cases heq
        exact (htolds hapart).imp fun item result htold =>
          htold.append_quiet ((quiet_nil.cons rfl).cons rfl)

theorem wp_begins {d' : Project} {p : RemM ApplyOutcome}
    (hbegins : (rewriting crates key plan).begins d call p d') :
    wp (Lawful key plan call) p (Reports plan call) [] := by
  obtain ⟨-, hbegins⟩ := hbegins
  cases call with
  | execute mode assurance =>
    subst hbegins
    refine wp_onRoot fun item hitem => wp_orFailed ?_ (wp_applyItem hitem nofun)
    rintro ⟨journal, assurance', heq, -⟩
    cases heq
  | resume journal assurance =>
    obtain ⟨-, rfl⟩ := hbegins
    unfold resume
    split
    · intro outcome heq
      cases heq
    refine wp_onRoot fun item hitem => ?_
    have hfinds : latestState journal item.path ≠ some .fileReplaced →
        ¬ (RewriteCall.resume journal assurance).Finds item := by
      rintro hne ⟨journal', assurance', heq, hfound⟩
      cases heq
      exact hne hfound
    unfold resumeItem
    split
    · next hlatest =>
      refine ⟨_, rfl, quiet_nil.own item, ?_, by simp, by simp⟩
      exact fun _ => ⟨journal, assurance, rfl, hlatest⟩
    · exact ⟨_, rfl, quiet_nil.own item, by simp, by simp, by simp⟩
    · next locator hlatest =>
      refine wp_orFailed (hfinds (by simp [hlatest]))
        (wp_applyItem hitem fun locator' heq => ?_)
      exact ⟨journal, assurance, locator, rfl, hlatest⟩
    · next hreplaced _ _ =>
      exact wp_orFailed (hfinds hreplaced) (wp_applyItem hitem nofun)

-- ==== the runs

abbrev RewriteConfig :=
  Config remInterface ApplyError ApplyOutcome Project RewriteCall

abbrev RewriteEntry :=
  Entry remInterface ApplyError ApplyOutcome Project RewriteCall Empty

abbrev RewriteThread :=
  Thread remInterface ApplyError ApplyOutcome RewriteCall

theorem Lawful.tree {call : RewriteCall} {d' : Project} {o : RemOp}
    {a : o.Ans} (hlaw : Lawful key plan call h o) (hans : o.Answers d d' a) : d'.tree = d.tree
    ∨ ∃ place content perms identity, o = .fs (.replaceAtomic place content perms)
      ∧ d'.tree = Function.update d.tree place (some (.file ⟨content, identity, perms⟩)) := by
  rcases RemOp.Answers.tree_cases hans with heq | hreplaced
      | ⟨place, rfl, -⟩ | ⟨place, rfl, -⟩
  · exact .inl heq
  · exact .inr hreplaced
  · exact absurd hlaw id
  · exact absurd hlaw id

theorem mem_of_latestState {journal : RewriteJournal}
    {path : Path} {state : JournalState} (hlatest : latestState journal path = some state) :
    ∃ now, ⟨path, state, now⟩ ∈ journal.entries := by
  obtain ⟨⟨path', state', now⟩, hfind, hstate⟩ := Option.map_eq_some_iff.1 hlatest
  have hpath := find?_some hfind
  have hmem := mem_of_find?_eq_some hfind
  simp only [decide_eq_true_eq] at hpath
  subst hpath hstate
  exact ⟨now, mem_reverse.1 hmem⟩

/-- What is known of every call on its way: it asks lawfully, the vault
holds what it was told, and the journal it goes on from. -/
structure Grounded (key : PlanKey) (plan : RewritePlan) (c : RewriteConfig) : Prop where
  lawful : ∀ tid t, c.threads tid = some t →
    wp (Lawful key plan t.call) t.origin (Reports plan t.call) []
  said : ∀ tid t, c.threads tid = some t → ∀ e ∈ t.said, Holds c.shared.vault e
  resumed : ∀ tid t, c.threads tid = some t → ∀ journal assurance,
    t.call = .resume journal assurance → journal.entries ⊆ c.shared.vault.journal

variable {crates : Crates} {x : RewriteEntry}

theorem Grounded.shared_cases (hg : Grounded key plan x.before)
    (hs : (rewriting crates key plan).Step x) : x.after.shared = x.before.shared
    ∨ ∃ tid t t' e, x.event = .exchange tid e ∧ x.before.threads tid = some t ∧ t.Hears e t'
      ∧ Lawful key plan t.call t.said e.op
      ∧ RemOp.Answers x.before.shared x.after.shared e.op e.ans := by
  cases hs with
  | call hfree hbegins => exact .inl hbegins.1
  | exchange ht hhears hans =>
    exact .inr ⟨_, _, _, _, rfl, ht, hhears, hhears.guard (hg.lawful _ _ ht), hans⟩
  | finish ht hr hends => exact .inl hends
  | move hmoves => exact absurd hmoves id

theorem Grounded.grows (hg : Grounded key plan x.before) (hs : (rewriting crates key plan).Step x) :
    x.before.shared.vault.Grows x.after.shared.vault := by
  rcases hg.shared_cases hs with heq | ⟨tid, t, t', e, -, -, -, -, hans⟩
  · rw [heq]
    exact .refl _
  · exact (RemOp.Answers.grows hans).1

theorem Grounded.step (hg : Grounded key plan x.before)
    (hs : (rewriting crates key plan).Step x) : Grounded key plan x.after := by
  have hgrows := hg.grows hs
  refine ⟨fun tid t ht => ?_, fun tid t ht => ?_, fun tid t ht journal assurance hcall => ?_⟩
  · rcases hs.thread_cases ht with ⟨hold, -⟩ | ⟨call, p, -, rfl, hbegins⟩
        | ⟨e, t₀, -, ht₀, hhears, -⟩
    · exact hg.lawful tid t hold
    · exact wp_begins hbegins
    · rw [hhears.call, hhears.origin]
      exact hg.lawful tid t₀ ht₀
  · rcases hs.thread_cases ht with ⟨hold, -⟩ | ⟨call, p, -, rfl, -⟩
        | ⟨e, t₀, -, ht₀, hhears, hans⟩
    · exact fun e' hmem => (hg.said tid t hold e' hmem).mono hgrows
    · exact fun _ hmem => absurd hmem not_mem_nil
    · rw [hhears.said]
      refine forall_mem_cons.2 ⟨(RemOp.Answers.grows hans).2, ?_⟩
      exact fun e' hmem => (hg.said tid t₀ ht₀ e' hmem).mono hgrows
  · rcases hs.thread_cases ht with ⟨hold, -⟩ | ⟨call, p, -, rfl, hbegins⟩
        | ⟨e, t₀, -, ht₀, hhears, -⟩
    · exact List.Subset.trans (hg.resumed tid t hold journal assurance hcall) hgrows.journal.subset
    · obtain rfl : call = .resume journal assurance := hcall
      rw [hbegins.2.1]
      exact hgrows.journal.subset
    · rw [hhears.call] at hcall
      exact List.Subset.trans (hg.resumed tid t₀ ht₀ journal assurance hcall) hgrows.journal.subset

structure Untouched (d : Project) (c : RewriteConfig) : Prop where
  shared : c.shared = d
  idle : ∀ tid, c.threads tid = none
  journal : d.vault.journal = []

variable {c : RewriteConfig}

theorem Untouched.not_thread
    (huntouched : Untouched d c) {tid : Nat} {t : RewriteThread} : c.threads tid ≠ some t := by
  rw [huntouched.idle]
  exact Option.some_ne_none t |>.symm

theorem Untouched.grounded (huntouched : Untouched d c) : Grounded key plan c :=
  ⟨fun _ _ ht => absurd ht huntouched.not_thread,
    fun _ _ ht => absurd ht huntouched.not_thread, fun _ _ ht => absurd ht huntouched.not_thread⟩

end

end SovereignVault.Remediate
