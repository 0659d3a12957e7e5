/-
Vault before file.

A file changed by an item of a plan has the item's snapshot, recovery
record and journal entry in the vault already, at every point of every
run of calls on the plan, as long as the items of the plan lie in files of
their own (`vault_first`).

The invariant is `Kept`. Every content of a file that was ever read or
written is the original one, or the original one with one item applied
whose vault side is complete (`Version`). A resumed call trusts a journal
entry, which names a path only; so the items must not share one.
-/
import SovereignVault.Remediate.Lawful
import SovereignVault.Remediate.Work

namespace SovereignVault.Remediate

open Dialogue Talk

section

variable {crates : Crates} {key : PlanKey} {plan : RewritePlan} {d : Project}

structure Secured (key : PlanKey) (planDigest : Digest) (v : Vault) (item : PlanItem) : Prop where
  stored : ∃ reference locator now, ⟨reference, item.path, item.planned⟩ ∈ v.snapshots
    ∧ recordOf key item planDigest item.planned reference locator now ∈ v.records
  journalled : ∃ locator now, ⟨item.path, .vaultStored locator, now⟩ ∈ v.journal

theorem Secured.mono {planDigest : Digest} {v v' : Vault} {item : PlanItem}
    (h : Secured key planDigest v item) (hgrows : v.Grows v') : Secured key planDigest v' item := by
  obtain ⟨⟨reference, locator, now, hsnapshot, hrecord⟩, locator', now', hentry⟩ := h
  exact ⟨⟨reference, locator, now, hgrows.snapshots hsnapshot,
    hgrows.records hrecord⟩, locator', now', hgrows.journal.subset hentry⟩

-- ==== the invariant

/-- A content a file of the project may have had: the original one, or
with an item applied whose vault side is complete. -/
def Version (key : PlanKey) (plan : RewritePlan) (place : Place)
    (original : Bytes) (v : Vault) (bytes : Bytes) : Prop :=
  bytes = original
  ∨ ∃ item ∈ plan.items, item.path = place.map .normal
    ∧ original = item.planned ∧ bytes = item.updated
    ∧ Secured key plan.planDigest v item

theorem Version.mono {place : Place} {original bytes : Bytes}
    {v v' : Vault} (h : Version key plan place original v bytes)
    (hgrows : v.Grows v') : Version key plan place original v' bytes := by
  refine h.imp_right ?_
  rintro ⟨item, hitem, hpath, horiginal, hbytes, hsecured⟩
  exact ⟨item, hitem, hpath, horiginal, hbytes, hsecured.mono hgrows⟩

/-- What every point of a run keeps of a file that had `original` for its
content. -/
structure Kept (key : PlanKey) (plan : RewritePlan) (place : Place)
    (original : Bytes) (c : RewriteConfig) : Prop where
  grounded : Grounded key plan c
  wasRead : ∀ tid t, c.threads tid = some t → ∀ bytes,
    ⟨.fs (.readLocked place), .ok bytes⟩ ∈ t.said →
    Version key plan place original c.shared.vault bytes
  journal : ∀ path locator now, ⟨path, .vaultStored locator, now⟩ ∈ c.shared.vault.journal →
    ∀ item ∈ plan.items, item.path = path → Secured key plan.planDigest c.shared.vault item
  content : ∀ f, c.shared.tree place = some (.file f) →
    Version key plan place original c.shared.vault f.bytes

variable {place : Place} {original : Bytes} {c : RewriteConfig}
  {tid : Nat} {t : RewriteThread} {item : PlanItem}

theorem Kept.secured (hk : Kept key plan place original c) (ht : c.threads tid = some t)
    (hitem : item ∈ plan.items) (hvault : Journalled item t.said ∨ t.call.ResumesAt item) :
    Secured key plan.planDigest c.shared.vault item := by
  rcases hvault with ⟨locator, now, hmem⟩
      | ⟨journal, assurance, locator, hcall, hlatest⟩
  · exact hk.journal _ _ _ (hk.grounded.said tid t ht _ hmem) item hitem
      rfl
  · obtain ⟨now, hmem⟩ := mem_of_latestState hlatest
    exact hk.journal _ _ _ (hk.grounded.resumed tid t ht journal assurance
      hcall hmem) item hitem rfl

theorem Kept.version (hk : Kept key plan place original c)
    (hapart : Apart plan.items) (ht : c.threads tid = some t) {content : Bytes}
    (hitem : item ∈ plan.items) (hrests : Rests t.call item place content t.said) :
    Version key plan place original c.shared.vault content := by
  refine .inr ⟨item, hitem, hrests.path, ?_, hrests.content, hk.secured ht hitem hrests.vault⟩
  rcases hk.wasRead tid t ht _ hrests.wasRead with heq
      | ⟨item', hitem', hpath', horiginal, -⟩
  · exact heq.symm
  · cases hapart.unique hitem hitem' (hrests.path.trans hpath'.symm)
    exact horiginal

theorem Kept.step
    (hapart : Apart plan.items) {x : RewriteEntry} (hs : (rewriting crates key plan).Step x)
    (hk : Kept key plan place original x.before) : Kept key plan place original x.after := by
  have hgrows := hk.grounded.grows hs
  refine ⟨hk.grounded.step hs, fun tid t ht bytes hmem => ?_,
    fun path locator now hmem item hitem hpath => ?_, fun f hf => ?_⟩
  · rcases hs.thread_cases ht with ⟨hold, -⟩ | ⟨call, p, -, rfl, -⟩
        | ⟨e, t₀, -, ht₀, hhears, hans⟩
    · exact (hk.wasRead tid t hold bytes hmem).mono hgrows
    · exact absurd hmem List.not_mem_nil
    rw [hhears.said] at hmem
    rcases List.mem_cons.1 hmem with rfl | hmem
    · obtain ⟨f, hf, rfl⟩ := FsOp.Answers.readLocked hans rfl
      exact (hk.content f hf).mono hgrows
    · exact (hk.wasRead tid t₀ ht₀ bytes hmem).mono hgrows
  · have hold : ⟨path, .vaultStored locator, now⟩ ∈ x.before.shared.vault.journal →
        Secured key plan.planDigest x.after.shared.vault item :=
      fun hmem => (hk.journal path locator now hmem item hitem hpath).mono hgrows
    rcases hk.grounded.shared_cases hs with heq
        | ⟨tid, t, t', e, -, ht, -, hlaw, hans⟩
    · exact hold (heq ▸ hmem)
    rcases RemOp.Answers.journal hans with heq | ⟨entry, hop, heq⟩
    · exact hold (heq ▸ hmem)
    have hmem' := hmem
    rw [heq] at hmem'
    rcases List.mem_append.1 hmem' with hmem' | hlast
    · exact hold hmem'
    -- the entry is new: its item is stocked by what was said
    cases List.mem_singleton.1 hlast
    rw [hop] at hlaw
    obtain ⟨item', hitem', hpath', reference, now', hsnapshot, hrecord⟩ := hlaw
    cases hapart.unique hitem hitem' (hpath.trans hpath'.symm)
    subst hpath
    have hsaid := hk.grounded.said tid t ht
    exact ⟨⟨reference, locator, now', (hsaid _ hsnapshot).mono
      hgrows, (hsaid _ hrecord).mono hgrows⟩, locator, now, hmem⟩
  · rcases hk.grounded.shared_cases hs with heq
        | ⟨tid, t, t', e, -, ht, -, hlaw, hans⟩
    · rw [heq] at hf ⊢
      exact hk.content f hf
    rcases Lawful.tree hlaw hans with heq
        | ⟨place', content, perms, identity, hop, heq⟩
    · rw [heq] at hf
      exact (hk.content f hf).mono hgrows
    rw [heq, Function.update_apply] at hf
    split_ifs at hf with hplace
    · subst hplace
      cases hf
      rw [hop] at hlaw
      obtain ⟨item, hitem, hrests⟩ := hlaw
      exact (hk.version hapart ht hitem hrests).mono hgrows
    · exact (hk.content f hf).mono hgrows

-- ==== the result

theorem Untouched.kept (huntouched : Untouched d c)
    {f : File} (hf : d.tree place = some (.file f)) : Kept key plan place f.bytes c := by
  refine ⟨huntouched.grounded, fun _ _ ht => absurd ht huntouched.not_thread, ?_, ?_⟩
  · intro path locator now hmem
    rw [huntouched.shared, huntouched.journal] at hmem
    cases hmem
  · intro f' hf'
    rw [huntouched.shared, hf] at hf'
    cases hf'
    exact .inl rfl

/-- The sink holds what undoes the item in a file that had the content. -/
structure InVault (plan : RewritePlan) (v : Vault) (item : PlanItem) (original : Bytes) : Prop where
  recorded : ∃ snapshot ∈ v.snapshots, ∃ record ∈ v.records,
    snapshot.bytes = original ∧ record.snapshotRef = snapshot.reference
    ∧ record.planDigest = plan.planDigest ∧ record.path = item.path
    ∧ record.span = some item.span
    ∧ record.replacement = some item.replacement
  journalled : ∃ entry ∈ v.journal, entry.path = item.path
    ∧ ∃ locator, entry.state = .vaultStored locator

/-- Every file that is not as it was before is the work of an item the
vault has everything of. -/
def VaultFirst (plan : RewritePlan) (before now : Project) : Prop :=
  ∀ place f₀ f, before.tree place = some (.file f₀) → now.tree
    place = some (.file f) → f.bytes ≠ f₀.bytes → ∃ item ∈ plan.items, item.path = place.map .normal
      ∧ f.bytes = replaceRange f₀.bytes item.span item.replacement
      ∧ InVault plan now.vault item f₀.bytes

theorem Kept.vaultFirst (key : PlanKey) (hk : ∀ place f, d.tree place = some (.file f) →
      Kept key plan place f.bytes c) : VaultFirst plan d c.shared := by
  intro place f₀ f hf₀ hf hne
  rcases (hk place f₀ hf₀).content f hf with heq
      | ⟨item, hitem, hpath, horiginal, hbytes, hsecured⟩
  · exact absurd heq hne
  obtain ⟨⟨reference, locator, now, hsnapshot, hrecord⟩, locator', now', hentry⟩ := hsecured
  refine ⟨item, hitem, hpath, ?_, ⟨⟨_, hsnapshot, _, hrecord, ?_⟩,
    ⟨_, hentry, rfl, locator', rfl⟩⟩⟩
  · rw [horiginal]
    exact hbytes
  · exact ⟨horiginal.symm, rfl, rfl, rfl, rfl, rfl⟩

/-- Vault before file, for plans whose items lie in files of their own. -/
theorem vault_first
    {d : Project} {c₀ : RewriteConfig} {h : List RewriteEntry} (hapart : Apart plan.items)
    (huntouched : Untouched d c₀) (hrun : (rewriting crates key plan).Run (fun _ => True) c₀ h c) :
    VaultFirst plan d c.shared := by
  refine Kept.vaultFirst key fun place f hf => ?_
  exact hrun.invariant (P := fun _ c => Kept key plan place f.bytes c)
    (huntouched.kept hf) fun _ _ hk _ hs => hk.step hapart hs

/-- Every place has what it had, or a file with the whole approved content
of an item at that path. Nothing is lost from the vault. -/
structure Confined (plan : RewritePlan) (before now : Project) : Prop where
  tree : ∀ place, now.tree place = before.tree place
    ∨ ∃ item ∈ plan.items, item.path = place.map .normal
      ∧ ∃ f, now.tree place = some (.file f) ∧ f.bytes = item.updated
  vault : before.vault.Grows now.vault

theorem Confined.step {x : RewriteEntry} (hc : Confined plan d x.before.shared)
    (hg : Grounded key plan x.before) (hs : (rewriting crates key plan).Step x) :
    Confined plan d x.after.shared := by
  refine ⟨fun place => ?_, hc.vault.trans (hg.grows hs)⟩
  rcases hg.shared_cases hs with heq | ⟨tid, t, t', e, -, -, -, hlaw, hans⟩
  · rw [heq]
    exact hc.tree place
  rcases Lawful.tree hlaw hans with heq | ⟨place', content, perms, identity, hop, heq⟩
  · rw [heq]
    exact hc.tree place
  rw [heq, Function.update_apply]
  split_ifs with hplace
  · subst hplace
    rw [hop] at hlaw
    obtain ⟨item, hitem, hrests⟩ := hlaw
    exact .inr ⟨item, hitem, hrests.path, _, rfl, hrests.content⟩
  · exact hc.tree place

/-- Rewriting touches the files of its plan only, and a file it touched is
never half written: for every plan, every order of calls, every refusal
and wherever a call stops. -/
theorem rewriting_confined {c₀ : RewriteConfig} {h : List RewriteEntry}
    (huntouched : Untouched d c₀) (hrun : (rewriting crates key plan).Run (fun _ => True) c₀ h c) :
    Confined plan d c.shared := by
  have hstart : Confined plan d c₀.shared := by
    rw [huntouched.shared]
    exact ⟨fun _ => .inl rfl, .refl _⟩
  refine (hrun.invariant (P := fun _ c => Grounded key plan c ∧ Confined plan d c.shared)
    ⟨huntouched.grounded, hstart⟩ fun _ _ hk _ hs => ?_).2
  exact ⟨hk.1.step hs, hk.2.step hk.1 hs⟩

end

namespace Sample

def start : RewriteConfig := ⟨project, fun _ => none⟩

theorem start_untouched : Untouched project start := ⟨rfl, fun _ => rfl, rfl⟩

def refusing : Work := .plain
  (fun item => if item.replacement = [35] then .error "busy" else .ok none)
  (.ok ())

def halfway : RewriteJournal :=
  ⟨both.planDigest, [⟨[.normal "a"], .vaultStored none, 0⟩]⟩

/-- The first item fails at its locator and the second one stops before
its file is replaced; a resumed call follows. -/
def crossedActs : List (Act RewriteCall Empty) :=
  upTo 0 (.execute .commit .enforced) 20 ++ upTo 1 (.resume halfway .enforced) 9

def crossed : List RewriteEntry × RewriteConfig :=
  (refusing.rewriter crates key both).play start crossedActs

def singleActs : List (Act RewriteCall Empty) :=
  upTo 0 (.execute .commit .enforced) 18

def singleRun : List RewriteEntry × RewriteConfig :=
  (working.rewriter crates key single).play start singleActs

end Sample

open Sample

theorem vault_first_single : VaultFirst single project singleRun.2.shared
    ∧ ∃ f, singleRun.2.shared.tree ["a"] = some (.file f)
      ∧ f.bytes = [107, 61, 35, 32, 66, 66, 66, 66] :=
  ⟨vault_first (by decide) start_untouched
    (working.rewriter _ _ _).play_run,
    ⟨⟨[107, 61, 35, 32, 66, 66, 66, 66], .unix 1 11, permissions⟩, by decide +kernel, rfl⟩⟩

/-- Two items in one file, the first call stopped in the second of them. -/
theorem rewriting_confined_crossed : Confined both project crossed.2.shared :=
  rewriting_confined start_untouched
    (refusing.rewriter _ _ _).play_run

/-- Two items in one file: a resumed call takes the journal entry of the
second for that of the first, and changes the file by an item the vault
has no record of. -/
theorem changed_without_record : (∀ x ∈ [(2, [35]), (7, [36])], PlanItem.build crates
      (draft "a" x.1 x.2) key = .ok (Sample.item "a" x.1 x.2))
    ∧ RewritePlan.build crates Sample.both.items key = .ok Sample.both
    ∧ ∃ h c, (rewriting crates key Sample.both).Run (fun _ => True) start h c
    ∧ (∃ f, c.shared.tree ["a"] = some (.file f)
      ∧ f.bytes = (Sample.item "a" 2 [35]).updated)
    ∧ (∀ record ∈ c.shared.vault.records, record.replacement = some [36])
    ∧ ¬ VaultFirst Sample.both project c.shared := by
  refine ⟨by decide +kernel, by decide +kernel, crossed.1,
    crossed.2, ?_, ?_⟩
  · exact (refusing.rewriter _ _ _).play_run
  have hfile : crossed.2.shared.tree ["a"] = some (.file
      ⟨(Sample.item "a" 2 [35]).updated, .unix 1 11,
        permissions⟩) := by decide +kernel
  have hrecords : ∀ record ∈ crossed.2.shared.vault.records,
      record.replacement = some [36] := by decide +kernel
  refine ⟨⟨_, hfile, rfl⟩, hrecords, fun hfirst => ?_⟩
  obtain ⟨item, hitem, -, hbytes, hvault⟩ := hfirst ["a"] _ _ rfl hfile
    (by decide)
  obtain ⟨-, -, record, hrecord, -, -, -, -, -, hreplacement⟩ := hvault.recorded
  rw [hrecords record hrecord] at hreplacement
  -- the only record is of the second item, and it is the first one's work
  have hsecond : item = Sample.item "a" 7 [36] := by
    simp only [Sample.both, Sample.planOf, List.mem_cons, List.not_mem_nil, or_false] at hitem
    rcases hitem with rfl | rfl
    · cases hreplacement
    · rfl
  subst hsecond
  revert hbytes
  decide

end SovereignVault.Remediate
