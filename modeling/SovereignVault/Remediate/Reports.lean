/-
What a resumed call reports of the files.

An item reported replaced has its replacement in the file, and one
reported stale has not, when calls come one after the other, the items lie
in files of their own, and every resumed call finds the entry of each file
that was replaced in its journal (`reports_truthful`). A stop between the
replacement and its entry breaks the last condition.
-/
import SovereignVault.Remediate.VaultFirst

namespace SovereignVault.Remediate

open Dialogue Talk List

-- ==== the files

/-- The replacement of an item stands at its span. -/
def PlanItem.StandsIn (item : PlanItem) (bytes : Bytes) : Prop :=
  (bytes.drop item.span.start).take item.replacement.length = item.replacement

def InFile (d : Project) (item : PlanItem) : Prop :=
  ∃ place f, item.path = place.map .normal ∧ d.tree place = some (.file f) ∧ item.StandsIn f.bytes

def Done (d : Project) (item : PlanItem) : Prop :=
  ∃ place f, item.path = place.map .normal ∧ d.tree place = some (.file f) ∧ f.bytes = item.updated
    ∧ item.span.start ≤ item.planned.length

theorem Done.inFile {d : Project} {item : PlanItem} (h : Done d item) : InFile d item := by
  obtain ⟨place, f, hpath, hf, hbytes, hfits⟩ := h
  refine ⟨place, f, hpath, hf, ?_⟩
  have hstart : (item.planned.take item.span.start).length
      = item.span.start := length_take_of_le hfits
  unfold PlanItem.StandsIn
  rw [hbytes, PlanItem.updated, replaceRange, append_assoc,
    drop_append_of_le_length hstart.ge, drop_eq_nil_of_le hstart.le, nil_append, take_left]

-- ==== one at a time

/-- Calls come one after the other: once another call was made, a call
does nothing more. -/
def Sequential (h : List RewriteEntry) : Prop :=
  h.Pairwise fun later earlier => ∀ tid tid' call,
    later.event.By tid → earlier.event = .call tid' call → tid' ≤ tid

def Latest (h : List RewriteEntry) (tid : Nat) : Prop :=
  ∀ x ∈ h, ∀ tid' call, x.event = .call tid' call → tid' ≤ tid

/-- A resumed call finds in its journal that the files which have their
replacement were replaced. -/
def Noted (plan : RewritePlan) (x : RewriteEntry) : Prop :=
  ∀ tid journal assurance, x.event = .call tid (.resume journal assurance) → ∀ item ∈ plan.items,
    InFile x.before.shared item → latestState journal item.path = some .fileReplaced

def StatusTrue (d : Project) (item : PlanItem) (status : FileApplyStatus) : Prop :=
  ((status = .alreadyReplaced ∨ ∃ locator, status = .applied locator) → InFile d item)
  ∧ (status = .stale → ¬ InFile d item)

/-- A resumed call that has returned reported truthfully. -/
def Truthful (plan : RewritePlan) (h : List RewriteEntry) (c : RewriteConfig) : Prop :=
  ∀ tid t journal assurance outcome, c.threads tid = some t →
    Latest h tid → t.call = .resume journal assurance → t.talk = .ret (.ok outcome) → List.Forall₂
      (fun item result => StatusTrue c.shared item result.status)
      plan.items outcome.results

section

variable {crates : Crates} {key : PlanKey} {plan : RewritePlan}
  {x : RewriteEntry} {h : List RewriteEntry} {c : RewriteConfig}
  {item : PlanItem} {said : List RemExchange} {call : RewriteCall}

theorem Done.step (hapart : Apart plan.items)
    (hg : Grounded key plan x.before) (hs : (rewriting crates key plan).Step x)
    (hitem : item ∈ plan.items) (hdone : Done x.before.shared item) : Done x.after.shared item := by
  obtain ⟨place, f, hpath, hf, hbytes, hfits⟩ := hdone
  rcases hg.shared_cases hs with heq
      | ⟨tid, t, t', e, -, ht, -, hlaw, hans⟩
  · rw [heq]
    exact ⟨place, f, hpath, hf, hbytes, hfits⟩
  rcases Lawful.tree hlaw hans with heq
      | ⟨place', content, perms, identity, hop, heq⟩
  · exact ⟨place, f, hpath, by rw [heq, hf], hbytes, hfits⟩
  by_cases hplace : place = place'
  · subst hplace
    rw [hop] at hlaw
    obtain ⟨item', hitem', hrests⟩ := hlaw
    cases hapart.unique hitem hitem' (hpath.trans hrests.path.symm)
    exact ⟨place, _, hpath, by rw [heq, Function.update_self],
      hrests.content, hfits⟩
  · exact ⟨place, f, hpath, by
      rw [heq, Function.update_of_ne hplace, hf], hbytes, hfits⟩

-- ==== the invariant

structure Reported (key : PlanKey) (plan : RewritePlan)
    (h : List RewriteEntry) (c : RewriteConfig) : Prop where
  grounded : Grounded key plan c
  called : ∀ tid t, c.threads tid = some t → ∃ x ∈ h, ∃ call, x.event = .call tid call
  entries : ∀ path now, ⟨path, .fileReplaced, now⟩ ∈ c.shared.vault.journal →
    ∀ item ∈ plan.items, item.path = path → Done c.shared item
  replaced : ∀ tid t, c.threads tid = some t → ∀ item ∈ plan.items,
    Replaced item t.said → Done c.shared item
  spared : ∀ tid t, c.threads
    tid = some t → Latest h tid → ∀ journal assurance, t.call = .resume journal assurance →
    ∀ item ∈ plan.items, ¬ t.call.Finds item → Spared item t.said → ¬ InFile c.shared item

theorem InFile.before {d d' : Project}
    {e : RemExchange} (hlaw : Lawful key plan call said e.op) (hans : RemOp.Answers d d' e.op e.ans)
    (hspared : Spared item (e :: said)) (hin : InFile d' item) : InFile d item := by
  obtain ⟨place, f, hpath, hf, hstands⟩ := hin
  rcases Lawful.tree hlaw hans with heq
      | ⟨place', content, perms, identity, hop, heq⟩
  · exact ⟨place, f, hpath, heq ▸ hf, hstands⟩
  have hplace : place ≠ place' := by
    rintro rfl
    refine hspared e mem_cons_self place ?_ hpath
    rw [hop]
    rfl
  rw [heq, Function.update_of_ne hplace] at hf
  exact ⟨place, f, hpath, hf, hstands⟩

theorem Done.of_replaced (hapart : Apart plan.items) {d d' : Project}
    (hitem : item ∈ plan.items) {place : Place} {perms : PermissionSnapshot}
    (hpath : item.path = place.map .normal) (hlaw : Lawful key plan call said
      (.fs (.replaceAtomic place item.updated perms)))
    (hans : RemOp.Answers d d' (.fs (.replaceAtomic place item.updated
      perms)) (.ok ())) : Done d' item := by
  obtain ⟨item', hitem', hrests⟩ := hlaw
  cases hapart.unique hitem hitem' (hpath.trans hrests.path.symm)
  rcases hans with ⟨hne, -⟩ | ⟨identity, -, -, rfl⟩
  · exact absurd rfl hne
  · exact ⟨place, _, hpath, Function.update_self _ _ _, rfl, hrests.fits⟩

theorem Reported.step (hapart : Apart plan.items) (hs : (rewriting crates key plan).Step x)
    (hnoted : Noted plan x) (hseq : ∀ tid, x.event.By tid → Latest h tid)
    (hr : Reported key plan h x.before) : Reported key plan (x :: h) x.after := by
  have hdone : ∀ item ∈ plan.items, Done x.before.shared item → Done x.after.shared item :=
    fun item hitem => Done.step hapart hr.grounded hs hitem
  refine ⟨hr.grounded.step hs, fun tid t ht => ?_, fun path now hmem item hitem hpath => ?_, fun tid
    t ht item hitem hreplaced => ?_, fun tid t ht hlatest journal assurance hcall item hitem hfinds
      hspared => ?_⟩
  · have hbefore : ∀ t₀, x.before.threads tid = some t₀ →
        ∃ y ∈ x :: h, ∃ call, y.event = .call tid call := by
      intro t₀ ht₀
      obtain ⟨y, hy, hcall⟩ := hr.called tid t₀ ht₀
      exact ⟨y, mem_cons_of_mem _ hy, hcall⟩
    rcases hs.thread_cases ht with ⟨hold, -⟩ | ⟨call, p, hevent, -⟩
        | ⟨e, t₀, -, ht₀, -⟩
    · exact hbefore t hold
    · exact ⟨x, mem_cons_self, call, hevent⟩
    · exact hbefore t₀ ht₀
  · have hold : ⟨path, .fileReplaced, now⟩
          ∈ x.before.shared.vault.journal → Done x.after.shared item :=
      fun hmem => hdone item hitem (hr.entries path now hmem item hitem hpath)
    rcases hr.grounded.shared_cases hs with heq
        | ⟨tid, t, t', e, -, ht, -, hlaw, hans⟩
    · exact hold (heq ▸ hmem)
    rcases RemOp.Answers.journal hans with heq | ⟨entry, hop, heq⟩
    · exact hold (heq ▸ hmem)
    rw [heq] at hmem
    rcases mem_append.1 hmem with hmem | hlast
    · exact hold hmem
    cases mem_singleton.1 hlast
    rw [hop] at hlaw
    obtain ⟨item', hitem', hpath', hreplaced⟩ := hlaw
    cases hapart.unique hitem hitem' (hpath.trans hpath'.symm)
    exact hdone item hitem (hr.replaced tid t ht item hitem hreplaced)
  · rcases hs.thread_cases ht with ⟨hold, -⟩ | ⟨call, p, -, rfl, -⟩
        | ⟨e, t₀, -, ht₀, hhears, hans⟩
    · exact hdone item hitem (hr.replaced tid t hold item hitem hreplaced)
    · obtain ⟨place, perms, -, hmem⟩ := hreplaced
      exact absurd hmem not_mem_nil
    have hlaw := hhears.guard (hr.grounded.lawful tid t₀ ht₀)
    obtain ⟨place, perms, hpath, hmem⟩ := hreplaced
    rw [hhears.said] at hmem
    rcases mem_cons.1 hmem with rfl | hmem
    · exact Done.of_replaced hapart hitem hpath hlaw hans
    · exact hdone item hitem (hr.replaced tid t₀ ht₀ item hitem ⟨place, perms, hpath, hmem⟩)
  · have hlatest' : Latest h tid := fun y hy => hlatest y (mem_cons_of_mem _ hy)
    rcases hs.thread_cases ht with ⟨hold, hother⟩
        | ⟨call, p, hevent, rfl, hbegins⟩
        | ⟨e, t₀, -, ht₀, hhears, hans⟩
    · have hbefore := hr.spared tid t hold hlatest' journal assurance hcall
        item hitem hfinds hspared
      rcases hr.grounded.shared_cases hs with heq
          | ⟨tid', t', -, e, hevent, ht', -⟩
      · rwa [heq]
      -- another call would have to be the latest, too
      have hby : x.event.By tid' := by
        rw [hevent]
        exact rfl
      obtain ⟨y, hy, call, hycall⟩ := hr.called tid t hold
      obtain ⟨y', hy', call', hycall'⟩ := hr.called tid' t' ht'
      have hle := hseq tid' hby y hy tid call hycall
      have hle' := hlatest' y' hy' tid' call' hycall'
      cases Nat.le_antisymm hle hle'
      exact absurd hby hother
    · obtain rfl : call = .resume journal assurance := hcall
      rw [hbegins.1]
      intro hin
      exact hfinds ⟨journal, assurance, rfl, hnoted tid journal assurance hevent item hitem hin⟩
    have hlaw := hhears.guard (hr.grounded.lawful tid t₀ ht₀)
    rw [hhears.call] at hcall hfinds
    rw [hhears.said] at hspared
    have hbefore := hr.spared tid t₀ ht₀ hlatest' journal assurance hcall
      item hitem hfinds fun e' hmem => hspared e' (mem_cons_of_mem _ hmem)
    exact fun hin => hbefore (InFile.before hlaw hans hspared hin)

theorem Untouched.reported {d : Project} (huntouched : Untouched d c) : Reported key plan [] c := by
  refine ⟨huntouched.grounded, fun _ _ ht => absurd ht huntouched.not_thread, ?_,
    fun _ _ ht => absurd ht huntouched.not_thread, fun _ _ ht => absurd ht huntouched.not_thread⟩
  intro path now hmem
  rw [huntouched.shared, huntouched.journal] at hmem
  cases hmem

theorem Reported.truthful (hapart : Apart plan.items)
    (hr : Reported key plan h c) : Truthful plan h c := by
  intro tid t journal assurance outcome ht hlatest hcall htalk
  have hreports := Thread.returned htalk (hr.grounded.lawful tid t ht)
  refine forall₂_iff_zip.2 ⟨(hreports outcome rfl hapart).length_eq, fun hzip => ?_⟩
  have hitem := (of_mem_zip hzip).1
  have htold := (forall₂_iff_zip.1 (hreports outcome rfl hapart)).2 hzip
  refine ⟨?_, fun hstale => ?_⟩
  · rintro (halready | ⟨locator, happlied⟩)
    · obtain ⟨journal', assurance', hcall', hfound⟩ := htold.already halready
      obtain ⟨now, hmem⟩ := mem_of_latestState hfound
      exact (hr.entries _ now (hr.grounded.resumed tid t ht journal'
        assurance' hcall' hmem) _ hitem rfl).inFile
    · exact (hr.replaced tid t ht _ hitem (htold.applied locator happlied)).inFile
  · obtain ⟨hspared, hfinds⟩ := htold.stale hstale
    exact hr.spared tid t ht hlatest journal assurance hcall _ hitem hfinds hspared

/-- Resumed calls report truthfully, as long as their journals have the
entries of the files that were replaced. -/
theorem reports_truthful {d : Project} {c₀ : RewriteConfig} (hapart : Apart plan.items)
    (huntouched : Untouched d c₀) (hrun : (rewriting crates key plan).Run (Noted plan) c₀ h c)
    (hseq : Sequential h) : Truthful plan h c := by
  have hall := hrun.invariant
    (P := fun h c => Sequential h → Reported key plan h c)
    (fun _ => huntouched.reported) fun h x hr hnoted hs hseq => by
      obtain ⟨hlast, hseq⟩ := pairwise_cons.1 hseq
      exact (hr hseq).step hapart hs hnoted
        fun tid hby y hy tid' call => hlast y hy tid tid' call hby
  exact (hall hseq).truthful hapart

end

namespace Sample

variable {h : List RewriteEntry} {plan : RewritePlan}

def actor : Happening remInterface RewriteCall Empty → Nat
  | .call tid _ | .exchange tid _ | .finish tid => tid
  | .move _ => 0

theorem sequential_of_actors
    (hle : (h.map fun x => actor x.event).Pairwise (· ≥ ·)) : Sequential h := by
  refine (pairwise_map.1 hle).imp fun hle tid tid' call hby hcall => ?_
  rename_i x y
  have hx : actor x.event = tid := by
    cases hevent : x.event with
    | move m => exact m.elim
    | _ =>
      rw [hevent] at hby
      exact hby
  rw [hx, hcall] at hle
  exact hle

def finds (plan : RewritePlan) (x : RewriteEntry) : Bool :=
  match x.event with
  | .call _ (.resume journal _) => plan.items.all fun item =>
    latestState journal item.path = some .fileReplaced
  | _ => true

theorem noted_of_finds {x : RewriteEntry} (h : finds plan x = true) : Noted plan x := by
  intro tid journal assurance hevent item hitem _
  unfold finds at h
  rw [hevent] at h
  exact of_decide_eq_true (all_eq_true.1 h item hitem)

def replacedJournal (plan : RewritePlan) : RewriteJournal :=
  ⟨plan.planDigest, [⟨[.normal "a"], .vaultStored none, 0⟩,
    ⟨[.normal "a"], .fileReplaced, 0⟩]⟩

def twiceActs (plan : RewritePlan) (n : Nat) : List (Act RewriteCall Empty) :=
  upTo 0 (.execute .commit .enforced) n ++ [.finish 0]
    ++ upTo 1 (.resume (replacedJournal plan) .enforced) 2

def twice : List RewriteEntry × RewriteConfig :=
  (working.rewriter crates key single).play start (twiceActs single 18)

def twiceBoth : List RewriteEntry × RewriteConfig :=
  (working.rewriter crates key both).play start (twiceActs both 22)

def stoppedActs : List (Act RewriteCall Empty) :=
  upTo 0 (.execute .commit .enforced) 15 ++ upTo 1 (.resume ⟨single.planDigest,
      [⟨[.normal "a"], .vaultStored none, 0⟩]⟩ .enforced) 6

def stopped : List RewriteEntry × RewriteConfig :=
  (working.rewriter crates key single).play start stoppedActs

def statuses (c : RewriteConfig) (tid : Nat) : Option (List FileApplyStatus) :=
  (c.threads tid).bind fun t =>
    match t.call, t.talk with
    | .resume _ _, .ret (.ok outcome) => some (outcome.results.map (·.status))
    | _, _ => none

def newest (h : List RewriteEntry) : Bool :=
  h.all fun x =>
    match x.event with
    | .call tid _ => tid ≤ 1
    | _ => true

theorem latest_of_newest (hnewest : newest h = true) : Latest h 1 := by
  intro x hmem tid call hevent
  have hx := all_eq_true.1 hnewest x hmem
  rw [hevent] at hx
  exact of_decide_eq_true hx

theorem of_truthful {c : RewriteConfig} (htrue : Truthful plan h c) {statuses' :
      List FileApplyStatus} (hnewest : newest h = true)
    (hstatuses : statuses c 1 = some statuses') :
    List.Forall₂ (StatusTrue c.shared) plan.items statuses' := by
  obtain ⟨t, ht, hresult⟩ := Option.bind_eq_some_iff.1 hstatuses
  split at hresult
  · next journal assurance outcome hcall htalk =>
    cases hresult
    exact forall₂_map_right_iff.2 (htrue 1 t journal assurance outcome
      ht (latest_of_newest hnewest) hcall htalk)
  · cases hresult

theorem inFile_iff {d : Project} {start : Nat} {replacement : Bytes}
    {f : File} (hf : d.tree ["a"] = some (.file f)) : InFile d (item "a" start replacement)
      ↔ (item "a" start replacement).StandsIn f.bytes := by
  refine ⟨?_, fun hstands => ⟨["a"], f, rfl, hf, hstands⟩⟩
  rintro ⟨place, f', hpath, hf', hstands⟩
  obtain rfl : ["a"] = place := place_unique hpath
  rw [hf] at hf'
  cases hf'
  exact hstands

end Sample

open Sample

/-- A finished plan, resumed: the item is reported replaced, and its
replacement is in the file. -/
theorem reports_truthful_twice : Truthful single twice.1 twice.2
    ∧ statuses twice.2 1 = some [.alreadyReplaced] := by
  refine ⟨reports_truthful (by decide) start_untouched
    ((working.rewriter _ _ _).play_tested (fun _ _ => noted_of_finds) ?_)
    (sequential_of_actors (by decide +kernel)), by decide +kernel⟩
  decide +kernel

/-- Two false reports: an item whose file was replaced is reported stale
by the resumed call; and of two items in one file the second, which was
stale, is reported replaced. -/
theorem reports_false : (Sequential stopped.1
      ∧ (rewriting crates key single).Run (fun _ => True) start stopped.1 stopped.2
      ∧ statuses stopped.2 1 = some [.stale]
      ∧ InFile stopped.2.shared (item "a" 2 [35])
      ∧ ¬ Truthful single stopped.1 stopped.2)
    ∧ Sequential twiceBoth.1
    ∧ (rewriting crates key both).Run (fun _ => True) start twiceBoth.1 twiceBoth.2
    ∧ statuses twiceBoth.2 1 = some [.alreadyReplaced, .alreadyReplaced]
    ∧ ¬ InFile twiceBoth.2.shared (item "a" 7 [36])
    ∧ ¬ Truthful both twiceBoth.1 twiceBoth.2 := by
  have hstopped : stopped.2.shared.tree ["a"] = some (.file
      ⟨(item "a" 2 [35]).updated, .unix 1 11,
        permissions⟩) := by decide +kernel
  have hboth : twiceBoth.2.shared.tree ["a"] = some (.file
      ⟨(item "a" 2 [35]).updated, .unix 1 11,
        permissions⟩) := by decide +kernel
  have hin : InFile stopped.2.shared (item "a" 2 [35]) :=
    (inFile_iff hstopped).2 (by unfold PlanItem.StandsIn; decide)
  have hout : ¬ InFile twiceBoth.2.shared
      (item "a" 7 [36]) := fun hin =>
    absurd ((inFile_iff hboth).1 hin) (by unfold PlanItem.StandsIn; decide)
  have hstale : statuses stopped.2 1 = some [.stale] := by decide +kernel
  have halready : statuses twiceBoth.2 1
      = some [.alreadyReplaced, .alreadyReplaced] := by decide +kernel
  refine ⟨⟨sequential_of_actors (by decide +kernel), ?_, hstale, hin,
    fun htrue => ?_⟩, sequential_of_actors (by decide +kernel), ?_,
    halready, hout, fun htrue => ?_⟩
  · exact (working.rewriter _ _ _).play_run
  · have htrue := of_truthful htrue (by decide +kernel) hstale
    cases htrue with
    | cons hfirst _ => exact hfirst.2 rfl hin
  · exact (working.rewriter _ _ _).play_run
  have htrue := of_truthful htrue (by decide +kernel) halready
  cases htrue with
  | cons _ hrest =>
    cases hrest with
    | cons hsecond _ => exact hout (hsecond.1 (.inl rfl))

end SovereignVault.Remediate
