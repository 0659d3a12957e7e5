/-
The preview of a plan against its execution.

The preview applies every item of a file to one text, from the last one
on. The execution checks each item against the file on disk: after the
first one was replaced the file has another identity and another digest,
so the others are stale. What execution leaves of a file is `committed`:
the text it was, or that text with one item replaced (`committed_cases`).
-/
import Mathlib.Data.List.SplitBy
import SovereignVault.Remediate.Lawful
import SovereignVault.Remediate.Work

namespace SovereignVault.Remediate

open Dialogue Talk List Project RewritePlan

-- ==== groups

section

variable {α κ : Type} (f : α → κ) {l : List α} {g : List α}

variable [LinearOrder κ]

def KeyBefore (g g' : List α) : Prop :=
  g ≠ [] ∧ g' ≠ [] ∧ ∀ a ∈ g, ∀ b ∈ g', f a < f b

theorem KeyBefore.trans {g' g'' : List α} (h : KeyBefore f g g')
    (h' : KeyBefore f g' g'') : KeyBefore f g g'' := by
  obtain ⟨m, hm⟩ := exists_mem_of_ne_nil _ h.2.1
  exact ⟨h.1, h'.2.1, fun a ha b hb => (h.2.2 a ha m hm).trans (h'.2.2 m hm b hb)⟩

variable [DecidableEq κ]

end

section

variable (crates : Crates) (key : PlanKey) (identities : Bool) (assurance : IdentityAssurance)

/-- An item is applied to a text, in a file that still has its identity or
not. -/
def applies (intact : Bool) (item : PlanItem) (text : Bytes) : Bool :=
  (if identities then intact
    else assurance = .acknowledgedUnavailable)
  && match approves crates key item text with
    | .ok approved => approved
    | .error _ => false

def committed : Bool → List PlanItem → Bytes → Bytes
  | _, [], text => text
  | intact, item :: rest, text =>
    if applies crates key identities assurance intact item text then
      committed false rest (replaceRange text item.span item.replacement)
    else committed intact rest text

end

section

variable {crates : Crates} {key : PlanKey} {identities intact : Bool}
  {assurance : IdentityAssurance} {group : List PlanItem} {text : Bytes}

end

-- ==== at work

section

variable {crates : Crates} {key : PlanKey} {w : Work} {assurance : IdentityAssurance}
  {d : Project} {item : PlanItem} {place : Place} {f : File} (planDigest : Digest)

def Applied (item : PlanItem) (place : Place) (f : File) (d d' : Project) (done : Bool) : Prop :=
  if done then ∃ identity, f.identity ≠ identity
    ∧ d'.tree = Function.update d.tree place (some (.file
      ⟨replaceRange f.bytes item.span item.replacement, identity, f.permissions⟩))
  else d'.tree = d.tree

end

def Ready (d : Project) (items : List PlanItem) : Prop :=
  ∀ item ∈ items, ∃ place f, item.path = place.map .normal
    ∧ d.Dirs place ∧ d.tree place = some (.file f)

section

variable {crates : Crates} {key : PlanKey}
  {w : Work} {assurance : IdentityAssurance} {d d' : Project} {item : PlanItem} {place : Place}
  {f : File} {done : Bool} {identity : FileIdentity} {items : List PlanItem} {identities : Bool}

theorem Applied.other (h : Applied item place f d d' done) {q : Place}
    (hq : q ≠ place) : d'.tree q = d.tree q := by
  cases done with
  | false => exact congrFun h q
  | true =>
    obtain ⟨identity, -, htree⟩ := h
    rw [htree, Function.update_of_ne hq]

theorem Applied.file (h : Applied item place f d d' done)
    (hf : d.tree place = some (.file f)) : ∃ f', d'.tree place = some (.file f') := by
  cases done with
  | false => exact ⟨f, (congrFun h place).trans hf⟩
  | true =>
    obtain ⟨identity, -, htree⟩ := h
    exact ⟨_, by rw [htree, Function.update_self]⟩

theorem Applied.ready (h : Applied item place f d d' done)
    (hf : d.tree place = some (.file f)) (hready : Ready d items) : Ready d' items := by
  intro other hmem
  obtain ⟨place', f', hpath, hdirs, hf'⟩ := hready other hmem
  obtain ⟨f'', hf''⟩ : ∃ f'', d'.tree place' = some (.file f'') := by
    by_cases heq : place' = place
    · subst heq
      exact h.file hf
    · exact ⟨f', (h.other heq).trans hf'⟩
  refine ⟨place', f'', hpath, fun q hq hpre hne => ?_, hf''⟩
  have hdir := hdirs q hq hpre hne
  rw [h.other, hdir]
  rintro rfl
  rw [hf] at hdir
  cases hdir

def Current (key : PlanKey) (plan : RewritePlan) (d : Project) : Prop :=
  ∀ item ∈ plan.items, ∃ place f, item.path = place.map .normal
    ∧ d.Dirs place ∧ d.tree place = some (.file f)
    ∧ keyedDigest key f.bytes = item.wholeFileDigest
    ∧ f.identity = item.identity

def executed (crates : Crates) (key : PlanKey) (plan : RewritePlan)
    (w : Work) (assurance : IdentityAssurance) (d : Project) : Project :=
  ((execute crates key plan .commit assurance).answered w.answer d).2

variable {plan : RewritePlan}

theorem Current.ready (hcurrent : Current key plan d) : Ready d plan.items := by
  intro item hmem
  obtain ⟨place, f, hpath, hdirs, hf, -⟩ := hcurrent item hmem
  exact ⟨place, f, hpath, hdirs, hf⟩

end

namespace Sample

end Sample

open Sample

end SovereignVault.Remediate
