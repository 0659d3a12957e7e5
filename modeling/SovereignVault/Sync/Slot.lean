/-
A slot: one permit, and those who wait for it in order.

The permit is handed to the head of the queue when it is given back,
whether or not the head has looked again since. Who gives up leaves the
queue, or gives back the permit that was handed over in the meantime.

What a party believes about the permit is a claim. A slot is `Exclusive`
if every claim is right; then there is at most one. An operation of one
party takes the permit away from no other (`Spares`).
-/
import Mathlib.Logic.Basic
import Mathlib.Data.List.Basic

namespace Sync

/-- Who has the permit, and who waits for it, first come first. -/
structure Slot (ι : Type) where
  holder : Option ι
  queue : List ι
  deriving DecidableEq

namespace Slot

variable {ι : Type}

def free : Slot ι := ⟨none, []⟩

def release (slot : Slot ι) : Slot ι :=
  match slot.queue with
  | [] => ⟨none, []⟩
  | i :: rest => ⟨some i, rest⟩

def pass (slot : Slot ι) (i : ι) : Slot ι := { slot with holder := some i }

def tryAcquire (slot : Slot ι) (i : ι) : Option (Slot ι) :=
  if slot.holder = none then some (slot.pass i) else none

/-- Look whether the permit is there, and queue for it if it is not. -/
def poll [DecidableEq ι] (slot : Slot ι) (i : ι) : Slot ι × Bool :=
  if slot.holder = some i then (slot, true)
  else if slot.holder = none then (slot.pass i, true)
  else if i ∈ slot.queue then (slot, false)
  else ({ slot with queue := slot.queue ++ [i] }, false)

def cancel [DecidableEq ι] (slot : Slot ι) (i : ι) : Slot ι :=
  if slot.holder = some i then slot.release
  else { slot with queue := slot.queue.filter (· ≠ i) }

-- ==== claims

/-- Whoever else had the permit still has it. -/
def Spares (i : ι) (slot slot' : Slot ι) : Prop :=
  ∀ j, j ≠ i → slot.holder = some j → slot'.holder = some j

/-- Every claim to the permit is right. -/
def Exclusive (slot : Slot ι) (claims : ι → Prop) : Prop :=
  ∀ i, claims i → slot.holder = some i

variable {slot slot' : Slot ι} {claims claims' : ι → Prop} {i j : ι}

theorem Exclusive.unique (h : slot.Exclusive claims) (hi : claims i) (hj : claims j) : i = j :=
  Option.some.inj ((h i hi).symm.trans (h j hj))

theorem Exclusive.step (h : slot.Exclusive claims) (hspares : Spares i slot slot')
    (hclaims : ∀ j, claims' j → (j ≠ i ∧ claims j) ∨ slot'.holder = some j) :
    slot'.Exclusive claims' := by
  intro j hj
  rcases hclaims j hj with ⟨hne, hold⟩ | hnew
  · exact hspares j hne (h j hold)
  · exact hnew

-- ==== the operations

theorem Spares.refl (i : ι) (slot : Slot ι) : Spares i slot slot := fun _ _ h => h

theorem release_spares (hi : slot.holder = some i) : Spares i slot slot.release := by
  intro j hne hj
  cases hi.symm.trans hj
  exact absurd rfl hne

theorem pass_spares (hi : slot.holder = some i) (k : ι) : Spares i slot (slot.pass k) := by
  intro j hne hj
  cases hi.symm.trans hj
  exact absurd rfl hne

theorem tryAcquire_some (h : slot.tryAcquire i = some slot') :
    slot'.holder = some i ∧ Spares i slot slot' := by
  unfold tryAcquire at h
  split at h
  · next hnone =>
    cases h
    refine ⟨rfl, fun j _ hj => ?_⟩
    cases hnone.symm.trans hj
  · cases h

variable [DecidableEq ι]

theorem poll_spares (slot : Slot ι) (i : ι) : Spares i slot (slot.poll i).1 := by
  intro j hne hj
  unfold poll
  split
  · exact hj
  split
  · next hnone => cases hnone.symm.trans hj
  · split
    · exact hj
    · exact hj

theorem poll_true (h : (slot.poll i).2 = true) : (slot.poll i).1.holder = some i := by
  unfold poll at h ⊢
  split
  · assumption
  next hother =>
  rw [if_neg hother] at h
  split
  · rfl
  next hsome =>
  rw [if_neg hsome] at h
  split at h
  · cases h
  · cases h

theorem cancel_spares (slot : Slot ι) (i : ι) : Spares i slot (slot.cancel i) := by
  unfold cancel
  split
  · next hi => exact release_spares hi
  · exact fun j _ hj => hj

end Slot

end Sync
