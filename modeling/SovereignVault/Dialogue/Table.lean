/-
Tables that are pruned: `AList` with the entries a test keeps.

An entry is looked up after pruning exactly if it was there and passes.
-/
import Mathlib.Data.List.AList

namespace AList

universe u v

variable {α : Type u} {β : α → Type v} {p : Sigma β → Bool} {x : Sigma β}

def retain (p : Sigma β → Bool) (s : AList β) : AList β :=
  ⟨s.entries.filter p, s.nodupKeys.sublist List.filter_sublist⟩

def size (s : AList β) : Nat := s.entries.length

theorem size_retain_le (p : Sigma β → Bool) (s : AList β) :
    (s.retain p).size ≤ s.size := List.length_filter_le _ _

theorem mem_entries_retain {s : AList β} : x ∈ (s.retain p).entries ↔ x ∈ s.entries ∧ p x = true :=
  List.mem_filter

variable [DecidableEq α] {s : AList β} {a : α} {b : β a}

theorem lookup_retain_eq_some :
    (s.retain p).lookup a = some b ↔ s.lookup a = some b ∧ p ⟨a, b⟩ = true := by
  have hmem : ∀ t : AList β, t.lookup a = some b ↔ ⟨a, b⟩ ∈ t.entries := fun t => mem_lookup_iff
  rw [hmem, hmem, mem_entries_retain]

theorem lookup_of_mem_entries (h : x ∈ s.entries) : s.lookup x.1 = some x.2 := mem_lookup_iff.2 h

theorem lookup_insert_eq_some {a' : α} {b' : β a'} : (s.insert a' b').lookup a = some b →
      (⟨a, b⟩ : Sigma β) = ⟨a', b'⟩ ∨ a ≠ a' ∧ s.lookup a = some b := by
  intro h
  by_cases heq : a = a'
  · subst heq
    rw [lookup_insert] at h
    cases h
    exact .inl rfl
  · rw [lookup_insert_ne heq] at h
    exact .inr ⟨heq, h⟩

theorem lookup_erase_eq_some {a' : α} (h : (s.erase a').lookup a = some b) :
    a ≠ a' ∧ s.lookup a = some b := by
  by_cases heq : a = a'
  · subst heq
    rw [lookup_erase] at h
    cases h
  · rw [lookup_erase_ne heq] at h
    exact ⟨heq, h⟩

-- ==== size

theorem size_erase_le (a : α) (s : AList β) :
    (s.erase a).size ≤ s.size := (List.kerase_sublist a _).length_le

theorem size_erase_of_mem (h : a ∈ s) : (s.erase a).size + 1 = s.size := by
  have hkeys : ∀ t : AList β, t.size = t.keys.length := fun t => (List.length_map Sigma.fst).symm
  rw [hkeys, hkeys, keys_erase]
  exact List.length_erase_add_one h

theorem size_insert_le (s : AList β) (a : α) (b : β a) : (s.insert a b).size ≤ s.size + 1 := by
  unfold size
  rw [entries_insert, List.length_cons]
  exact Nat.succ_le_succ (List.kerase_sublist a _).length_le

theorem size_insert_of_mem (h : a ∈ s) (b : β a) :
    (s.insert a b).size = s.size := size_erase_of_mem h

end AList
