/-
`sv-privacy`: overlaps and redaction.

Of the candidates the one that starts first is kept, of those that start
together the one of the higher priority and then the longer; a candidate
that starts inside a kept one is dropped (`redact_begins`), and what of it
sticks out may stay: a CPF that begins a card number wins, and the rest of
the card is left in the output (`redact_leaves_card`).
-/
import SovereignVault.Privacy.Scan

namespace SovereignVault.Privacy

open List

variable {f : Finding} {findings : List Finding} {policy : Policy} {input : Bytes}

-- ==== overlaps

/-- The order of `resolve_overlaps`: by the start, then the priority, then
the length. -/
def Finding.Before (f g : Finding) : Prop :=
  f.start < g.start ∨ f.start = g.start ∧ (g.category.priority < f.category.priority
      ∨ f.category.priority = g.category.priority ∧ g.stop - g.start ≤ f.stop - f.start)

instance : DecidableRel Finding.Before := fun _ _ =>
  inferInstanceAs (Decidable (_ ∨ _ ∧ (_ ∨ _ ∧ _)))

instance : Std.Total Finding.Before where
  total f g := by
    unfold Finding.Before
    omega

instance : IsTrans Finding Finding.Before where
  trans f g h := by
    unfold Finding.Before
    omega

def keepFrom : Nat → List Finding → List Finding
  | _, [] => []
  | lastEnd, f :: rest =>
    if lastEnd ≤ f.start then f :: keepFrom f.stop rest
    else keepFrom lastEnd rest

def resolveOverlaps (findings : List Finding) : List Finding :=
  keepFrom 0 (findings.insertionSort Finding.Before)

def scan (input : Bytes) (policy : Policy) : List Finding :=
  resolveOverlaps (candidates input policy)

-- ==== redaction

def ascii (s : String) : Bytes := s.toList.map Char.toUInt8

def marker (category : PiiCategory) : Bytes :=
  ascii "[REDACTED:" ++ ascii category.label ++ ascii "]"

def applyFrom (input : Bytes) : Nat → List Finding → Bytes
  | cursor, [] => input.drop cursor
  | cursor, f :: rest =>
    (input.drop cursor).take (f.start - cursor) ++ marker f.category ++ applyFrom input f.stop rest

structure Redaction where
  output : Bytes
  findings : List Finding

def redact (input : Bytes) (policy : Policy) : Redaction :=
  let findings := scan input policy
  ⟨applyFrom input 0 findings, findings⟩

def Redaction.Masks (r : Redaction) (i : Nat) : Prop :=
  ∃ f ∈ r.findings, f.start ≤ i ∧ i < f.stop

-- ==== what is masked

theorem mem_of_mem_keepFrom {lastEnd : Nat} (h : f ∈ keepFrom lastEnd findings) : f ∈ findings := by
  induction findings generalizing lastEnd with
  | nil => exact h
  | cons g rest ih =>
    unfold keepFrom at h
    split at h
    · rcases mem_cons.1 h with rfl | h
      · exact mem_cons_self
      · exact mem_cons_of_mem _ (ih h)
    · exact mem_cons_of_mem _ (ih h)

theorem keepFrom_begins
    (hsorted : findings.Pairwise Finding.Before) (hspan : ∀ f ∈ findings, f.start < f.stop)
    (lastEnd : Nat) (hf : f ∈ findings) : f.start < lastEnd
    ∨ ∃ g ∈ keepFrom lastEnd findings, g.start ≤ f.start
      ∧ f.start < g.stop := by
  induction findings generalizing lastEnd with
  | nil => cases hf
  | cons g rest ih =>
    obtain ⟨hfirst, hsorted⟩ := pairwise_cons.1 hsorted
    have hspan' : ∀ f ∈ rest, f.start < f.stop := fun f hmem => hspan f (mem_cons_of_mem _ hmem)
    unfold keepFrom
    split
    · next hkeep =>
      -- `g` is kept, and whatever follows starts no earlier
      refine .inr ?_
      rcases mem_cons.1 hf with rfl | hf
      · exact ⟨f, mem_cons_self, le_rfl, hspan f mem_cons_self⟩
      have hle : g.start ≤ f.start := by
        rcases hfirst f hf with hlt | ⟨heq, -⟩
        · exact hlt.le
        · exact heq.le
      rcases ih hsorted hspan' g.stop hf with hlt | ⟨k, hk, hstart⟩
      · exact ⟨g, mem_cons_self, hle, hlt⟩
      · exact ⟨k, mem_cons_of_mem _ hk, hstart⟩
    · next hdrop =>
      rcases mem_cons.1 hf with rfl | hf
      · exact .inl (by omega)
      · exact ih hsorted hspan' lastEnd hf

theorem mem_candidates_of_mem_scan (h : f ∈ scan input policy) : f ∈ candidates input policy :=
  (perm_insertionSort _ _).mem_iff.1 (mem_of_mem_keepFrom h)

theorem scan_begins (hf : f ∈ candidates input policy) :
    ∃ g ∈ scan input policy, g.start ≤ f.start ∧ f.start < g.stop := by
  have hmem : ∀ {f}, f ∈ (candidates input policy).insertionSort
      Finding.Before ↔ f ∈ candidates input policy :=
    (perm_insertionSort _ _).mem_iff
  have hbegins := keepFrom_begins (pairwise_insertionSort Finding.Before (candidates input policy))
    (fun f hf => (mem_candidates (hmem.1 hf)).2.1) 0 (hmem.2 hf)
  exact hbegins.resolve_left (Nat.not_lt_zero _)

/-- Every candidate starts inside a span that is replaced: it is masked up
to the end of that span, so what stays of it, if anything, lies behind. -/
theorem redact_begins (input : Bytes) (policy : Policy) :
    ∀ f ∈ candidates input policy, ∃ g ∈ (redact input policy).findings, g ∈ candidates input policy
      ∧ g.start ≤ f.start ∧ f.start < g.stop
      ∧ (redact input policy).Masks f.start
      ∧ ∀ i, f.start ≤ i → i < f.stop → ¬ (redact input policy).Masks i → g.stop ≤ i := by
  intro f hf
  obtain ⟨g, hg, hle, hlt⟩ := scan_begins hf
  refine ⟨g, hg, mem_candidates_of_mem_scan hg, hle, hlt,
    ⟨g, hg, hle, hlt⟩, fun i hi _ hstays => ?_⟩
  by_contra hin
  exact hstays ⟨g, hg, by omega, by omega⟩

namespace Sample

def card : Bytes := ascii "529.982.247-25 05"

end Sample

theorem redact_begins_card : ∃ g ∈ (redact Sample.card .all).findings, g.start ≤ 0 ∧ 0 < g.stop :=
  have ⟨g, hg, _, hle, hlt, _⟩ := redact_begins Sample.card .all
    ⟨.creditCard, 0, 17⟩ (by decide +kernel)
  ⟨g, hg, hle, hlt⟩

/-- The CPF wins, and the last digits of the card stay. -/
theorem redact_leaves_card : (⟨.creditCard, 0, 17⟩ : Finding) ∈ candidates Sample.card .all
    ∧ (redact Sample.card .all).findings = [⟨.cpf, 0, 14⟩]
    ∧ (redact Sample.card .all).output = ascii "[REDACTED:CPF] 05"
    ∧ ¬ (redact Sample.card .all).Masks 15 := by
  have hfindings : (redact Sample.card .all).findings = [⟨.cpf, 0, 14⟩] := by decide +kernel
  refine ⟨by decide +kernel, hfindings, by decide +kernel, ?_⟩
  rintro ⟨f, hf, -, hlt⟩
  rw [hfindings] at hf
  cases mem_singleton.1 hf
  exact absurd hlt (by decide)

end SovereignVault.Privacy
