/-
Services: a store that is used through calls, one after the other, and
that loses its volatile part in a crash.

A `Service` says what program a call runs, given the store it finds, and
what a crash clears. A `Step` is one call, returned or stopped at any of
its points; a `Run` is a sequence of steps, each allowed by a condition
on the store and the call, and it keeps its history, latest event first.
-/
import SovereignVault.Crash.Logic

namespace Crash

/-- What calls do, and what a crash clears. A call without a program
cannot be made in that store. -/
structure Service (σ ε κ α : Type) where
  prog : σ → κ → Option (Prog σ ε α)
  reset : σ → σ

inductive Outcome (ε α : Type) where
  | returned (r : Except ε α)
  | crashed

structure Event (σ ε κ α : Type) where
  before : σ
  call : κ
  outcome : Outcome ε α
  after : σ

namespace Service

open Prog

variable {σ ε κ α : Type} (S : Service σ ε κ α) (F : Faults σ ε) {e : Event σ ε κ α}

inductive Step : Event σ ε κ α → Prop where
  | returned {s s' : σ} {c : κ} {p : Prog σ ε α} {r : Except ε α}
      (hp : S.prog s c = some p) (hr : Returns F p s r s') : Step ⟨s, c, .returned r, s'⟩
  | crashed {s s' : σ} {c : κ} {p : Prog σ ε α}
      (hp : S.prog s c = some p) (hr : Reaches F p s s') : Step ⟨s, c, .crashed, S.reset s'⟩

/-- A sequence of allowed calls from `s₀`, with its history. -/
inductive Run (allowed : σ → κ → Prop) (s₀ : σ) : List (Event σ ε κ α) → σ → Prop where
  | nil : Run allowed s₀ [] s₀
  | step {h : List (Event σ ε κ α)} {e : Event σ ε κ α} : Run
      allowed s₀ h e.before → allowed e.before e.call → S.Step F e → Run allowed s₀ (e :: h) e.after

variable {S F}

theorem Step.reaches (h : S.Step F e) :
    ∃ p s', S.prog e.before e.call = some p ∧ Reaches F p e.before s'
      ∧ (e.after = s' ∨ e.after = S.reset s') := by
  cases h with
  | returned hp hr => exact ⟨_, _, hp, hr.reaches, .inl rfl⟩
  | crashed hp hr => exact ⟨_, _, hp, hr, .inr rfl⟩

variable {allowed : σ → κ → Prop} {s₀ s : σ} {h : List (Event σ ε κ α)}

theorem Run.invariant (hrun : S.Run F allowed s₀ h s) {I : σ → Prop} (h₀ : I s₀)
    (hcall : ∀ s c p, I s → allowed s c → S.prog s c = some p → wp F I p (fun _ => I) s)
    (hreset : ∀ s, I s → I (S.reset s)) : I s := by
  induction hrun with
  | nil => exact h₀
  | step _ hallow hstep ih =>
    obtain ⟨p, s', hp, hr, hafter⟩ := hstep.reaches
    have hs' := (hcall _ _ p ih hallow hp).reaches hr
    obtain heq | heq := hafter
    · rw [heq]
      exact hs'
    · rw [heq]
      exact hreset s' hs'

theorem Run.split {later : List (Event σ ε κ α)} (hrun : S.Run F allowed s₀ (later ++ e :: h) s) :
    S.Run F allowed s₀ h e.before ∧ allowed e.before e.call ∧ S.Step F e := by
  induction later generalizing s with
  | nil =>
    cases hrun with
    | step hr hallow hs => exact ⟨hr, hallow, hs⟩
  | cons e' later ih =>
    cases hrun with
    | step hr _ _ => exact ih hr

theorem Run.events (hrun : S.Run F allowed s₀ h s) {P : Event σ ε κ α → Prop}
    (hstep : ∀ e, allowed e.before e.call → S.Step F e → P e) : ∀ e ∈ h, P e := by
  induction hrun with
  | nil => simp
  | step _ hallow hs ih =>
    intro e he
    obtain rfl | he := List.mem_cons.1 he
    · exact hstep _ hallow hs
    · exact ih e he

end Service

end Crash
