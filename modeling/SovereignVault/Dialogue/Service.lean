/-
One shared object that answers each question at once.

Any number of callers ask in any order, and every question is answered
under a lock of the object, so that what the callers do together is a
sequence of questions. What the object leaves to the environment is part
of the question. A caller may ask only what `allowed` admits.

A `Run` keeps the exchanges, latest first. What one step keeps every run
keeps (`Run.invariant`), and what was not so from the start was brought
about by an exchange of the run (`Run.entered`).
-/
import Mathlib.Logic.Basic
import Mathlib.Data.List.Basic
import SovereignVault.Dialogue.Talk

namespace Dialogue

/-- An object with state `σ`, asked through `I`. -/
structure Service (I : Interface) (σ : Type) where
  act : (o : I.Op) → σ → I.Ans o × σ
  allowed : I.Op → σ → Prop

namespace Service

variable {I : Interface} {σ : Type} (S : Service I σ) {ops : List I.Op}

inductive Step : σ → Exchange I → σ → Prop where
  | ask (o : I.Op) (s : σ) (hallowed : S.allowed o s) : Step s ⟨o, (S.act o s).1⟩ (S.act o s).2

/-- The exchanges from `s₀` on, latest first, of which each was made in a
state and with an answer that `admits` admits. -/
inductive Run (admits : σ → Exchange I → Prop) (s₀ : σ) : List (Exchange I) → σ → Prop where
  | start : Run admits s₀ [] s₀
  | step {h : List (Exchange I)} {s s' : σ} {e : Exchange I} (hrun : Run admits s₀ h s)
      (hadmits : admits s e) (hstep : S.Step s e s') : Run admits s₀ (e :: h) s'

variable {S} {admits : σ → Exchange I → Prop} {s₀ s : σ} {h : List (Exchange I)}

theorem Step.inv {e : Exchange I} {s' : σ} (hstep : S.Step s e s') :
    S.allowed e.op s ∧ S.act e.op s = (e.ans, s') := by
  cases hstep with
  | ask o s hallowed => exact ⟨hallowed, rfl⟩

theorem Run.invariant {P : List (Exchange I) → σ → Prop} (hrun : S.Run admits s₀ h s)
    (hstart : P [] s₀) (hkeeps : ∀ {h s e s'}, P h s → admits s e → S.Step s e s' →
      P (e :: h) s') : P h s := by
  induction hrun with
  | start => exact hstart
  | step _ hadmits hstep ih => exact hkeeps ih hadmits hstep

/-- What holds now and did not hold at the start was brought about by one
exchange, the last that did, and has held since. -/
theorem Run.entered {φ : σ → Prop} (hrun : S.Run admits s₀ h s)
    (hstart : ¬ φ s₀) (hnow : φ s) : ∃ later e earlier s₁ s₂, h = later ++ e :: earlier
      ∧ S.Run admits s₀ earlier s₁ ∧ S.Step s₁ e s₂ ∧ ¬ φ s₁ ∧ φ s₂
      ∧ ∀ x ∈ later, ∃ t t', φ t ∧ S.Step t x t' ∧ φ t' := by
  induction hrun with
  | start => exact absurd hnow hstart
  | @step h t t' e hrun _ hstep ih =>
    by_cases hbefore : φ t
    · obtain ⟨later, e₁, earlier, s₁, s₂, rfl, hearlier, hstep₁, hnot, hyes, hheld⟩ := ih hbefore
      refine ⟨e :: later, e₁, earlier, s₁, s₂, rfl, hearlier, hstep₁, hnot, hyes, fun x hx => ?_⟩
      rcases List.mem_cons.1 hx with rfl | hx
      · exact ⟨t, t', hbefore, hstep, hnow⟩
      · exact hheld x hx
    · exact ⟨[], e, h, t, t', rfl, hrun, hstep, hbefore, hnow,
        fun x hx => absurd hx List.not_mem_nil⟩

section

variable (S) [∀ o s, Decidable (S.allowed o s)]

def play (s : σ) : List I.Op → Option (List (Exchange I) × σ)
  | [] => some ([], s)
  | o :: rest =>
    if S.allowed o s then
      (play (S.act o s).2 rest).map fun (h, s') => (h ++ [⟨o, (S.act o s).1⟩], s')
    else none

def played (s : σ) (ops : List I.Op) (hsome : (S.play s ops).isSome) : List (Exchange I) × σ :=
  (S.play s ops).get hsome

end

theorem Run.append {s₁ : σ} {h' : List (Exchange I)}
    (hrun : S.Run admits s₀ h s) (hrun' : S.Run admits s h' s₁) : S.Run admits s₀ (h' ++ h) s₁ := by
  induction hrun' with
  | start => exact hrun
  | step _ hadmits hstep ih => exact .step ih hadmits hstep

theorem play_run [∀ o s, Decidable (S.allowed o s)]
    (hplay : S.play s₀ ops = some (h, s)) : S.Run (fun _ _ => True) s₀ h s := by
  induction ops generalizing s₀ h with
  | nil =>
    cases hplay
    exact .start
  | cons o rest ih =>
    unfold play at hplay
    split at hplay
    · next hallowed =>
      obtain ⟨⟨h', s'⟩, hrest, heq⟩ := Option.map_eq_some_iff.1 hplay
      cases heq
      have hfirst : S.Run (fun _ _ => True) s₀ [⟨o, (S.act o s₀).1⟩]
          (S.act o s₀).2 := .step .start trivial (.ask o s₀ hallowed)
      exact hfirst.append (ih hrest)
    · cases hplay

theorem played_run [∀ o s, Decidable (S.allowed o s)]
    (hsome : (S.play s₀ ops).isSome) : S.Run (fun _ _ => True) s₀ (S.played s₀ ops hsome).1
      (S.played s₀ ops hsome).2 :=
  play_run (Option.some_get hsome).symm

end Service

end Dialogue
