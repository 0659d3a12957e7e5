/-
Programs that talk to an environment, and a logic over what they have
said so far.

A `Talk` is a tree of questions. Nothing is known about the answers: a
service that fails at any call, a human who never clicks, another thread
that changed the world in between are all answers, so a statement about
every talk of a program holds whatever runs beside it.

A history lists the exchanges so far, latest first. `wp G p Q h` says that
from history `h` on `p` asks only what its guard `G` admits at that point,
and returns only what `Q` admits.
-/
import Mathlib.Logic.Basic
import Mathlib.Data.List.Basic

namespace Dialogue

/-- What can be asked, and how each question can be answered. -/
structure Interface where
  Op : Type
  Ans : Op → Type

structure Exchange (I : Interface) where
  op : I.Op
  ans : I.Ans op

/-- A program that asks, with errors `ε` and result `α`. -/
inductive Talk (I : Interface) (ε α : Type) where
  | ret (r : Except ε α)
  | ask (o : I.Op) (k : I.Ans o → Talk I ε α)

namespace Talk

variable {I : Interface} {ε α β : Type} {h h₀ : List (Exchange I)}
  {Q' : Except ε α → List (Exchange I) → Prop} {G' : List (Exchange I) → I.Op → Prop}

-- ==== the monad

/-- Sequencing; an error of the first program is the error of the
whole. -/
def bind : Talk I ε α → (α → Talk I ε β) → Talk I ε β
  | .ret (.ok a), g => g a
  | .ret (.error e), _ => .ret (.error e)
  | .ask o k, g => .ask o fun x => (k x).bind g

/-- Catch the result of a program, error or value, as a value. -/
def attempt : Talk I ε α → Talk I ε (Except ε α)
  | .ret r => .ret (.ok r)
  | .ask o k => .ask o fun x => (k x).attempt

instance : Monad (Talk I ε) where
  pure a := .ret (.ok a)
  bind := bind

instance : MonadExcept ε (Talk I ε) where
  throw e := .ret (.error e)
  tryCatch p h := p.attempt.bind fun
    | .ok a => .ret (.ok a)
    | .error e => h e

def query (o : I.Op) : Talk I ε (I.Ans o) := .ask o fun x => .ret (.ok x)

@[simp] theorem pure_eq (a : α) : (Pure.pure a : Talk I ε α) = .ret (.ok a) := rfl

@[simp] theorem throw_eq (e : ε) : (throw e : Talk I ε α) = .ret (.error e) := rfl

@[simp] theorem bind_eq (p : Talk I ε α) (g : α → Talk I ε β) : p >>= g = p.bind g := rfl

@[simp] theorem bind_ret_ok (a : α) (g : α → Talk I ε β) :
    (Talk.ret (.ok a) : Talk I ε α).bind g = g a := rfl

@[simp] theorem bind_ret_error (e : ε) (g : α → Talk I ε β) :
    (Talk.ret (.error e) : Talk I ε α).bind g = .ret (.error e) := rfl

@[simp] theorem bind_query (o : I.Op) (g : I.Ans o → Talk I ε β) :
    (query o : Talk I ε (I.Ans o)).bind g = .ask o g := rfl

-- ==== histories

/-- `Follows p h q`: after the exchanges `h`, latest first, `p` goes on
as `q`. -/
inductive Follows (p : Talk I ε α) : List (Exchange I) → Talk I ε α → Prop where
  | start : Follows p [] p
  | ask {h : List (Exchange I)} {o : I.Op} {k : I.Ans o → Talk I ε α}
      (hf : Follows p h (.ask o k)) (a : I.Ans o) : Follows p (⟨o, a⟩ :: h) (k a)

/-- `n` exchanges of `p` with an environment that answers every question
in one way. -/
def converse (env : (o : I.Op) → I.Ans o) (p : Talk I ε α) : Nat → List (Exchange I) × Talk I ε α
  | 0 => ([], p)
  | n + 1 =>
    match converse env p n with
    | (h, .ask o k) => (⟨o, env o⟩ :: h, k (env o))
    | (h, .ret r) => (h, .ret r)

theorem converse_follows (env : (o : I.Op) → I.Ans o) (p : Talk I ε α)
    (n : Nat) : Follows p (converse env p n).1 (converse env p n).2 := by
  induction n with
  | zero => exact .start
  | succ n ih =>
    unfold converse
    split
    · next h o k heq =>
      rw [heq] at ih
      exact .ask ih _
    · next h r heq =>
      rw [heq] at ih
      exact ih

variable {r : Except ε α} {p : Talk I ε α} {g : α → Talk I ε β}

theorem Follows.of_ret {q : Talk I ε α} (hf : Follows (.ret r) h q) : h = [] ∧ q = .ret r := by
  induction hf with
  | start => exact ⟨rfl, rfl⟩
  | ask _ _ ih => cases ih.2

theorem Follows.of_bind {q : Talk I ε β} (hf : Follows (p.bind g) h q) :
    (∃ p', Follows p h p' ∧ q = p'.bind g)
    ∨ ∃ first rest a, h = rest ++ first
      ∧ Follows p first (.ret (.ok a)) ∧ Follows (g a) rest q := by
  induction hf with
  | start => exact .inl ⟨p, .start, rfl⟩
  | @ask h o k hf a ih =>
    rcases ih with ⟨p', hp', heq⟩ | ⟨first, rest, b, rfl, hfirst, hrest⟩
    · cases p' with
      | ret r =>
        cases r with
        | error e => cases heq
        | ok b =>
          refine .inr ⟨h, [⟨o, a⟩], b, rfl, hp', ?_⟩
          have hstart : Follows (g b) [] (.ask o k) := by
            rw [heq]
            exact .start
          exact .ask hstart a
      | ask o' k' =>
        cases heq
        exact .inl ⟨k' a, .ask hp' a, rfl⟩
    · exact .inr ⟨first, ⟨o, a⟩ :: rest, b, rfl, hfirst, .ask hrest a⟩

theorem Follows.bind_returned {b : β} (hf : Follows (p.bind g) h (.ret (.ok b))) :
    ∃ first rest a, h = rest ++ first ∧ Follows p first (.ret (.ok a))
      ∧ Follows (g a) rest (.ret (.ok b)) := by
  rcases hf.of_bind with ⟨p', hp', heq⟩ | hpast
  · cases p' with
    | ask o k => cases heq
    | ret r =>
      cases r with
      | error e => cases heq
      | ok a =>
        refine ⟨h, [], a, rfl, hp', ?_⟩
        rw [heq]
        exact .start
  · exact hpast

-- ==== the logic

/-- From history `h` on, `p` asks within `G` and returns within `Q`. -/
def wp (G : List (Exchange I) → I.Op → Prop) :
    Talk I ε α → (Except ε α → List (Exchange I) → Prop) → List (Exchange I) → Prop
  | .ret r, Q, h => Q r h
  | .ask o k, Q, h => G h o ∧ ∀ a, wp G (k a) Q (⟨o, a⟩ :: h)

variable {G : List (Exchange I) → I.Op → Prop}
  {Q : Except ε α → List (Exchange I) → Prop} {h : List (Exchange I)}

theorem wp_mono (hp : wp G p Q h) (hQ : ∀ r h, Q r h → Q' r h) : wp G p Q' h := by
  induction p generalizing h with
  | ret r => exact hQ r h hp
  | ask o k ih => exact ⟨hp.1, fun a => ih a (hp.2 a)⟩

theorem wp_weaken (hp : wp G p Q h) (hG : ∀ h o, G h o → G' h o) : wp G' p Q h := by
  induction p generalizing h with
  | ret r => exact hp
  | ask o k ih => exact ⟨hG h o hp.1, fun a => ih a (hp.2 a)⟩

theorem wp_and (hp : wp G p Q h) (hp' : wp G' p Q' h) : wp G p (fun r h => Q r h ∧ Q' r h) h := by
  induction p generalizing h with
  | ret r => exact ⟨hp, hp'⟩
  | ask o k ih => exact ⟨hp.1, fun a => ih a (hp.2 a) (hp'.2 a)⟩

theorem wp_after (hp : wp (fun new => G (new ++ h₀)) p (fun r new => Q r (new ++ h₀)) h) :
    wp G p Q (h ++ h₀) := by
  induction p generalizing h with
  | ret r => exact hp
  | ask o k ih => exact ⟨hp.1, fun a => ih a (hp.2 a)⟩

/-- What a sequence promises after its first part returned. -/
def seqPost (G : List (Exchange I) → I.Op → Prop) (g : α → Talk I ε β)
    (Q : Except ε β → List (Exchange I) → Prop) : Except ε α → List (Exchange I) → Prop
  | .ok a, h => wp G (g a) Q h
  | .error e, h => Q (.error e) h

theorem wp_bind {Q : Except ε β → List (Exchange I) → Prop} :
    wp G (p.bind g) Q h ↔ wp G p (seqPost G g Q) h := by
  induction p generalizing h with
  | ret r =>
    cases r with
    | ok a | error e => exact Iff.rfl
  | ask o k ih => exact and_congr_right fun _ => forall_congr' fun a => ih a

theorem wp_seq {P : Except ε α → List (Exchange I) → Prop}
    {Q : Except ε β → List (Exchange I) → Prop} (hp : wp G p P h)
    (hg : ∀ r h', P r h' → seqPost G g Q r h') : wp G (p.bind g) Q h :=
  wp_bind.2 (wp_mono hp hg)

theorem wp_ask_then
    {o : I.Op} {g : I.Ans o → Talk I ε β} {Q : Except ε β → List (Exchange I) → Prop}
    (hG : G h o) (hg : ∀ a, wp G (g a) Q (⟨o, a⟩ :: h)) : wp G ((query o).bind g) Q h := ⟨hG, hg⟩

theorem wp_check {Q : Except ε β → List (Exchange I) → Prop} (hok : ∀ a, r = .ok a → wp G (g a) Q h)
    (herror : ∀ e, r = .error e → Q (.error e) h) : wp G (Talk.bind (.ret r) g) Q h := by
  cases r with
  | ok a => exact hok a rfl
  | error e => exact herror e rfl

theorem wp_attempt {Q : Except ε (Except ε α) → List (Exchange I) → Prop} :
    wp G p.attempt Q h ↔ wp G p (fun r => Q (.ok r)) h := by
  induction p generalizing h with
  | ret r => exact Iff.rfl
  | ask o k ih => exact and_congr_right fun _ => forall_congr' fun a => ih a

theorem wp.follows {p q : Talk I ε α} (hp : wp G p Q h₀) (hf : Follows p h q) :
    wp G q Q (h ++ h₀) := by
  induction hf with
  | start => exact hp
  | ask _ a ih => exact ih.2 a

theorem wp.asks (hp : wp G p Q []) {o : I.Op} {k : I.Ans o → Talk I ε α}
    (hf : Follows p h (.ask o k)) : G h o := by
  have hq := (hp.follows hf).1
  rwa [List.append_nil] at hq

theorem wp.returns (hp : wp G p Q []) (hf : Follows p h (.ret r)) : Q r h := by
  have hq := hp.follows hf
  rwa [List.append_nil] at hq

/-- `p` asks only what `G` allows, whatever it is told. -/
def Asks (G : I.Op → Prop) : Talk I ε α → Prop
  | .ret _ => True
  | .ask o k => G o ∧ ∀ a, Asks G (k a)

section

variable {G : I.Op → Prop} {p q : Talk I ε α} {g : α → Talk I ε β} {h : List (Exchange I)}

theorem Asks.bind (hp : Asks G p) (hg : ∀ a, Asks G (g a)) : Asks G (p.bind g) := by
  induction p with
  | ret r =>
    cases r with
    | ok a => exact hg a
    | error e => trivial
  | ask o k ih => exact ⟨hp.1, fun a => ih a (hp.2 a)⟩

theorem Asks.attempt (hp : Asks G p) : Asks G p.attempt := by
  induction p with
  | ret r => trivial
  | ask o k ih => exact ⟨hp.1, fun a => ih a (hp.2 a)⟩

theorem Asks.follows (hp : Asks G p) (hf : Follows p h q) : (∀ e ∈ h, G e.op) ∧ Asks G q := by
  induction hf with
  | start => exact ⟨fun _ hmem => absurd hmem List.not_mem_nil, hp⟩
  | ask _ a ih => exact ⟨List.forall_mem_cons.2 ⟨ih.2.1, ih.1⟩, ih.2.2 a⟩

end

-- ==== one world

/-- The program in a world that answers every question at once: the
result and the world it leaves. -/
def answered {σ : Type} (w : σ → (o : I.Op) → I.Ans o × σ) : Talk I ε α → σ → Except ε α × σ
  | .ret r, s => (r, s)
  | .ask o k, s => (k (w s o).1).answered w (w s o).2

section

variable {σ : Type} {w : σ → (o : I.Op) → I.Ans o × σ} {s : σ} {g : α → Talk I ε β} {p : Talk I ε α}

@[simp] theorem answered_ret (r : Except ε α) :
    (Talk.ret r : Talk I ε α).answered w s = (r, s) := rfl

@[simp] theorem answered_ask (o : I.Op) (k : I.Ans o → Talk I ε α) :
    (Talk.ask o k).answered w s = (k (w s o).1).answered w (w s o).2 := rfl

theorem answered_bind_ok {a : α} {s' : σ} (hp : p.answered w s = (.ok a, s')) :
    (p.bind g).answered w s = (g a).answered w s' := by
  induction p generalizing s with
  | ret r =>
    cases hp
    rfl
  | ask o k ih => exact ih _ hp

end

/-- The program with every question answered by a program of its own,
over another interface. -/
def interpret {J : Interface} (f : (o : I.Op) → Talk J ε (I.Ans o)) : Talk I ε α → Talk J ε α
  | .ret r => .ret r
  | .ask o k => (f o).bind fun a => interpret f (k a)

/-- A program interpreted does what it did before, as far as the
interpretation of each question keeps the two histories related. -/
theorem wp_interpret
    {J : Interface} {f : (o : I.Op) → Talk J ε (I.Ans o)} {GJ : List (Exchange J) → J.Op → Prop}
    {Rel : List (Exchange I) → List (Exchange J) → Prop} (hop : ∀ h hJ o, Rel h hJ → G h o →
      wp GJ (f o) (fun r hJ' => ∃ a, r = .ok a ∧ Rel (⟨o, a⟩ :: h) hJ') hJ)
    (hp : wp G p Q h) {hJ : List (Exchange J)} (hrel : Rel h hJ) :
    wp GJ (interpret f p) (fun r hJ' => ∃ h', Rel h' hJ' ∧ Q r h') hJ := by
  induction p generalizing h hJ with
  | ret r => exact ⟨h, hrel, hp⟩
  | ask o k ih =>
    refine wp_seq (hop h hJ o hrel hp.1) ?_
    rintro r hJ' ⟨a, rfl, hrel'⟩
    exact ih a (hp.2 a) hrel'

end Talk

end Dialogue
