/-
A crash logic for `Prog`: weakest preconditions that speak about every
point of a run, not only its end.

`wp F I p Q s` says of all runs of `p` from `s` under the fault model
`F`: the crash invariant `I` holds at every point, and the result and the
final store satisfy `Q`. A proof executes the program symbolically, one
rule per construct; `wp_iff` is the adequacy of it.

`Stable` is the frame: a program that keeps `J` at every point under every
fault model. `Observes` says a program only reads, and which function of
the store it returns. `Succeeds` is the specification of a program that
has no reason of its own to fail: it returns a value with the stated
property, or a fault struck, and then in the very state it struck in.
`Yields` is its partial twin: nothing is said of errors.
-/
import SovereignVault.Crash.Prog

namespace Crash

namespace Prog

variable {σ ε α β : Type} {F : Faults σ ε} {I J : σ → Prop}
  {Q : Except ε α → σ → Prop} {s : σ} {r : Except ε α}

-- ==== the transformer

/-- Weakest precondition of `p` for the crash invariant `I` and the
postcondition `Q`, under the fault model `F`. -/
def wp (F : Faults σ ε) (I : σ → Prop) : Prog σ ε α → (Except ε α → σ → Prop) → σ → Prop
  | .ret r, Q, s => I s ∧ Q r s
  | .read k, Q, s => wp F I (k (.ok s)) Q s ∧ ∀ e, F s e → wp F I (k (.error e)) Q s
  | .write f k, Q, s => I s ∧ wp F I (k (.ok ())) Q (f s) ∧ ∀ e, F s e → wp F I (k (.error e)) Q s
  | .assign f k, Q, s => I s ∧ wp F I k Q (f s)

variable {p : Prog σ ε α} {f : σ → σ} {g : σ → Except ε α} {k : α → Prog σ ε β}

theorem wp_inv (h : wp F I p Q s) : I s := by
  induction p with
  | ret r | write f k _ | assign f k _ => exact h.1
  | read k ih => exact ih _ h.1

/-- Adequacy: `wp` is exactly "`I` at every point, `Q` at the end", of
every run the fault model admits. -/
theorem wp_iff : wp F I p Q s ↔ (∀ s', Reaches F p s s' → I s')
      ∧ ∀ r s', Returns F p s r s' → Q r s' := by
  constructor
  · intro h
    constructor
    · intro s' hr
      induction hr with
      | here => exact wp_inv h
      | read _ ih => exact ih h.1
      | readFault hf _ ih => exact ih (h.2 _ hf)
      | write _ ih => exact ih h.2.1
      | writeFault hf _ ih => exact ih (h.2.2 _ hf)
      | assign _ ih => exact ih h.2
    · intro r s' hr
      induction hr with
      | ret => exact h.2
      | read _ ih => exact ih h.1
      | readFault hf _ ih => exact ih (h.2 _ hf)
      | write _ ih => exact ih h.2.1
      | writeFault hf _ ih => exact ih (h.2.2 _ hf)
      | assign _ ih => exact ih h.2
  · rintro ⟨hI, hQ⟩
    induction p generalizing s with
    | ret r => exact ⟨hI s .here, hQ r s .ret⟩
    | read k ih =>
      refine ⟨ih _ (fun s' h => hI s' (.read h)) (fun r s' h => hQ r s' (.read h)), fun e he => ?_⟩
      exact ih _ (fun s' h => hI s' (.readFault he h)) (fun r s' h => hQ r s' (.readFault he h))
    | write f k ih =>
      refine ⟨hI s .here, ih _ (fun s' h => hI s' (.write h))
        (fun r s' h => hQ r s' (.write h)), fun e he => ?_⟩
      exact ih _ (fun s' h => hI s' (.writeFault he h)) (fun r s' h => hQ r s' (.writeFault he h))
    | assign f k ih =>
      exact ⟨hI s .here, ih (fun s' h => hI s' (.assign h)) (fun r s' h => hQ r s' (.assign h))⟩

theorem wp.reaches {s' : σ} (h : wp F I p Q s) (hr : Reaches F p s s') : I s' :=
  (wp_iff.1 h).1 s' hr

theorem wp.returns {s' : σ} (h : wp F I p Q s) (hr : Returns F p s r s') : Q r s' :=
  (wp_iff.1 h).2 r s' hr

theorem wp.run (h : wp F I p Q s) : Q (p.run s).1 (p.run s).2 := h.returns (run_returns F p s)

-- ==== the rules

theorem wp_mono {Q' : Except ε α → σ → Prop} (h : wp F I p Q s)
    (hI : ∀ s, I s → J s) (hQ : ∀ r s, I s → Q r s → Q' r s) : wp F J p Q' s := by
  induction p generalizing s with
  | ret r => exact ⟨hI s h.1, hQ r s h.1 h.2⟩
  | read k ih => exact ⟨ih _ h.1, fun e he => ih _ (h.2 e he)⟩
  | write f k ih => exact ⟨hI s h.1, ih _ h.2.1, fun e he => ih _ (h.2.2 e he)⟩
  | assign f k ih => exact ⟨hI s h.1, ih h.2⟩

theorem wp.post {Q' : Except ε α → σ → Prop} (h : wp F I p Q s)
    (hQ : ∀ r s, I s → Q r s → Q' r s) : wp F I p Q' s :=
  wp_mono h (fun _ hs => hs) hQ

@[simp] theorem wp_ret (r : Except ε α) (Q : Except ε α → σ → Prop)
    (s : σ) : wp F I (.ret r) Q s ↔ I s ∧ Q r s := Iff.rfl

/-- What sequencing asks of the first program: on a value, the second
one from there; on an error, the whole ends with that error. -/
def seqPost (F : Faults σ ε) (I : σ → Prop) (g : α → Prog σ ε β)
    (Q : Except ε β → σ → Prop) : Except ε α → σ → Prop
  | .ok a, s => wp F I (g a) Q s
  | .error e, s => Q (.error e) s

@[simp] theorem seqPost_ok (g : α → Prog σ ε β) (Q : Except ε β → σ → Prop)
    (a : α) (s : σ) : seqPost F I g Q (.ok a) s ↔ wp F I (g a) Q s := Iff.rfl

@[simp] theorem seqPost_error (g : α → Prog σ ε β) (Q : Except ε β → σ → Prop)
    (e : ε) (s : σ) : seqPost F I g Q (.error e) s ↔ Q (.error e) s := Iff.rfl

@[simp] theorem wp_bind (p : Prog σ ε α) (g : α → Prog σ ε β)
    (Q : Except ε β → σ → Prop) (s : σ) : wp F I (p.bind g) Q s ↔ wp F I p (seqPost F I g Q) s := by
  induction p generalizing s with
  | ret r =>
    cases r with
    | ok a => exact ⟨fun h => ⟨wp_inv h, h⟩, fun h => h.2⟩
    | error e => exact Iff.rfl
  | read k ih | write f k ih | assign f k ih => simp only [bind, wp, ih]

/-- A run of a sequence ends with an error of the first program, or goes
on with the second. -/
theorem Returns.bind_inv {g : α → Prog σ ε β} {r : Except ε β} {s' : σ}
    (h : Returns F (p.bind g) s r s') : (∃ e, r = .error e ∧ Returns F p s (.error e) s')
    ∨ ∃ a s₁, Returns F p s (.ok a) s₁ ∧ Returns F (g a) s₁ r s' := by
  have hwp : wp F (fun _ => True) (p.bind g) (fun r s' =>
      (∃ e, r = .error e ∧ Returns F p s (.error e) s')
      ∨ ∃ a s₁, Returns F p s (.ok a) s₁ ∧ Returns F (g a) s₁ r s') s := by
    rw [wp_bind, wp_iff]
    refine ⟨fun _ _ => trivial, fun r s₁ hr => ?_⟩
    cases r with
    | error e => exact .inl ⟨e, rfl, hr⟩
    | ok a => exact wp_iff.2 ⟨fun _ _ => trivial, fun r s' hg => .inr ⟨a, s₁, hr, hg⟩⟩
  exact hwp.returns h

/-- A point of a sequence is a point of its first program, or of its
second once the first has returned a value. -/
theorem Reaches.bind_inv {g : α → Prog σ ε β} {s' : σ} (h : Reaches F (p.bind g) s s') :
    Reaches F p s s' ∨ ∃ a s₁, Returns F p s (.ok a) s₁ ∧ Reaches F (g a) s₁ s' := by
  have hwp : wp F (fun s' => Reaches F p s s'
      ∨ ∃ a s₁, Returns F p s (.ok a) s₁ ∧ Reaches F (g a) s₁ s')
      (p.bind g) (fun _ _ => True) s := by
    rw [wp_bind, wp_iff]
    refine ⟨fun _ hr => .inl hr, fun r s₁ hr => ?_⟩
    cases r with
    | error e => trivial
    | ok a => exact wp_iff.2 ⟨fun _ hg => .inr ⟨a, s₁, hr, hg⟩, fun _ _ _ => trivial⟩
  exact hwp.reaches h

@[simp] theorem wp_attempt (p : Prog σ ε α) (Q : Except ε (Except ε α) → σ → Prop)
    (s : σ) : wp F I p.attempt Q s ↔ wp F I p (fun r => Q (.ok r)) s := by
  induction p generalizing s with
  | ret r => exact Iff.rfl
  | read k ih | write f k ih | assign f k ih => simp only [attempt, wp, ih]

@[simp] theorem wp_get (Q : Except ε σ → σ → Prop) (s : σ) :
    wp F I get Q s ↔ I s ∧ Q (.ok s) s ∧ ∀ e, F s e → Q (.error e) s := by
  simp only [get, wp]
  constructor
  · rintro ⟨⟨hi, hq⟩, hf⟩
    exact ⟨hi, hq, fun e he => (hf e he).2⟩
  · rintro ⟨hi, hq, hf⟩
    exact ⟨⟨hi, hq⟩, fun e he => ⟨hi, hf e he⟩⟩

@[simp] theorem wp_modify (f : σ → σ) (Q : Except ε Unit → σ → Prop)
    (s : σ) : wp F I (modify f) Q s ↔ I s ∧ (I (f s) ∧ Q (.ok ()) (f s))
        ∧ ∀ e, F s e → Q (.error e) s := by
  simp only [modify, wp]
  constructor
  · rintro ⟨hi, hq, hf⟩
    exact ⟨hi, hq, fun e he => (hf e he).2⟩
  · rintro ⟨hi, hq, hf⟩
    exact ⟨hi, hq, fun e he => ⟨hi, hf e he⟩⟩

@[simp] theorem wp_sync (Q : Except ε Unit → σ → Prop) (s : σ) :
    wp F I sync Q s ↔ I s ∧ Q (.ok ()) s ∧ ∀ e, F s e → Q (.error e) s := by
  rw [sync, wp_modify]
  constructor
  · rintro ⟨hi, ⟨-, hq⟩, hf⟩
    exact ⟨hi, hq, hf⟩
  · rintro ⟨hi, hq, hf⟩
    exact ⟨hi, ⟨hi, hq⟩, hf⟩

/-- An update and the sync after it: a crash point before, between and
after; a failing sync reports an error that took effect. -/
theorem wp_modify_sync {Q : Except ε Unit → σ → Prop}
    (hi : I s) (hf : I (f s)) (hq : Q (.ok ()) (f s)) (hfail : ∀ e, F s e → Q (.error e) s)
    (hsync : ∀ e, F (f s) e → Q (.error e) (f s)) : wp F I ((modify f).bind fun _ => sync) Q s := by
  rw [wp_bind, wp_modify]
  refine ⟨hi, ⟨hf, ?_⟩, hfail⟩
  rw [seqPost_ok, wp_sync]
  exact ⟨hf, hq, hsync⟩

@[simp] theorem wp_assigning (f : σ → σ) (Q : Except ε Unit → σ → Prop)
    (s : σ) : wp F I (assigning f) Q s ↔ I s ∧ I (f s) ∧ Q (.ok ()) (f s) :=
  Iff.rfl

-- ==== the frame

/-- `p` keeps `J`: at every point and however it ends, under every fault
model. -/
def Stable (J : σ → Prop) (p : Prog σ ε α) : Prop :=
  ∀ (F : Faults σ ε) (s : σ), J s → wp F J p (fun _ => J) s

theorem Stable.yields (h : Stable J p) (hs : J s) (hI : ∀ s, J s → I s) : wp F I p (fun _ => J) s :=
  wp_mono (h F s hs) hI fun _ _ _ h => h

theorem Stable.returns (h : Stable J p) {s' : σ} (hs : J s) (hr : Returns F p s r s') : J s' :=
  (h F s hs).returns hr

theorem Stable.reaches (h : Stable J p) {s' : σ} (hs : J s) (hr : Reaches F p s s') : J s' :=
  (h F s hs).reaches hr

theorem stable_ret (r : Except ε α) : Stable J (.ret r : Prog σ ε α) := fun _ _ hs => ⟨hs, hs⟩

theorem stable_bind {g : α → Prog σ ε β} (hp : Stable J p)
    (hg : ∀ a, Stable J (g a)) : Stable J (p.bind g) := by
  intro F s hs
  rw [wp_bind]
  refine (hp F s hs).post fun r s' _ hs' => ?_
  cases r with
  | ok a => exact hg a F s' hs'
  | error e => exact hs'

theorem Stable.leaves (hp : Stable J p) {g : α → Prog σ ε β} {s' : σ} (hs : J s)
    (hs' : ¬ J s') (hr : Reaches F (p.bind g) s s') :
    ∃ a s₁, Returns F p s (.ok a) s₁ ∧ J s₁ ∧ Reaches F (g a) s₁ s' := by
  obtain hr | ⟨a, s₁, hret, hr⟩ := hr.bind_inv
  · exact absurd (hp.reaches hs hr) hs'
  · exact ⟨a, s₁, hret, hp.returns hs hret, hr⟩

theorem stable_attempt (hp : Stable J p) : Stable J p.attempt := by
  intro F s hs
  rw [wp_attempt]
  exact hp F s hs

theorem stable_modify (hf : ∀ s, J s → J (f s)) : Stable J (modify f : Prog σ ε Unit) := by
  intro F s hs
  rw [wp_modify]
  exact ⟨hs, ⟨hf s hs, hf s hs⟩, fun _ _ => hs⟩

theorem stable_sync : Stable J (sync : Prog σ ε Unit) := stable_modify fun _ hs => hs

theorem stable_assigning (hf : ∀ s, J s → J (f s)) : Stable J (assigning f : Prog σ ε Unit) := by
  intro F s hs
  rw [wp_assigning]
  exact ⟨hs, hf s hs, hf s hs⟩

theorem stable_forEach {body : α → Prog σ ε Unit}
    (h : ∀ a, Stable J (body a)) (l : List α) : Stable J (forEach body l) := by
  induction l with
  | nil => exact stable_ret _
  | cons a l ih => exact stable_bind (h a) fun _ => ih

/-- The frame as a class: the instances follow the code. -/
class Keeps (J : σ → Prop) (p : Prog σ ε α) : Prop where
  stable : Stable J p

instance (r : Except ε α) : Keeps J (.ret r : Prog σ ε α) := ⟨stable_ret r⟩

instance (a : α) : Keeps J (pure a : Prog σ ε α) := ⟨stable_ret _⟩

instance (e : ε) : Keeps J (throw e : Prog σ ε α) := ⟨stable_ret _⟩

instance : Keeps J (sync : Prog σ ε Unit) := ⟨stable_sync⟩

instance [Keeps J p] : Keeps J p.attempt := ⟨stable_attempt Keeps.stable⟩

theorem keeps_bind [Keeps J p] {g : α → Prog σ ε β} (hg : ∀ a, Keeps J (g a)) : Keeps J (p >>= g) :=
  ⟨stable_bind Keeps.stable fun a => (hg a).stable⟩

instance [Keeps J p] {g : α → Prog σ ε β} [∀ a, Keeps J (g a)] : Keeps J (p >>= g) :=
  keeps_bind inferInstance

instance {body : α → Prog σ ε Unit} [∀ a, Keeps J (body a)] (l : List α) :
    Keeps J (forEach body l) :=
  ⟨stable_forEach (fun _ => Keeps.stable) l⟩

instance {c : Prop} [Decidable c] {q : Prog σ ε α} [Keeps J p] [Keeps J q] :
    Keeps J (if c then p else q) := by
  split <;> infer_instance

-- ==== read-only programs

@[simp] theorem Faults.none_apply (s : σ) (e : ε) :
    (Faults.none : Faults σ ε) s e ↔ False := Iff.rfl

/-- `p` changes nothing and, unless a fault interferes, returns `g` of the
store. A fault makes it return some error. -/
def Observes (p : Prog σ ε α) (g : σ → Except ε α) : Prop :=
  ∀ (F : Faults σ ε) (I : σ → Prop) (Q : Except ε α → σ → Prop) (s : σ),
    I s → Q (g s) s → ((∃ e, F s e) → ∀ e, Q (.error e) s) → Prog.wp F I p Q s

theorem Observes.run (h : Observes p g) (s : σ) : p.run s = (g s, s) := by
  have hw := h Faults.none
    (fun _ => True) (fun r s' => r = g s ∧ s' = s) s trivial ⟨rfl, rfl⟩ (fun ⟨_, he⟩ => he.elim)
  exact Prod.ext hw.run.1 hw.run.2

theorem Observes.wp_none (h : Observes p g) (hi : I s) (hq : Q (g s) s) :
    Prog.wp Faults.none I p Q s :=
  h _ _ _ _ hi hq fun ⟨_, he⟩ => he.elim

theorem observes_ret (r : Except ε α) : Observes (.ret r : Prog σ ε α) fun _ => r :=
  fun _ _ _ _ hi hq _ => ⟨hi, hq⟩

theorem observes_get : Observes (get : Prog σ ε σ) .ok := by
  intro F I Q s hi hq hf
  rw [wp_get]
  exact ⟨hi, hq, fun e he => hf ⟨e, he⟩ e⟩

theorem observes_bind {h : α → σ → Except ε β} (hp : Observes p g)
    (hk : ∀ a, Observes (k a) (h a)) : Observes (p.bind k) fun s => (g s).bind fun a => h a s := by
  intro F I Q s hi hq hf
  rw [wp_bind]
  refine hp F I _ s hi ?_ fun hex e => hf hex e
  cases hg : g s with
  | ok a =>
    simp only [hg] at hq
    exact hk a F I Q s hi hq hf
  | error e =>
    simp only [hg] at hq
    exact hq

theorem Observes.wp_seq
    (h : Observes p g) {Q : Except ε β → σ → Prop} (hi : I s) (hfail : ∀ e, Q (.error e) s)
    (hok : ∀ a, g s = .ok a → Prog.wp F I (k a) Q s) : Prog.wp F I (p.bind k) Q s := by
  rw [wp_bind]
  refine h F I _ s hi ?_ fun _ e => hfail e
  cases hg : g s with
  | ok a => exact hok a hg
  | error e => exact hfail e

theorem Observes.wp_then (h : Observes p g) {Q : Except ε β → σ → Prop} {a : α}
    (hi : I s) (hg : g s = .ok a) (hfault : (∃ e, F s e) → ∀ e, Q (.error e) s)
    (hok : Prog.wp F I (k a) Q s) : Prog.wp F I (p.bind k) Q s := by
  rw [wp_bind]
  refine h F I _ s hi ?_ hfault
  rw [hg]
  exact hok

theorem Observes.congr {g g' : σ → Except ε α} (h : Observes p g)
    (hg : ∀ s, g s = g' s) : Observes p g' := by
  obtain rfl : g = g' := funext hg
  exact h

theorem Observes.returns (h : Observes p g) {s' : σ} {a : α}
    (hr : Returns F p s (.ok a) s') : s' = s ∧ g s = .ok a := by
  have hw := h F (fun _ => True) (fun r s' => s' = s ∧ ∀ a, r = .ok a → g s = .ok a)
    s trivial ⟨rfl, fun _ h => h⟩ fun _ _ => ⟨rfl, nofun⟩
  obtain ⟨hs, ha⟩ := hw.returns hr
  exact ⟨hs, ha a rfl⟩

theorem Observes.stable (h : Observes p g) : Stable J p :=
  fun F s hs => h F J _ s hs hs fun _ _ => hs

instance : Keeps J (get : Prog σ ε σ) := ⟨observes_get.stable⟩

theorem Observes.stable_bind (h : Observes p g)
    (hk : ∀ (F : Faults σ ε) (s : σ) (a : α), J s → g s = .ok a →
      Prog.wp F J (k a) (fun _ => J) s) : Stable J (p.bind k) := by
  intro F s hs
  rw [wp_bind]
  refine h F J _ s hs ?_ fun _ _ => hs
  cases hg : g s with
  | ok a => exact hk F s a hs hg
  | error e => exact hs

-- ==== success up to faults

/-- The postcondition of a program that only a fault can stop: `P` on a
value; on an error, the state is one the environment may fault in. -/
def unlessFault (F : Faults σ ε) (P : α → σ → Prop) : Except ε α → σ → Prop
  | .ok a, s => P a s
  | .error _, s => ∃ e, F s e

/-- `p` returns a value with `P`, unless a fault strikes; `I` holds at
every point. -/
def Succeeds (F : Faults σ ε) (I : σ → Prop) (p : Prog σ ε α) (P : α → σ → Prop) (s : σ) : Prop :=
  wp F I p (unlessFault F P) s

section Succeeds

variable {P P' : α → σ → Prop} {Q : β → σ → Prop} {s : σ}

variable {p : Prog σ ε α} {f : σ → σ}

theorem Succeeds.mono (h : Succeeds F I p P s)
    (hP : ∀ a s, I s → P a s → P' a s) : Succeeds F I p P' s := by
  refine h.post fun r s' hi hr => ?_
  cases r with
  | ok a => exact hP a s' hi hr
  | error e => exact hr

theorem succeeds_ret {a : α} (hi : I s) (hp : P a s) : Succeeds F I (.ret (.ok a)) P s := ⟨hi, hp⟩

theorem succeeds_bind (p : Prog σ ε α) (g : α → Prog σ ε β) : Succeeds F I (p.bind g) Q s ↔
      Succeeds F I p (fun a s' => Succeeds F I (g a) Q s') s := by
  have hpost : seqPost F I g (unlessFault F Q)
      = unlessFault F fun a s' => Succeeds F I (g a) Q s' := by
    funext r s'
    cases r with
    | ok a | error e => rfl
  rw [Succeeds, wp_bind, hpost]
  rfl

theorem Succeeds.bind {g : α → Prog σ ε β} (h : Succeeds F I p P s)
    (hg : ∀ a s', I s' → P a s' → Succeeds F I (g a) Q s') : Succeeds F I (p.bind g) Q s :=
  (succeeds_bind p g).2 (h.mono hg)

theorem Observes.succeeds {g : σ → Except ε α} {a : α} (h : Observes p g)
    (hi : I s) (hg : g s = .ok a) (hp : P a s) : Succeeds F I p P s := by
  refine h F I _ s hi ?_ fun hex _ => hex
  rw [hg]
  exact hp

theorem succeeds_modify {P : Unit → σ → Prop} (hi : I s) (hf : I (f s))
    (hp : P () (f s)) : Succeeds F I (modify f) P s :=
  (wp_modify _ _ _).2 ⟨hi, ⟨hf, hp⟩, fun e he => ⟨e, he⟩⟩

theorem succeeds_sync {P : Unit → σ → Prop} (hi : I s) (hp : P () s) : Succeeds F I sync P s :=
  (wp_sync _ _).2 ⟨hi, hp, fun e he => ⟨e, he⟩⟩

theorem succeeds_assigning {P : Unit → σ → Prop} (hi : I s) (hf : I (f s))
    (hp : P () (f s)) : Succeeds F I (assigning f) P s :=
  ⟨hi, hf, hp⟩

theorem Succeeds.wp_none {Q : Except ε α → σ → Prop} (h : Succeeds Faults.none I p P s)
    (hq : ∀ a s, I s → P a s → Q (.ok a) s) : Prog.wp Faults.none I p Q s := by
  refine h.post fun r s' hi hr => ?_
  cases r with
  | ok a => exact hq a s' hi hr
  | error e =>
    obtain ⟨_, he⟩ := hr
    exact he.elim

end Succeeds

-- ==== partial outcomes

def onValue (P : α → σ → Prop) : Except ε α → σ → Prop
  | .ok a, s => P a s
  | .error _, _ => True

/-- Whatever value `p` returns has `P`; `I` holds at every point. -/
def Yields (F : Faults σ ε) (I : σ → Prop) (p : Prog σ ε α) (P : α → σ → Prop) (s : σ) : Prop :=
  wp F I p (onValue P) s

section Yields

variable {P P' : α → σ → Prop} {Q : β → σ → Prop} {s : σ}

variable {p : Prog σ ε α}

theorem Yields.mono (h : Yields F I p P s)
    (hP : ∀ a s, I s → P a s → P' a s) : Yields F I p P' s := by
  refine h.post fun r s' hi hr => ?_
  cases r with
  | ok a => exact hP a s' hi hr
  | error e => exact hr

theorem Succeeds.yields (h : Succeeds F I p P s) : Yields F I p P s := by
  refine h.post fun r s' hi hr => ?_
  cases r with
  | ok a => exact hr
  | error e => exact trivial

theorem yields_ret {a : α} (hi : I s) (hp : P a s) : Yields F I (.ret (.ok a)) P s := ⟨hi, hp⟩

theorem yields_error {e : ε} (hi : I s) : Yields F I (.ret (.error e)) P s := ⟨hi, trivial⟩

theorem yields_bind (p : Prog σ ε α) (g : α → Prog σ ε β) : Yields F I (p.bind g) Q s ↔
      Yields F I p (fun a s' => Yields F I (g a) Q s') s := by
  have hpost : seqPost F I g (onValue Q) = onValue fun a s' => Yields F I (g a) Q s' := by
    funext r s'
    cases r with
    | ok a | error e => rfl
  rw [Yields, wp_bind, hpost]
  rfl

theorem Observes.yields {g : σ → Except ε α} (h : Observes p g) (hi : I s)
    (hp : ∀ a, g s = .ok a → P a s) : Yields F I p P s := by
  refine h F I _ s hi ?_ fun _ _ => trivial
  cases hg : g s with
  | ok a => exact hp a hg
  | error e => exact trivial

end Yields

end Prog

end Crash
