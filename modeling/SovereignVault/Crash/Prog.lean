/-
Programs over a durable store: the language every stateful function of
the development is written in, and its three readings.

A `Prog` is a tree of I/O operations. `read` observes the store, `write`
is ONE atomic update of it (a rename, an unlink, a keychain call), `assign`
is an update of process memory. The two I/O nodes hand their continuation
an `Except`, so a fault is delivered exactly where the code would see it.
A failed write has no effect; code that renames and then syncs is two
nodes.

- `Returns F p s r s'`: some run of `p` from `s` returns `r` in `s'`,
  the environment injecting only faults admitted by `F`;
- `Reaches F p s s'`: some run of `p` from `s` is in `s'` at one of its
  points, so a crash can leave the store as it is there;
- `run p s`: the one run without faults, computed (`returns_none_iff`).
-/
import Mathlib.Logic.Basic

namespace Crash

/-- A program over a store `σ` with errors `ε` and result `α`. -/
inductive Prog (σ ε α : Type) where
  | ret (r : Except ε α)
  /-- One read of the store; a fault arrives as the error. -/
  | read (k : Except ε σ → Prog σ ε α)
  /-- One atomic update of the store; a failed one has no effect. -/
  | write (f : σ → σ) (k : Except ε Unit → Prog σ ε α)
  /-- An update of process memory: neither a crash point nor fallible. -/
  | assign (f : σ → σ) (k : Prog σ ε α)

namespace Prog

variable {σ ε α β : Type} {r : Except ε α}

-- ==== the monad

/-- Sequencing; an error of the first program is the error of the
whole, as the source's `?` has it. -/
def bind : Prog σ ε α → (α → Prog σ ε β) → Prog σ ε β
  | .ret (.ok a), g => g a
  | .ret (.error e), _ => .ret (.error e)
  | .read k, g => .read fun x => (k x).bind g
  | .write f k, g => .write f fun x => (k x).bind g
  | .assign f k, g => .assign f (k.bind g)

/-- Catch the result of a program, error or value, as a value. -/
def attempt : Prog σ ε α → Prog σ ε (Except ε α)
  | .ret r => .ret (.ok r)
  | .read k => .read fun x => (k x).attempt
  | .write f k => .write f fun x => (k x).attempt
  | .assign f k => .assign f k.attempt

instance : Monad (Prog σ ε) where
  pure a := .ret (.ok a)
  bind := bind

instance : MonadExcept ε (Prog σ ε) where
  throw e := .ret (.error e)
  tryCatch p h := p.attempt.bind fun
    | .ok a => .ret (.ok a)
    | .error e => h e

def get : Prog σ ε σ := .read .ret

def modify (f : σ → σ) : Prog σ ε Unit := .write f .ret

def assigning (f : σ → σ) : Prog σ ε Unit := .assign f (.ret (.ok ()))

/-- A fallible operation without effect on the store: a directory sync,
a permission change. -/
def sync : Prog σ ε Unit := modify id

def forEach (body : α → Prog σ ε Unit) : List α → Prog σ ε Unit
  | [] => pure ()
  | a :: as => do
    body a
    forEach body as

@[simp] theorem pure_eq (a : α) : (Pure.pure a : Prog σ ε α) = .ret (.ok a) := rfl

@[simp] theorem throw_eq (e : ε) : (throw e : Prog σ ε α) = .ret (.error e) := rfl

@[simp] theorem bind_eq (p : Prog σ ε α) (g : α → Prog σ ε β) : p >>= g = p.bind g := rfl

@[simp] theorem bind_ret_ok (a : α) (g : α → Prog σ ε β) :
    (Prog.ret (.ok a) : Prog σ ε α).bind g = g a := rfl

@[simp] theorem bind_ret_error (e : ε) (g : α → Prog σ ε β) :
    (Prog.ret (.error e) : Prog σ ε α).bind g = .ret (.error e) := rfl

-- ==== the fault model

/-- Which faults the environment may inject, given the state an
operation runs in. -/
def Faults (σ ε : Type) : Type := σ → ε → Prop

/-- The crash-only environment: every operation succeeds. -/
def Faults.none : Faults σ ε := fun _ _ => False

/-- The unrestricted environment: any operation may fail, any error. -/
def Faults.any : Faults σ ε := fun _ _ => True

-- ==== runs and crashes

/-- `Returns F p s r s'`: a run of `p` from `s` under the fault model
`F` returns `r` and leaves `s'`. -/
inductive Returns (F : Faults σ ε) : Prog σ ε α → σ → Except ε α → σ → Prop where
  | ret {r s} : Returns F (.ret r) s r s
  | read {k s r s'} : Returns F (k (.ok s)) s r s' → Returns F (.read k) s r s'
  | readFault {k s r s' e} : F s e → Returns F (k (.error e)) s r s' → Returns F (.read k) s r s'
  | write {f k s r s'} : Returns F (k (.ok ())) (f s) r s' → Returns F (.write f k) s r s'
  | writeFault {f k s r s' e} : F s e →
      Returns F (k (.error e)) s r s' → Returns F (.write f k) s r s'
  | assign {f k s r s'} : Returns F k (f s) r s' → Returns F (.assign f k) s r s'

/-- `Reaches F p s s'`: a run of `p` from `s` under `F` is at some point
in `s'`, which is what a crash there leaves. -/
inductive Reaches (F : Faults σ ε) : Prog σ ε α → σ → σ → Prop where
  | here {p s} : Reaches F p s s
  | read {k s s'} : Reaches F (k (.ok s)) s s' → Reaches F (.read k) s s'
  | readFault {k s s' e} : F s e → Reaches F (k (.error e)) s s' → Reaches F (.read k) s s'
  | write {f k s s'} : Reaches F (k (.ok ())) (f s) s' → Reaches F (.write f k) s s'
  | writeFault {f k s s' e} : F s e → Reaches F (k (.error e)) s s' → Reaches F (.write f k) s s'
  | assign {f k s s'} : Reaches F k (f s) s' → Reaches F (.assign f k) s s'

def run : Prog σ ε α → σ → Except ε α × σ
  | .ret r, s => (r, s)
  | .read k, s => (k (.ok s)).run s
  | .write f k, s => (k (.ok ())).run (f s)
  | .assign f k, s => k.run (f s)

/-- The run under an explicit schedule: the head of the list is the fate
of the next I/O operation. -/
def exec : Prog σ ε α → List (Option ε) → σ → Except ε α × σ
  | .ret r, _, s => (r, s)
  | .read k, [], s => (k (.ok s)).exec [] s
  | .read k, none :: l, s => (k (.ok s)).exec l s
  | .read k, some e :: l, s => (k (.error e)).exec l s
  | .write f k, [], s => (k (.ok ())).exec [] (f s)
  | .write f k, none :: l, s => (k (.ok ())).exec l (f s)
  | .write _ k, some e :: l, s => (k (.error e)).exec l s
  | .assign f k, l, s => k.exec l (f s)

/-- The store after the first `n` updates of the fault-free run: the
crash point number `n`. -/
def haltAfter : Prog σ ε α → Nat → σ → σ
  | .ret _, _, s => s
  | .read k, n, s => (k (.ok s)).haltAfter n s
  | .write _ _, 0, s => s
  | .write f k, n + 1, s => (k (.ok ())).haltAfter n (f s)
  | .assign f k, n, s => k.haltAfter n (f s)

-- ==== how the readings meet

variable {p : Prog σ ε α} {g : α → Prog σ ε β}

theorem returns_none_iff {s s' : σ} : Returns Faults.none p s r s' ↔ p.run s = (r, s') := by
  constructor
  · intro h
    induction h with
    | ret => rfl
    | read _ ih | write _ ih | assign _ ih => exact ih
    | readFault hf _ _ | writeFault hf _ _ => exact hf.elim
  · intro h
    induction p generalizing s with
    | ret r₀ =>
      simp only [run, Prod.mk.injEq] at h
      obtain ⟨rfl, rfl⟩ := h
      exact .ret
    | read k ih => exact .read (ih _ h)
    | write f k ih => exact .write (ih _ h)
    | assign f k ih => exact .assign (ih h)

theorem run_returns (F : Faults σ ε) (p : Prog σ ε α) (s : σ) :
    Returns F p s (p.run s).1 (p.run s).2 := by
  induction p generalizing s with
  | ret r => exact .ret
  | read k ih => exact .read (ih _ s)
  | write f k ih => exact .write (ih _ _)
  | assign f k ih => exact .assign (ih _)

theorem run_bind_ok {s s' : σ} {a : α} (h : p.run s = (.ok a, s')) :
    (p.bind g).run s = (g a).run s' := by
  induction p generalizing s with
  | ret r =>
    obtain ⟨rfl, rfl⟩ := Prod.mk.inj h
    rfl
  | read k ih | write f k ih => exact ih _ h
  | assign f k ih => exact ih h

theorem run_bind_error {s s' : σ} {e : ε} (h : p.run s = (.error e, s')) :
    (p.bind g).run s = (.error e, s') := by
  induction p generalizing s with
  | ret r =>
    obtain ⟨rfl, rfl⟩ := Prod.mk.inj h
    rfl
  | read k ih | write f k ih => exact ih _ h
  | assign f k ih => exact ih h

theorem exec_returns (p : Prog σ ε α) (l : List (Option ε)) (s : σ) :
    Returns Faults.any p s (p.exec l s).1 (p.exec l s).2 := by
  induction p generalizing l s with
  | ret r =>
    rw [exec]
    exact .ret
  | read k ih =>
    match l with
    | some e :: l => rw [exec]; exact .readFault trivial (ih _ l s)
    | none :: l => rw [exec]; exact .read (ih _ l s)
    | [] => rw [exec]; exact .read (ih _ [] s)
  | write f k ih =>
    match l with
    | some e :: l => rw [exec]; exact .writeFault trivial (ih _ l s)
    | none :: l => rw [exec]; exact .write (ih _ l _)
    | [] => rw [exec]; exact .write (ih _ [] _)
  | assign f k ih =>
    rw [exec]
    exact .assign (ih l _)

theorem haltAfter_reaches (F : Faults σ ε) (p : Prog σ ε α) (n : Nat)
    (s : σ) : Reaches F p s (p.haltAfter n s) := by
  induction p generalizing n s with
  | ret r =>
    rw [haltAfter]
    exact .here
  | read k ih =>
    rw [haltAfter]
    exact .read (ih _ n s)
  | write f k ih =>
    match n with
    | 0 => rw [haltAfter]; exact .here
    | n + 1 => rw [haltAfter]; exact .write (ih _ n _)
  | assign f k ih =>
    rw [haltAfter]
    exact .assign (ih n _)

variable {F : Faults σ ε}

theorem Returns.reaches {s s' : σ} (h : Returns F p s r s') : Reaches F p s s' := by
  induction h with
  | ret => exact .here
  | read _ ih => exact .read ih
  | readFault hf _ ih => exact .readFault hf ih
  | write _ ih => exact .write ih
  | writeFault hf _ ih => exact .writeFault hf ih
  | assign _ ih => exact .assign ih

-- ==== sub-programs

theorem bind_assoc {γ : Type} (p : Prog σ ε α) (g : α → Prog σ ε β)
    (h : β → Prog σ ε γ) : (p.bind g).bind h = p.bind fun a => (g a).bind h := by
  induction p with
  | ret r =>
    cases r with
    | ok a | error e => rfl
  | read k ih | write f k ih =>
    simp only [bind]
    congr 1
    funext x
    exact ih x
  | assign f k ih =>
    simp only [bind]
    rw [ih]

/-- A run of a program from `s` to `s'` that has `q` as a part: it comes
to `q` in `s₀` and passes `s₁` inside `q` or where `q` ends. -/
inductive Through (F : Faults σ ε) (q : Prog σ ε β) (s₀ s₁ : σ) :
    ∀ {δ : Type}, Prog σ ε δ → σ → σ → Prop where
  /-- The run stops inside `q`. -/
  | inside {δ : Type} (k : β → Prog σ ε δ) (h : Reaches F q s₀ s₁) :
      Through F q s₀ s₁ (q.bind k) s₀ s₁
  /-- It leaves `q` and goes on. -/
  | past {δ : Type} {k : β → Prog σ ε δ} {b s'} (h : Returns F q s₀ (.ok b) s₁)
      (hr : Reaches F (k b) s₁ s') : Through F q s₀ s₁ (q.bind k) s₀ s'
  /-- Something else comes before. -/
  | after {δ γ : Type} {p : Prog σ ε γ} {g : γ → Prog σ ε δ} {a s s₂ s'}
      (hr : Returns F p s (.ok a) s₂) (h : Through F q s₀ s₁ (g a) s₂ s') :
      Through F q s₀ s₁ (p.bind g) s s'

end Prog

end Crash
