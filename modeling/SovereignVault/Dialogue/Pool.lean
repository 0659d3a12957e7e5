/-
Many programs at once, over one shared state.

A `System` says when a call can begin and which program it runs, how the
shared state answers a question of one of the programs, what the end of a
call does, and what else can happen. Each of the four is a relation.

A `Thread` carries its own history with the proof that its program has
come that far, so whatever holds along every talk of a program holds of
the thread without an induction over the run. A `Run` keeps the history of
the whole, latest entry first.
-/
import Mathlib.Logic.Function.Basic
import SovereignVault.Dialogue.Talk

namespace Dialogue

open Talk List Function

variable {α : Type}

structure Thread (I : Interface) (ε α κ : Type) where
  call : κ
  origin : Talk I ε α
  said : List (Exchange I)
  talk : Talk I ε α
  follows : Follows origin said talk

namespace Thread

variable {I : Interface}
  {ε α κ : Type} {Q : Except ε α → List (Exchange I) → Prop} {G : List (Exchange I) → I.Op → Prop}

def start (call : κ) (p : Talk I ε α) : Thread I ε α κ :=
  ⟨call, p, [], p, .start⟩

structure Hears (t : Thread I ε α κ) (e : Exchange I) (t' : Thread I ε α κ) : Prop where
  asks : ∃ k, t.talk = .ask e.op k ∧ t'.talk = k e.ans
  call : t'.call = t.call
  origin : t'.origin = t.origin
  said : t'.said = e :: t.said

def hear (t : Thread I ε α κ) {o : I.Op} {k : I.Ans o → Talk I ε α}
    (h : t.talk = .ask o k) (a : I.Ans o) : Thread I ε α κ where
  call := t.call
  origin := t.origin
  said := ⟨o, a⟩ :: t.said
  talk := k a
  follows := .ask (h ▸ t.follows) a

theorem hears_hear (t : Thread I ε α κ) {o : I.Op} {k : I.Ans o → Talk I ε α}
    (h : t.talk = .ask o k) (a : I.Ans o) : t.Hears ⟨o, a⟩ (t.hear h a) :=
  ⟨⟨k, h, rfl⟩, rfl, rfl, rfl⟩

theorem Hears.guard {t t' : Thread I ε α κ} {e : Exchange I} (h : t.Hears e t')
    (hwp : wp G t.origin Q []) : G t.said e.op := by
  obtain ⟨k, hk, -⟩ := h.asks
  have hf := t.follows
  rw [hk] at hf
  exact hwp.asks hf

theorem returned {t : Thread I ε α κ} {r : Except ε α} (h : t.talk = .ret r)
    (hwp : wp G t.origin Q []) : Q r t.said := by
  have hf := t.follows
  rw [h] at hf
  exact hwp.returns hf

end Thread

structure Config (I : Interface) (ε α σ κ : Type) where
  shared : σ
  threads : Nat → Option (Thread I ε α κ)

inductive Happening (I : Interface) (κ μ : Type) where
  | call (tid : Nat) (c : κ)
  | exchange (tid : Nat) (e : Exchange I)
  | finish (tid : Nat)
  | move (m : μ)

def Happening.By {I : Interface} {κ μ : Type} (tid : Nat) : Happening I κ μ → Prop
  | .call i _ => i = tid
  | .exchange i _ => i = tid
  | .finish i => i = tid
  | .move _ => False

structure Entry (I : Interface) (ε α σ κ μ : Type) where
  before : Config I ε α σ κ
  event : Happening I κ μ
  after : Config I ε α σ κ

/-- How calls use a shared state. -/
structure System (I : Interface) (ε α σ κ μ : Type) where
  begins : σ → κ → Talk I ε α → σ → Prop
  answers : σ → Nat → κ → Exchange I → σ → Prop
  ends : σ → κ → Except ε α → σ → Prop
  moves : σ → μ → σ → Prop

namespace System

variable {I : Interface} {ε α σ κ μ : Type} (S : System I ε α σ κ μ)
  {later : List (Entry I ε α σ κ μ)} {ex : Exchange I}

inductive Step : Entry I ε α σ κ μ → Prop where
  | call {c : Config I ε α σ κ}
      {tid : Nat} {call : κ} {p : Talk I ε α} {s : σ} (hfree : c.threads tid = none)
      (hbegins : S.begins c.shared call p s) : Step ⟨c, .call tid call,
        ⟨s, update c.threads tid (some (.start call p))⟩⟩
  | exchange {c : Config I ε α σ κ}
      {tid : Nat} {t t' : Thread I ε α κ} {e : Exchange I} {s : σ} (ht : c.threads tid = some t)
      (hhears : t.Hears e t') (hanswers : S.answers c.shared tid t.call e s) :
      Step ⟨c, .exchange tid e, ⟨s, update c.threads tid (some t')⟩⟩
  | finish {c : Config I ε α σ κ} {tid : Nat} {t : Thread I ε α κ} {r : Except ε α} {s : σ}
      (ht : c.threads tid = some t) (hr : t.talk = .ret r) (hends : S.ends c.shared t.call r s) :
      Step ⟨c, .finish tid, ⟨s, update c.threads tid none⟩⟩
  | move {c : Config I ε α σ κ}
      {m : μ} {s : σ} (hmoves : S.moves c.shared m s) : Step ⟨c, .move m, ⟨s, c.threads⟩⟩

/-- A sequence of allowed happenings from `c₀`, with its history. -/
inductive Run (allowed : Entry I ε α σ κ μ → Prop) (c₀ : Config I ε α σ κ) :
    List (Entry I ε α σ κ μ) → Config I ε α σ κ → Prop where
  | nil : Run allowed c₀ [] c₀
  | step {h : List (Entry I ε α σ κ μ)} {e : Entry I ε α σ κ μ} :
      Run allowed c₀ h e.before → allowed e → S.Step e → Run allowed c₀ (e :: h) e.after

variable {S} {allowed : Entry I ε α σ κ μ → Prop} {c₀ c : Config I ε α σ κ}
  {h : List (Entry I ε α σ κ μ)} {e : Entry I ε α σ κ μ} {tid : Nat} {t : Thread I ε α κ}

-- ==== one step

theorem Step.thread_cases (hs : S.Step e) (ht : e.after.threads tid = some t) :
    (e.before.threads tid = some t ∧ ¬ e.event.By tid)
    ∨ (∃ call p, e.event = .call tid call ∧ t = .start call p
      ∧ S.begins e.before.shared call p e.after.shared)
    ∨ ∃ ex t₀, e.event = .exchange tid ex ∧ e.before.threads tid = some t₀ ∧ t₀.Hears ex t
      ∧ S.answers e.before.shared tid t₀.call ex e.after.shared := by
  cases hs with
  | @call c tid' call p s hfree hbegins =>
    simp only [update_apply] at ht
    split_ifs at ht with htid
    · subst htid
      cases ht
      exact .inr (.inl ⟨call, p, rfl, rfl, hbegins⟩)
    · exact .inl ⟨ht, fun hby => htid hby.symm⟩
  | @exchange c tid' t₀ t' ex s ht₀ hhears hanswers =>
    simp only [update_apply] at ht
    split_ifs at ht with htid
    · subst htid
      cases ht
      exact .inr (.inr ⟨ex, t₀, rfl, ht₀, hhears, hanswers⟩)
    · exact .inl ⟨ht, fun hby => htid hby.symm⟩
  | @finish c tid' t₀ r s ht₀ hr hends =>
    simp only [update_apply] at ht
    split_ifs at ht with htid
    exact .inl ⟨ht, fun hby => htid hby.symm⟩
  | move hmoves => exact .inl ⟨ht, id⟩

theorem Step.thread_next (hs : S.Step e) (ht : e.before.threads tid = some t) :
    (e.after.threads tid = some t ∧ ¬ e.event.By tid)
    ∨ (∃ ex t', e.event = .exchange tid ex ∧ t.Hears ex t' ∧ e.after.threads tid = some t'
      ∧ S.answers e.before.shared tid t.call ex e.after.shared)
    ∨ e.event = .finish tid ∧ ∃ r, t.talk = .ret r := by
  cases hs with
  | @call c tid' call p s hfree hbegins =>
    have htid : tid ≠ tid' := by
      rintro rfl
      rw [hfree] at ht
      cases ht
    exact .inl ⟨(update_of_ne htid _ _).trans ht, fun hby => htid hby.symm⟩
  | @exchange c tid' t₀ t' ex s ht₀ hhears hanswers =>
    by_cases htid : tid = tid'
    · subst htid
      cases ht₀.symm.trans ht
      exact .inr (.inl ⟨ex, t', rfl, hhears, update_self .., hanswers⟩)
    · exact .inl ⟨(update_of_ne htid _ _).trans ht, fun hby => htid hby.symm⟩
  | @finish c tid' t₀ r s ht₀ hr hends =>
    by_cases htid : tid = tid'
    · subst htid
      cases ht₀.symm.trans ht
      exact .inr (.inr ⟨rfl, r, hr⟩)
    · exact .inl ⟨(update_of_ne htid _ _).trans ht, fun hby => htid hby.symm⟩
  | move hmoves => exact .inl ⟨ht, id⟩

theorem Step.call_inv (hs : S.Step e)
    {call : κ} (hevent : e.event = .call tid call) : ∃ p, e.after.threads tid = some (.start call p)
      ∧ S.begins e.before.shared call p e.after.shared := by
  cases hs with
  | call hfree hbegins =>
    cases hevent
    exact ⟨_, update_self _ _ _, hbegins⟩
  | _ => cases hevent

theorem Step.exchange_inv (hs : S.Step e) (hevent : e.event = .exchange tid ex) :
    ∃ t t', e.before.threads tid = some t ∧ t.Hears ex t' ∧ e.after.threads tid = some t'
      ∧ S.answers e.before.shared tid t.call ex e.after.shared := by
  cases hs with
  | exchange ht hhears hanswers =>
    cases hevent
    exact ⟨_, _, ht, hhears, update_self _ _ _, hanswers⟩
  | _ => cases hevent

theorem Step.move_inv (hs : S.Step e) {m : μ} (hevent : e.event = .move m) :
    S.moves e.before.shared m e.after.shared
      ∧ e.after.threads = e.before.threads := by
  cases hs with
  | move hmoves =>
    cases hevent
    exact ⟨hmoves, rfl⟩
  | _ => cases hevent

-- ==== runs

theorem Run.invariant
    (hrun : S.Run allowed c₀ h c) {P : List (Entry I ε α σ κ μ) → Config I ε α σ κ → Prop}
    (hnil : P [] c₀) (hstep : ∀ h e, P h e.before → allowed e → S.Step e →
      P (e :: h) e.after) : P h c := by
  induction hrun with
  | nil => exact hnil
  | step _ hallow hs ih => exact hstep _ _ ih hallow hs

theorem Run.split (hrun : S.Run allowed c₀ (later ++ e :: h) c) :
    S.Run allowed c₀ h e.before ∧ allowed e ∧ S.Step e := by
  induction later generalizing c with
  | nil =>
    cases hrun with
    | step hr hallow hs => exact ⟨hr, hallow, hs⟩
  | cons e' later ih =>
    cases hrun with
    | step hr _ _ => exact ih hr

theorem Run.tail (hrun : S.Run allowed c₀ (later ++ e :: h) c) : S.Run allowed e.after later c := by
  induction later generalizing c with
  | nil =>
    cases hrun with
    | step hr hallow hs => exact .nil
  | cons e' later ih =>
    cases hrun with
    | step hr hallow hs => exact .step (ih hr) hallow hs

theorem Run.append
    {h' : List (Entry I ε α σ κ μ)} {c' : Config I ε α σ κ} (hrun : S.Run allowed c₀ h c)
    (hrun' : S.Run allowed c h' c') : S.Run allowed c₀ (h' ++ h) c' := by
  induction hrun' with
  | nil => exact hrun
  | step _ hallow hs ih => exact .step ih hallow hs

theorem Run.restrict {allowed' : Entry I ε α σ κ μ → Prop} (hrun : S.Run allowed c₀ h c)
    (hall : ∀ e ∈ h, S.Step e → allowed' e) : S.Run allowed' c₀ h c := by
  induction hrun with
  | nil => exact .nil
  | @step h e _ _ hs ih =>
    refine .step (ih fun e hmem => ?_) (hall e mem_cons_self hs) hs
    exact hall e (mem_cons_of_mem _ hmem)

theorem Run.said_suffix
    {t₀ : Thread I ε α κ} (hrun : S.Run allowed c₀ h c) (ht₀ : c₀.threads tid = some t₀)
    (hcalls : ∀ e ∈ h, ∀ call, e.event ≠ .call tid call) (ht : c.threads tid = some t) :
    t₀.said <:+ t.said ∧ t.call = t₀.call ∧ t.origin = t₀.origin := by
  induction hrun generalizing t with
  | nil =>
    rw [ht₀] at ht
    cases ht
    exact ⟨suffix_rfl, rfl, rfl⟩
  | @step h e hr hallow hs ih =>
    have ih := fun t ht => @ih t (fun e hmem => hcalls e (mem_cons_of_mem _ hmem)) ht
    rcases hs.thread_cases ht with ⟨hbefore, -⟩ | ⟨call, p, hevent, -⟩
        | ⟨ex, t₁, -, ht₁, hhears, -⟩
    · exact ih t hbefore
    · exact absurd hevent (hcalls e mem_cons_self call)
    · obtain ⟨hsuffix, hcall, horigin⟩ := ih t₁ ht₁
      rw [hhears.said, hhears.call, hhears.origin]
      exact ⟨hsuffix.trans (suffix_cons ex _), hcall, horigin⟩

theorem Run.called (hrun : S.Run allowed c₀ h c) (hnone : c₀.threads tid = none)
    (ht : c.threads tid = some t) : ∃ e ∈ h, ∃ call, e.event = .call tid call := by
  induction hrun generalizing t with
  | nil =>
    rw [hnone] at ht
    cases ht
  | @step h e hr hallow hs ih =>
    have hlater : ∀ t', e.before.threads tid = some t' →
        ∃ e' ∈ e :: h, ∃ call, e'.event = .call tid call := by
      intro t' ht'
      obtain ⟨e', hmem, hcall⟩ := ih ht'
      exact ⟨e', mem_cons_of_mem _ hmem, hcall⟩
    rcases hs.thread_cases ht with ⟨hbefore, -⟩ | ⟨call, p, hevent, -⟩
        | ⟨ex, t', -, ht', -⟩
    · exact hlater t hbefore
    · exact ⟨e, mem_cons_self, call, hevent⟩
    · exact hlater t' ht'

theorem Run.said_between (hrun : S.Run allowed c₀ h c)
    (hnone : c₀.threads tid = none) (ht : c.threads tid = some t) {since before : List (Exchange I)}
    (heq : t.said = since ++ ex :: before) : ∃ later x earlier t₀, h = later ++ x :: earlier
      ∧ x.event = .exchange tid ex ∧ x.before.threads tid = some t₀
      ∧ t₀.said = before ∧ t₀.call = t.call
      ∧ ∀ e ∈ later, e.event.By tid → ∃ ex' ∈ since, e.event = .exchange tid ex' := by
  induction hrun generalizing t since with
  | nil =>
    rw [hnone] at ht
    cases ht
  | @step h e hr hallow hs ih =>
    -- the step said is an earlier one
    have hlater : ∀ t₁ since', e.before.threads tid = some t₁ →
        t₁.said = since' ++ ex :: before → t₁.call = t.call → (∀ ex' ∈ since', ex' ∈ since) →
        (e.event.By tid → ∃ ex' ∈ since, e.event = .exchange tid ex') →
        ∃ later x earlier t₀, e :: h = later ++ x :: earlier
          ∧ x.event = .exchange tid ex ∧ x.before.threads tid = some t₀
          ∧ t₀.said = before ∧ t₀.call = t.call
          ∧ ∀ e ∈ later, e.event.By tid → ∃ ex' ∈ since, e.event = .exchange tid ex' := by
      intro t₁ since' ht₁ heq' hcall hsub hlast
      obtain ⟨later, x, earlier, t₀, rfl, hx, ht₀, hsaid, hcall', hsince⟩ := ih ht₁ heq'
      refine ⟨e :: later, x, earlier, t₀, rfl, hx, ht₀, hsaid,
        hcall'.trans hcall, fun e' hmem hby => ?_⟩
      rcases mem_cons.1 hmem with rfl | hmem
      · exact hlast hby
      · obtain ⟨ex', hmem', hevent⟩ := hsince e' hmem hby
        exact ⟨ex', hsub ex' hmem', hevent⟩
    rcases hs.thread_cases ht with ⟨hbefore, hby⟩
        | ⟨call, p, -, rfl, -⟩ | ⟨ex', t₁, hevent, ht₁, hhears, -⟩
    · exact hlater t since hbefore heq rfl (fun _ hmem => hmem) fun h => absurd h hby
    · cases since <;> cases heq
    · rw [hhears.said] at heq
      cases since with
      | nil =>
        obtain ⟨rfl, hsaid⟩ := cons.inj heq
        exact ⟨[], e, h, t₁, rfl, hevent, ht₁, hsaid,
          hhears.call.symm, fun _ hmem => absurd hmem not_mem_nil⟩
      | cons ex'' since =>
        obtain ⟨rfl, hsaid⟩ := cons.inj heq
        exact hlater t₁ since ht₁
          hsaid hhears.call.symm (fun _ => mem_cons_of_mem _) fun _ => ⟨ex', mem_cons_self, hevent⟩

theorem Run.said_entry (hrun : S.Run allowed c₀ h c)
    (hnone : c₀.threads tid = none) (ht : c.threads tid = some t) {since before : List (Exchange I)}
    (heq : t.said = since ++ ex :: before) : ∃ later x earlier t₀, h = later ++ x :: earlier
      ∧ x.event = .exchange tid ex ∧ x.before.threads tid = some t₀
      ∧ t₀.said = before ∧ t₀.call = t.call
      ∧ ∀ e ∈ later, ∀ call, e.event ≠ .call tid call := by
  obtain ⟨later, x, earlier, t₀, hh, hx, ht₀, hsaid, hcall, hsince⟩ :=
    hrun.said_between hnone ht heq
  refine ⟨later, x, earlier, t₀, hh, hx, ht₀, hsaid, hcall, ?_⟩
  intro e hmem call hevent
  have hby : e.event.By tid := by
    rw [hevent]
    exact rfl
  obtain ⟨ex', -, hexchange⟩ := hsince e hmem hby
  rw [hevent] at hexchange
  cases hexchange

theorem Run.completes {w : σ → (o : I.Op) → I.Ans o × σ}
    (hw : ∀ s call o, S.answers s tid call ⟨o, (w s o).1⟩ (w s o).2)
    {p : Talk I ε α} (ht : c.threads tid = some t) (hp : t.talk = p) :
    ∃ h c' t', S.Run (fun e => ∃ ex, e.event = .exchange tid ex) c h c'
      ∧ c'.threads tid = some t' ∧ t'.call = t.call
      ∧ t'.origin = t.origin ∧ t'.talk = .ret (p.answered w c.shared).1
      ∧ c'.shared = (p.answered w c.shared).2 := by
  induction p generalizing c t with
  | ret r => exact ⟨[], c, t, .nil, ht, rfl, rfl, hp, rfl⟩
  | ask o k ih =>
    let c₁ : Config I ε α σ κ := ⟨(w c.shared o).2,
      update c.threads tid (some (t.hear hp (w c.shared o).1))⟩
    have hs : S.Step ⟨c, .exchange tid ⟨o, (w c.shared o).1⟩, c₁⟩ :=
      .exchange ht (t.hears_hear hp _) (hw _ _ _)
    obtain ⟨h, c', t', hrun, ht', hcall, horigin, htalk, hshared⟩ :=
      ih (w c.shared o).1 (c := c₁) (update_self _ _ _) rfl
    have hfirst : S.Run (fun e => ∃ ex, e.event = .exchange tid ex) c
        [⟨c, .exchange tid ⟨o, (w c.shared o).1⟩, c₁⟩] c₁ :=
      .step (e := ⟨c, _, c₁⟩) .nil ⟨_, rfl⟩ hs
    exact ⟨_, c', t', hfirst.append hrun, ht', hcall, horigin, htalk, hshared⟩

end System

-- ==== histories

def Once {α : Type} (P : α → Prop) (h : List α) : Prop :=
  h.Pairwise fun x y => P x → ¬ P y

theorem Once.unique
    {P : α → Prop} {h : List α} (honce : Once P h) {later earlier later' earlier' : List α}
    {x y : α} (hx : h = later ++ x :: earlier) (hPx : P x) (hy : h = later' ++ y :: earlier')
    (hPy : P y) : later = later' ∧ x = y ∧ earlier = earlier' := by
  induction h generalizing later later' with
  | nil => cases later <;> cases hx
  | cons z h ih =>
    obtain ⟨hz, hrest⟩ := pairwise_cons.1 honce
    cases later with
    | nil =>
      obtain ⟨rfl, rfl⟩ := cons.inj hx
      cases later' with
      | nil =>
        obtain ⟨rfl, rfl⟩ := cons.inj hy
        exact ⟨rfl, rfl, rfl⟩
      | cons w later' =>
        obtain ⟨-, rfl⟩ := cons.inj hy
        have hmem : y ∈ later' ++ y :: earlier' := by simp
        exact absurd hPy (hz y hmem hPx)
    | cons w later =>
      obtain ⟨rfl, rfl⟩ := cons.inj hx
      cases later' with
      | nil =>
        obtain ⟨rfl, -⟩ := cons.inj hy
        have hmem : x ∈ later ++ x :: earlier := by simp
        exact absurd hPx (hz x hmem hPy)
      | cons w' later' =>
        obtain ⟨rfl, htail⟩ := cons.inj hy
        obtain ⟨rfl, rfl, rfl⟩ := ih hrest rfl htail
        exact ⟨rfl, rfl, rfl⟩

theorem Once.tail {P : α → Prop} {x : α} {h : List α} (honce : Once P (x :: h)) :
    Once P h := (pairwise_cons.1 honce).2

theorem Once.of_append {P : α → Prop} {later h : List α} (honce : Once P (later ++ h)) : Once P h :=
  (pairwise_append.1 honce).2.1

theorem Once.not_earlier {P : α → Prop} {later earlier : List α}
    {x : α} (honce : Once P (later ++ x :: earlier)) (hx : P x) : ∀ y ∈ earlier, ¬ P y :=
  fun y hmem => (pairwise_cons.1 honce.of_append).1 y hmem hx

theorem Once.of_not_earlier {P : α → Prop} {h : List α}
    (hnot : ∀ later x earlier, h = later ++ x :: earlier → P x →
      ∀ y ∈ earlier, ¬ P y) : Once P h := by
  induction h with
  | nil => exact Pairwise.nil
  | cons x h ih =>
    refine pairwise_cons.2 ⟨fun y hmem hx => hnot [] x h rfl hx y hmem, ?_⟩
    exact ih fun later y earlier heq => hnot (x :: later) y earlier (by rw [heq]; rfl)

theorem Once.of_countP {P : α → Prop}
    {h : List α} {p : α → Bool} (hp : ∀ x, P x → p x = true) (hle : h.countP p ≤ 1) : Once P h := by
  refine .of_not_earlier ?_
  rintro later x earlier rfl hx y hmem hy
  have hpos : 0 < earlier.countP p := countP_pos_iff.2 ⟨y, hmem, hp y hy⟩
  rw [countP_append, countP_cons_of_pos (hp x hx)] at hle
  omega

-- ==== playing

/-- What is done next in a run on concrete inputs. -/
inductive Act (κ μ : Type) where
  | call (tid : Nat) (c : κ)
  | answer (tid : Nat)
  | finish (tid : Nat)
  | move (m : μ)

/-- Deterministic choices within a system. -/
structure Player {I : Interface} {ε α σ κ μ : Type} (S : System I ε α σ κ μ) where
  begin : σ → κ → Option (Talk I ε α × σ)
  answer : σ → Nat → κ → (o : I.Op) → Option (I.Ans o × σ)
  finish : σ → κ → Except ε α → Option σ
  move : σ → μ → Option σ
  begins : ∀ s k p s', begin s k = some (p, s') → S.begins s k p s'
  answers : ∀ s tid k o a s', answer s tid k o = some (a, s') → S.answers s tid k ⟨o, a⟩ s'
  ends : ∀ s k r s', finish s k r = some s' → S.ends s k r s'
  moves : ∀ s m s', move s m = some s' → S.moves s m s'

namespace Player

variable {I : Interface} {ε α σ κ μ : Type} {S : System I ε α σ κ μ}
  (P : Player S) {allowed : Entry I ε α σ κ μ → Prop} {c : Config I ε α σ κ} {acts : List (Act κ μ)}

def answerTo (c : Config I ε α σ κ) (tid : Nat) (t : Thread I ε α κ) :
    (p : Talk I ε α) → t.talk = p → Option (Entry I ε α σ κ μ)
  | .ret _, _ => none
  | .ask o _, h => (P.answer c.shared tid t.call o).map fun r => ⟨c, .exchange tid ⟨o, r.1⟩,
      ⟨r.2, update c.threads tid (some (t.hear h r.1))⟩⟩

def endOf (c : Config I ε α σ κ) (tid : Nat) (t : Thread I ε α κ) :
    Talk I ε α → Option (Entry I ε α σ κ μ)
  | .ask _ _ => none
  | .ret r => (P.finish c.shared t.call r).map fun s =>
      ⟨c, .finish tid, ⟨s, update c.threads tid none⟩⟩

def act (c : Config I ε α σ κ) : Act κ μ → Option (Entry I ε α σ κ μ)
  | .call tid k =>
    match c.threads tid, P.begin c.shared k with
    | none, some (p, s) => some ⟨c, .call tid k,
        ⟨s, update c.threads tid (some (.start k p))⟩⟩
    | _, _ => none
  | .answer tid => (c.threads tid).bind fun t => P.answerTo c tid t t.talk rfl
  | .finish tid => (c.threads tid).bind fun t => P.endOf c tid t t.talk
  | .move m => (P.move c.shared m).map fun s => ⟨c, .move m, ⟨s, c.threads⟩⟩

/-- What is done, latest first, up to an act that is not possible. -/
def play (c : Config I ε α σ κ) : List (Act κ μ) → List (Entry I ε α σ κ μ) × Config I ε α σ κ
  | [] => ([], c)
  | a :: rest =>
    match P.act c a with
    | none => ([], c)
    | some e =>
      match play e.after rest with
      | (h, c') => (h ++ [e], c')

theorem answerTo_step {tid : Nat} {t : Thread I ε α κ} {e : Entry I ε α σ κ μ}
    (ht : c.threads tid = some t) {p : Talk I ε α} (hp : t.talk = p)
    (h : P.answerTo c tid t p hp = some e) : S.Step e ∧ e.before = c := by
  cases p with
  | ret r => cases h
  | ask o k =>
    obtain ⟨⟨a, s⟩, hans, rfl⟩ := Option.map_eq_some_iff.1 h
    exact ⟨.exchange ht (t.hears_hear hp a) (P.answers _ _ _ _ _ _ hans), rfl⟩

theorem endOf_step {tid : Nat} {t : Thread I ε α κ} {e : Entry I ε α σ κ μ}
    (ht : c.threads tid = some t) {p : Talk I ε α} (hp : t.talk = p)
    (h : P.endOf c tid t p = some e) : S.Step e ∧ e.before = c := by
  cases p with
  | ask o k => cases h
  | ret r =>
    obtain ⟨s, hfin, rfl⟩ := Option.map_eq_some_iff.1 h
    exact ⟨.finish ht hp (P.ends _ _ _ _ hfin), rfl⟩

theorem act_step {a : Act κ μ} {e : Entry I ε α σ κ μ} (h : P.act c a = some e) :
    S.Step e ∧ e.before = c := by
  cases a with
  | call tid k =>
    unfold act at h
    dsimp only at h
    split at h
    · next p s hfree hbegin =>
      cases h
      exact ⟨.call hfree (P.begins _ _ _ _ hbegin), rfl⟩
    · cases h
  | answer tid =>
    obtain ⟨t, ht, h⟩ := Option.bind_eq_some_iff.1 h
    exact P.answerTo_step ht rfl h
  | finish tid =>
    obtain ⟨t, ht, h⟩ := Option.bind_eq_some_iff.1 h
    exact P.endOf_step ht rfl h
  | move m =>
    obtain ⟨s, hmove, rfl⟩ := Option.map_eq_some_iff.1 h
    exact ⟨.move (P.moves _ _ _ hmove), rfl⟩

theorem play_run : S.Run (fun _ => True) c (P.play c acts).1 (P.play c acts).2 := by
  induction acts generalizing c with
  | nil => exact .nil
  | cons a rest ih =>
    unfold play
    split
    · exact .nil
    next e hact =>
    obtain ⟨hs, rfl⟩ := P.act_step hact
    exact .append (.step .nil trivial hs) ih

/-- A run of steps that all pass a test. -/
theorem play_tested {test : Entry I ε α σ κ μ → Bool}
    (htest : ∀ e, S.Step e → test e = true → allowed e)
    (hall : (P.play c acts).1.all test = true) :
    S.Run allowed c (P.play c acts).1 (P.play c acts).2 :=
  P.play_run.restrict fun e hmem hs => htest e hs (all_eq_true.1 hall e hmem)

end Player

end Dialogue
