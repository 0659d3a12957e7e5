/-
Tool calls at the vault, one at a time.

The handle sits behind a mutex. A call takes it for its stages and for its
execution, and its task says so in its history (`held`); a lock or an
unlock of the vault waits for it.
-/
import SovereignVault.Desktop.Approvals

namespace SovereignVault.Desktop

open Dialogue Talk Mcp Agents List

/-- While `e` happens the handle belongs to `tid`: no lock, no unlock, and
at the vault no other task. -/
structure Alone (tid : Nat) (e : GatewayEntry) : Prop where
  holder : e.before.shared.holder = some tid
  session : ¬ Turns e
  waits : ∀ tid' unlocked, e.event ≠ .exchange tid' ⟨.mcp .lockHandle, unlocked⟩
  operates : ∀ tid' op a, e.event = .exchange tid' ⟨.mcp (.facade op), a⟩ → tid' = tid

theorem held_append {new hd : List DesktopExchange}
    (hnew : ∀ e ∈ new, apart e = true) : held (new ++ hd) = held hd := by
  induction new with
  | nil => rfl
  | cons e new ih =>
    have he := hnew e mem_cons_self
    have hrest := ih fun e' hmem => hnew e' (mem_cons_of_mem _ hmem)
    obtain ⟨o, a⟩ := e
    cases o with
    | mcp o =>
      cases o with
      | lockHandle | unlockHandle | facade _ => cases he
      | _ => exact hrest
    | _ => exact hrest

theorem Expands.held {h : List McpExchange} {hd : List DesktopExchange}
    (hexp : Expands h hd) : held hd = holding h := by
  induction hexp with
  | nil => rfl
  | @mcp h hd o a _ _ ih =>
    cases o with
    | lockHandle | unlockHandle => rfl
    | _ => exact ih
  | authorize _ hnew ih | authenticate _ hnew ih => exact (held_append hnew.apart).trans ih

-- ==== the handle, as the gateway has it

section Steps

variable {estr : CoreError → String} {crates : Crates} {e : GatewayEntry} {c c₀ : GatewayConfig}
  {h : List GatewayEntry} {allowed : GatewayEntry → Prop} {tid : Nat}

theorem not_turns (hs : (gateway estr crates).Step e)
    (hholder : e.before.shared.holder = some tid) : ¬ Turns e := by
  intro hturns
  rcases hturns with hevent | ⟨w, hevent⟩
  · obtain ⟨⟨hfree, -⟩, -⟩ := hs.move_inv hevent
    rw [hholder] at hfree
    cases hfree
  · obtain ⟨⟨hfree, -⟩, -⟩ := hs.move_inv hevent
    rw [hholder] at hfree
    cases hfree

theorem not_locks (hs : (gateway estr crates).Step e) (hholder : e.before.shared.holder = some tid)
    (tid' : Nat) (unlocked : Bool) :
    e.event ≠ .exchange tid' ⟨.mcp .lockHandle, unlocked⟩ := by
  intro hevent
  obtain ⟨t, t', -, -, -, hfree, -⟩ := hs.exchange_inv hevent
  rw [hholder] at hfree
  cases hfree

/-- Only the holder gives the handle back. -/
theorem holder_step (hs : (gateway estr crates).Step e)
    (hholder : e.before.shared.holder = some tid)
    (hkeeps : ∀ a, e.event ≠ .exchange tid ⟨.mcp .unlockHandle, a⟩) :
    e.after.shared.holder = some tid := by
  have hsession := not_turns hs hholder
  have hlocks := not_locks hs hholder
  cases hs with
  | call hfree hbegins =>
    obtain ⟨conn, -, -, -, rfl⟩ := hbegins
    exact hholder
  | @exchange c tid' t t' ex s ht hhears hanswers =>
    obtain ⟨o, a⟩ := ex
    cases o with
    | mcp o =>
      cases o with
      | lockHandle => exact (hlocks tid' a rfl).elim
      | unlockHandle =>
        obtain ⟨hown, -⟩ := hanswers
        rw [hholder] at hown
        cases hown
        exact (hkeeps a rfl).elim
      | facade op =>
        obtain ⟨handle, -, hfacade⟩ := hanswers
        obtain ⟨world, registry, rfl⟩ := hfacade.part
        exact hholder
      | authenticate _ _ | authorize _ => exact hanswers.elim
      | checkRate _ | record _ | clock =>
        rw [show s = c.shared from hanswers]
        exact hholder
    | request _ =>
      rw [show s = c.shared from hanswers]
      exact hholder
    | epoch | registry =>
      rw [show s = c.shared from hanswers.2]
      exact hholder
  | finish ht hr hends =>
    obtain ⟨conn, response, pair, -, -, rfl⟩ := hends
    exact hholder
  | @move c m s hmoves =>
    cases m with
    | lock => exact (hsession (.inl rfl)).elim
    | unlock w => exact (hsession (.inr ⟨w, rfl⟩)).elim
    | command w | close n =>
      obtain ⟨-, rfl⟩ := hmoves
      exact hholder
    | startServers l agentId now =>
      obtain ⟨r, stored, -, rfl⟩ := hmoves
      exact hholder
    | stopServers =>
      rw [show s = _ from hmoves]
      exact hholder
    | accept =>
      obtain ⟨l, -, rfl⟩ := hmoves
      exact hholder
    | createAgent name scopes agentId token now | revokeAgent agentId =>
      obtain ⟨handle, a, -, r, stored, -, -, rfl⟩ := hmoves
      exact hholder

/-- A task that holds the handle, as far as it knows, holds it. -/
def Inside (c : GatewayConfig) : Prop :=
  ∀ tid t unlocked, c.threads tid = some t → held t.said = some unlocked →
    c.shared.holder = some tid

theorem Inside.step (hinside : Inside e.before) (hs : (gateway estr crates).Step e) :
    Inside e.after := by
  intro tid t unlocked ht hheld
  rcases hs.thread_cases ht with ⟨hbefore, hby⟩
      | ⟨frame, p, hevent, rfl, -⟩
      | ⟨ex, t₀, hevent, ht₀, hhears, hanswers⟩
  · refine holder_step hs (hinside tid t unlocked hbefore hheld) fun a hback => ?_
    rw [hback] at hby
    exact hby rfl
  · cases hheld
  · -- what the task has just said is its last word on the handle, or an aside
    rw [hhears.said] at hheld
    have hkept : held t₀.said = some unlocked → (∀ a, ex ≠ ⟨.mcp .unlockHandle, a⟩) →
        e.after.shared.holder = some tid := by
      intro hheld₀ hne
      refine holder_step hs (hinside tid t₀ unlocked ht₀ hheld₀) fun a hback => ?_
      rw [hevent] at hback
      cases hback
      exact hne a rfl
    obtain ⟨o, a⟩ := ex
    cases o with
    | mcp o =>
      cases o with
      | lockHandle => rw [hanswers.2.2]
      | unlockHandle => cases hheld
      | _ => exact hkept hheld nofun
    | _ => exact hkept hheld nofun

end Steps

/-- Tool calls operate on the vault one at a time. In every run, a task
operates on it only while the handle is its own, and until it gives it back
no other task does, and nobody locks or unlocks the vault. -/
theorem operations_isolated (estr : CoreError → String) (crates : Crates) (w : World)
    (registry : Registry) (epoch : Nat) (allowed : GatewayEntry → Prop) (h : List GatewayEntry)
    (c : GatewayConfig)
    (hrun : (gateway estr crates).Run allowed (launch w registry epoch) h c) (x : GatewayEntry)
    (hx : x ∈ h) (tid : Nat) :
    (∀ op a, x.event = .exchange tid ⟨.mcp (.facade op), a⟩ → Alone tid x)
    ∧ (x.before.shared.holder = some tid →
      (∀ a, x.event ≠ .exchange tid ⟨.mcp .unlockHandle, a⟩) →
      Alone tid x ∧ x.after.shared.holder = some tid) := by
  obtain ⟨later, earlier, rfl⟩ := append_of_mem hx
  obtain ⟨hbefore, -, hs⟩ := hrun.split
  have hinside : Inside x.before := hbefore.invariant (P := fun _ c => Inside c) nofun
    fun _ _ hi _ hs' => hi.step hs'
  -- an operation is asked for under the handle
  have hown : ∀ tid' op a, x.event = .exchange tid' ⟨.mcp (.facade op), a⟩ →
      x.before.shared.holder = some tid' := by
    intro tid' op a hevent
    obtain ⟨t, t', ht, hhears, -, -⟩ := hs.exchange_inv hevent
    obtain ⟨conn, -, hh, hexp, -, hholding, -⟩ :=
      ((sound_launch w registry epoch).run hbefore).asks ht hhears
    exact hinside tid' t true ht (hexp.held.trans hholding)
  have halone : x.before.shared.holder = some tid → Alone tid x := by
    intro hholder
    refine ⟨hholder, not_turns hs hholder, not_locks hs hholder, fun tid' op a hevent => ?_⟩
    have hother := hown tid' op a hevent
    rw [hholder] at hother
    exact (Option.some.inj hother).symm
  constructor
  · intro op a hevent
    exact halone (hown tid op a hevent)
  · intro hholder hkeeps
    exact ⟨halone hholder, holder_step hs hholder hkeeps⟩

open Sample

theorem operations_isolated_served : Alone 0 served.last :=
  (operations_isolated estr crates unlockedRoot registered 0 _ _ _
    (session_run (fun _ _ => trivial) fun _ _ _ => trivial) served.last mem_cons_self 0).1
    .listContainers _ rfl

end SovereignVault.Desktop
