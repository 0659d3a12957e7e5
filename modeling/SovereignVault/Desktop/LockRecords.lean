/-
The record of a lock is never written.

A lock is recorded with the key of the handle in the slot, by a helper
that gives up when it cannot take the guard at once or finds no handle.
`perform_vault_lock` and the monitor call it with the guard in their own
hands and the slot already empty, so the helper gives up every time.
-/
import SovereignVault.Desktop.Monitor

namespace SovereignVault.Desk

open Dialogue Talk Audit

-- ==== what is written

/-- The step writes the event to the audit log: under the guard of the
task, or with the guard free and a handle in the slot. -/
def Writes (x : DeskEntry) (tid : Nat) (event : AuditEvent) : Prop :=
  x.event = .exchange tid ⟨.slot (.record event), ()⟩
  ∨ x.event = .exchange tid ⟨.slot (.tryRecord event), ()⟩ ∧ x.before.shared.slot.holder = none
    ∧ x.before.shared.slot.world.handle.isSome

def Call.LocksFor : Call → String → Prop
  | .lock reason, r => r = reason
  | .tick, r => r = "session-cap" ∨ r = "idle-timeout"
  | _, _ => False

/-- The call a thread is in wrote the record of a lock, with the steps
`later` after it. -/
def LockRecord (h : List DeskEntry) (tid : Nat) (reason : String) (later : List DeskEntry) : Prop :=
  ∃ x earlier event, h = later ++ x :: earlier ∧ Writes x tid event
    ∧ event.action = .vaultLock ∧ event.detail = some s!"reason={reason}"
    ∧ ∀ y ∈ later, ∀ call, y.event ≠ .call tid call

def foundUnlocked : DeskExchange → Bool
  | ⟨.slot .lockHandle, unlocked⟩ => unlocked
  | _ => false

def LockedBy (c : DeskConfig) (tid : Nat) (call : Call) : Prop :=
  ∃ t r, c.threads tid = some t ∧ t.call = call ∧ t.talk = .ret r
    ∧ t.said.any foundUnlocked ∧ ∃ reason, call.LocksFor reason

def LocksRecorded (h : List DeskEntry) (c : DeskConfig) : Prop :=
  ∀ tid call, LockedBy c tid call →
    ∃ reason, call.LocksFor reason ∧ ∃! later, LockRecord h tid reason later

-- ==== what a lock asks

def LockAsks (hd : List DeskExchange) : DeskOp → Prop
  | .slot (.record _) => False
  | .slot (.tryRecord _) => (hold hd).isSome
  | _ => True

section

variable {h : List DeskExchange} {reason : String}

def Keeping (h h' : List DeskExchange) : Prop :=
  (hold h).isSome → (hold h').isSome

theorem wp_invalidate_keeping (attempt : Option Nat) : wp LockAsks (invalidate attempt)
      (fun r h' => r = .ok () ∧ Keeping h h') h := by
  cases attempt with
  | none => exact ⟨rfl, id⟩
  | some attempt => exact ⟨trivial, fun _ => ⟨rfl, id⟩⟩

theorem wp_lockAsks {α : Type} {rest : DeskM α} {R : Except String α → List DeskExchange → Prop}
    (hrest : ∀ h', (hold h').isSome → wp LockAsks rest R h') : wp LockAsks (do
      let _ ← ask (.slot .lockHandle)
      publishLocked
      clearAll
      clearOps
      rest) R h := by
  have hrefl (h : List DeskExchange) : Keeping h h := id
  have htrans {h₁ h₂ h₃ : List DeskExchange} (h₁₂ : Keeping h₁ h₂)
      (h₂₃ : Keeping h₂ h₃) : Keeping h₁ h₃ := h₂₃ ∘ h₁₂
  refine ⟨trivial, fun _ => ⟨trivial, fun _ => ⟨trivial, fun _ => ?_⟩⟩⟩
  show wp _ (Talk.bind clearAll _) _ _
  refine wp_seq (P := fun r h' => r = .ok () ∧ (hold h').isSome) ?_ ?_
  · refine wp_ask_then trivial fun drained => ?_
    refine wp_seq (wp_forEach hrefl htrans fun entry h' => ?_) ?_
    · refine wp_seq (wp_invalidate_keeping _) ?_
      rintro r h'' ⟨rfl, hkeeps⟩
      exact ⟨trivial, fun _ => ⟨rfl, hkeeps⟩⟩
    rintro r h₁ ⟨rfl, hkeeps⟩
    refine ⟨trivial, fun challenges => ?_⟩
    refine wp_mono (wp_forEach hrefl htrans fun chal h' => wp_invalidate_keeping _) ?_
    exact fun r h₂ hr => ⟨hr.1, hr.2 (hkeeps rfl)⟩
  rintro r h₁ ⟨rfl, hheld⟩
  show wp _ (Talk.bind clearOps _) _ _
  refine wp_seq (P := fun r h' => r = .ok () ∧ (hold h').isSome) ?_ ?_
  · refine wp_ask_then trivial fun drained => ?_
    refine wp_mono (wp_forEach hrefl htrans fun op h' => wp_invalidate_keeping _) ?_
    exact fun r h₂ hr => ⟨hr.1, hr.2 hheld⟩
  rintro r h₂ ⟨rfl, hheld₂⟩
  exact hrest h₂ hheld₂

theorem wp_tick_asks : wp LockAsks monitorTick (fun _ _ => True) h := by
  have hlock (reason : String) (h' : List DeskExchange) :
      wp LockAsks (do
        performVaultLockInternal reason
        pure Reply.done) (fun _ _ => True) h' := by
    show wp _ (Talk.bind (performVaultLockInternal reason) _) _ _
    rw [wp_bind]
    refine wp_lockAsks fun h'' hheld => ?_
    exact ⟨trivial, fun _ => ⟨hheld, fun _ => ⟨trivial, fun _ => trivial⟩⟩⟩
  have hremaining : wp LockAsks remainingSecs (fun r _ => ∃ a, r = .ok a) h := by
    refine wp_ask_then trivial fun unlockedAt => ?_
    split
    · refine wp_ask_then trivial fun lastActivity => ?_
      split
      · exact ⟨trivial, fun _ => ⟨trivial, fun _ => ⟨trivial, fun _ =>
          ⟨trivial, fun _ => ⟨_, rfl⟩⟩⟩⟩⟩
      · exact ⟨_, rfl⟩
    · exact ⟨_, rfl⟩
  refine wp_seq hremaining ?_
  rintro r h' ⟨remaining, rfl⟩
  show wp _ (if _ then _ else _) _ _
  split
  · exact hlock _ _
  · trivial

theorem locks_ask {call : Call} (hcall : call.LocksFor reason) :
    wp LockAsks call.prog (fun _ _ => True) [] := by
  cases call with
  | lock _ =>
    show wp _ (Talk.bind (performVaultLock _) _) _ _
    rw [wp_bind]
    refine wp_lockAsks fun h' hheld => ?_
    have hplan : (hold (⟨.plan .clear, ()⟩ :: h')).isSome := by simpa [hold, holdStep] using hheld
    exact ⟨trivial, fun _ => ⟨trivial, fun _ => ⟨hplan, fun _ => ⟨trivial, fun _ => trivial⟩⟩⟩⟩
  | tick => exact wp_tick_asks
  | _ => cases hcall

end

-- ==== runs

section

variable {estr : CoreError → String} {allowed : DeskEntry → Prop}
  {c c' : DeskConfig} {h : List DeskEntry} {tid : Nat} {reason : String}

theorem Run.unwritten {x : DeskEntry} (hrun : (desktop estr).Run allowed c h x.before)
    (hthreads : ∀ tid, c.threads tid = none) (hs : (desktop estr).Step x)
    {t : Thread deskInterface String Reply Call} (ht : x.before.threads tid = some t)
    (hcall : t.call.LocksFor reason) (event : AuditEvent) : ¬ Writes x tid event := by
  have hwp := locks_ask hcall
  rw [← Run.origin hrun hthreads tid t ht] at hwp
  have hguard {e : DeskExchange} (hevent : x.event = .exchange tid e) : LockAsks t.said e.op := by
    obtain ⟨t₀, t', ht₀, hhears, -⟩ := hs.exchange_inv hevent
    rw [ht] at ht₀
    cases ht₀
    exact hhears.guard hwp
  rintro (hevent | ⟨hevent, hfree, -⟩)
  · exact hguard hevent
  · obtain ⟨held, hheld⟩ := Option.isSome_iff_exists.1 (hguard hevent)
    have hholder := (Run.holds hrun hthreads tid t held ht hheld).1
    rw [hfree] at hholder
    cases hholder

theorem Run.no_lockRecord (hrun : (desktop estr).Run allowed c h c')
    (hthreads : ∀ tid, c.threads tid = none) {call : Call} (hlocked : LockedBy c' tid call)
    (later : List DeskEntry) : ¬ LockRecord h tid reason later := by
  rintro ⟨x, earlier, event, rfl, hwrites, -, -, hcalls⟩
  obtain ⟨t, r, ht, hcall, -, -, reason', hfor⟩ := hlocked
  obtain ⟨hr, -, hs⟩ := hrun.split
  obtain ⟨e, hevent⟩ : ∃ e, x.event = .exchange tid e := by
    rcases hwrites with h | ⟨h, -⟩
    · exact ⟨_, h⟩
    · exact ⟨_, h⟩
  obtain ⟨t₀, t₁, ht₀, hhears, ht₁, -⟩ := hs.exchange_inv hevent
  -- the thread is in the call it was in then
  obtain ⟨-, hsame, -⟩ := hrun.tail.said_suffix ht₁ hcalls ht
  have hcall₀ : t₀.call.LocksFor reason' := by rwa [← hhears.call, ← hsame, hcall]
  exact Run.unwritten hr hthreads hs ht₀ hcall₀ event hwrites

/-- Every lock of an unlocked vault is recorded in exactly those histories
that have none. -/
theorem locks_recorded_iff (hfresh : Fresh c) (hrun : (desktop estr).Run allowed c h c') :
    LocksRecorded h c' ↔ ∀ tid call, ¬ LockedBy c' tid call := by
  refine ⟨fun hrec tid call hlocked => ?_, fun hnone tid call hlocked =>
    absurd hlocked (hnone tid call)⟩
  obtain ⟨reason, -, later, hlater, -⟩ := hrec tid call hlocked
  exact Run.no_lockRecord hrun hfresh.threads hlocked later hlater

end

/-- A vault that is locked is locked by hand. -/
def Sample.lockRun : List DeskEntry × DeskConfig :=
  plainPlayer.play (launch lockedRoot) (.call 0 (.lock "manual") :: answers 0 10)

open Sample

theorem locks_recorded_locked : LocksRecorded lockRun.1 lockRun.2
    ∧ ∃ t r, lockRun.2.threads 0 = some t ∧ t.call = .lock "manual" ∧ t.talk = .ret r := by
  refine ⟨?_, _, _, rfl, rfl, rfl⟩
  have hrun : (desktop estr).Run (fun _ => True) (launch lockedRoot) lockRun.1 lockRun.2 :=
    plainPlayer.play_run
  refine (locks_recorded_iff (launch_fresh _) hrun).2 ?_
  rintro tid call ⟨t, r, ht, -, -, hfound, -⟩
  cases tid with
  | zero =>
    have hnot : (lockRun.2.threads 0).any (·.said.any foundUnlocked) = false := by decide +kernel
    rw [ht, Option.any_some, hfound] at hnot
    cases hnot
  | succ n => cases ht

/-- After ten idle minutes a tick locks the vault, and no record is
written. -/
theorem idle_lock_unrecorded : ∃ h c', (desktop estr).Run (fun _ => True) (launch lockedRoot) h c'
      ∧ LockedBy c' 1 .tick ∧ ¬ LocksRecorded h c' := by
  have hrun : (desktop estr).Run (fun _ => True) (launch lockedRoot) idleRun.1 idleRun.2 :=
    plainPlayer.play_run
  have hlocked : LockedBy idleRun.2 1 .tick := by
    have htick : lockedByTick idleRun.2 1 = true := by decide +kernel
    obtain ⟨t, r, -, ht, hcall, hret, -⟩ := of_lockedByTick htick
    have hfound : (idleRun.2.threads 1).any (·.said.any foundUnlocked) = true := by decide +kernel
    rw [ht] at hfound
    exact ⟨t, r, ht, hcall, hret, hfound, _, .inl rfl⟩
  refine ⟨_, _, hrun, hlocked, fun hrec => ?_⟩
  obtain ⟨reason, -, later, hlater, -⟩ := hrec 1 .tick hlocked
  exact Run.no_lockRecord hrun (fun _ => rfl) hlocked later hlater

end SovereignVault.Desk
