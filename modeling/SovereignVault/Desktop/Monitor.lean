/-
The session monitor: when a tick locks.

A tick reads when the vault was unlocked, the last human activity, the
limits and the clock, and locks if a limit is reached. It also locks if it
could not tell: `remaining_secs` says nothing both for a vault that is
locked and for a timer whose lock is contended, and the monitor takes
nothing for no time left. So a tick over a vault that was locked by hand
locks it again, with all that a lock ends.
-/
import SovereignVault.Desktop.Lawful
import SovereignVault.Desktop.Play

namespace SovereignVault.Desk

open Dialogue Talk Audit Presence

variable {x : DeskEntry}

-- ==== the timer

def AskedAt (h : List DeskEntry) (tid : Nat) (e : DeskExchange)
    (x : DeskEntry) (earlier : List DeskEntry) : Prop :=
  ∃ since, h = since ++ x :: earlier ∧ x.event = .exchange tid e
    ∧ ∀ y ∈ since, ∀ call, y.event ≠ .call tid call

section

variable {estr : CoreError → String} {c c' : DeskConfig}
  {h : List DeskEntry} {x : DeskEntry} {tid : Nat}

variable {t : Thread deskInterface String Reply Call}

theorem Run.asked {allowed : DeskEntry → Prop} (hrun : (desktop estr).Run allowed c h c')
    (hthreads : ∀ tid, c.threads tid = none) (ht : c'.threads tid = some t)
    {e : DeskExchange} (hmem : e ∈ t.said) : ∃ x earlier, AskedAt h tid e x earlier
      ∧ (desktop estr).Run allowed c earlier x.before ∧ allowed x
      ∧ Answers estr x.before.shared tid e x.after.shared := by
  obtain ⟨since, x, earlier, -, rfl, hr, hs, hx, -, -, hcalls⟩ := Run.mem_said hrun hthreads ht hmem
  exact ⟨x, earlier, ⟨since, rfl, hx, hcalls⟩, hr, hrun.split.2.1, step_answers hs hx⟩

end

def lockedByTick (c : DeskConfig) (tid : Nat) : Bool :=
  match c.threads tid with
  | none => false
  | some t =>
    match t.call, t.talk with
    | .tick, .ret _ => t.said.any fun e =>
      match e with
      | ⟨.slot (.publish none), _⟩ => true
      | _ => false
    | _, _ => false

theorem of_lockedByTick {c : DeskConfig} {tid : Nat} (h : lockedByTick c tid = true) :
    ∃ t r u, c.threads tid = some t ∧ t.call = .tick ∧ t.talk = .ret r
      ∧ ⟨.slot (.publish none), u⟩ ∈ t.said := by
  unfold lockedByTick at h
  split at h
  · cases h
  next t ht =>
  split at h
  · next r hcall hret =>
    obtain ⟨e, hmem, he⟩ := List.any_eq_true.1 h
    split at he
    · next u => exact ⟨t, r, u, ht, hcall, hret, hmem⟩
    · cases he
  · cases h

namespace Sample

def idleActs : List (Act Call Move) :=
  whole 0 (.unlock none) 10 ++ [.move (.pass (secs 600))] ++ [.call 1 .tick] ++ answers 1 15

def idleRun : List DeskEntry × DeskConfig :=
  plainPlayer.play (launch lockedRoot) idleActs

end Sample

open Sample

end SovereignVault.Desk
