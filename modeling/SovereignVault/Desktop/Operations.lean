/-
The desktop's gated operations: the registry `DesktopOps`, and what a gate
gives out.

An operation is registered under its digest. Its number, its deadline and
its classification are set when it is entered and stay until it ends; only
its gate moves, so a second call for the same operation finds it verifying
and is turned away.
-/
import SovereignVault.Dialogue.Table
import SovereignVault.Presence

namespace SovereignVault.Desk

open Audit Presence

-- ==== the gate

structure GatePass where
  presence : PresenceAudit
  digest : OpDigest
  epoch : Nat
  operationId : String

structure GateDenied where
  isProtected : Bool
  message : String
  operationId : String

def GateDenied.audit (denied : GateDenied) : PresenceAudit :=
  ⟨denied.isProtected, none, none, some denied.operationId⟩

def GatePass.ensureSame (pass : GatePass) (opNow : OpDescriptor) : Except GateDenied Unit :=
  if opNow.digest = pass.digest then .ok ()
  else .error ⟨pass.presence.isProtected,
    "operation changed during verification", pass.operationId⟩

inductive GatedError where
  | rejected (message : String)
  | failed (message : String)

def GatedError.message : GatedError → String
  | .rejected m | .failed m => m

-- ==== the registry

structure PendingDesktopOp where
  id : Nat
  deadline : Nat
  isProtected : Bool
  gate : GateState
  deriving DecidableEq

structure DesktopOps where
  next : Nat
  ops : AList fun _ : OpDigest => PendingDesktopOp

namespace DesktopOps

def empty : DesktopOps := ⟨0, ∅⟩

def live (s : DesktopOps) (now : Nat) : AList fun _ : OpDigest => PendingDesktopOp :=
  s.ops.retain fun x => x.2.deadline > now

def findOrCreate (s : DesktopOps) (now : Nat) (digest : OpDigest)
    (deadline : Nat) (isProtected : Bool) : PendingDesktopOp × Nat :=
  match (s.live now).lookup digest with
  | some op => (op, s.next)
  | none => (⟨s.next + 1, deadline, isProtected, .pending⟩, s.next + 1)

def begin (s : DesktopOps) (now : Nat) (digest : OpDigest) (deadline : Nat)
    (isProtected : Bool) (attempt : Nat) : Except GateError PendingDesktopOp × DesktopOps :=
  let (op, next) := s.findOrCreate now digest deadline isProtected
  match op.gate.begin attempt digest with
  | .error e => (.error e, ⟨next, (s.live now).insert digest op⟩)
  | .ok gate =>
    (.ok { op with gate := gate }, ⟨next, (s.live now).insert digest { op with gate := gate }⟩)

def retry (s : DesktopOps) (digest : OpDigest) (id attempt : Nat) : DesktopOps :=
  match s.ops.lookup digest with
  | none => s
  | some op =>
    if op.id = id then
      { s with ops := s.ops.insert digest { op with gate := op.gate.abort attempt } }
    else s

def finish (s : DesktopOps) (digest : OpDigest) (id : Nat) : DesktopOps :=
  match s.ops.lookup digest with
  | none => s
  | some op =>
    if op.id = id then { s with ops := s.ops.erase digest } else s

def drain (s : DesktopOps) : List PendingDesktopOp × DesktopOps :=
  (s.ops.entries.map Sigma.snd, { s with ops := ∅ })

end DesktopOps

end SovereignVault.Desk
