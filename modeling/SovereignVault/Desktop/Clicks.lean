/-
Click approvals: the pending requests of `ApprovalState` and the channels
their callers wait on.

Each function here is one critical section of the source. A request's
number is drawn from `next_id` in the step that registers it; the attempt
of a verification is begun under the lock and its number is an argument.
A oneshot channel is a state. Its sender lives in the entry, so whoever
removes an entry owns the right to decide it, and `send` uses it up.

Times are in nanoseconds. A signature is either the text of an agent's
request or the digest of a desktop operation; the two texts of the source
never agree, since no action is called `desktop`.
-/
import SovereignVault.Dialogue.Table
import SovereignVault.Mcp.Request
import SovereignVault.Presence

namespace SovereignVault.Desk

open Audit Presence
open Mcp (AccessAction AccessRequest)

-- ==== the requests

def secs (n : Nat) : Nat := n * 1000000000

def APPROVAL_TIMEOUT_SECS : Nat := 120

def escapeDebug (c : Char) : List Char :=
  match c with
  | '\t' => ['\\', 't']
  | '\r' => ['\\', 'r']
  | '\n' => ['\\', 'n']
  | '"' => ['\\', '"']
  | '\\' => ['\\', '\\']
  | c =>
    if c.toNat = 0 then ['\\', '0']
    else if c.toNat < 32 ∨ c.toNat = 127 then
      -- the number in hexadecimal, within braces
      ['\\', 'u', Char.ofNat 123] ++ Nat.toDigits 16 c.toNat ++ [Char.ofNat 125]
    else [c]

def debugString (s : String) : String :=
  "\"" ++ String.ofList (s.toList.flatMap escapeDebug) ++ "\""

def debugOption : Option String → String
  | none => "None"
  | some s => "Some(" ++ debugString s ++ ")"

def requestSignature (request : AccessRequest) : String :=
  request.action.debug ++ "|" ++ debugOption request.container ++ "|"
    ++ debugOption request.fileName ++ "|" ++ debugOption request.agentId
    ++ "|" ++ request.authorizationContext

inductive Signature where
  | access (signature : String)
  | desktop (digest : OpDigest)
  deriving DecidableEq

def opForAccess (request : AccessRequest) : OpDescriptor :=
  (((((((OpDescriptor.new "mcp_request").field "action"
    request.action.debug).field "container"
    (request.container.getD "")).field "file"
    (request.fileName.getD "")).field "agent"
    (request.agentId.getD "")).bind "mode"
    ((request.mode.map SecurityMode.asStr).getD "")).bind "byte_size"
    ((request.byteSize.map toString).getD "")).bind
    "authorization_context" request.authorizationContext

structure ClickRequest where
  actionLabel : String
  auditAction : AuditAction
  container : Option String
  fileName : Option String
  mode : Option SecurityMode
  signature : Signature
  op : OpDescriptor
  /-- May be approved while the vault is locked. -/
  preUnlock : Bool

namespace ClickRequest

def fromAccess (request : AccessRequest) : ClickRequest where
  actionLabel := request.action.debug
  auditAction := request.action.auditAction
  container := request.container
  fileName := request.fileName
  mode := request.mode
  signature := .access (requestSignature request)
  op := opForAccess request
  preUnlock := false

def desktop (label : String) (auditAction : AuditAction) (op : OpDescriptor) : ClickRequest where
  actionLabel := label
  auditAction := auditAction
  container := none
  fileName := none
  mode := none
  signature := .desktop op.digest
  op := op
  preUnlock := false

end ClickRequest

structure PendingApproval where
  otpCode : Option String
  signature : Signature
  isProtected : Bool
  gate : GateState
  deadline : Nat
  op : OpDescriptor
  auditAction : AuditAction
  preUnlock : Bool

def ClickRequest.entry (click : ClickRequest) (id : Nat)
    (isProtected : Bool) (deadline : Nat) : PendingApproval where
  otpCode := none
  signature := click.signature
  isProtected := isProtected
  gate := .pending
  deadline := deadline
  op := click.op.bind "request_id" (toString id)
  auditAction := click.auditAction
  preUnlock := click.preUnlock

-- ==== the channels

inductive Channel where
  | absent
  | waiting
  | sent (approved : Bool)
  | dropped
  | deaf
  /-- Received, or gone at both ends. -/
  | closed

namespace Channel

def send (approved : Bool) : Channel → Bool × Channel
  | .waiting => (true, .sent approved)
  | .deaf => (false, .closed)
  | c => (false, c)

def dropSender : Channel → Channel
  | .waiting => .dropped
  | .deaf => .closed
  | c => c

def hangUp : Channel → Channel
  | .waiting => .deaf
  | .absent => .absent
  | _ => .closed

end Channel

structure Clicks where
  pending : AList fun _ : Nat => PendingApproval
  channel : Nat → Channel

namespace Clicks

def empty : Clicks := ⟨∅, fun _ => .absent⟩

def setChannel (c : Clicks) (id : Nat) (f : Channel → Channel) : Clicks :=
  { c with channel := Function.update c.channel id (f (c.channel id)) }

def update (c : Clicks) (id : Nat) (entry : PendingApproval) : Clicks :=
  { c with pending := c.pending.insert id entry }

def remove (c : Clicks) (id : Nat) : Clicks :=
  { c with pending := c.pending.erase id }

-- ==== request_click

def Stale (entry : PendingApproval) (x : (_ : Nat) × PendingApproval) :
    Bool := x.2.signature = entry.signature

/-- The critical section of `request_click`: the requests it supersedes
are refused, and the new one is entered. -/
def register (c : Clicks) (id : Nat) (entry : PendingApproval) :
    List ((_ : Nat) × PendingApproval) × Clicks :=
  let stale := c.pending.entries.filter (Stale entry)
  (stale,
    { pending := (c.pending.retain fun x => !Stale entry x).insert id entry
      channel := Function.update (fun i => if i ∈ stale.map Sigma.fst
          then ((c.channel i).send false).2 else c.channel i)
        id .waiting })

inductive Outcome where
  | decided (approved : Bool)
  | closed
  | timedOut

-- ==== respond

/-- What the first critical section of `respond` comes to. -/
inductive RespondBegin where
  | unknown
  | wrongCode
  | expired (entry : PendingApproval)
  | declared (entry : PendingApproval)
  | busy (error : GateError)
  | begun (attempt : Nat) (op : OpDescriptor) (deadline : Nat)

def respondBegin (c : Clicks) (now attempt id : Nat)
    (otp : Option String) : RespondBegin × Clicks :=
  match c.pending.lookup id with
  | none => (.unknown, c)
  | some entry =>
    if entry.otpCode.isSome ∧ otp ≠ entry.otpCode then (.wrongCode, c)
    else if now > entry.deadline then (.expired entry, c.remove id)
    else if entry.isProtected = false then
      (.declared entry, c.remove id)
    else
      match entry.gate.begin attempt entry.op.digest with
      | .error e => (.busy e, c)
      | .ok gate =>
        (.begun attempt entry.op entry.deadline, c.update id { entry with gate := gate })

inductive RespondFinish where
  | gone
  | approved (entry : PendingApproval)
  | retry (error : PresenceError)
  | denied (entry : PendingApproval) (message : String)

def respondFinish (c : Clicks) (now id attempt : Nat)
    (result : Except Denial Verified) : RespondFinish × Clicks :=
  match c.pending.lookup id with
  | none => (.gone, c)
  | some entry =>
    match result with
    | .ok verified =>
      match entry.gate.finish attempt verified.digest entry.op.digest
          entry.deadline now with
      | (.error e, gate) => (.denied { entry with gate := gate } e.message, c.remove id)
      | (.ok (), gate) => (.approved { entry with gate := gate }, c.remove id)
    | .error (.retryable e) =>
      (.retry e, c.update id { entry with gate := entry.gate.abort attempt })
    | .error denial => (.denied entry denial.message, c.remove id)

def drain (c : Clicks) : List ((_ : Nat) × PendingApproval) × Clicks :=
  (c.pending.entries, { c with pending := ∅ })

end Clicks

end SovereignVault.Desk
