/-
`sv-presence`: what is approved, and the state of one request's
verification.

An operation is described field by field, and its digest is taken over a
length-prefixed encoding of the whole description. The digest is modelled
as the description itself: SHA-256 is taken to be free of collisions, and
the encoding is injective.

The native prompt is outside.
-/
import SovereignVault.Audit.Record

namespace SovereignVault.Presence

open Audit

-- ==== operations

structure Field where
  name : String
  value : String
  shown : Bool
  deriving DecidableEq

structure OpDescriptor where
  kind : String
  fields : List Field
  deriving DecidableEq

def OpDescriptor.new (kind : String) : OpDescriptor := ⟨kind, []⟩

def OpDescriptor.field (op : OpDescriptor) (name value : String) : OpDescriptor :=
  { op with fields := op.fields ++ [⟨name, value, true⟩] }

def OpDescriptor.bind (op : OpDescriptor) (name value : String) : OpDescriptor :=
  { op with fields := op.fields ++ [⟨name, value, false⟩] }

structure OpDigest where
  op : OpDescriptor
  deriving DecidableEq

def OpDescriptor.digest (op : OpDescriptor) : OpDigest := ⟨op⟩

-- ==== verification

inductive PresenceError where
  | cancelled | failed | busy | exhausted | disabledByPolicy
  | notConfigured | unavailable | timeout

def PresenceError.message : PresenceError → String
  | .cancelled => "verification was cancelled"
  | .failed => "verification failed"
  | .busy => "the verification device is busy"
  | .exhausted => "too many failed attempts; verification is locked out"
  | .disabledByPolicy => "verification is disabled by policy"
  | .notConfigured => "no verification method is configured for this user"
  | .unavailable => "verification is unavailable"
  | .timeout => "verification timed out"

inductive Denial where
  | retryable (e : PresenceError)
  | denied (e : PresenceError)
  | expired
  | queueFull
  | invalidated

def Denial.message : Denial → String
  | .retryable e => s!"presence not confirmed: {e.message}; you can try again"
  | .denied e => s!"presence verification denied: {e.message}"
  | .expired => "presence verification expired"
  | .queueFull => "queue_full: too many requests are waiting for presence verification"
  | .invalidated => "presence verification invalidated: the request was "
      ++ "refused, expired, or the vault locked"

/-- `Verified`; the digest is the digest of the operation that was put to
the device's owner. -/
structure Verified where
  attempt : Nat
  digest : OpDigest
  modality : PresenceModality

-- ==== the gate

inductive GateState where
  | pending
  | verifying (attempt : Nat) (digest : OpDigest)
  | authenticated (digest : OpDigest)
  deriving DecidableEq

inductive GateError where
  | alreadyVerifying | notPending | staleAttempt | digestMismatch | expired

def GateError.message : GateError → String
  | .alreadyVerifying => "a verification is already in progress for this request"
  | .notPending => "the request is not awaiting verification"
  | .staleAttempt => "the verification result belongs to an older attempt"
  | .digestMismatch => "the request changed during verification"
  | .expired => "the request expired during verification"

namespace GateState

def begin (gate : GateState) (attempt : Nat) (digest : OpDigest) : Except GateError GateState :=
  match gate with
  | .pending => .ok (.verifying attempt digest)
  | .verifying _ _ => .error .alreadyVerifying
  | .authenticated _ => .error .notPending

def finish (gate : GateState) (attempt : Nat)
    (granted current : OpDigest) (deadline now : Nat) : Except GateError Unit × GateState :=
  match gate with
  | .verifying active digest =>
    if active ≠ attempt then (.error .staleAttempt, gate)
    else if digest ≠ granted ∨ digest ≠ current then
      (.error .digestMismatch, .pending)
    else if now > deadline then (.error .expired, .pending)
    else (.ok (), .authenticated digest)
  | gate => (.error .staleAttempt, gate)

def abort (gate : GateState) (attempt : Nat) : GateState :=
  match gate with
  | .verifying active digest =>
    if active = attempt then .pending else .verifying active digest
  | gate => gate

def isAuthenticatedFor (gate : GateState) (digest : OpDigest) : Bool :=
  match gate with
  | .authenticated d => d = digest
  | _ => false

def attempt : GateState → Option Nat
  | .verifying attempt _ => some attempt
  | _ => none

section

variable {gate gate' : GateState} {attempt deadline now : Nat} {digest granted current : OpDigest}

theorem begin_ok (h : gate.begin attempt digest = .ok gate') :
    gate = .pending ∧ gate' = .verifying attempt digest := by
  cases gate with
  | pending =>
    cases h
    exact ⟨rfl, rfl⟩
  | _ => cases h

theorem finish_ok (h : gate.finish attempt granted current deadline now = (.ok (), gate')) :
    gate = .verifying attempt current ∧ granted = current
      ∧ now ≤ deadline ∧ gate' = .authenticated current := by
  cases gate with
  | verifying active digest =>
    unfold finish at h
    dsimp only at h
    split at h
    · cases h
    next hactive =>
    split at h
    · cases h
    next hdigest =>
    split at h
    · cases h
    next htime =>
    cases h
    simp only [not_or, not_not] at hactive hdigest
    obtain ⟨rfl, rfl⟩ := hdigest
    exact ⟨by rw [hactive], rfl, Nat.le_of_not_lt htime, rfl⟩
  | _ => cases h

theorem finish_error {e : GateError} (h : gate.finish attempt granted current deadline now
      = (.error e, gate')) : gate' = gate ∨ gate' = .pending := by
  cases gate with
  | verifying active digest =>
    unfold finish at h
    dsimp only at h
    split at h
    · cases h
      exact .inl rfl
    split at h
    · cases h
      exact .inr rfl
    · split at h
      · cases h
        exact .inr rfl
      · cases h
  | _ =>
    cases h
    exact .inl rfl

theorem abort_cases (gate : GateState) (attempt : Nat) :
    gate.abort attempt = gate ∨ gate.abort attempt = .pending := by
  cases gate with
  | verifying active digest =>
    unfold abort
    dsimp only
    split
    · exact .inr rfl
    · exact .inl rfl
  | _ => exact .inl rfl

theorem isAuthenticatedFor_iff :
    gate.isAuthenticatedFor digest = true ↔ gate = .authenticated digest := by
  cases gate with
  | _ => simp [isAuthenticatedFor]

end

end GateState

end SovereignVault.Presence
