/-
One-time codes: the pending challenges of `ApprovalState`, keyed by the
signature of the request they were issued for.

Each function that ends in `Section` is one critical section of the
source. Within a section the source reads the clock several times; each
reading has its own name in `Readings`. What a section invalidates (a
reveal attempt in flight) it returns, and the program asks for the
invalidation next.
-/
import SovereignVault.Desktop.Clicks

namespace SovereignVault.Desk

open Audit Presence

-- ==== the challenges

def OTP_TTL_SECS : Nat := 120

def OTP_MAX_ATTEMPTS : Nat := 5

def OTP_LOCKOUT_SECS : Nat := 300

def OTP_MAX_PENDING : Nat := 1024

structure Readings where
  prune : Nat
  entry : String → Nat
  lockout : Nat
  expiry : Nat
  validExpiry : Nat
  validLockout : Nat
  failure : Nat
  lockedOut : Nat
  issued : Nat
  finished : Nat

structure Readings.Within (r : Readings) (lo hi : Nat) : Prop where
  prune : lo ≤ r.prune ∧ r.prune ≤ hi
  entry : ∀ key, lo ≤ r.entry key ∧ r.entry key ≤ hi
  lockout : lo ≤ r.lockout ∧ r.lockout ≤ hi
  expiry : lo ≤ r.expiry ∧ r.expiry ≤ hi
  validExpiry : lo ≤ r.validExpiry ∧ r.validExpiry ≤ hi
  validLockout : lo ≤ r.validLockout ∧ r.validLockout ≤ hi
  failure : lo ≤ r.failure ∧ r.failure ≤ hi
  lockedOut : lo ≤ r.lockedOut ∧ r.lockedOut ≤ hi
  issued : lo ≤ r.issued ∧ r.issued ≤ hi
  finished : lo ≤ r.finished ∧ r.finished ≤ hi

def Readings.still (now : Nat) : Readings :=
  ⟨now, fun _ => now, now, now, now, now, now, now, now, now⟩

theorem Readings.still_within (now : Nat) : (Readings.still now).Within now now :=
  ⟨⟨le_rfl, le_rfl⟩,
    fun _ => ⟨le_rfl, le_rfl⟩, ⟨le_rfl, le_rfl⟩, ⟨le_rfl, le_rfl⟩, ⟨le_rfl, le_rfl⟩,
    ⟨le_rfl, le_rfl⟩, ⟨le_rfl, le_rfl⟩, ⟨le_rfl, le_rfl⟩, ⟨le_rfl, le_rfl⟩, ⟨le_rfl, le_rfl⟩⟩

structure OtpChallenge where
  code : String
  modalId : Nat
  issuedAt : Nat
  failedAttempts : Nat
  lockoutUntil : Option Nat
  isProtected : Bool
  gate : GateState
  op : OpDescriptor
  auditAction : AuditAction
  revealedModality : Option PresenceModality

namespace OtpChallenge

def new (code : String) (modalId : Nat) (isProtected : Bool)
    (op : OpDescriptor) (auditAction : AuditAction) (now : Nat) : OtpChallenge where
  code := code
  modalId := modalId
  issuedAt := now
  failedAttempts := 0
  lockoutUntil := none
  isProtected := isProtected
  gate := .pending
  op := op
  auditAction := auditAction
  revealedModality := none

def isExpired (chal : OtpChallenge) (now : Nat) : Bool :=
  now - chal.issuedAt > secs OTP_TTL_SECS

def isLockedOut (chal : OtpChallenge) (now : Nat) : Bool :=
  match chal.lockoutUntil with
  | some t => now < t
  | none => false

/-- `OtpChallenge::record_failure`; the counter is a byte and
saturates. -/
def recordFailure (chal : OtpChallenge) (now : Nat) : OtpChallenge :=
  let failedAttempts := min (chal.failedAttempts + 1) 255
  { chal with
    failedAttempts := failedAttempts
    lockoutUntil := if failedAttempts ≥ OTP_MAX_ATTEMPTS
      then some (now + secs OTP_LOCKOUT_SECS) else chal.lockoutUntil }

def validate (chal : OtpChallenge) (r : Readings) (supplied : String) : Bool :=
  if chal.isExpired r.validExpiry ∨ chal.isLockedOut r.validLockout then
    false
  -- a protected code works only after a verification of this request
  else if chal.isProtected ∧ ¬ chal.gate.isAuthenticatedFor chal.op.digest
    then false
  else supplied = chal.code

def attempt (chal : OtpChallenge) : Option Nat := chal.gate.attempt

end OtpChallenge

abbrev OtpStore := AList fun _ : String => OtpChallenge

def pruneExpired (r : Readings) (store : OtpStore) : OtpStore :=
  store.retain fun x => !x.2.isExpired (r.entry x.1) || x.2.isLockedOut r.prune

def canAdmitChallenge (store : OtpStore) (key : String) : Bool :=
  key ∈ store ∨ store.size < OTP_MAX_PENDING

-- ==== handle_otp

inductive OtpProcessResult where
  | accepted (modalId : Nat)
  | needFresh | lockedOut | invalid | expired

def processOtpRequest (r : Readings) (challenge : Option OtpChallenge)
    (supplied : Option String) : OtpProcessResult × Option OtpChallenge :=
  match supplied, challenge with
  | some supplied, some chal =>
    if chal.isLockedOut r.lockout then (.lockedOut, some chal)
    else if chal.isExpired r.expiry then (.expired, none)
    else if chal.validate r supplied then (.accepted chal.modalId, none)
    else (.invalid, some (chal.recordFailure r.failure))
  | some _, none => (.expired, none)
  | none, some chal =>
    if chal.isLockedOut r.lockout then (.lockedOut, some chal)
    else if chal.isExpired r.expiry then (.expired, none)
    else (.needFresh, some chal)
  | none, none => (.needFresh, none)

inductive OtpOutcome where
  | full
  | accepted (modalId : Nat) (removed : Option OtpChallenge)
  | vaultLocked
  | reused (chal : OtpChallenge) (shown : Bool)
  | needFresh
  | lockedOut (chal : Option OtpChallenge)
  | invalid (chal : Option OtpChallenge) (lockout : Bool)
  | expired

def handleOtpSection (r : Readings) (key : String)
    (supplied : Option String) (unlocked : Bool) (store : OtpStore) : OtpOutcome × OtpStore :=
  let store := pruneExpired r store
  if canAdmitChallenge store key = false then (.full, store)
  else
    let existingModalId := (store.lookup key).map OtpChallenge.modalId
    match processOtpRequest r (store.lookup key) supplied with
    | (.accepted modalId, _) =>
      if unlocked then
        (.accepted modalId (store.lookup key), store.erase key)
      else (.vaultLocked, store)
    | (.needFresh, some chal) =>
      (.reused chal (existingModalId ≠ some chal.modalId), store.insert key chal)
    | (.needFresh, none) => (.needFresh, store)
    | (.lockedOut, chal) => (.lockedOut chal, store)
    | (.invalid, none) => (.invalid none false, store)
    | (.invalid, some chal) =>
      -- a lockout disqualifies the gate: no finisher may erase it
      if chal.isLockedOut r.lockedOut then
        (.invalid (some chal) true, store.insert key { chal with gate := .pending })
      else (.invalid (some chal) false, store.insert key chal)
    | (.expired, _) => (.expired, store.erase key)

inductive IssueOutcome where
  | full
  | issued (id : Nat) (replaced : Option OtpChallenge)

def handleOtpFreshSection (r : Readings) (key code : String) (id : Nat) (isProtected : Bool)
    (op : OpDescriptor) (auditAction : AuditAction) (store : OtpStore) : IssueOutcome × OtpStore :=
  let store := pruneExpired r store
  if canAdmitChallenge store key = false then (.full, store)
  else
    (.issued id (store.lookup key), (store.erase key).insert key (.new code id isProtected
        (op.bind "request_id" (toString id)) auditAction r.issued))

-- ==== the expiry timer

def findModal (store : OtpStore) (id : Nat) : Option ((_ : String) × OtpChallenge) :=
  store.entries.find? fun x => x.2.modalId = id

inductive ExpireOutcome where
  | missing | valid
  | expired (attempt : Option Nat)

def expireSection (r : Readings) (id : Nat) (store : OtpStore) : ExpireOutcome × OtpStore :=
  match findModal store id with
  | none => (.missing, store)
  | some x =>
    if x.2.isExpired r.expiry = false then (.valid, store)
    -- an open lockout stays behind to limit the rate
    else if x.2.isLockedOut r.lockout then (.expired x.2.attempt, store)
    else (.expired x.2.attempt, store.erase x.1)

-- ==== reveal_otp

inductive RevealBegin where
  | unknown
  | plain (code : String)
  | busy (error : GateError)
  | begun (key : String) (attempt : Nat) (op : OpDescriptor) (deadline epoch : Nat)

def revealBeginSection (r : Readings) (modalId attempt epoch : Nat)
    (store : OtpStore) : RevealBegin × OtpStore :=
  let store := pruneExpired r store
  match findModal store modalId with
  | none => (.unknown, store)
  | some x =>
    if x.2.isProtected = false then (.plain x.2.code, store)
    else
      match x.2.gate.begin attempt x.2.op.digest with
      | .error e => (.busy e, store)
      | .ok gate =>
        (.begun x.1 attempt x.2.op (x.2.issuedAt + secs OTP_TTL_SECS) epoch,
          store.insert x.1 { x.2 with gate := gate })

inductive RevealFinish where
  | moved (removed : Option OtpChallenge)
  | notPending
  | lockedOut
  | failed (error : GateError)
  | code (code : String)
  | retry (error : PresenceError)
  | denied (removed : Option OtpChallenge) (denial : Denial)

def mine (chal : OtpChallenge) (modalId attempt : Nat) : Bool :=
  chal.modalId = modalId ∧ chal.attempt = some attempt

/-- The finisher's critical section; `moved` says that the vault is locked
or was, since the reveal began. -/
def revealFinishSection (r : Readings) (key : String) (modalId attempt deadline : Nat)
    (moved : Bool) (result : Except Denial Verified) (store : OtpStore) : RevealFinish × OtpStore :=
  let isMine := (store.lookup key).any fun c => mine c modalId attempt
  if moved then
    if isMine then (.moved (store.lookup key), store.erase key)
    else (.moved none, store)
  else
    match (store.lookup key).filter fun c => c.modalId = modalId with
    | none => (.notPending, store)
    | some chal =>
      if chal.isLockedOut r.lockout then (.lockedOut, store)
      else
        match result with
        | .ok verified =>
          match chal.gate.finish attempt verified.digest chal.op.digest
              deadline r.finished with
          | (.error e, gate) => (.failed e, store.insert key { chal with gate := gate })
          | (.ok (), gate) =>
            (.code chal.code, store.insert key
              { chal with
                gate := gate
                revealedModality := some verified.modality })
        | .error (.retryable e) =>
          (.retry e, store.insert key { chal with gate := chal.gate.abort attempt })
        | .error denial =>
          if isMine then (.denied (some chal) denial, store.erase key)
          else (.denied none denial, store)

def drainOtp (store : OtpStore) : List OtpChallenge × OtpStore :=
  (store.entries.map Sigma.snd, ∅)

end SovereignVault.Desk
