/-
What each task of the desktop asks, and what must have come before.

`Lawful` is the guard of every call. A decision for a click is sent only by
a response that removed the entry (`Approving`); a code is put to its
challenge under the guard of the handle; a challenge is issued only after
the store was found without one; a closure runs only on a pass that was
obtained and is consumed (`Passed`); a file is read only on a consent
(`Consented`); the stores are drained only by who emptied the slot.
-/
import SovereignVault.Desktop.System

namespace SovereignVault.Desk

open Dialogue Talk Audit Presence List
open Mcp (AccessAction AccessRequest)

-- ==== histories

/-- An approval is sent on: a click that needed no more, or a
verification. -/
inductive Approving (id : Nat) : List DeskExchange → Prop where
  | declared {otp : Option String} {entry : PendingApproval}
      {event : AuditEvent} {t : Nat} {u : Unit} {hd : List DeskExchange} :
      Approving id (⟨.slot (.record event), u⟩ :: ⟨.outside .utcNow, t⟩
        :: ⟨.click (.respondBegin id otp), .declared entry⟩
        :: ⟨.slot .lockHandle, true⟩ :: hd)
  | preUnlock {otp : Option String} {entry : PendingApproval}
      {hd : List DeskExchange} (hpre : entry.preUnlock = true) :
      Approving id (⟨.click (.respondBegin id otp), .declared entry⟩
        :: ⟨.slot .lockHandle, false⟩ :: hd)
  | verified {otp : Option String}
      {entry : PendingApproval} {attempt : Nat} {op : OpDescriptor} {deadline : Nat}
      {r : Except Denial PresenceModality} {event : AuditEvent} {t : Nat} {u u' : Unit}
      {hd : List DeskExchange} : Approving id (⟨.slot (.record event), u⟩ :: ⟨.outside .utcNow, t⟩
        :: ⟨.click (.respondFinish id attempt
            (r.map fun modality => ⟨attempt, op.digest, modality⟩)),
          .approved entry⟩
        :: ⟨.slot .lockHandle, true⟩
        :: ⟨.outside (.verify attempt op deadline), r⟩
        :: ⟨.slot .unlockHandle, u'⟩
        :: ⟨.click (.respondBegin id otp), .begun attempt op deadline⟩
        :: hd)

/-- How a gate was passed: `e` is the consent, with what came between the
operation's beginning and it (`mid`) and since. -/
def Consents (op : OpDescriptor) (attempt : Nat) (pending : PendingDesktopOp)
    (since : List DeskExchange) (e : DeskExchange) (mid : List DeskExchange) : Prop :=
  (pending.isProtected = false ∧ ∃ click id stale, click.op = op
    ∧ e = ⟨.click (.await id pending.deadline), .decided true⟩
    ∧ ⟨.click (.register click false pending.deadline), (id, stale)⟩ ∈ mid)
  ∨ pending.isProtected = true ∧ ∃ modality now,
    e = ⟨.outside (.verify attempt op pending.deadline), .ok modality⟩
    ∧ now ≤ pending.deadline
    ∧ ⟨.outside .now, now⟩ ∈ since

/-- A pass was obtained: a consent between two readings of the same epoch,
for the operation that was begun after the first. -/
def Obtained (op : OpDescriptor) (n : Nat) (hd : List DeskExchange) : Prop :=
  ∃ since e mid deadline attempt pending now before,
    hd = since ++ e :: (mid ++ ⟨.ops (.begin op.digest deadline),
        (attempt, .ok pending)⟩ :: ⟨.outside .now, now⟩
      :: ⟨.slot .epoch, n⟩ :: before)
    ∧ ⟨.slot .epoch, n⟩ ∈ since
    ∧ Consents op attempt pending since e mid

/-- The history of a pass that is consumed: the guard is taken, and the
epoch under it is that of the pass. -/
def consumed (n : Nat) (before : List DeskExchange) : List DeskExchange :=
  ⟨.slot .epoch, n⟩ :: ⟨.slot .lockHandle, true⟩ :: before

def Passed (digest : OpDigest) (n : Nat) (hd : List DeskExchange) : Prop :=
  ∃ op before, op.digest = digest ∧ hd = consumed n before ∧ Obtained op n before

def told (e : DeskExchange) : Option (Option SecurityMode) :=
  match e with
  | ⟨.slot (.containerMode _), r⟩ => some r.toOption
  | ⟨.slot .lockHandle, false⟩ => some none
  | _ => none

def lookup : List DeskExchange → Option (Option SecurityMode)
  | [] => none
  | e :: hd =>
    match lookup hd with
    | some mode => some mode
    | none => told e

/-- The closure of a command's read has begun, on a pass for it. -/
def InClosure (op : OpDescriptor) (hd : List DeskExchange) : Prop :=
  ∃ n u before, hd = ⟨.slot (.closure op.digest n), u⟩ :: consumed n before ∧ Obtained op n before

/-- What a read of a command's file rests on: no mode, DIRECT, or a
pass. -/
def Consented (cmd : Command) (hd : List DeskExchange) : Prop :=
  ∃ mode, lookup hd = some mode ∧ (mode = none ∨ mode = some .direct ∨ InClosure (cmd.op mode) hd)

def WasRead (cmd : Command) (bytes : Bytes) (hd : List DeskExchange) : Prop :=
  ⟨.slot (.readFile cmd.container cmd.fileName), .ok bytes⟩ ∈ hd

/-- The store was found without a challenge for the key, by this task and
last of all it asked there. -/
def issuing : List DeskExchange → Option String
  | [] => none
  | e :: hd =>
    match e with
    | ⟨.otp (.request key _ _), .needFresh⟩ => some key
    | ⟨.otp (.request key _ _), .expired⟩ => some key
    | ⟨.otp _, _⟩ => none
    | _ => issuing hd

def numbers : List DeskExchange → List Nat
  | [] => []
  | e :: hd =>
    match e with
    | ⟨.click (.register _ _ _), registered⟩ => registered.1 :: numbers hd
    | _ => numbers hd

/-- The operation a task has begun and not ended: its digest, the attempt
and what was registered. -/
def inFlight : List DeskExchange → Option (OpDigest × Nat × PendingDesktopOp)
  | [] => none
  | e :: hd =>
    match e with
    | ⟨.ops (.begin digest _), (attempt, .ok pending)⟩ => some (digest, attempt, pending)
    | ⟨.ops (.begin _ _), (_, .error _)⟩ => none
    | ⟨.ops (.retry _ _ _), _⟩ => none
    | ⟨.ops (.finish _ _), _⟩ => none
    | _ => inFlight hd

/-- What is said on the side: no request is entered, no operation begun or
ended. -/
structure Aside (h h' : List DeskExchange) : Prop where
  suffix : h <:+ h'
  numbers : numbers h' = numbers h
  inFlight : inFlight h' = inFlight h

def Showing (id : Nat) (isProtected : Bool) (otpCode : Option String)
    (hd : List DeskExchange) : Prop :=
  ∀ code, otpCode = some code → isProtected = false
    ∧ ((∃ key op auditAction replaced, ⟨.otp (.issue key code false op auditAction),
          .issued id replaced⟩ ∈ hd)
      ∨ ∃ key supplied unlocked chal shown,
        ⟨.otp (.request key supplied unlocked), .reused chal shown⟩ ∈ hd
        ∧ chal.modalId = id ∧ chal.code = code
        ∧ chal.isProtected = false)

def Finishing (key : String) (modalId attempt deadline : Nat)
    (moved : Bool) (result : Except Denial Verified) (hd : List DeskExchange) : Prop :=
  ∃ op epoch epoch' unlocked r before, hd = ⟨.slot .epoch, epoch'⟩ :: ⟨.slot .lockHandle, unlocked⟩
      :: ⟨.outside (.verify attempt op deadline), r⟩
      :: ⟨.otp (.revealBegin modalId), .begun key attempt op deadline epoch⟩ :: before
    ∧ moved = (!unlocked || epoch' ≠ epoch)
    ∧ result = r.map fun modality => ⟨attempt, op.digest, modality⟩

/-- What a tick of the monitor reads if it can. -/
structure TickReading where
  unlocked : Nat
  idle : Nat
  idleLimit : Nat
  absoluteLimit : Nat
  idleNow : Nat
  absoluteNow : Nat

def TickReading.asked (r : TickReading) : List DeskExchange :=
  [⟨.outside .now, r.absoluteNow⟩, ⟨.outside .now, r.idleNow⟩,
    ⟨.timer .loadAbsoluteSessionSecs, r.absoluteLimit⟩, ⟨.timer .loadIdleTimeoutSecs, r.idleLimit⟩,
    ⟨.timer .loadActivity, some r.idle⟩, ⟨.timer .loadUnlockedAt, some (some r.unlocked)⟩]

def TickReading.LimitReached (r : TickReading) : Prop :=
  r.idleLimit ≤ asSecs (r.idleNow - r.idle) ∨ r.absoluteLimit ≤ asSecs (r.absoluteNow - r.unlocked)

inductive TickLocks : List DeskExchange → Prop where
  | reached {reading : TickReading} (h : reading.LimitReached) : TickLocks reading.asked
  | notUnlocked {r : Option (Option Nat)}
      (h : ∀ unlocked, r ≠ some (some unlocked)) : TickLocks [⟨.timer .loadUnlockedAt, r⟩]
  | contended {unlocked : Nat} : TickLocks [⟨.timer .loadActivity, none⟩,
        ⟨.timer .loadUnlockedAt, some (some unlocked)⟩]

/-- A lock went through: the slot was emptied and the stores drained. -/
structure WentThrough (hd : List DeskExchange) : Prop where
  published : ∃ u, ⟨.slot (.publish none), u⟩ ∈ hd
  clicks : ∃ l, ⟨.click .drain, l⟩ ∈ hd
  otp : ∃ l, ⟨.otp .drain, l⟩ ∈ hd
  ops : ∃ l, ⟨.ops .drain, l⟩ ∈ hd

def TickEnded (hd : List DeskExchange) : Prop :=
  (∃ new before, hd = new ++ before ∧ TickLocks before ∧ WentThrough hd)
  ∨ ∃ reading : TickReading, hd = reading.asked ∧ ¬ reading.LimitReached

-- ==== the guard

def Call.byHand : Call → Bool
  | .lock _ => true
  | _ => false

def Call.locks : Call → Bool
  | .lock _ | .tick | .unlock _ | .unlockRecovery => true
  | _ => false

/-- What a call may ask at a point of its history. -/
def Lawful (call : Call) (hd : List DeskExchange) : DeskOp → Prop
  | .slot .unlockHandle => call.byHand = true → ∀ x, hold hd = some x →
      x.locked = true → x.cleared = true
  | .slot (.publish none) => call.locks = true
      ∧ (call.byHand = true → ∃ x, hold hd = some x ∧ x.cleared = false)
      ∧ (call = .tick → ∃ unlocked before,
        hd = ⟨.slot .lockHandle, unlocked⟩ :: before ∧ TickLocks before)
  | .slot (.closure digest n) => Passed digest n hd
  | .slot (.containerMode container) => ∃ cmd, call = .release cmd ∧ container = cmd.container
  | .slot (.readFile container fileName) => ∃ cmd, call = .release cmd
      ∧ container = cmd.container ∧ fileName = cmd.fileName
      ∧ Consented cmd hd
  | .outside (.writeExport destination bytes) => ∃ cmd,
      call = .release cmd ∧ cmd.destination = some destination
      ∧ WasRead cmd bytes hd
  | .outside (.emit id isProtected otpCode) => Showing id isProtected otpCode hd
  | .click (.respondBegin id otp) => call = .respond id true otp
  | .click (.send id true) => Approving id hd
  | .click .drain | .otp .drain | .ops .drain => ∃ x, hold hd = some x ∧ x.locked = true
  | .otp (.request key supplied unlocked) => ∃ r, call = .request r
      ∧ key = requestSignature r ∧ supplied = r.otp
      ∧ (supplied.isSome = true → ∃ before, hd = ⟨.slot .lockHandle, unlocked⟩ :: before)
  | .otp (.issue key _ _ op _) => ∃ r, call = .request r
      ∧ key = requestSignature r ∧ op = opForAccess r
      ∧ issuing hd = some key
  | .otp (.revealFinish key modalId attempt deadline moved result) =>
    call = .reveal modalId
    ∧ Finishing key modalId attempt deadline moved result hd
  | .ops (.retry digest id attempt) => ∃ pending,
      inFlight hd = some (digest, attempt, pending) ∧ pending.id = id
  | .ops (.finish digest id) => ∃ attempt pending,
      inFlight hd = some (digest, attempt, pending) ∧ pending.id = id
  | .plan (.insert _) => ∃ x, hold hd = some x
  | .plan (.ingest plan) => call.byHand = false ∧ ∃ id before x,
      hd = ⟨.plan (.live id), some plan⟩ :: before ∧ hold before = some x
  | _ => True

def Returned (cmd : Command) (r : Except String Reply) (hd : List DeskExchange) : Prop :=
  ∀ bytes, r = .ok (.bytes bytes) → WasRead cmd bytes hd

def Granted (request : AccessRequest) (r : Except String Reply) (hd : List DeskExchange) : Prop :=
  approvalRequirement request = .ok .otp → ∀ reply, r = .ok reply → ∃ unlocked id removed,
      ⟨.otp (.request (requestSignature request) request.otp unlocked),
        .accepted id removed⟩ ∈ hd

def Uncovered (modalId : Nat) (r : Except String Reply) (hd : List DeskExchange) : Prop :=
  ∀ code, r = .ok (.code code) → ⟨.otp (.revealBegin modalId), .plain code⟩ ∈ hd
    ∨ ∃ key attempt deadline moved result,
      ⟨.otp (.revealFinish key modalId attempt deadline moved result),
        .code code⟩ ∈ hd

structure Ended (call : Call) (r : Except String Reply) (hd : List DeskExchange) : Prop where
  returned : ∀ cmd, call = .release cmd → Returned cmd r hd
  granted : ∀ request, call = .request request → Granted request r hd
  uncovered : ∀ modalId, call = .reveal modalId → Uncovered modalId r hd
  ticked : call = .tick → TickEnded hd
  released : call.byHand = true → hold hd = none

-- ==== small tasks

section Small

variable {call : Call} {h : List DeskExchange} {α : Type}

/-- A task asks only what the guard lets it, whatever comes of it. -/
abbrev Asks (call : Call) (p : DeskM α) (h : List DeskExchange) : Prop :=
  wp (Lawful call) p (fun _ _ => True) h

theorem Asks.bind {β : Type} {p : DeskM β} {g : β → DeskM α}
    {R : Except String β → List DeskExchange → Prop} (hp : wp (Lawful call) p R h)
    (hg : ∀ a h', Asks call (g a) h') : Asks call (p.bind g) h := by
  refine wp_seq hp fun r h' _ => ?_
  cases r with
  | ok a => exact hg a h'
  | error e => trivial

def Call.unlocks : Call → Bool
  | .unlock _ | .unlockRecovery => true
  | _ => false

theorem Call.byHand_of_unlocks (hcall : call.unlocks = true) : call.byHand = false := by
  cases call with
  | lock => cases hcall
  | _ => rfl

theorem lawful_publish_none (hcall : call.unlocks = true) :
    Lawful call h (.slot (.publish none)) := by
  cases call with
  | unlock | unlockRecovery => exact ⟨rfl, nofun, nofun⟩
  | _ => cases hcall

theorem wp_forEach {G : List DeskExchange → DeskOp → Prop}
    {f : α → DeskM Unit} {l : List α} {R : List DeskExchange → List DeskExchange → Prop}
    (hrefl : ∀ h, R h h) (htrans : ∀ {h₁ h₂ h₃}, R h₁ h₂ → R h₂ h₃ → R h₁ h₃)
    (hf : ∀ a h, wp G (f a) (fun r h' => r = .ok () ∧ R h h') h) :
    wp G (forEach f l) (fun r h' => r = .ok () ∧ R h h') h := by
  induction l generalizing h with
  | nil => exact ⟨rfl, hrefl h⟩
  | cons a l ih =>
    refine wp_seq (hf a h) ?_
    rintro r h' ⟨rfl, hR⟩
    exact wp_mono ih fun r h'' hr => ⟨hr.1, htrans hR hr.2⟩

theorem Aside.refl (h : List DeskExchange) : Aside h h := ⟨suffix_rfl, rfl, rfl⟩

theorem Aside.trans {h₁ h₂ h₃ : List DeskExchange} (h : Aside h₁ h₂)
    (h' : Aside h₂ h₃) : Aside h₁ h₃ :=
  ⟨h.suffix.trans h'.suffix, h'.numbers.trans h.numbers, h'.inFlight.trans h.inFlight⟩

theorem wp_invalidate (attempt : Option Nat) : wp (Lawful call) (invalidate attempt)
      (fun r h' => r = .ok () ∧ Aside h h' ∧ hold h' = hold h
        ∧ issuing h' = issuing h) h := by
  cases attempt with
  | none => exact ⟨rfl, .refl h, rfl, rfl⟩
  | some attempt =>
    exact ⟨trivial, fun _ => ⟨rfl, ⟨suffix_cons _ _, rfl, rfl⟩,
      rfl, rfl⟩⟩

section

variable (hcall : call.byHand = false)
include hcall

theorem lawful_unlock : Lawful call h (.slot .unlockHandle) := by
  intro hlock
  rw [hcall] at hlock
  cases hlock

theorem wp_recordDesktopEventLocked (event : AuditEvent) :
    wp (Lawful call) (recordDesktopEventLocked event)
      (fun r h' => r = .ok () ∧ Aside h h') h := by
  refine wp_ask_then trivial fun unlocked => ?_
  cases unlocked with
  | true =>
    refine wp_ask_then trivial fun _ => ⟨lawful_unlock hcall, fun _ => ?_⟩
    exact ⟨rfl, ⟨[_, _, _], rfl⟩, rfl, rfl⟩
  | false => exact ⟨lawful_unlock hcall, fun _ => ⟨rfl, ⟨[_, _], rfl⟩, rfl, rfl⟩⟩

theorem wp_auditDenied (action : AuditAction) (presence : PresenceAudit)
    (transport : String) (error : Option String) :
    wp (Lawful call) (auditDenied action presence transport error)
      (fun r h' => r = .ok () ∧ Aside h h') h := by
  refine ⟨trivial, fun t => ?_⟩
  refine wp_mono (wp_recordDesktopEventLocked hcall _) ?_
  have hnow : Aside h (⟨.outside .utcNow, t⟩ :: h) := ⟨suffix_cons _ _, rfl, rfl⟩
  exact fun r h' hr => ⟨hr.1, hnow.trans hr.2⟩

theorem asks_record (action : AuditAction) (decision : AuditDecision)
    (f : AuditEvent → AuditEvent) {rest : DeskM α} (hrest : ∀ h', Asks call rest h') :
    Asks call (do
      let event ← newEvent action decision "desktop-ui"
      recordDesktopEventLocked (f event)
      rest) h :=
  wp_ask_then trivial fun _ => Asks.bind (wp_recordDesktopEventLocked hcall _) fun _ => hrest

end

end Small

-- ==== clicks

section Clicks

variable {call : Call} {h : List DeskExchange} {otp : Option String} {id : Nat}

section

variable (hcall : call.byHand = false)
include hcall

variable {classification : Option Bool} {deadlineAt : Option Nat}
  {isProtected : Bool} {deadline : Nat} (click : ClickRequest)

theorem wp_reapTimeout (id : Nat) : wp (Lawful call) (reapTimeout id)
      (fun r h' => r = .ok () ∧ Aside h h') h := by
  refine wp_ask_then trivial fun removed => ?_
  have htaken : Aside h (⟨.click (.take id), removed⟩ :: h) := ⟨suffix_cons _ _, rfl, rfl⟩
  cases removed with
  | none => exact ⟨rfl, htaken⟩
  | some entry =>
    refine wp_seq (wp_invalidate _) ?_
    rintro r h₁ ⟨rfl, ha₁, -⟩
    refine ⟨trivial, fun u => ?_⟩
    have hdropped : Aside h₁ (⟨.click (.dropSender id), u⟩ :: h₁) := ⟨suffix_cons _ _, rfl, rfl⟩
    refine wp_mono (wp_auditDenied hcall _ _ _ _) ?_
    rintro r h₂ ⟨rfl, ha₂⟩
    exact ⟨rfl, htaken.trans (ha₁.trans (hdropped.trans ha₂))⟩

/-- `request_click` returns; if it returns `Ok`, the one request it
entered was decided so, and that is the last it heard. -/
def Clicked (click : ClickRequest)
    (classification : Option Bool) (deadlineAt : Option Nat) (h : List DeskExchange)
    (r : Except String (Except String Unit)) (h' : List DeskExchange) : Prop :=
  h <:+ h' ∧ inFlight h' = inFlight h ∧ ∃ a, r = .ok a ∧ (a = .ok () →
    ∃ isProtected deadline id stale mid,
      h' = ⟨.click (.await id deadline), .decided true⟩ :: (mid ++ h)
      ∧ ⟨.click (.register click isProtected deadline), (id, stale)⟩ ∈ mid
      ∧ numbers h' = id :: numbers h
      ∧ (∀ c, classification = some c → isProtected = c)
      ∧ ∀ d, deadlineAt = some d → deadline = d)

theorem wp_awaitClick {click : ClickRequest}
    (hprotected : ∀ c, classification = some c → isProtected = c)
    (hdeadline : ∀ d, deadlineAt = some d → deadline = d) {id : Nat}
    {stale : List ((_ : Nat) × PendingApproval)} {mid : List DeskExchange}
    (hmem : ⟨.click (.register click isProtected deadline), (id, stale)⟩ ∈ mid)
    (hnumbers : numbers (mid ++ h) = id :: numbers h) (hflight : inFlight (mid ++ h) = inFlight h) :
    wp (Lawful call) (do
      let outcome ← ask (.click (.await id deadline))
      clickOutcome id outcome)
      (Clicked click classification deadlineAt h) (mid ++ h) := by
  refine wp_ask_then trivial fun outcome => ?_
  have hsuffix : h <:+ (⟨.click (.await id deadline), outcome⟩ :
      DeskExchange) :: (mid ++ h) := ⟨_ :: mid, rfl⟩
  match outcome, hsuffix with
  | .decided true, hsuffix =>
    exact ⟨hsuffix, hflight, _, rfl, fun _ => ⟨isProtected, deadline, id,
      stale, mid, rfl, hmem, hnumbers, hprotected, hdeadline⟩⟩
  | .decided false, hsuffix => exact ⟨hsuffix, hflight, _, rfl, nofun⟩
  | .closed, hsuffix => exact ⟨hsuffix, hflight, _, rfl, nofun⟩
  | .timedOut, hsuffix =>
    refine wp_seq (wp_reapTimeout hcall id) ?_
    rintro r h' ⟨rfl, haside⟩
    exact ⟨hsuffix.trans haside.suffix, haside.inFlight.trans hflight, _, rfl, nofun⟩

theorem wp_registerClick (hprotected : ∀ c, classification = some c → isProtected = c)
    (hdeadline : ∀ d, deadlineAt = some d → deadline = d)
    {h₀ : List DeskExchange} (haside : Aside h h₀) : wp (Lawful call) (do
      let registered ← ask (.click (.register click isProtected deadline))
      let id := registered.1
      forEach (fun x => invalidate x.2.gate.attempt) registered.2
      forEach (fun x => auditDenied x.2.auditAction
        (denied x.2.isProtected s!"approval-{x.1}") "desktop-ui"
        (some "superseded")) registered.2
      let shown ← ask (.outside (.emit id isProtected none))
      match shown with
      | .error e => do
        ask (.click (.hangUp id))
        pure (.error e)
      | .ok () => do
        let outcome ← ask (.click (.await id deadline))
        clickOutcome id outcome)
      (Clicked click classification deadlineAt h) h₀ := by
  refine wp_ask_then trivial fun registered => ?_
  obtain ⟨id, stale⟩ := registered
  -- all that follows is on the side
  let h₁ : List DeskExchange := ⟨.click (.register click isProtected deadline), (id, stale)⟩ :: h₀
  refine wp_seq (wp_forEach Aside.refl Aside.trans fun x h' =>
    wp_mono (wp_invalidate _) fun r h'' hr => ⟨hr.1, hr.2.1⟩) ?_
  rintro r h₂ ⟨rfl, hP₂⟩
  refine wp_seq (wp_forEach Aside.refl Aside.trans fun x h' => wp_auditDenied hcall _ _ _ _) ?_
  rintro r h₃ ⟨rfl, hP₃⟩
  have hP₃ : Aside h₁ h₃ := hP₂.trans hP₃
  have hshow : Lawful call h₃ (.outside (.emit id isProtected none)) := nofun
  have hflight : inFlight h₃ = inFlight h := hP₃.inFlight.trans haside.inFlight
  refine ⟨hshow, fun shown => ?_⟩
  cases shown with
  | error e =>
    refine ⟨trivial, fun _ => ⟨?_, hflight, _, rfl,
      nofun⟩⟩
    exact (haside.suffix.trans ((suffix_cons _ _).trans hP₃.suffix)).trans ⟨[_, _], rfl⟩
  | ok _ =>
    obtain ⟨m₁, hm₁⟩ := hP₃.suffix
    obtain ⟨m₀, hm₀⟩ := haside.suffix
    let mid : List DeskExchange :=
      ⟨.outside (.emit id isProtected none), .ok ()⟩
        :: (m₁ ++ ⟨.click (.register click isProtected deadline), (id, stale)⟩ :: m₀)
    have hmid : (⟨.outside (.emit id isProtected none), .ok ()⟩ :
        DeskExchange) :: h₃ = mid ++ h := by
      rw [← hm₁]
      simp [mid, h₁, hm₀]
    have hmem : ⟨.click (.register click isProtected deadline),
        (id, stale)⟩ ∈ mid := by simp [mid]
    have hnumbers : numbers h₃ = id :: numbers h :=
      hP₃.numbers.trans (congrArg (id :: ·) haside.numbers)
    rw [hmid]
    refine wp_awaitClick hcall hprotected hdeadline hmem ?_ ?_
    · rw [← hmid]
      exact hnumbers
    · rw [← hmid]
      exact hflight

theorem wp_requestClick (classification : Option Bool) (deadlineAt : Option Nat) :
    wp (Lawful call) (requestClick click classification deadlineAt)
      (Clicked click classification deadlineAt h) h := by
  cases classification with
  | some c =>
    cases deadlineAt with
    | some d =>
      exact wp_registerClick hcall click (fun _ heq => Option.some.inj heq)
        (fun _ heq => Option.some.inj heq) (.refl h)
    | none =>
      refine ⟨trivial, fun now => ?_⟩
      exact wp_registerClick hcall click (fun _ heq => Option.some.inj heq)
        (fun _ heq => by cases heq) ⟨⟨[_], rfl⟩, rfl, rfl⟩
  | none =>
    refine ⟨trivial, fun c => ?_⟩
    cases deadlineAt with
    | some d =>
      exact wp_registerClick hcall click (fun _ heq => by cases heq)
        (fun _ heq => Option.some.inj heq) ⟨⟨[_], rfl⟩, rfl, rfl⟩
    | none =>
      refine ⟨trivial, fun now => ?_⟩
      exact wp_registerClick hcall click (fun _ heq => by cases heq)
        (fun _ heq => by cases heq) ⟨⟨[_, _], rfl⟩, rfl, rfl⟩

-- ==== responses

omit hcall in
theorem asks_sentResult (sent : Bool) : Asks call (sentResult sent) h := by
  cases sent with
  | true | false => trivial

theorem asks_refuseFrom (id : Nat) (transport : String) :
    Asks call (refuseFrom id transport) h := by
  refine wp_ask_then trivial fun removed => ?_
  cases removed with
  | none => trivial
  | some entry =>
    refine Asks.bind (wp_invalidate _) fun _ _ => wp_ask_then trivial fun sent => ?_
    exact Asks.bind (wp_auditDenied hcall _ _ _ _) fun _ _ => asks_sentResult sent

theorem asks_refuseAndThrow (id : Nat) (message : String) :
    Asks call (refuseAndThrow id message) h :=
  ⟨trivial, fun _ => ⟨lawful_unlock hcall, fun _ => trivial⟩⟩

/-- What an approval needs is what its record comes after. -/
theorem asks_approveUnderGuard {action : AuditAction} {presence : PresenceAudit}
    (happroving : ∀ event t u,
      Approving id (⟨.slot (.record event), u⟩ :: ⟨.outside .utcNow, t⟩ :: h)) :
    Asks call (approveUnderGuard id action presence) h := by
  refine ⟨trivial, fun t => ⟨trivial, fun u => ⟨happroving _ t u, fun sent => ?_⟩⟩⟩
  exact ⟨lawful_unlock hcall, fun _ => asks_sentResult sent⟩

theorem asks_respondDeclared {entry : PendingApproval} (unlocked : Bool) :
    Asks call (respondDeclared id entry unlocked)
      (⟨.click (.respondBegin id otp), .declared entry⟩
        :: ⟨.slot .lockHandle, unlocked⟩ :: h) := by
  cases unlocked with
  | true => exact asks_approveUnderGuard hcall fun _ _ _ => .declared
  | false =>
    show wp _ (if _ then _ else _) _ _
    split
    · next hpre =>
      refine ⟨Approving.preUnlock hpre, fun sent => ⟨lawful_unlock hcall, fun _ => ?_⟩⟩
      exact asks_sentResult sent
    · exact asks_refuseAndThrow hcall id _

theorem asks_respondFinisher {attempt deadline : Nat} {op : OpDescriptor}
    {r : Except Denial PresenceModality} {u : Unit} : Asks call (respondFinisher id attempt
      (r.map fun modality => ⟨attempt, op.digest, modality⟩))
      (⟨.outside (.verify attempt op deadline), r⟩ :: ⟨.slot .unlockHandle, u⟩
        :: ⟨.click (.respondBegin id otp), .begun attempt op deadline⟩ :: h) := by
  refine wp_ask_then trivial fun unlocked => ?_
  refine wp_ask_then trivial fun finished => ?_
  cases finished with
  | gone | retry e => exact ⟨lawful_unlock hcall, fun _ => trivial⟩
  | approved entry =>
    cases unlocked with
    | true => exact asks_approveUnderGuard hcall fun _ _ _ => .verified
    | false => exact asks_refuseAndThrow hcall id _
  | denied entry message =>
    refine wp_ask_then (lawful_unlock hcall) fun _ => wp_ask_then trivial fun _ => ?_
    exact Asks.bind (wp_auditDenied hcall _ _ _ _) fun _ _ => trivial

end

theorem asks_respondApprove (id : Nat) (otp : Option String) :
    Asks (.respond id true otp) (respondApprove id otp) h := by
  have hcall : (Call.respond id true otp).byHand = false := rfl
  refine wp_ask_then trivial fun unlocked => ?_
  refine wp_ask_then rfl fun first => ?_
  cases first with
  | unknown | wrongCode | busy e => exact ⟨lawful_unlock hcall, fun _ => trivial⟩
  | expired entry =>
    refine Asks.bind (wp_invalidate _) fun _ _ => wp_ask_then trivial fun _ => ?_
    refine wp_ask_then (lawful_unlock hcall) fun _ => ?_
    exact Asks.bind (wp_auditDenied hcall _ _ _ _) fun _ _ => trivial
  | declared entry => exact asks_respondDeclared hcall unlocked
  | begun attempt op deadline =>
    refine ⟨lawful_unlock hcall, fun _ => ⟨trivial, fun r => ?_⟩⟩
    exact asks_respondFinisher hcall

end Clicks

-- ==== one-time codes

section Codes

variable {request : AccessRequest} {h : List DeskExchange}
  {Q : Except String Reply → List DeskExchange → Prop} {call : Call}
  (modalId : Nat) (supplied : Option String) (chal : Option OtpChallenge)

theorem wp_handleOtpFresh (hQ : ∀ e h, Q (.error e) h)
    (hissuing : issuing h = some (requestSignature request)) :
    wp (Lawful (.request request)) (handleOtpFresh request) Q h := by
  refine wp_ask_then trivial fun generated => ?_
  cases generated with
  | error e => exact hQ _ _
  | ok code =>
    refine wp_ask_then trivial fun isProtected => ?_
    refine wp_ask_then ⟨request, rfl, rfl, rfl, hissuing⟩ fun issued => ?_
    cases issued with
    | full => exact hQ _ _
    | issued id replaced =>
      refine wp_seq (wp_invalidate _) ?_
      rintro r h₁ ⟨rfl, hs, -⟩
      have hshow : Lawful (.request request) h₁ (.outside (.emit id isProtected
            (modalCode isProtected code))) := by
        intro code' hcode
        cases isProtected with
        | true => cases hcode
        | false =>
          cases hcode
          exact ⟨rfl, .inl ⟨_, _, _, _, hs.suffix.mem mem_cons_self⟩⟩
      refine ⟨hshow, fun shown => ?_⟩
      cases shown with
      | error e | ok _ => exact hQ _ _

theorem wp_unlockFor {P : List DeskExchange → Prop}
    (hP : ∀ h', h <:+ h' → issuing h' = issuing h → P h') :
    wp (Lawful (.request request)) (unlockFor supplied) (fun r h' => r = .ok () ∧ P h') h := by
  cases supplied with
  | some s => exact ⟨lawful_unlock rfl, fun _ => ⟨rfl, hP _ (suffix_cons _ _) rfl⟩⟩
  | none => exact ⟨rfl, hP _ suffix_rfl rfl⟩

theorem wp_auditOtp (error : String) : wp (Lawful (.request request)) (auditOtp chal error)
      (fun r _ => r = .ok ()) h := by
  unfold auditOtp
  split
  · rfl
  · exact wp_mono (wp_auditDenied rfl _ _ _ _) fun _ _ hr => hr.1

theorem wp_unlockFor_then {α : Type} {g : Unit → DeskM α}
    {R : Except String α → List DeskExchange → Prop} (hg : ∀ h', h <:+ h' → issuing h' = issuing h →
      wp (Lawful (.request request)) (g ()) R h') :
    wp (Lawful (.request request)) ((unlockFor supplied).bind g) R h := by
  refine wp_seq (wp_unlockFor (P := fun h' =>
    wp (Lawful (.request request)) (g ()) R h') supplied hg) ?_
  rintro r h' ⟨rfl, hwp⟩
  exact hwp

theorem wp_auditOtp_throw (error message : String) (hQ : ∀ e h, Q (.error e) h) :
    wp (Lawful (.request request)) (do
      auditOtp chal error
      throw message) Q h := by
  refine wp_seq (wp_auditOtp chal error) ?_
  rintro r h' rfl
  exact hQ _ _

theorem wp_otpFinish (hQ : ∀ e h, Q (.error e) h) (hok : ∀ unlocked id removed h',
      ⟨.otp (.request (requestSignature request) request.otp unlocked),
        .accepted id removed⟩ ∈ h' → Q (.ok .done) h') (unlocked : Bool) (outcome : OtpOutcome) :
    wp (Lawful (.request request)) (otpFinish request outcome) Q
      (⟨.otp (.request (requestSignature request) request.otp unlocked), outcome⟩ :: h) := by
  cases outcome with
  | full | vaultLocked => exact wp_unlockFor_then _ fun _ _ _ => hQ _ _
  | accepted modalId removed =>
    cases removed with
    | none => exact wp_unlockFor_then _ fun _ _ _ => hQ _ _
    | some removed =>
      refine ⟨trivial, fun _ => ⟨trivial, fun _ => ?_⟩⟩
      refine wp_unlockFor_then _ fun h' hs _ => hok unlocked modalId (some removed) h' (hs.mem ?_)
      simp
  | reused chal shown =>
    show wp _ (if _ then _ else _) _ _
    split
    · have hshow : ∀ h' : List DeskExchange, ⟨.otp (.request (requestSignature request) request.otp
            unlocked), .reused chal shown⟩ ∈ h' →
          Lawful (.request request) h' (.outside (.emit chal.modalId
            chal.isProtected (modalCode chal.isProtected chal.code))) := by
        intro h' hmem code' hcode
        cases hp : chal.isProtected with
        | true =>
          rw [hp] at hcode
          cases hcode
        | false =>
          rw [hp] at hcode
          exact ⟨rfl, .inr ⟨_, _, _, chal, shown, hmem, rfl, Option.some.inj hcode, hp⟩⟩
      refine ⟨hshow _ mem_cons_self, fun r => ?_⟩
      cases r with
      | error e | ok _ => exact hQ _ _
    · exact hQ _ _
  | needFresh => exact wp_handleOtpFresh hQ rfl
  | lockedOut chal => exact wp_unlockFor_then _ fun _ _ _ => wp_auditOtp_throw _ _ _ hQ
  | invalid chal lockout =>
    cases lockout with
    | true =>
      refine wp_seq (wp_invalidate _) ?_
      rintro r h₁ ⟨rfl, -⟩
      exact wp_unlockFor_then _ fun _ _ _ => wp_auditOtp_throw _ _ _ hQ
    | false => exact wp_unlockFor_then _ fun _ _ _ => wp_auditOtp_throw _ _ _ hQ
  | expired =>
    refine wp_unlockFor_then _ fun h' _ hissuing => ?_
    exact wp_handleOtpFresh hQ hissuing

theorem wp_handleOtp (hQ : ∀ e h, Q (.error e) h) (hok : ∀ unlocked id removed h',
      ⟨.otp (.request (requestSignature request) request.otp unlocked),
        .accepted id removed⟩ ∈ h' → Q (.ok .done) h') :
    wp (Lawful (.request request)) (handleOtp request) Q h := by
  have hrest := fun h' => @wp_otpFinish request h' Q hQ hok
  unfold handleOtp
  cases hotp : request.otp with
  | some supplied =>
    refine wp_ask_then trivial fun unlocked => ?_
    refine wp_ask_then ⟨request, rfl, rfl, hotp.symm, fun _ => ⟨_, rfl⟩⟩ fun outcome => ?_
    rw [hotp] at hrest
    exact hrest _ unlocked outcome
  | none =>
    refine ⟨⟨request, rfl, rfl, hotp.symm, nofun⟩, fun outcome => ?_⟩
    rw [hotp] at hrest
    exact hrest _ false outcome

theorem wp_request : wp (Lawful (.request request)) (Desk.request request) (Granted request) h := by
  have herror : ∀ e h, Granted request (.error e) h := nofun
  unfold Desk.request
  split
  · exact herror _ _
  · next hnone =>
    intro hotp
    rw [hnone] at hotp
    cases hotp
  · next hclick =>
    refine wp_seq (wp_requestClick rfl _ _ _) ?_
    rintro r h' ⟨-, -, a, rfl, -⟩
    cases a with
    | error e => exact herror _ _
    | ok _ =>
      intro hotp
      rw [hclick] at hotp
      cases hotp
  · exact wp_handleOtp herror fun unlocked id removed h' hmem _ _ _ => ⟨unlocked, id, removed, hmem⟩

theorem wp_auditReveal (hcall : call.byHand = false) (removed : Option OtpChallenge)
    (error : String) : wp (Lawful call) (auditReveal removed error) (fun r _ => r = .ok ()) h := by
  cases removed with
  | none => rfl
  | some chal => exact wp_mono (wp_auditDenied hcall _ _ _ _) fun _ _ hr => hr.1

theorem wp_revealOutcome (hcall : call.byHand = false) (hQ : ∀ e h, Q (.error e) h)
    (r : RevealFinish) (hok : ∀ code, r = .code code → Q (.ok (.code code)) h) :
    wp (Lawful call) (revealOutcome r) Q h := by
  cases r with
  | code code => exact hok code rfl
  | moved removed | denied removed denial =>
    refine wp_seq (wp_auditReveal hcall _ _) ?_
    rintro r h' rfl
    exact hQ _ _
  | _ => exact hQ _ _

theorem wp_revealOtp : wp (Lawful (.reveal modalId)) (revealOtp modalId) (Uncovered modalId) h := by
  have herror : ∀ e h, Uncovered modalId (.error e) h := nofun
  refine wp_ask_then trivial fun first => ?_
  cases first with
  | unknown | busy e => exact herror _ _
  | plain code =>
    intro code' heq
    cases heq
    exact .inl mem_cons_self
  | begun key attempt op deadline epoch =>
    refine ⟨trivial, fun r => ⟨trivial, fun unlocked => ⟨trivial, fun epoch' => ?_⟩⟩⟩
    refine ⟨⟨rfl, op, epoch, epoch', unlocked, r, h, rfl, rfl, rfl⟩,
      fun finished => ⟨lawful_unlock rfl, fun _ => ?_⟩⟩
    refine wp_revealOutcome rfl herror finished ?_
    rintro code rfl code' heq
    cases heq
    exact .inr ⟨key, attempt, deadline, _, _, mem_cons_of_mem _ mem_cons_self⟩

theorem asks_expireOtp : Asks call (expireOtp modalId) h := by
  refine wp_ask_then trivial fun outcome => ?_
  cases outcome with
  | expired attempt => exact Asks.bind (wp_invalidate _) fun _ _ => trivial
  | _ => trivial

end Codes

-- ==== gates

section Gates

variable {call : Call} {h : List DeskExchange} {α ε : Type} {P : α → List DeskExchange → Prop}
  {pending : PendingDesktopOp} {h' : List DeskExchange} {click : ClickRequest} {op : OpDescriptor}

def Gated (op : OpDescriptor) (h : List DeskExchange)
    (r : Except String (Except GateDenied GatePass)) (h' : List DeskExchange) : Prop :=
  h <:+ h' ∧ ∃ a, r = .ok a ∧ ∀ pass, a = .ok pass →
    pass.digest = op.digest ∧ Obtained op pass.epoch h'

theorem gated_error (hs : h <:+ h') (denied : GateDenied) : Gated op h (.ok (.error denied)) h' :=
  ⟨hs, _, rfl, nofun⟩

def begun (op : OpDescriptor) (deadline attempt now epoch : Nat)
    (pending : PendingDesktopOp) (h : List DeskExchange) : List DeskExchange :=
  ⟨.ops (.begin op.digest deadline), (attempt, .ok pending)⟩
    :: ⟨.outside .now, now⟩ :: ⟨.slot .epoch, epoch⟩ :: h

theorem suffix_begun (op : OpDescriptor) (deadline attempt now epoch : Nat)
    (pending : PendingDesktopOp) : h <:+ begun op deadline attempt now epoch pending h :=
  ⟨[_, _, _], rfl⟩

theorem clickGate_gated (hcall : call.byHand = false)
    (hdeclared : pending.isProtected = false) {deadline attempt now epoch : Nat} :
    wp (Lawful call) (clickGate click pending epoch) (Gated click.op h)
      (begun click.op deadline attempt now epoch pending h) := by
  refine wp_seq (wp_requestClick hcall click _ _) ?_
  rintro r h₁ ⟨hs₁, hflight, a, rfl, hclicked⟩
  have hs : h <:+ h₁ := (suffix_begun click.op deadline attempt now epoch pending).trans hs₁
  refine ⟨⟨attempt, pending, hflight, rfl⟩, fun u => ?_⟩
  cases a with
  | error message => exact gated_error (hs.trans ⟨[_], rfl⟩) _
  | ok _ =>
    refine ⟨trivial, fun epoch' => ?_⟩
    show wp _ (if _ then _ else _) _ _
    split
    · exact gated_error (hs.trans ⟨[_, _], rfl⟩) _
    next hsame =>
    obtain rfl : epoch' = epoch := not_not.1 hsame
    obtain ⟨isProtected, deadline', id, stale, mid, rfl, hmem, -,
      hprotected, hdeadline⟩ := hclicked rfl
    obtain rfl := hdeadline _ rfl
    obtain rfl := hprotected _ rfl
    rw [hdeclared] at hmem
    refine ⟨hs.trans ⟨[_, _], rfl⟩, _, rfl, fun pass hpass => ?_⟩
    cases hpass
    refine ⟨rfl, [_, _], _, mid, _, _, pending, _, h, rfl,
      mem_cons_self, .inl ⟨hdeclared, click, id, stale, rfl, rfl, hmem⟩⟩

theorem presenceGate_gated (hprotected : pending.isProtected = true)
    {deadline attempt now epoch : Nat} : wp (Lawful call) (presenceGate click pending attempt epoch)
      (Gated click.op h) (begun click.op deadline attempt now epoch pending h) := by
  have hs := suffix_begun click.op deadline attempt now epoch pending (h := h)
  refine ⟨trivial, fun r => ?_⟩
  cases r with
  | error denial =>
    cases denial with
    | retryable e => exact ⟨⟨pending, rfl, rfl⟩, fun _ => gated_error (hs.trans ⟨[_, _], rfl⟩) _⟩
    | _ => exact ⟨⟨attempt, pending, rfl, rfl⟩, fun _ => gated_error (hs.trans ⟨[_, _], rfl⟩) _⟩
  | ok modality =>
    refine ⟨⟨attempt, pending, rfl, rfl⟩, fun _ => ⟨trivial, fun now' =>
      ⟨trivial, fun epoch' => ?_⟩⟩⟩
    show wp _ (if _ then _ else _) _ _
    split
    · exact gated_error (hs.trans ⟨[_, _, _, _], rfl⟩) _
    next happlies =>
    have hsame : epoch' = epoch := by
      by_contra hne
      exact happlies (.inr (.inr hne))
    have hle : now' ≤ pending.deadline := by
      by_contra hlt
      exact happlies (.inr (.inl (not_le.1 hlt)))
    subst hsame
    refine ⟨hs.trans ⟨[_, _, _, _], rfl⟩, _, rfl, fun pass hpass => ?_⟩
    cases hpass
    exact ⟨rfl, [_, _, _], _, [], _, _, pending, _, h, rfl,
      mem_cons_self, .inr ⟨hprotected, modality, now', rfl, hle, mem_cons_of_mem _ mem_cons_self⟩⟩

theorem desktopPresenceGate_gated (hcall : call.byHand = false)
    (click : ClickRequest) : wp (Lawful call) (desktopPresenceGate click) (Gated click.op h) h := by
  refine wp_ask_then trivial fun epoch => ?_
  refine wp_ask_then trivial fun now => ?_
  refine wp_ask_then trivial fun r => ?_
  obtain ⟨attempt, r⟩ := r
  cases r with
  | error e => exact gated_error ⟨[_, _, _], rfl⟩ _
  | ok pending =>
    dsimp only
    split
    · next hprotected => exact presenceGate_gated hprotected
    · next hdeclared =>
      exact clickGate_gated hcall (Bool.eq_false_iff.2 hdeclared)

def Yields (h : List DeskExchange) (P : α → List DeskExchange → Prop)
    (r : Except String (Except ε α)) (h' : List DeskExchange) : Prop :=
  h <:+ h' ∧ ∃ a, r = .ok a ∧ ∀ value, a = .ok value → P value h'

theorem yields_error (hs : h <:+ h') (e : ε) : Yields h P (.ok (.error e)) h' := ⟨hs, _, rfl, nofun⟩

theorem wp_withGatedHandle (hcall : call.byHand = false) {pass : GatePass}
    {body : DeskM (Except GatedError (α × AuditEvent))} (hdigest : pass.digest = op.digest)
    (ho : Obtained op pass.epoch h) (hP : ∀ value e h, P value h → P value (e :: h))
    (hbody : ∀ u, wp (Lawful call) body (Yields h fun v h' => P v.1 h')
      (⟨.slot (.closure op.digest pass.epoch), u⟩ :: consumed pass.epoch h)) :
    wp (Lawful call) (withGatedHandle pass body) (Yields h P) h := by
  refine wp_ask_then trivial fun unlocked => ?_
  cases unlocked with
  | false => exact ⟨lawful_unlock hcall, fun _ => yields_error ⟨[_, _], rfl⟩ _⟩
  | true =>
    refine wp_ask_then trivial fun epoch => ?_
    by_cases hsame : epoch = pass.epoch
    · subst hsame
      rw [if_neg (not_not.2 rfl), hdigest]
      refine wp_ask_then ⟨op, h, rfl, rfl, ho⟩ fun u => ?_
      refine wp_seq (hbody u) ?_
      rintro r h' ⟨hs, a, rfl, hyields⟩
      cases a with
      | error e => exact ⟨lawful_unlock hcall, fun _ => yields_error (hs.trans ⟨[_], rfl⟩) _⟩
      | ok value =>
        refine ⟨trivial, fun _ => ⟨lawful_unlock hcall, fun _ =>
          ⟨hs.trans ⟨[_, _], rfl⟩, _, rfl, ?_⟩⟩⟩
        intro v hv
        cases hv
        exact hP _ _ _ (hP _ _ _ (hyields value rfl))
    · rw [if_pos hsame]
      exact ⟨lawful_unlock hcall, fun _ => yields_error ⟨[_, _, _], rfl⟩ _⟩

theorem asks_gatedCommand (hcall : call.byHand = false) (click : ClickRequest) :
    Asks call (gatedCommand click) h := by
  refine wp_seq (desktopPresenceGate_gated hcall click) ?_
  rintro r h₁ ⟨-, a, rfl, hgated⟩
  cases a with
  | error denied => exact asks_record hcall _ _ _ fun _ => trivial
  | ok pass =>
    obtain ⟨hdigest, ho⟩ := hgated pass rfl
    refine Asks.bind (wp_withGatedHandle (P := fun _ _ => True) hcall
      hdigest ho (fun _ _ _ => id) fun u => ?_) ?_
    · refine wp_ask_then trivial fun r => ?_
      cases r with
      | error e => exact yields_error ⟨[_, _, _, _], rfl⟩ _
      | ok _ => exact ⟨trivial, fun _ => ⟨⟨[_, _, _, _, _], rfl⟩, _, rfl, fun _ _ => trivial⟩⟩
    · intro outcome h₂
      cases outcome with
      | error e | ok _ => trivial

end Gates

-- ==== releases

section Releases

variable {cmd : Command} {h : List DeskExchange}
  {mode : Option SecurityMode} {pass : GatePass} {destination : String}

theorem lookup_cons (e : DeskExchange) (hl : lookup h = some mode) :
    lookup (e :: h) = some mode := by
  unfold lookup
  rw [hl]

theorem lookup_suffix {h' : List DeskExchange} (hs : h <:+ h')
    (hl : lookup h = some mode) : lookup h' = some mode := by
  obtain ⟨new, rfl⟩ := hs
  induction new with
  | nil => exact hl
  | cons e new ih => exact lookup_cons e ih

theorem lookup_cons_none {e : DeskExchange} (hnone : lookup h = none) :
    lookup (e :: h) = told e := by
  unfold lookup
  rw [hnone]

theorem wp_withHandleIn {α : Type} {call : Call}
    (hcall : call.byHand = false) {body : DeskM (Except String α)}
    {Q : Except String (Except String α) → List DeskExchange → Prop}
    (hbody : wp (Lawful call) body (fun r h' => ∃ a, r = .ok a
        ∧ Q (.ok a) (⟨.slot .unlockHandle, ()⟩ :: h')) (⟨.slot .lockHandle, true⟩ :: h))
    (hlocked : Q (.ok (.error "vault is locked"))
      (⟨.slot .unlockHandle, ()⟩ :: ⟨.slot .lockHandle, false⟩ :: h)) :
    wp (Lawful call) (withHandleIn body) Q h := by
  refine ⟨trivial, fun unlocked => ?_⟩
  cases unlocked with
  | false => exact ⟨lawful_unlock hcall, fun _ => hlocked⟩
  | true =>
    show wp _ (body.bind _) _ _
    refine wp_seq hbody ?_
    rintro r h' ⟨a, rfl, hq⟩
    exact ⟨lawful_unlock hcall, fun _ => hq⟩

theorem containerModeIn_lookup (hnone : lookup h = none) :
    wp (Lawful (.release cmd)) (containerModeIn cmd.container)
      (fun r h' => ∃ mode, r = .ok mode ∧ lookup h' = some mode) h := by
  unfold containerModeIn
  rw [bind_eq, wp_bind]
  apply wp_withHandleIn rfl
  · refine ⟨⟨cmd, rfl, rfl⟩, fun r => ⟨r, rfl, r.toOption, rfl, ?_⟩⟩
    refine lookup_cons _ ?_
    rw [lookup_cons_none ((lookup_cons_none hnone).trans rfl)]
    rfl
  · exact ⟨none, rfl, lookup_cons _ ((lookup_cons_none hnone).trans rfl)⟩

theorem mode_of_ungated (hreq : desktopConsentRequiredFor .readFile mode = .ok false) :
    mode = none ∨ mode = some .direct := by
  cases mode with
  | none => exact .inl rfl
  | some mode =>
    cases mode with
    | direct => exact .inr rfl
    | _ => cases hreq

def Required (cmd : Command) (mode : Option SecurityMode) (h : List DeskExchange)
    (r : Except String (Except GateDenied (Option GatePass))) (h' : List DeskExchange) : Prop :=
  h <:+ h' ∧ ∃ a, r = .ok a ∧ (a = .ok none → mode = none ∨ mode = some .direct)
    ∧ ∀ pass, a = .ok (some pass) → pass.digest = (cmd.op mode).digest
      ∧ Obtained (cmd.op mode) pass.epoch h'

theorem requireDesktopConsent_required (mode : Option SecurityMode) :
    wp (Lawful (.release cmd)) (requireDesktopConsent .readFile
      cmd.container (some cmd.fileName) mode cmd.operation cmd.destination)
      (Required cmd mode h) h := by
  unfold requireDesktopConsent
  cases hreq : desktopConsentRequiredFor .readFile mode with
  | error message => exact ⟨suffix_rfl, _, rfl, nofun, nofun⟩
  | ok required =>
    cases required with
    | false =>
      exact ⟨suffix_rfl, _, rfl, fun _ => mode_of_ungated hreq,
        nofun⟩
    | true =>
      refine wp_seq (desktopPresenceGate_gated rfl _) ?_
      rintro r h' ⟨hs, a, rfl, hpass⟩
      cases a with
      | error denied => exact ⟨hs, _, rfl, nofun, nofun⟩
      | ok pass =>
        refine ⟨hs, _, rfl, nofun, fun pass' heq => ?_⟩
        cases heq
        exact hpass pass rfl

theorem returned_error (e : String) : Returned cmd (.error e) h := nofun

theorem returned_destination (destination : String) :
    Returned cmd (.ok (.destination destination)) h :=
  nofun

theorem wp_recordGatedOutcome {α : Type} (outcome : Except GatedError α) :
    wp (Lawful (.release cmd)) (recordGatedOutcome cmd mode pass outcome)
      (fun r h' => r = .ok () ∧ h <:+ h') h := by
  cases outcome with
  | ok _ => exact ⟨rfl, suffix_rfl⟩
  | error e =>
    cases e with
    | rejected message | failed error =>
      refine ⟨trivial, fun _ => ?_⟩
      refine wp_mono (wp_recordDesktopEventLocked rfl _) ?_
      exact fun r h' hr => ⟨hr.1, (suffix_cons _ h).trans hr.2.suffix⟩

theorem refuse_returned (denied : GateDenied) :
    wp (Lawful (.release cmd)) (refuse cmd mode denied) (Returned cmd) h := by
  refine ⟨trivial, fun _ => ?_⟩
  show wp _ (Talk.bind (recordDesktopEventLocked _) _) _ _
  refine wp_seq (wp_recordDesktopEventLocked rfl _) ?_
  rintro r h' ⟨rfl, -⟩
  exact returned_error _

theorem consented_inClosure {n : Nat} (hl : lookup h = some mode) (ho : Obtained (cmd.op mode) n h)
    (u : Unit) : Consented cmd (⟨.slot (.closure (cmd.op mode).digest n), u⟩ :: consumed n h) :=
  ⟨mode, lookup_cons _ (lookup_cons _ (lookup_cons _ hl)), .inr (.inr ⟨n, u, h, rfl, ho⟩)⟩

theorem consented_inLock (hl : lookup h = some mode) (hmode : mode = none ∨ mode = some .direct) :
    Consented cmd (⟨.slot .lockHandle, true⟩ :: h) :=
  ⟨mode, lookup_cons _ hl, hmode.imp_right .inl⟩

theorem gatedRead_returned (hdigest : pass.digest = (cmd.op mode).digest)
    (hl : lookup h = some mode) (ho : Obtained (cmd.op mode) pass.epoch h) :
    wp (Lawful (.release cmd)) (gatedRead cmd mode pass) (Returned cmd) h := by
  refine wp_seq (wp_withGatedHandle (P := WasRead cmd) rfl hdigest ho
    (fun _ _ _ => mem_cons_of_mem _) fun u => ?_) ?_
  · refine wp_ask_then ⟨cmd, rfl, rfl, rfl, consented_inClosure hl ho u⟩ fun r => ?_
    cases r with
    | error e => exact yields_error ⟨[_, _, _, _], rfl⟩ _
    | ok bytes =>
      refine ⟨trivial, fun _ => ⟨⟨[_, _, _, _, _], rfl⟩, _, rfl, fun v hv => ?_⟩⟩
      cases hv
      exact mem_cons_of_mem _ mem_cons_self
  · rintro r h' ⟨-, outcome, rfl, hyields⟩
    refine wp_seq (wp_recordGatedOutcome outcome) ?_
    rintro r h'' ⟨rfl, hsuffix⟩
    cases outcome with
    | error e => exact returned_error _
    | ok bytes =>
      intro bytes' heq
      cases heq
      exact hsuffix.mem (hyields bytes rfl)

theorem ungatedRead_returned (hl : lookup h = some mode) (hmode : mode = none ∨ mode = some .direct)
    : wp (Lawful (.release cmd)) (ungatedRead cmd mode) (Returned cmd) h := by
  unfold ungatedRead
  rw [bind_eq, wp_bind]
  apply wp_withHandleIn rfl
  · refine ⟨⟨cmd, rfl, rfl, rfl, consented_inLock hl hmode⟩, fun r => ⟨r, rfl, ?_⟩⟩
    cases r with
    | error error => exact ⟨trivial, fun _ => ⟨trivial, fun _ => returned_error _⟩⟩
    | ok bytes =>
      refine ⟨trivial, fun _ => ⟨trivial, fun _ => ?_⟩⟩
      intro bytes' heq
      cases heq
      simp [WasRead]
  · exact ⟨trivial, fun _ => ⟨trivial, fun _ => returned_error _⟩⟩

theorem gatedExport_returned (hdest : cmd.destination = some destination)
    (hdigest : pass.digest = (cmd.op mode).digest) (hl : lookup h = some mode)
    (ho : Obtained (cmd.op mode) pass.epoch h) :
    wp (Lawful (.release cmd)) (gatedExport cmd mode destination pass) (Returned cmd) h := by
  refine wp_seq (wp_withGatedHandle (P := fun _ _ => True) rfl hdigest ho
    (fun _ _ _ => id) fun u => ?_) ?_
  · refine wp_ask_then ⟨cmd, rfl, rfl, rfl, consented_inClosure hl ho u⟩ fun r => ?_
    cases r with
    | error e => exact yields_error ⟨[_, _, _, _], rfl⟩ _
    | ok bytes =>
      refine wp_ask_then ⟨cmd, rfl, hdest, mem_cons_self⟩ fun result => ?_
      exact ⟨trivial, fun _ => ⟨⟨[_, _, _, _, _, _], rfl⟩, _, rfl, fun _ _ => trivial⟩⟩
  · rintro r h' ⟨-, outcome, rfl, -⟩
    refine wp_seq (wp_recordGatedOutcome outcome) ?_
    rintro r h'' ⟨rfl, -⟩
    cases outcome with
    | error e => exact returned_error _
    | ok result =>
      cases result with
      | error e => exact returned_error _
      | ok _ => exact returned_destination _

theorem ungatedExport_returned (hdest : cmd.destination = some destination)
    (hl : lookup h = some mode) (hmode : mode = none ∨ mode = some .direct) :
    wp (Lawful (.release cmd)) (ungatedExport cmd mode destination) (Returned cmd) h := by
  unfold ungatedExport
  rw [bind_eq, wp_bind]
  apply wp_withHandleIn rfl
  · refine ⟨⟨cmd, rfl, rfl, rfl, consented_inLock hl hmode⟩, fun r => ⟨r, rfl, ?_⟩⟩
    cases r with
    | error error => exact ⟨trivial, fun _ => ⟨trivial, fun _ => returned_error _⟩⟩
    | ok bytes =>
      refine ⟨⟨cmd, rfl, hdest, mem_cons_of_mem _ mem_cons_self⟩,
        fun result => ⟨trivial, fun _ => ⟨trivial, fun _ => ?_⟩⟩⟩
      cases result with
      | error e => exact returned_error _
      | ok _ => exact returned_destination _
  · exact ⟨trivial, fun _ => ⟨trivial, fun _ => returned_error _⟩⟩

theorem release_returned (hl : lookup h = some mode)
    {pass : Option GatePass} (hungated : pass = none → mode = none ∨ mode = some .direct)
    (hpass : ∀ p, pass = some p → p.digest = (cmd.op mode).digest
      ∧ Obtained (cmd.op mode) p.epoch h) :
    wp (Lawful (.release cmd)) (release cmd mode pass) (Returned cmd) h := by
  unfold release
  cases pass with
  | some pass =>
    obtain ⟨hdigest, ho⟩ := hpass pass rfl
    dsimp only
    split
    · exact gatedRead_returned hdigest hl ho
    · next hdest => exact gatedExport_returned hdest hdigest hl ho
  | none =>
    have hmode := hungated rfl
    dsimp only
    split
    · exact ungatedRead_returned hl hmode
    · next hdest => exact ungatedExport_returned hdest hl hmode

theorem consentAndRelease_returned (hnone : lookup h = none) :
    wp (Lawful (.release cmd)) (consentAndRelease cmd) (Returned cmd) h := by
  refine wp_seq (containerModeIn_lookup hnone) ?_
  rintro r h₁ ⟨mode, rfl, hl⟩
  refine wp_seq (requireDesktopConsent_required mode) ?_
  rintro r h₂ ⟨hs, a, rfl, hungated, hpass⟩
  cases a with
  | error denied => exact refuse_returned denied
  | ok pass =>
    exact release_returned (lookup_suffix hs hl)
      (fun heq => hungated (by rw [heq]))
      (fun p heq => hpass p (by rw [heq]))

/-- A command reads its file on a consent, writes only what it read, and
returns only what it read. -/
theorem command_returned (cmd : Command) :
    wp (Lawful (.release cmd)) cmd.prog (Returned cmd) [] := by
  cases cmd with
  | exportFile container fileName destination => exact consentAndRelease_returned rfl
  | readFile container fileName leaseId agentId =>
    refine ⟨trivial, fun _ => ⟨trivial, fun _ => ?_⟩⟩
    unfold requireLease
    split
    · show wp _ (if _ then _ else _) _ _
      split
      · exact returned_error _
      · exact consentAndRelease_returned rfl
    refine ⟨trivial, fun leased => ?_⟩
    show wp _ (if _ then _ else _) _ _
    split
    · exact returned_error _
    · exact consentAndRelease_returned rfl

end Releases

-- ==== plans

section Plans

variable {call : Call} {h : List DeskExchange} (hcall : call.byHand = false)
include hcall

theorem asks_remediatePlanFile (scanId findingPath adapter : String) :
    Asks call (remediatePlanFile scanId findingPath adapter) h := by
  refine ⟨trivial, fun _ => ⟨trivial, fun _ => ?_⟩⟩
  show wp _ (Talk.bind (withHandleIn _) _) _ _
  rw [wp_bind]
  apply wp_withHandleIn hcall
  · refine wp_ask_then trivial fun built => ?_
    cases built with
    | error e => exact ⟨_, rfl, trivial, fun _ => ⟨trivial, fun _ => trivial⟩⟩
    | ok plan =>
      refine ⟨trivial, fun id => ⟨trivial, fun createdAt => ?_⟩⟩
      exact ⟨⟨_, rfl⟩, fun _ => ⟨_, rfl, trivial, fun _ => ⟨trivial, fun _ => trivial⟩⟩⟩
  · exact ⟨trivial, fun _ => ⟨trivial, fun _ => trivial⟩⟩

theorem wp_executeClosure {planId confirmDigest : String} {pass : GatePass} {n : Nat}
    (op : OpDescriptor) (u : Unit) : wp (Lawful call) (executeClosure planId confirmDigest pass)
      (Yields h fun _ _ => True) (⟨.slot (.closure op.digest n), u⟩ :: consumed n h) := by
  refine wp_ask_then trivial fun live => ?_
  cases live with
  | none => exact yields_error ⟨[_, _, _, _], rfl⟩ _
  | some pending =>
    dsimp only
    split
    · exact yields_error ⟨[_, _, _, _], rfl⟩ _
    split
    · exact yields_error ⟨[_, _, _, _], rfl⟩ _
    refine wp_ask_then ⟨hcall, _, _, _, rfl, rfl⟩ fun ingested => ?_
    cases ingested with
    | error e => exact yields_error ⟨[_, _, _, _, _], rfl⟩ _
    | ok status =>
      exact ⟨trivial, fun _ => ⟨trivial, fun _ =>
        ⟨⟨[_, _, _, _, _, _, _], rfl⟩, _, rfl, fun _ _ => trivial⟩⟩⟩

theorem asks_recordPlanError (pass : GatePass) (e : GatedError) :
    Asks call (recordPlanError pass e) h := by
  have hrecord : ∀ event h, Asks call (recordDesktopEventLocked event) h := fun event h =>
    wp_mono (wp_recordDesktopEventLocked hcall event) fun _ _ _ => trivial
  cases e with
  | rejected message => exact ⟨trivial, fun _ => hrecord _ _⟩
  | failed error =>
    show wp _ (if _ then _ else _) _ _
    split
    · exact ⟨trivial, fun _ => hrecord _ _⟩
    · exact ⟨trivial, fun _ => hrecord _ _⟩

theorem asks_remediateExecute (planId confirmDigest : String) :
    Asks call (remediateExecute planId confirmDigest) h := by
  refine ⟨trivial, fun _ => ⟨trivial, fun _ => ⟨trivial, fun live => ?_⟩⟩⟩
  cases live with
  | none => trivial
  | some snapshot =>
    show wp _ (Talk.bind (desktopPresenceGate _) _) _ _
    refine wp_seq (desktopPresenceGate_gated hcall _) ?_
    rintro r h₁ ⟨-, a, rfl, hgated⟩
    cases a with
    | error denied => exact asks_record hcall _ _ _ fun _ => trivial
    | ok pass =>
      obtain ⟨hdigest, ho⟩ := hgated pass rfl
      refine Asks.bind (wp_withGatedHandle (P := fun _ _ => True) hcall hdigest ho
        (fun _ _ _ => id) fun u => wp_executeClosure hcall _ u) fun outcome h₂ => ?_
      cases outcome with
      | error e =>
        refine Asks.bind (asks_recordPlanError hcall pass e) fun _ _ => ?_
        exact asks_record hcall _ _ _ fun _ => trivial
      | ok status => exact asks_record hcall _ _ _ fun _ => trivial

end Plans

-- ==== locks and unlocks

section Session

variable {call : Call} {h : List DeskExchange} (reason : String)

def Guarding (h h' : List DeskExchange) : Prop :=
  hold h' = hold h ∧ h <:+ h'

theorem Guarding.refl (h : List DeskExchange) : Guarding h h := ⟨rfl, suffix_rfl⟩

theorem Guarding.trans {h₁ h₂ h₃ : List DeskExchange}
    (h : Guarding h₁ h₂) (h' : Guarding h₂ h₃) : Guarding h₁ h₃ :=
  ⟨h'.1.trans h.1, h.2.trans h'.2⟩

theorem wp_invalidate_guarding (attempt : Option Nat) : wp (Lawful call) (invalidate attempt)
      (fun r h' => r = .ok () ∧ Guarding h h') h :=
  wp_mono (wp_invalidate _) fun _ _ hr => ⟨hr.1, hr.2.2.1, hr.2.1.suffix⟩

theorem wp_clearAll {x : Hold} (hx : hold h = some x) (hlocked : x.locked = true) :
    wp (Lawful call) clearAll (fun r h' => r = .ok () ∧ hold h' = some x
      ∧ h <:+ h' ∧ (∃ l, ⟨.click .drain, l⟩ ∈ h')
      ∧ ∃ l, ⟨.otp .drain, l⟩ ∈ h') h := by
  refine wp_ask_then ⟨x, hx, hlocked⟩ fun drained => ?_
  refine wp_seq (wp_forEach Guarding.refl Guarding.trans fun entry h' => ?_) ?_
  · refine wp_seq (wp_invalidate_guarding _) ?_
    rintro r h'' ⟨rfl, hguard⟩
    exact ⟨trivial, fun _ => ⟨rfl, hguard.trans ⟨rfl, ⟨[_], rfl⟩⟩⟩⟩
  rintro r h₂ ⟨rfl, hhold₂, hs₂⟩
  have hx₂ := hhold₂.trans hx
  refine ⟨⟨x, hx₂, hlocked⟩, fun challenges => ?_⟩
  refine wp_mono (wp_forEach Guarding.refl Guarding.trans fun chal h' =>
    wp_invalidate_guarding _) ?_
  rintro r h' ⟨rfl, hhold', hs'⟩
  have hs₁ := (hs₂.trans (suffix_cons _ _)).trans hs'
  exact ⟨rfl, hhold'.trans hx₂, (suffix_cons _ h).trans
    hs₁, ⟨drained, hs₁.mem mem_cons_self⟩, ⟨challenges, hs'.mem mem_cons_self⟩⟩

theorem wp_clearOps {x : Hold} (hx : hold h = some x) (hlocked : x.locked = true) :
    wp (Lawful call) clearOps (fun r h' => r = .ok () ∧ hold h' = some x
      ∧ h <:+ h' ∧ ∃ l, ⟨.ops .drain, l⟩ ∈ h') h := by
  refine wp_ask_then ⟨x, hx, hlocked⟩ fun drained => ?_
  refine wp_mono (wp_forEach Guarding.refl Guarding.trans fun op h' => wp_invalidate_guarding _) ?_
  rintro r h' ⟨rfl, hhold', hs'⟩
  exact ⟨rfl, hhold'.trans hx, (suffix_cons _ h).trans hs', ⟨drained, hs'.mem mem_cons_self⟩⟩

theorem wp_lockAndClear {α : Type} {rest : DeskM α} {R : Except String α → List DeskExchange → Prop}
    (hcall : call.locks = true) (htick : call = .tick → TickLocks h)
    (hrest : ∀ h', hold h' = some ⟨false, true, false⟩ → h <:+ h' →
      WentThrough h' → wp (Lawful call) rest R h') : wp (Lawful call) (do
      let _ ← ask (.slot .lockHandle)
      publishLocked
      clearAll
      clearOps
      rest) R h := by
  refine ⟨trivial, fun unlocked => ⟨⟨hcall, fun _ => ⟨_, rfl, rfl⟩,
    fun heq => ⟨unlocked, h, rfl, htick heq⟩⟩, fun u => ⟨trivial, fun _ => ?_⟩⟩⟩
  show wp _ (Talk.bind clearAll _) _ _
  refine wp_seq (wp_clearAll (x := ⟨false, true, false⟩) rfl rfl) ?_
  rintro r h₁ ⟨rfl, hx₁, hs₁, ⟨clicks, hclicks⟩, ⟨otp, hotp⟩⟩
  refine wp_seq (wp_clearOps hx₁ rfl) ?_
  rintro r h₂ ⟨rfl, hx₂, hs₂, hops⟩
  have hs := hs₁.trans hs₂
  refine hrest h₂ hx₂ (List.IsSuffix.trans ⟨[_, _, _], rfl⟩ hs) ?_
  exact ⟨⟨u, hs.mem (by simp)⟩, ⟨clicks, hs₂.mem hclicks⟩,
    ⟨otp, hs₂.mem hotp⟩, hops⟩

theorem wp_performVaultLock {R : Except String Unit → List DeskExchange → Prop}
    (hR : ∀ r h, hold h = none → R r h) :
    wp (Lawful (.lock reason)) (performVaultLock reason) R h := by
  refine wp_lockAndClear rfl nofun fun h' hx _ _ => ?_
  refine ⟨trivial, fun _ => ⟨trivial, fun _ => ⟨trivial, fun _ => ?_⟩⟩⟩
  refine ⟨fun _ x hx' hlocked => ?_, fun _ => hR _ _ rfl⟩
  have hhold : hold (⟨.plan .clear, ()⟩ :: h') = some x := hx'
  unfold hold at hhold
  rw [hx] at hhold
  cases hhold
  rfl

theorem WentThrough.later {h' : List DeskExchange} (hw : WentThrough h)
    (hs : h <:+ h') : WentThrough h' := by
  obtain ⟨⟨u, hu⟩, ⟨l₁, h₁⟩, ⟨l₂, h₂⟩, ⟨l₃, h₃⟩⟩ := hw
  exact ⟨⟨u, hs.mem hu⟩, ⟨l₁, hs.mem h₁⟩, ⟨l₂, hs.mem h₂⟩, ⟨l₃, hs.mem h₃⟩⟩

theorem wp_performVaultLockInternal (hlocks : TickLocks h) :
    wp (Lawful .tick) (performVaultLockInternal reason)
      (fun r h' => r = .ok () ∧ TickEnded h') h := by
  refine wp_lockAndClear rfl (fun _ => hlocks) fun h' hx hs hw => ?_
  refine ⟨trivial, fun _ => ⟨trivial, fun _ => ⟨lawful_unlock rfl, fun _ => ⟨rfl, .inl ?_⟩⟩⟩⟩
  obtain ⟨new, rfl⟩ := hs
  refine ⟨_ :: _ :: _ :: new, h, rfl, hlocks, hw.later ⟨[_, _, _], rfl⟩⟩

theorem wp_remainingSecs : wp (Lawful .tick) remainingSecs (fun r h' =>
      (r = .ok (none, none) ∧ TickLocks h')
      ∨ ∃ reading : TickReading, h' = reading.asked ∧ r = .ok
        (some (reading.idleLimit - asSecs (reading.idleNow - reading.idle)),
          some (reading.absoluteLimit - asSecs (reading.absoluteNow - reading.unlocked)))) [] := by
  refine wp_ask_then trivial fun unlockedAt => ?_
  split
  · next unlocked =>
    refine wp_ask_then trivial fun lastActivity => ?_
    split
    · next idle =>
      refine wp_ask_then trivial fun idleLimit => ?_
      refine wp_ask_then trivial fun absoluteLimit => ?_
      exact ⟨trivial, fun idleNow => ⟨trivial, fun absoluteNow =>
        .inr ⟨⟨unlocked, idle, idleLimit, absoluteLimit, idleNow, absoluteNow⟩, rfl, rfl⟩⟩⟩
    · exact .inl ⟨rfl, .contended⟩
  · next hnot =>
    exact .inl ⟨rfl, .notUnlocked fun unlocked heq => hnot unlocked heq⟩

theorem wp_monitorTick : wp (Lawful .tick) monitorTick (fun _ h' => TickEnded h') [] := by
  refine wp_seq wp_remainingSecs ?_
  -- a tick that locks returns then
  have hlock : ∀ {h'} reason, TickLocks h' → wp (Lawful .tick) (do
        performVaultLockInternal reason
        pure Reply.done) (fun _ h'' => TickEnded h'') h' := by
    intro h' reason hlocks
    refine wp_seq (wp_performVaultLockInternal reason hlocks) ?_
    rintro r h'' ⟨rfl, hended⟩
    exact hended
  rintro r h₁ (⟨rfl, hlocks⟩ | ⟨reading, rfl, rfl⟩)
  · exact hlock _ hlocks
  show wp _ (if _ then _ else _) _ _
  split
  · next hzero =>
    refine hlock _ (.reached (hzero.imp ?_ ?_))
    · exact Nat.le_of_sub_eq_zero
    · exact Nat.le_of_sub_eq_zero
  · next hleft =>
    refine .inr ⟨reading, rfl, fun hreached => hleft (hreached.imp ?_ ?_)⟩
    · exact Nat.sub_eq_zero_of_le
    · exact Nat.sub_eq_zero_of_le

section

variable (hcall : call.unlocks = true)
include hcall

variable (action : AuditAction)

theorem asks_rollbackUnlock (error : String) :
    Asks call (rollbackUnlock action error) h := by
  have hhand := Call.byHand_of_unlocks hcall
  refine wp_ask_then trivial fun unlocked => ?_
  cases unlocked with
  | true =>
    exact ⟨trivial, fun _ => ⟨trivial, fun _ =>
      ⟨lawful_publish_none hcall, fun _ => ⟨trivial,
        fun _ => ⟨lawful_unlock hhand, fun _ => trivial⟩⟩⟩⟩⟩
  | false =>
    exact ⟨lawful_publish_none hcall, fun _ =>
      ⟨trivial, fun _ => ⟨lawful_unlock hhand, fun _ => trivial⟩⟩⟩

theorem asks_startServers : Asks call (startServers action) h := by
  refine wp_ask_then trivial fun started => ?_
  cases started with
  | ok _ => trivial
  | error e => exact Asks.bind (asks_rollbackUnlock hcall _ _) fun _ _ => trivial

theorem asks_unlockUnderGuard (presence : Option PresenceAudit) :
    Asks call (unlockUnderGuard presence) h := by
  have hhand := Call.byHand_of_unlocks hcall
  refine wp_ask_then trivial fun r => ?_
  cases r with
  | error e => exact ⟨lawful_unlock hhand, fun _ => trivial⟩
  | ok handle =>
    refine ⟨trivial, fun _ => ⟨trivial, fun _ => ⟨trivial, fun _ =>
      ⟨trivial, fun _ => ⟨trivial, fun _ => ⟨trivial, fun _ =>
        ⟨lawful_unlock hhand, fun _ => ?_⟩⟩⟩⟩⟩⟩⟩
    exact asks_startServers hcall _

end

theorem asks_vaultUnlock (click : Option ClickRequest) :
    Asks (.unlock click) (vaultUnlock click) h := by
  cases click with
  | none => exact ⟨trivial, fun _ => asks_unlockUnderGuard rfl none⟩
  | some click =>
    refine Asks.bind (desktopPresenceGate_gated rfl _) fun a h₁ => ?_
    cases a with
    | error denied => trivial
    | ok pass =>
      refine ⟨trivial, fun unlocked => ⟨trivial, fun epoch => ?_⟩⟩
      show wp _ (if _ then _ else _) _ _
      split
      · exact ⟨lawful_unlock rfl, fun _ => trivial⟩
      · exact asks_unlockUnderGuard rfl _

theorem asks_vaultUnlockRecovery : Asks .unlockRecovery vaultUnlockRecovery h := by
  refine wp_ask_then trivial fun r => ?_
  cases r with
  | error e => exact ⟨trivial, fun _ => ⟨trivial, fun _ => trivial⟩⟩
  | ok handle =>
    refine ⟨trivial, fun _ => ⟨trivial, fun _ => ⟨trivial, fun _ =>
      ⟨trivial, fun _ => ⟨trivial, fun _ => wp_ask_then (lawful_unlock rfl) fun _ => ?_⟩⟩⟩⟩⟩
    refine Asks.bind (asks_startServers rfl _) fun _ _ => ?_
    exact ⟨trivial, fun _ => ⟨trivial, fun _ => trivial⟩⟩

end Session

-- ==== all calls

/-- A call that returns nothing from the vault and grants nothing. -/
def Call.plain : Call → Bool
  | .release _ | .request _ | .reveal _ | .lock _ | .tick => false
  | _ => true

theorem Asks.ended {call : Call} {p : DeskM Reply} {h : List DeskExchange}
    (hp : Asks call p h) (hplain : call.plain = true) : wp (Lawful call) p (Ended call) h := by
  refine wp_mono hp fun r h _ => ⟨?_, ?_, ?_, ?_, ?_⟩
  · rintro cmd rfl
    cases hplain
  · rintro request rfl
    cases hplain
  · rintro modalId rfl
    cases hplain
  · rintro rfl
    cases hplain
  · intro hhand
    cases call with
    | lock _ => cases hplain
    | _ => cases hhand

theorem prog_lawful (call : Call) : wp (Lawful call) call.prog (Ended call) [] := by
  cases call with
  | release cmd =>
    refine wp_mono (command_returned cmd) fun r h hr =>
      ⟨?_, fun _ heq => (by cases heq), nofun, nofun, nofun⟩
    rintro cmd' ⟨⟩
    exact hr
  | request request =>
    refine wp_mono wp_request fun r h hr => ⟨nofun, ?_, nofun, nofun, nofun⟩
    rintro request' ⟨⟩
    exact hr
  | respond id approved otp =>
    show wp _ (respond id approved otp) _ _
    unfold respond
    split
    · next happroved =>
      obtain rfl : approved = true := happroved
      exact (asks_respondApprove id otp).ended rfl
    · exact (asks_refuseFrom rfl id _).ended rfl
  | refuse id => exact (asks_refuseFrom rfl id _).ended rfl
  | reveal modalId =>
    refine wp_mono (wp_revealOtp modalId) fun r h hr =>
      ⟨nofun, fun _ heq => (by cases heq), ?_, nofun, nofun⟩
    rintro modalId' ⟨⟩
    exact hr
  | expire modalId => exact (asks_expireOtp modalId).ended rfl
  | gated click => exact (asks_gatedCommand rfl click).ended rfl
  | planFile scanId findingPath adapter => exact (asks_remediatePlanFile rfl _ _ _).ended rfl
  | execute planId confirmDigest => exact (asks_remediateExecute rfl _ _).ended rfl
  | lock reason =>
    show wp _ (Talk.bind (performVaultLock reason) _) _ _
    rw [wp_bind]
    refine wp_performVaultLock reason fun r h hfree => ?_
    have hended : ∀ r, Ended (.lock reason) r h := fun r =>
      ⟨nofun, fun _ heq => (by cases heq), nofun, nofun, fun _ => hfree⟩
    cases r with
    | error e | ok _ => exact hended _
  | tick =>
    refine wp_mono wp_monitorTick fun r h hended => ?_
    exact ⟨nofun, fun _ heq => (by cases heq), nofun, fun _ => hended, nofun⟩
  | unlock click => exact (asks_vaultUnlock click).ended rfl
  | unlockRecovery => exact asks_vaultUnlockRecovery.ended rfl
  | touch =>
    refine Asks.ended ⟨trivial, fun _ => ⟨trivial, fun _ => trivial⟩⟩ rfl

-- ==== runs

section Runs

variable {estr : CoreError → String} {allowed : DeskEntry → Prop}
  {c c' : DeskConfig} {h : List DeskEntry} {x : DeskEntry} {tid : Nat}

theorem Run.origin (hrun : (desktop estr).Run allowed c h c')
    (hthreads : ∀ tid, c.threads tid = none) :
    ∀ tid t, c'.threads tid = some t → t.origin = t.call.prog := by
  induction hrun with
  | nil =>
    intro tid t ht
    rw [hthreads] at ht
    cases ht
  | step _ _ hs ih =>
    intro tid t ht
    rcases hs.thread_cases ht with ⟨hbefore, -⟩
        | ⟨call, p, -, rfl, hbegins⟩ | ⟨e, t₀, -, ht₀, hhears, -⟩
    · exact ih tid t hbefore
    · exact hbegins.1
    · rw [hhears.origin, hhears.call]
      exact ih tid t₀ ht₀

theorem Run.lawful (hrun : (desktop estr).Run allowed c h x.before)
    (hthreads : ∀ tid, c.threads tid = none) (hs : (desktop estr).Step x) {e : DeskExchange}
    (hevent : x.event = .exchange tid e) : ∃ t t', x.before.threads tid = some t ∧ t.Hears e t'
      ∧ x.after.threads tid = some t'
      ∧ Answers estr x.before.shared tid e x.after.shared
      ∧ Lawful t.call t.said e.op := by
  obtain ⟨t, t', ht, hhears, ht', hanswers⟩ := hs.exchange_inv hevent
  refine ⟨t, t', ht, hhears, ht', hanswers, ?_⟩
  have horigin := Run.origin hrun hthreads tid t ht
  have hwp := prog_lawful t.call
  rw [← horigin] at hwp
  exact hhears.guard hwp

theorem Run.ended
    (hrun : (desktop estr).Run allowed c h c') (hthreads : ∀ tid, c.threads tid = none)
    {t : Thread deskInterface String Reply Call} (ht : c'.threads tid = some t)
    {r : Except String Reply} (hret : t.talk = .ret r) : Ended t.call r t.said := by
  have hwp := prog_lawful t.call
  rw [← Run.origin hrun hthreads tid t ht] at hwp
  exact t.returned hret hwp

end Runs

end SovereignVault.Desk
