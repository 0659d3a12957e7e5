/-
`sv-presence/src/coordinator.rs`: one native prompt at a time.

Any number of callers wait for one slot, behind a bounded queue. Every
operation on shared state is a step of its own, and so is every look at a
signal, a timer or a result; the steps of all callers, tasks and owners
follow each other in any order. A caller is where its `Phase` says; what
it does next is `move`. In a poll of a `select` it looks at the signal,
then at the timer, then at what it waits for, and parks if nothing is
ready; it can be dropped while it is parked.

A timer runs out some time after its deadline. The backend answers what it
likes when it likes, or never. The counter of the attempts does not
overflow, and the semaphore is never closed.
-/
import SovereignVault.Presence
import SovereignVault.Sync.Slot
import SovereignVault.Dialogue.Service

namespace SovereignVault.Presence

open Audit Dialogue Sync

-- ==== the state

def MAX_WAITING : Nat := 8

def PresenceError.isRetryable : PresenceError → Bool
  | .cancelled | .failed | .busy | .exhausted => true
  | _ => false

abbrev BackendResult := Except PresenceError PresenceModality

/-- Who can have the permit of the slot: a caller, or the task that it
spawned. -/
inductive Holder where
  | call (c : Nat)
  | task (c : Nat)
  deriving DecidableEq

inductive Stage where
  | parked
  | looked
  | timed
  deriving DecidableEq

inductive Phase where
  | entered
  | refused
  /-- It has a queue place; `before` were taken when it came. -/
  | counted (before : Nat)
  | queued (stage : Stage) (elapsed : Bool)
  /-- Out of that `select` without the slot; no denial if dropped. -/
  | leaving (denial : Option Denial)
  /-- Out of the queue for the slot, the place still to be returned. -/
  | left (denial : Option Denial)
  | acquired
  | admitted
  | cleared
  | ready
  /-- It returns without a prompt, the slot still to be given back. -/
  | releasing (denial : Denial)
  | prompting (stage : Stage) (elapsed : Bool)
  /-- The timer ran out first, the signal still to be fired. -/
  | expiring
  | returned (r : Except Denial Verified)
  | dropped

inductive Task where
  | none
  | spawned
  | running
  /-- It ended, without a result if the task was lost. -/
  | ended (r : Option BackendResult)
  | released (r : Option BackendResult)
  /-- It was lost and its channel is closed, the permit still to be given
  back. -/
  | closed
  /-- The result is sent, or the channel is closed. -/
  | sent (r : Option BackendResult)

structure Call where
  /-- Its attempt, by the order of the attempts. -/
  attempt : Nat
  op : OpDescriptor
  deadline : Nat
  phase : Phase
  task : Task

inductive AttemptStage where
  | drawn
  | live
  | dropping
  | gone
  deriving DecidableEq

structure Attempt where
  id : Nat
  fired : Bool
  stage : AttemptStage

/-- A call of `invalidate`: what it was asked for, and the signal it has
found and not yet fired. -/
structure Invalidation where
  id : Nat
  found : Option Nat

/-- `PresenceCoordinator`, with everybody who uses it. A signal is named
by the place of its attempt. -/
structure PresenceCoordinator where
  slot : Slot Holder
  waiting : Nat
  nextAttempt : Nat
  registry : Nat → Option Nat
  attempts : List Attempt
  calls : List Call
  invalidations : List Invalidation
  now : Nat

def PresenceCoordinator.new : PresenceCoordinator where
  slot := .free
  waiting := 0
  nextAttempt := 0
  registry := fun _ => none
  attempts := []
  calls := []
  invalidations := []
  now := 0

namespace PresenceCoordinator

def fired (s : PresenceCoordinator) (k : Nat) : Bool :=
  (s.attempts[k]?).any (·.fired)

def fireSignal (k : Nat) (attempts : List Attempt) : List Attempt :=
  attempts.modify k fun a => { a with fired := true }

def idOf (s : PresenceCoordinator) (k : Nat) : Nat :=
  ((s.attempts[k]?).map (·.id)).getD 0

-- ==== one caller

def answer (id : Nat) (digest : OpDigest) : Option BackendResult → Except Denial Verified
  | some (.ok modality) => .ok ⟨id, digest, modality⟩
  | some (.error .timeout) => .error .expired
  | some (.error e) =>
    if e.isRetryable then .error (.retryable e) else .error (.denied e)
  | none => .error (.denied .failed)

/-- The next step of a caller, and whether it fires its signal or spawns
its task. -/
structure Move where
  phase : Phase
  slot : Slot Holder
  waiting : Nat
  fires : Bool
  spawns : Bool

def quiet (s : PresenceCoordinator) (phase : Phase) : Move :=
  ⟨phase, s.slot, s.waiting, false, false⟩

def move (s : PresenceCoordinator) (c : Nat) (call : Call) : Option Move :=
  match call.phase with
  | .entered =>
    match s.slot.tryAcquire (.call c) with
    | some slot => some ⟨.admitted, slot, s.waiting, false, false⟩
    | none => some (s.quiet .refused)
  | .refused => some ⟨.counted s.waiting, s.slot, s.waiting + 1, false, false⟩
  | .counted before =>
    some (s.quiet (if MAX_WAITING ≤ before then .left (some .queueFull)
      else .queued .parked false))
  | .queued .parked elapsed =>
    some (s.quiet (if s.fired call.attempt then
      .leaving (some .invalidated) else .queued .looked elapsed))
  | .queued .looked elapsed =>
    some (s.quiet (if elapsed then .leaving (some .expired)
      else .queued .timed elapsed))
  | .queued .timed elapsed =>
    match s.slot.poll (.call c) with
    | (slot, true) => some ⟨.acquired, slot, s.waiting, false, false⟩
    | (slot, false) => some ⟨.queued .parked elapsed, slot, s.waiting, false, false⟩
  | .leaving denial => some ⟨.left denial, s.slot.cancel (.call c), s.waiting, false, false⟩
  | .left (some denial) => some ⟨.returned (.error denial), s.slot, s.waiting - 1, false, false⟩
  | .left none => some ⟨.dropped, s.slot, s.waiting - 1, false, false⟩
  | .acquired => some ⟨.admitted, s.slot, s.waiting - 1, false, false⟩
  | .admitted =>
    some (s.quiet (if s.fired call.attempt then .releasing .invalidated
      else .cleared))
  | .cleared =>
    some (s.quiet (if call.deadline ≤ s.now then .releasing .expired
      else .ready))
  | .ready => some ⟨.prompting .parked false, s.slot.pass (.task c), s.waiting, false, true⟩
  | .releasing denial => some ⟨.returned (.error denial), s.slot.release, s.waiting, false, false⟩
  | .prompting .parked elapsed =>
    some (s.quiet (if s.fired call.attempt then
      .returned (.error .invalidated) else .prompting .looked elapsed))
  | .prompting .looked elapsed =>
    some (s.quiet (if elapsed then .expiring
      else .prompting .timed elapsed))
  | .prompting .timed elapsed =>
    some (s.quiet (match call.task with
      | .sent r => .returned (answer (s.idOf call.attempt) call.op.digest r)
      | .closed => .returned (answer (s.idOf call.attempt) call.op.digest none)
      | _ => .prompting .parked elapsed))
  | .expiring => some ⟨.returned (.error .expired), s.slot, s.waiting, true, false⟩
  | .returned _ => none
  | .dropped => none

def taking (s : PresenceCoordinator) (c : Nat) (call : Call) (m : Move) : PresenceCoordinator :=
  { s with
    slot := m.slot
    waiting := m.waiting
    attempts := if m.fires then fireSignal call.attempt s.attempts
      else s.attempts
    calls := s.calls.set c { call with
      phase := m.phase
      task := if m.spawns then .spawned else call.task } }

inductive CallerStep where
  | advance
  | timer
  | abort

def ring : Phase → Option Phase
  | .queued stage false => some (.queued stage true)
  | .prompting stage false => some (.prompting stage true)
  | _ => none

def abandon : Phase → Option Phase
  | .entered => some .dropped
  | .queued .parked _ => some (.leaving none)
  | .prompting .parked _ => some .dropped
  | _ => none

def callerMove (s : PresenceCoordinator) (c : Nat) (call : Call) : CallerStep → Option Move
  | .advance => s.move c call
  | .timer =>
    if call.deadline ≤ s.now then (ring call.phase).map s.quiet else none
  | .abort => (abandon call.phase).map s.quiet

-- ==== one task

inductive TaskStep where
  | start
  | backend (r : BackendResult)
  | lose
  | release
  | send

def taskMove : Task → TaskStep → Option Task
  | .spawned, .start => some .running
  | .running, .backend r => some (.ended (some r))
  | .spawned, .lose => some (.ended none)
  | .running, .lose => some (.ended none)
  | .ended r, .release => some (.released r)
  | .released r, .send => some (.sent r)
  -- a task that is lost drops what it holds in either order
  | .ended none, .send => some .closed
  | .closed, .release => some (.sent none)
  | _, _ => none

def taskSlot : TaskStep → Slot Holder → Slot Holder
  | .release, slot => slot.release
  | _, slot => slot

-- ==== the owners

inductive OwnerStep where
  | tick
  | draw
  | register (k : Nat)
  | lookUp (id : Nat)
  | fire (i : Nat)
  /-- The destructor of an attempt: the signal, then the registry. -/
  | dropFire (k : Nat)
  | dropRemove (k : Nat)

def isOver : Phase → Bool
  | .returned _ => true
  | .dropped => true
  | _ => false

def owned (s : PresenceCoordinator) : OwnerStep → Option PresenceCoordinator
  | .tick => some { s with now := s.now + 1 }
  | .draw => some { s with
      nextAttempt := s.nextAttempt + 1
      attempts := s.attempts ++ [⟨s.nextAttempt + 1, false, .drawn⟩] }
  | .register k => do
    let attempt ← s.attempts[k]?
    guard (attempt.stage = .drawn)
    some { s with
      registry := Function.update s.registry attempt.id (some k)
      attempts := s.attempts.set k { attempt with stage := .live } }
  | .lookUp id => some { s with
      invalidations := s.invalidations ++ [⟨id, s.registry id⟩] }
  | .fire i => do
    let invalidation ← s.invalidations[i]?
    let k ← invalidation.found
    some { s with
      attempts := fireSignal k s.attempts
      invalidations := s.invalidations.set i { invalidation with found := none } }
  | .dropFire k => do
    let attempt ← s.attempts[k]?
    guard (attempt.stage = .live)
    -- a call borrows its attempt
    guard (s.calls.all fun call => call.attempt ≠ k ∨ isOver call.phase)
    some { s with
      attempts := s.attempts.set k { attempt with fired := true, stage := .dropping } }
  | .dropRemove k => do
    let attempt ← s.attempts[k]?
    guard (attempt.stage = .dropping)
    some { s with
      registry := Function.update s.registry attempt.id none
      attempts := s.attempts.set k { attempt with stage := .gone } }

-- ==== all of them

inductive Action where
  | owner (o : OwnerStep)
  | verify (k : Nat) (op : OpDescriptor) (deadline : Nat)
  | caller (c : Nat) (a : CallerStep)
  | task (c : Nat) (t : TaskStep)

def step (s : PresenceCoordinator) : Action → Option PresenceCoordinator
  | .owner o => s.owned o
  | .verify k op deadline => do
    let attempt ← s.attempts[k]?
    guard (attempt.stage = .live)
    some { s with
      calls := s.calls ++ [⟨k, op, deadline, .entered, .none⟩] }
  | .caller c a => do
    let call ← s.calls[c]?
    let m ← s.callerMove c call a
    some (s.taking c call m)
  | .task c t => do
    let call ← s.calls[c]?
    let task ← taskMove call.task t
    some { s with
      slot := taskSlot t s.slot
      calls := s.calls.set c { call with task := task } }

end PresenceCoordinator

def coordinatorInterface : Interface where
  Op := PresenceCoordinator.Action
  Ans _ := Unit

def coordinator : Service coordinatorInterface PresenceCoordinator where
  act a s := ((), (s.step a).getD s)
  allowed a s := (s.step a).isSome = true

instance (a : coordinatorInterface.Op) (s : PresenceCoordinator) :
    Decidable (coordinator.allowed a s) :=
  inferInstanceAs (Decidable ((s.step a).isSome = true))

end SovereignVault.Presence
