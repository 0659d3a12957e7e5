/-
The desktop as one system: the shared state, how it answers the tasks, and
what a whole run keeps.

The state has one part for each lock of the source: the slot of the handle
with its guard and epoch, the pending clicks, the pending challenges, the
registry of operations, the session timer, the pending plans. A question
changes the part it is asked at and no other, and it may take time.

A task that has taken the guard and not given it back holds it, and the
slot is what it last saw of it (`Run.holds`). Between two equal readings
of the epoch there was no publication (`Run.no_publish`).
-/
import SovereignVault.Containers
import SovereignVault.Desktop.Commands
import SovereignVault.Dialogue.Pool

namespace SovereignVault.Desk

open Dialogue Talk Audit Presence

-- ==== the state

structure Slot where
  world : World
  epoch : Nat
  holder : Option Nat

structure Timer where
  lastActivity : Nat
  unlockedAt : Option Nat
  idleTimeoutSecs : Nat
  absoluteSessionSecs : Nat

abbrev PlanStore := AList fun _ : String => PendingPlan

structure Shared where
  clock : Nat
  slot : Slot
  clicks : Clicks
  otp : OtpStore
  ops : DesktopOps
  timer : Timer
  /-- The session monitor was spawned. -/
  monitored : Bool
  plans : PlanStore
  nextId : Nat
  nextAttempt : Nat

def PLAN_TTL_SECS : Nat := 600

def livePlans (plans : PlanStore) (now : Nat) : PlanStore :=
  plans.retain fun x => asSecs (now - x.2.createdAt) < PLAN_TTL_SECS

-- ==== the answers

section Answers

variable (estr : CoreError → String)

def SlotOp.Answers (s : Slot) (tid : Nat) : (o : SlotOp) → o.Ans → Slot → Prop
  | .lockHandle, unlocked, s' => s.holder = none
      ∧ unlocked = s.world.handle.isSome
      ∧ s' = { s with holder := some tid }
  | .unlockHandle, _, s' => s.holder = some tid ∧ s' = { s with holder := none }
  | .publish handle, _, s' => s.holder = some tid ∧ s' = { s with
          world := { s.world with handle := handle }
          epoch := s.epoch + 1 }
  | .epoch, n, s' => n = s.epoch ∧ s' = s
  | .containerMode container, r, s' => s.holder = some tid ∧ s' = s
      ∧ ∃ handle, s.world.handle = some handle
        ∧ Looks estr (Storage.containerMode handle.vault container) s.world r
  | .readFile container fileName, r, s' => s.holder = some tid ∧ s' = s
      ∧ ∃ handle, s.world.handle = some handle
        ∧ Looks estr (Storage.readFile handle.vault (container, fileName)) s.world r
  | .closure _ _, _, s' => s.holder = some tid ∧ s' = s
  | .perform _, _, s' => s.holder = some tid
      ∧ ∃ w, w.handle.isSome = s.world.handle.isSome ∧ s' = { s with world := w }
  | .record _, _, s' => s.holder = some tid ∧ s' = s
  | .tryRecord _, _, s' => s' = s

def ClickOp.Answers (lo hi nextId attempt : Nat) (c : Clicks) :
    (o : ClickOp) → o.Ans → Clicks → Prop
  | .register click isProtected deadline, r, c' => r.1 = nextId
      ∧ c.register nextId (click.entry nextId isProtected deadline) = (r.2, c')
  | .await id deadline, r, c' => c' = c.setChannel id Channel.hangUp
      ∧ match r with
        | .decided approved => c.channel id = .sent approved
        | .closed => c.channel id = .dropped
        | .timedOut => c.channel id = .waiting ∧ deadline ≤ hi
  | .take id, r, c' => r = c.pending.lookup id ∧ c' = c.remove id
  | .respondBegin id otp, r, c' => ∃ now, lo ≤ now ∧ now ≤ hi
      ∧ c.respondBegin now attempt id otp = (r, c')
  | .respondFinish id a result, r, c' => ∃ now, lo ≤ now ∧ now ≤ hi
      ∧ c.respondFinish now id a result = (r, c')
  | .send id approved, r, c' => r = ((c.channel id).send approved).1
      ∧ c' = c.setChannel id fun ch => (ch.send approved).2
  | .dropSender id, _, c' => c' = c.setChannel id Channel.dropSender
  | .hangUp id, _, c' => c' = c.setChannel id Channel.hangUp
  | .drain, r, c' => c.drain = (r, c')

def ClickOp.draws : ClickOp → Nat
  | .register _ _ _ => 1
  | _ => 0

def ClickOp.begins : ClickOp → Nat
  | .respondBegin _ _ => 1
  | _ => 0

def OtpOp.Answers (lo hi nextId attempt epoch : Nat) (store : OtpStore)
    (o : OtpOp) (a : o.Ans) (store' : OtpStore) : Prop :=
  ∃ r : Readings, r.Within lo hi ∧ match o, a with
    | .request key supplied unlocked, a =>
      handleOtpSection r key supplied unlocked store = (a, store')
    | .issue key code isProtected op auditAction, a =>
      handleOtpFreshSection r key code nextId isProtected op auditAction store = (a, store')
    | .expire id, a => expireSection r id store = (a, store')
    | .revealBegin modalId, a => revealBeginSection r modalId attempt epoch store = (a, store')
    | .revealFinish key modalId attempt deadline moved result, a =>
      revealFinishSection r key modalId attempt deadline moved result store = (a, store')
    | .drain, a => drainOtp store = (a, store')

def OtpOp.draws : OtpOp → Nat
  | .issue _ _ _ _ _ => 1
  | _ => 0

def OtpOp.begins : OtpOp → Nat
  | .revealBegin _ => 1
  | _ => 0

def OpsOp.Answers (lo hi attempt : Nat) (s : DesktopOps) : (o : OpsOp) → o.Ans → DesktopOps → Prop
  | .begin digest deadline, r, s' => r.1 = attempt
      ∧ ∃ now isProtected, lo ≤ now ∧ now ≤ hi
        ∧ s.begin now digest deadline isProtected attempt = (r.2, s')
  | .retry digest id a, _, s' => s' = s.retry digest id a
  | .finish digest id, _, s' => s' = s.finish digest id
  | .drain, r, s' => s.drain = (r, s')

def OpsOp.begins : OpsOp → Nat
  | .begin _ _ => 1
  | _ => 0

def TimerOp.Answers (t : Timer) : (o : TimerOp) → o.Ans → Timer → Prop
  | .storeUnlockedAt unlockedAt, _, t' => t' = { t with unlockedAt := unlockedAt } ∨ t' = t
  | .storeActivity now, _, t' => t' = { t with lastActivity := now } ∨ t' = t
  | .loadUnlockedAt, r, t' => t' = t ∧ (r = some t.unlockedAt ∨ r = none)
  | .loadActivity, r, t' => t' = t ∧ (r = some t.lastActivity ∨ r = none)
  | .loadIdleTimeoutSecs, r, t' => t' = t ∧ r = t.idleTimeoutSecs
  | .loadAbsoluteSessionSecs, r, t' => t' = t ∧ r = t.absoluteSessionSecs

def PlanOp.Answers (plans : PlanStore) : (o : PlanOp) → o.Ans → PlanStore → Prop
  | .insert plan, _, plans' => plans' = plans.insert plan.id plan
  | .live id, r, plans' => ∃ now, plans' = livePlans plans now ∧ r = plans'.lookup id
  | .remove id, _, plans' => plans' = plans.erase id
  | .clear, _, plans' => plans' = ∅
  | .build _ _ _, _, plans' | .ingest _, _, plans' => plans' = plans

def OutsideOp.Answers (lo hi : Nat) : (o : OutsideOp) → o.Ans → Prop
  | .now, n => lo ≤ n ∧ n ≤ hi
  | _, _ => True

/-- `restart_session_monitor`, which follows when the servers have started. -/
def OutsideOp.spawns : (o : OutsideOp) → o.Ans → Bool
  | .startServers, .ok () => true
  | _, _ => false

def Answers (d : Shared) (tid : Nat) (e : DeskExchange) (d' : Shared) : Prop :=
  ∃ hi, d.clock ≤ hi ∧ match e with
    | ⟨.slot o, a⟩ => ∃ s, o.Answers estr d.slot tid a s ∧ d' = { d with clock := hi, slot := s }
    | ⟨.click o, a⟩ => ∃ c, o.Answers d.clock hi d.nextId d.nextAttempt d.clicks a c
        ∧ d' = { d with
            clock := hi, clicks := c
            nextId := d.nextId + o.draws
            nextAttempt := d.nextAttempt + o.begins }
    | ⟨.otp o, a⟩ => ∃ store, o.Answers d.clock hi d.nextId d.nextAttempt d.slot.epoch d.otp a store
        ∧ d' = { d with
            clock := hi, otp := store
            nextId := d.nextId + o.draws
            nextAttempt := d.nextAttempt + o.begins }
    | ⟨.ops o, a⟩ => ∃ s, o.Answers d.clock hi d.nextAttempt d.ops a s
        ∧ d' = { d with
            clock := hi, ops := s
            nextAttempt := d.nextAttempt + o.begins }
    | ⟨.timer o, a⟩ => ∃ t, o.Answers d.timer a t ∧ d' = { d with clock := hi, timer := t }
    | ⟨.plan o, a⟩ => ∃ plans, o.Answers d.plans a plans
        ∧ d' = { d with clock := hi, plans := plans }
    | ⟨.outside o, a⟩ => o.Answers d.clock hi a
        ∧ d' = { d with clock := hi, monitored := d.monitored || o.spawns a }

inductive Move where
  | pass (n : Nat)
  /-- The vault root changes, by whoever has access to the disk. -/
  | files (w : World)
  | setLimits (idleSecs absoluteSecs : Nat)

def Moves (d : Shared) : Move → Shared → Prop
  | .pass n, d' => d' = { d with clock := d.clock + n }
  | .files w, d' => w.handle = d.slot.world.handle
      ∧ d' = { d with slot := { d.slot with world := w } }
  | .setLimits idleSecs absoluteSecs, d' =>
    d' = { d with timer := { d.timer with
      idleTimeoutSecs := max idleSecs 1
      absoluteSessionSecs := max absoluteSecs 1 } }

/-- Ticks come from the session monitor, the other calls at any time. -/
def Call.ready (d : Shared) : Call → Bool
  | .tick => d.monitored
  | _ => true

def desktop : System deskInterface String Reply Shared Call Move where
  begins d call p d' := p = call.prog ∧ d' = d ∧ call.ready d = true
  answers d tid _ e d' := Answers estr d tid e d'
  ends d _ _ d' := d' = d
  moves := Moves

/-- Where a run begins: nothing pending, nobody holds the guard. The vault
is in any state. -/
structure Fresh (c : Config deskInterface String Reply Shared Call) :
    Prop where
  threads : ∀ tid, c.threads tid = none
  holder : c.shared.slot.holder = none
  clicks : c.shared.clicks = .empty
  otp : c.shared.otp = ∅
  ops : c.shared.ops = .empty
  plans : c.shared.plans = ∅

end Answers

abbrev DeskConfig := Config deskInterface String Reply Shared Call

abbrev DeskEntry := Entry deskInterface String Reply Shared Call Move

-- ==== one step

section Steps

variable {estr : CoreError → String} {d d' : Shared} {tid : Nat}
  {x : DeskEntry} {e : DeskExchange} {m : Move}

theorem Answers.clock_le (h : Answers estr d tid e d') : d.clock ≤ d'.clock := by
  obtain ⟨hi, hle, h⟩ := h
  obtain ⟨o, a⟩ := e
  cases o with
  | outside o =>
    obtain ⟨-, rfl⟩ := h
    exact hle
  | _ =>
    obtain ⟨_, -, rfl⟩ := h
    exact hle

theorem Answers.slot_cases (h : Answers estr d tid e d') :
    (∃ o a, e = ⟨.slot o, a⟩ ∧ o.Answers estr d.slot tid a d'.slot)
    ∨ (∀ o, e.op ≠ .slot o) ∧ d'.slot = d.slot := by
  obtain ⟨hi, -, h⟩ := h
  obtain ⟨o, a⟩ := e
  cases o with
  | slot o =>
    obtain ⟨s, hs, rfl⟩ := h
    exact .inl ⟨o, a, rfl, hs⟩
  | outside o =>
    obtain ⟨-, rfl⟩ := h
    exact .inr ⟨fun _ heq => (by cases heq), rfl⟩
  | _ =>
    obtain ⟨_, -, rfl⟩ := h
    exact .inr ⟨fun _ heq => (by cases heq), rfl⟩

/-- What an exchange leaves: the parts it is not asked at, and the numbers
that were drawn. -/
structure Elsewhere (d : Shared) (o : DeskOp) (d' : Shared) : Prop where
  clicks : (∀ q, o ≠ .click q) → d'.clicks = d.clicks
  otp : (∀ q, o ≠ .otp q) → d'.otp = d.otp
  ops : (∀ q, o ≠ .ops q) → d'.ops = d.ops
  timer : (∀ q, o ≠ .timer q) → d'.timer = d.timer
  plans : (∀ q, o ≠ .plan q) → d'.plans = d.plans
  nextId_le : d.nextId ≤ d'.nextId
  nextAttempt_le : d.nextAttempt ≤ d'.nextAttempt

theorem Answers.elsewhere (h : Answers estr d tid e d') : Elsewhere d e.op d' := by
  obtain ⟨hi, -, h⟩ := h
  obtain ⟨o, a⟩ := e
  have hself : ∀ {β : Type} {f : β → DeskOp} {q : β} {P : Prop},
      (∀ q', f q ≠ f q') → P := fun hne => absurd rfl (hne _)
  cases o with
  | outside o =>
    obtain ⟨-, rfl⟩ := h
    exact ⟨fun _ => rfl, fun _ => rfl, fun _ => rfl, fun _ => rfl, fun _ => rfl, le_rfl, le_rfl⟩
  | slot o =>
    obtain ⟨_, -, rfl⟩ := h
    exact ⟨fun _ => rfl, fun _ => rfl, fun _ => rfl, fun _ => rfl, fun _ => rfl, le_rfl, le_rfl⟩
  | click o =>
    obtain ⟨_, -, rfl⟩ := h
    exact ⟨hself, fun _ => rfl, fun _ => rfl, fun _ => rfl, fun _ => rfl,
      Nat.le_add_right _ _, Nat.le_add_right _ _⟩
  | otp o =>
    obtain ⟨_, -, rfl⟩ := h
    exact ⟨fun _ => rfl, hself, fun _ => rfl, fun _ => rfl, fun _ => rfl,
      Nat.le_add_right _ _, Nat.le_add_right _ _⟩
  | ops o =>
    obtain ⟨_, -, rfl⟩ := h
    exact ⟨fun _ => rfl, fun _ => rfl, hself, fun _ => rfl, fun _ => rfl, le_rfl,
      Nat.le_add_right _ _⟩
  | timer o =>
    obtain ⟨_, -, rfl⟩ := h
    exact ⟨fun _ => rfl, fun _ => rfl, fun _ => rfl, hself, fun _ => rfl, le_rfl, le_rfl⟩
  | plan o =>
    obtain ⟨_, -, rfl⟩ := h
    exact ⟨fun _ => rfl, fun _ => rfl, fun _ => rfl, fun _ => rfl, hself, le_rfl, le_rfl⟩

theorem step_cases (hs : (desktop estr).Step x) : (∃ tid e, x.event = .exchange tid e
      ∧ Answers estr x.before.shared tid e x.after.shared)
    ∨ (∃ m, x.event = .move m ∧ Moves x.before.shared m x.after.shared)
    ∨ (∀ tid e, x.event ≠ .exchange tid e)
      ∧ x.after.shared = x.before.shared := by
  cases hs with
  | call hfree hbegins => exact .inr (.inr ⟨fun _ _ heq => (by cases heq), hbegins.2.1⟩)
  | exchange ht hhears hanswers => exact .inl ⟨_, _, rfl, hanswers⟩
  | finish ht hr hends => exact .inr (.inr ⟨fun _ _ heq => (by cases heq), hends⟩)
  | move hmoves => exact .inr (.inl ⟨_, rfl, hmoves⟩)

theorem SlotOp.Answers.epoch_cases {s s' : Slot} {o : SlotOp} {a : o.Ans}
    (h : o.Answers estr s tid a s') : (∃ handle, o = .publish handle) ∧ s'.epoch = s.epoch + 1
    ∨ (∀ handle, o ≠ .publish handle) ∧ s'.epoch = s.epoch := by
  cases o with
  | publish handle => exact .inl ⟨⟨handle, rfl⟩, by rw [h.2]⟩
  | perform _ =>
    obtain ⟨-, w, -, heq⟩ := h
    exact .inr ⟨nofun, by rw [heq]⟩
  | tryRecord _ => exact .inr ⟨nofun, congrArg Slot.epoch h⟩
  | lockHandle => exact .inr ⟨nofun, by rw [h.2.2]⟩
  | containerMode _ | readFile _ _ => exact .inr ⟨nofun, by rw [h.2.1]⟩
  | _ => exact .inr ⟨nofun, by rw [h.2]⟩

theorem Moves.slot (h : Moves d m d') :
    d'.slot.holder = d.slot.holder ∧ d'.slot.epoch = d.slot.epoch
      ∧ d'.slot.world.handle = d.slot.world.handle := by
  cases m with
  | files w =>
    obtain ⟨hhandle, rfl⟩ := h
    exact ⟨rfl, rfl, hhandle⟩
  | _ =>
    cases h
    exact ⟨rfl, rfl, rfl⟩

theorem Moves.pending (h : Moves d m d') : d'.clicks = d.clicks ∧ d'.otp = d.otp ∧ d'.ops = d.ops
      ∧ d'.plans = d.plans ∧ d'.nextId = d.nextId
      ∧ d'.nextAttempt = d.nextAttempt := by
  cases m with
  | files w =>
    obtain ⟨-, rfl⟩ := h
    exact ⟨rfl, rfl, rfl, rfl, rfl, rfl⟩
  | _ =>
    cases h
    exact ⟨rfl, rfl, rfl, rfl, rfl, rfl⟩

theorem step_answers {x : DeskEntry} {e : DeskExchange} (hs : (desktop estr).Step x)
    (hevent : x.event = .exchange tid e) : Answers estr x.before.shared tid e x.after.shared := by
  obtain ⟨_, _, -, -, -, hans⟩ := hs.exchange_inv hevent
  exact hans

theorem step_part {β κ : Type} (part : Shared → β) (kind : κ → DeskOp)
    (hanswers : ∀ {d tid d'} {e : DeskExchange}, Answers estr d tid e d' →
      (∀ q, e.op ≠ kind q) → part d' = part d)
    (hmoves : ∀ {d m d'}, Moves d m d' → part d' = part d) (hs : (desktop estr).Step x) :
    (∃ tid e q, x.event = .exchange tid e ∧ e.op = kind q
      ∧ Answers estr x.before.shared tid e x.after.shared)
    ∨ (∀ tid e q, x.event = .exchange tid e → e.op ≠ kind q)
      ∧ part x.after.shared = part x.before.shared := by
  rcases step_cases hs with ⟨tid, e, hevent, hans⟩ | ⟨m, hevent, hm⟩
      | ⟨hno, heq⟩
  · by_cases hkind : ∃ q, e.op = kind q
    · obtain ⟨q, hq⟩ := hkind
      exact .inl ⟨tid, e, q, hevent, hq, hans⟩
    · refine .inr ⟨fun tid' e' q he hq => ?_, hanswers hans fun q hq => hkind ⟨q, hq⟩⟩
      rw [hevent] at he
      cases he
      exact hkind ⟨q, hq⟩
  · refine .inr ⟨fun tid' e' q he => ?_, hmoves hm⟩
    rw [hevent] at he
    cases he
  · exact .inr ⟨fun tid' e' q he => absurd he (hno tid' e'), by rw [heq]⟩

theorem step_nextId_le (hs : (desktop estr).Step x) :
    x.before.shared.nextId ≤ x.after.shared.nextId := by
  rcases step_cases hs with ⟨tid, e, -, hans⟩ | ⟨m, -, hmoves⟩ | ⟨-, heq⟩
  · exact hans.elsewhere.nextId_le
  · rw [hmoves.pending.2.2.2.2.1]
  · rw [heq]

theorem step_nextAttempt_le (hs : (desktop estr).Step x) :
    x.before.shared.nextAttempt ≤ x.after.shared.nextAttempt := by
  rcases step_cases hs with ⟨tid, e, -, hans⟩ | ⟨m, -, hmoves⟩ | ⟨-, heq⟩
  · exact hans.elsewhere.nextAttempt_le
  · rw [hmoves.pending.2.2.2.2.2]
  · rw [heq]

theorem Moves.clock_le (h : Moves d m d') : d.clock ≤ d'.clock := by
  cases m with
  | pass n =>
    cases h
    exact Nat.le_add_right _ _
  | files w =>
    obtain ⟨-, rfl⟩ := h
    exact le_rfl
  | setLimits _ _ =>
    cases h
    exact le_rfl

def Locks (x : DeskEntry) : Prop :=
  ∃ tid a, x.event = .exchange tid ⟨.slot (.publish none), a⟩

def Publishes (x : DeskEntry) : Prop :=
  ∃ tid handle a, x.event = .exchange tid ⟨.slot (.publish handle), a⟩

theorem step_epoch (hs : (desktop estr).Step x) :
    Publishes x ∧ x.after.shared.slot.epoch = x.before.shared.slot.epoch + 1
    ∨ ¬ Publishes x ∧ x.after.shared.slot.epoch = x.before.shared.slot.epoch := by
  rcases step_cases hs with ⟨tid, e, hevent, hans⟩ | ⟨m, hevent, hmoves⟩
      | ⟨hno, heq⟩
  · rcases hans.slot_cases with ⟨o, a, rfl, hslot⟩ | ⟨hno, heq⟩
    · rcases hslot.epoch_cases with ⟨⟨handle, rfl⟩, hepoch⟩ | ⟨hne, hepoch⟩
      · exact .inl ⟨⟨tid, handle, a, hevent⟩, hepoch⟩
      refine .inr ⟨?_, hepoch⟩
      rintro ⟨tid', handle, a', he⟩
      rw [hevent] at he
      cases he
      exact hne handle rfl
    · refine .inr ⟨?_, by rw [heq]⟩
      rintro ⟨tid', handle, a, he⟩
      rw [hevent] at he
      cases he
      exact hno _ rfl
  · refine .inr ⟨?_, hmoves.slot.2.1⟩
    rintro ⟨tid', handle, a, he⟩
    rw [hevent] at he
    cases he
  · exact .inr ⟨fun ⟨_, _, _, he⟩ => hno _ _ he, by rw [heq]⟩

theorem step_clock_le (hs : (desktop estr).Step x) :
    x.before.shared.clock ≤ x.after.shared.clock := by
  rcases step_cases hs with ⟨tid, e, -, hans⟩ | ⟨m, -, hmoves⟩ | ⟨-, heq⟩
  · exact hans.clock_le
  · exact hmoves.clock_le
  · rw [heq]

end Steps

-- ==== runs

section Runs

variable {estr : CoreError → String} {allowed : DeskEntry → Prop}
  {c c' : DeskConfig} {h : List DeskEntry} {tid : Nat}

variable (hrun : (desktop estr).Run allowed c h c')
include hrun

theorem Run.clock_le : c.shared.clock ≤ c'.shared.clock := by
  induction hrun with
  | nil => exact le_rfl
  | step _ _ hs ih => exact ih.trans (step_clock_le hs)

theorem Run.epoch_le : c.shared.slot.epoch ≤ c'.shared.slot.epoch := by
  induction hrun with
  | nil => exact le_rfl
  | step _ _ hs ih => rcases step_epoch hs with ⟨-, heq⟩ | ⟨-, heq⟩ <;> omega

theorem Run.nextId_le : c.shared.nextId ≤ c'.shared.nextId := by
  induction hrun with
  | nil => exact le_rfl
  | step _ _ hs ih => exact ih.trans (step_nextId_le hs)

theorem Run.nextAttempt_le : c.shared.nextAttempt ≤ c'.shared.nextAttempt := by
  induction hrun with
  | nil => exact le_rfl
  | step _ _ hs ih => exact ih.trans (step_nextAttempt_le hs)

theorem Run.once {P : DeskEntry → Prop}
    (hP : ∀ earlier x mid y, (desktop estr).Run allowed c earlier
      y.before → (desktop estr).Step y → P y → (desktop estr).Run allowed y.after mid x.before →
      (desktop estr).Step x → ¬ P x) : Once P h := by
  refine .of_not_earlier ?_
  rintro later x earlier rfl hx y hmem hy
  obtain ⟨hr, -, hs⟩ := hrun.split
  obtain ⟨mid, rest, rfl⟩ := List.append_of_mem hmem
  obtain ⟨hry, -, hsy⟩ := hr.split
  exact hP rest x mid y hry hsy hy hr.tail hs hx

/-- Between two equal readings of the epoch nothing is published. -/
theorem Run.no_publish
    (heq : c'.shared.slot.epoch = c.shared.slot.epoch) : ∀ x ∈ h, ¬ Publishes x := by
  induction hrun with
  | nil => exact fun _ hmem => absurd hmem List.not_mem_nil
  | @step h x hr _ hs ih =>
    have hle := Run.epoch_le hr
    rcases step_epoch hs with ⟨-, hepoch⟩ | ⟨hno, hepoch⟩
    · omega
    · intro y hmem
      rcases List.mem_cons.1 hmem with rfl | hmem
      · exact hno
      · exact ih (by omega) y hmem

theorem Run.mem_said (hthreads : ∀ tid, c.threads tid = none)
    {t : Thread deskInterface String Reply Call} (ht : c'.threads tid = some t)
    {e : DeskExchange} (hmem : e ∈ t.said) : ∃ since y before t₀, h = since ++ y :: before
      ∧ (desktop estr).Run allowed c before y.before
      ∧ (desktop estr).Step y ∧ y.event = .exchange tid e
      ∧ y.before.threads tid = some t₀ ∧ t₀.call = t.call
      ∧ ∀ z ∈ since, ∀ call, z.event ≠ .call tid call := by
  obtain ⟨new, old, hsaid⟩ := List.append_of_mem hmem
  obtain ⟨since, y, before, t₀, rfl, hy, ht₀, -, hcall, hcalls⟩ :=
    hrun.said_entry (hthreads tid) ht hsaid
  obtain ⟨hr, -, hs⟩ := hrun.split
  exact ⟨since, y, before, t₀, rfl, hr, hs, hy, ht₀, hcall, hcalls⟩

end Runs

-- ==== the guard

structure Hold where
  unlocked : Bool
  /-- It emptied the slot under this guard. -/
  locked : Bool
  /-- It dropped the plans under this guard. -/
  cleared : Bool

def holdStep (e : DeskExchange) (x : Option Hold) : Option Hold :=
  match e with
  | ⟨.slot .lockHandle, unlocked⟩ => some ⟨unlocked, false, false⟩
  | ⟨.slot .unlockHandle, _⟩ => none
  | ⟨.slot (.publish handle), _⟩ => x.map fun x =>
    ⟨handle.isSome, x.locked || handle.isNone, x.cleared⟩
  | ⟨.plan .clear, _⟩ => x.map fun x => { x with cleared := true }
  | _ => x

def hold : List DeskExchange → Option Hold
  | [] => none
  | e :: hd => holdStep e (hold hd)

section Guard

variable {estr : CoreError → String} {allowed : DeskEntry → Prop} {c c' : DeskConfig}
  {h : List DeskEntry} {s s' : Slot} {tid : Nat} {before : Option Hold} {x : Hold}

def Slot.HeldBy (s : Slot) (tid : Nat) (x : Hold) : Prop :=
  s.holder = some tid ∧ s.world.handle.isSome = x.unlocked

theorem SlotOp.Answers.held_other {tid' : Nat} {o : SlotOp} {a : o.Ans}
    (h : o.Answers estr s tid' a s') (hne : tid' ≠ tid) (hheld : s.HeldBy tid x) : s' = s := by
  have hother : s.holder ≠ some tid' := by
    rw [hheld.1]
    exact fun heq => hne (Option.some.inj heq).symm
  cases o with
  | lockHandle =>
    have hfree : s.holder = none := h.1
    rw [hheld.1] at hfree
    cases hfree
  | epoch => exact h.2
  | tryRecord _ => exact h
  | containerMode _ | readFile _ _ => exact h.2.1
  | _ => exact absurd h.1 hother

theorem SlotOp.Answers.held_self {o : SlotOp}
    {a : o.Ans} (h : o.Answers estr s tid a s') (hbefore : ∀ x, before = some x → s.HeldBy tid x)
    (hafter : holdStep ⟨.slot o, a⟩ before = some x) : s'.HeldBy tid x := by
  cases o with
  | lockHandle =>
    obtain ⟨-, hunlocked, rfl⟩ := h
    cases hafter
    exact ⟨rfl, hunlocked.symm⟩
  | unlockHandle => cases hafter
  | publish handle =>
    obtain ⟨hholder, rfl⟩ := h
    obtain ⟨y, hy, rfl⟩ := Option.map_eq_some_iff.1 hafter
    exact ⟨hholder, rfl⟩
  | tryRecord _ =>
    rw [h]
    exact hbefore x hafter
  | containerMode _ | readFile _ _ =>
    rw [h.2.1]
    exact hbefore x hafter
  | perform _ =>
    obtain ⟨-, w, hsome, rfl⟩ := h
    have hheld := hbefore x hafter
    exact ⟨hheld.1, hsome.trans hheld.2⟩
  | _ =>
    rw [h.2]
    exact hbefore x hafter

theorem holdStep_unlocked {e : DeskExchange} (hno : ∀ o, e.op ≠ .slot o)
    (hafter : holdStep e before = some x) : ∃ y, before = some y ∧ y.unlocked = x.unlocked := by
  obtain ⟨o, a⟩ := e
  cases o with
  | slot o => exact absurd rfl (hno o)
  | plan o =>
    cases o with
    | clear =>
      obtain ⟨y, hy, rfl⟩ := Option.map_eq_some_iff.1 hafter
      exact ⟨y, hy, rfl⟩
    | _ => exact ⟨x, hafter, rfl⟩
  | _ => exact ⟨x, hafter, rfl⟩

variable (hrun : (desktop estr).Run allowed c h c')
include hrun

theorem Run.holds (hthreads : ∀ tid, c.threads tid = none) :
    ∀ tid t x, c'.threads tid = some t → hold t.said = some x → c'.shared.slot.HeldBy tid x := by
  induction hrun with
  | nil =>
    intro tid t x ht
    rw [hthreads] at ht
    cases ht
  | @step h y hr _ hs ih =>
    intro tid t x ht hx
    -- the slot stays what the thread saw, if the step is not its own
    have hkept : y.before.threads tid = some t → ¬ y.event.By tid →
        y.after.shared.slot.HeldBy tid x := by
      intro ht hby
      have hheld := ih tid t x ht hx
      rcases step_cases hs with ⟨tid', e, hevent, hans⟩
          | ⟨m, hevent, hmoves⟩ | ⟨hno, heq⟩
      · rcases hans.slot_cases with ⟨o, a, rfl, hslot⟩ | ⟨hno, heq⟩
        · rw [hevent] at hby
          rw [hslot.held_other hby hheld]
          exact hheld
        · rw [heq]
          exact hheld
      · obtain ⟨hholder, -, hhandle⟩ := hmoves.slot
        exact ⟨hholder.trans hheld.1, by rw [hhandle]; exact hheld.2⟩
      · rw [heq]
        exact hheld
    rcases hs.thread_cases ht with ⟨hbefore, hby⟩
        | ⟨call, p, -, rfl, -⟩ | ⟨e, t₀, -, ht₀, hhears, hans⟩
    · exact hkept hbefore hby
    · cases hx
    rw [hhears.said] at hx
    have hbefore : ∀ x, hold t₀.said = some x →
        y.before.shared.slot.HeldBy tid x := fun x => ih tid t₀ x ht₀
    rcases hans.slot_cases with ⟨o, a, rfl, hslot⟩ | ⟨hno, heq⟩
    · exact hslot.held_self hbefore hx
    · obtain ⟨z, hz, hunlocked⟩ := holdStep_unlocked hno hx
      have hheld := hbefore z hz
      rw [heq]
      exact ⟨hheld.1, hheld.2.trans hunlocked⟩

theorem Run.guarded (hholder : c.shared.slot.holder = some tid)
    (hquiet : ∀ x ∈ h, ¬ x.event.By tid) : c'.shared.slot.holder = some tid
      ∧ c'.shared.slot.epoch = c.shared.slot.epoch := by
  induction hrun with
  | nil => exact ⟨hholder, rfl⟩
  | @step h x hr _ hs ih =>
    obtain ⟨hbefore, hepoch⟩ := ih fun y hmem => hquiet y (List.mem_cons_of_mem _ hmem)
    have hx := hquiet x List.mem_cons_self
    have hheld : x.before.shared.slot.HeldBy tid
        ⟨x.before.shared.slot.world.handle.isSome, false, false⟩ :=
      ⟨hbefore, rfl⟩
    rw [← hbefore, ← hepoch]
    rcases step_cases hs with ⟨tid', e, hevent, hans⟩
        | ⟨m, hevent, hmoves⟩ | ⟨hne, heq⟩
    · rw [hevent] at hx
      rcases hans.slot_cases with ⟨o, a, rfl, hslot⟩ | ⟨hne, heq⟩
      · rw [hslot.held_other hx hheld]
        exact ⟨rfl, rfl⟩
      · rw [heq]
        exact ⟨rfl, rfl⟩
    · exact ⟨hmoves.slot.1, hmoves.slot.2.1⟩
    · rw [heq]
      exact ⟨rfl, rfl⟩

theorem Run.epoch_read (hthreads : ∀ tid, c.threads tid = none)
    {t : Thread deskInterface String Reply Call} (ht : c'.threads tid = some t)
    {n : Nat} {unlocked : Bool} {before : List DeskExchange} (hsaid : t.said = ⟨.slot .epoch, n⟩
      :: ⟨.slot .lockHandle, unlocked⟩ :: before) : c'.shared.slot.epoch = n := by
  obtain ⟨later, u, earlier, t₀, rfl, hu, ht₀, hsaid₀, -, hsince⟩ :=
    hrun.said_between (hthreads tid) ht (show t.said = [] ++ _ :: _ from hsaid)
  obtain ⟨hr, -, hs⟩ := hrun.split
  obtain ⟨_, -, s, ⟨hn, rfl⟩, hafter⟩ := step_answers hs hu
  have hheld := Run.holds hr hthreads tid t₀ ⟨unlocked, false, false⟩ ht₀ (by rw [hsaid₀]; rfl)
  have hholder : u.after.shared.slot.holder = some tid := by
    rw [hafter]
    exact hheld.1
  have hquiet : ∀ e ∈ later, ¬ e.event.By tid := by
    intro e hmem hby
    obtain ⟨_, hnil, -⟩ := hsince e hmem hby
    cases hnil
  rw [(Run.guarded hrun.tail hholder hquiet).2, hafter, hn]

end Guard

end SovereignVault.Desk
