/-
The plans: none survives a lock.

A plan is entered and executed under the guard of the handle, and the vault
is locked under it. A lock by hand drops the plans before it gives the
guard back. The lock of the session monitor and the rollback of an unlock
leave the plans where they are: a plan from before such a lock is executed
after the next unlock (`plan_survives`).
-/
import SovereignVault.Desktop.Lawful
import SovereignVault.Desktop.Play

namespace SovereignVault.Desk

open Dialogue Talk Audit Presence List

-- ==== the claims

def Creates (x : DeskEntry) (plan : PendingPlan) : Prop :=
  ∃ tid u, x.event = .exchange tid ⟨.plan (.insert plan), u⟩

def Executes (x : DeskEntry) (plan : PendingPlan) : Prop :=
  ∃ tid r, x.event = .exchange tid ⟨.plan (.ingest plan), r⟩

def Since (h : List DeskEntry) (plan : PendingPlan) : Prop :=
  ∃ between x earlier, h = between ++ x :: earlier ∧ Creates x plan ∧ ∀ y ∈ between, ¬ Locks y

structure PlansEnd (h : List DeskEntry) : Prop where
  /-- A plan that is executed was entered since the last lock. -/
  created : ∀ after z earlier plan, h = after ++ z :: earlier → Executes z plan → Since earlier plan
  /-- There is no lock between a plan's creation and its execution. -/
  ended : ∀ after z between x earlier plan, h = after ++ z :: (between ++ x :: earlier) →
    Creates x plan → (∀ w ∈ between, ¬ Creates w plan) → Executes z plan → ∀ y ∈ between, ¬ Locks y

/-- A lock that is not made by hand finds no plan pending. -/
def LocksNone (x : DeskEntry) : Prop :=
  ∀ tid u t, x.event = .exchange tid ⟨.slot (.publish none), u⟩ →
    x.before.threads tid = some t → t.call.byHand = false → x.before.shared.plans = ∅

/-- A lock by hand is on its way from the slot to the plans. -/
def Locking (c : DeskConfig) : Prop :=
  ∃ tid t x, c.threads tid = some t ∧ t.call.byHand = true
    ∧ hold t.said = some x ∧ x.locked = true ∧ x.cleared = false

def Kept (h : List DeskEntry) (c : DeskConfig) : Prop :=
  ∀ id plan, c.shared.plans.lookup id = some plan → Since h plan ∨ Locking c

-- ==== steps

section

variable {estr : CoreError → String} {allowed : DeskEntry → Prop}
  {c c' : DeskConfig} {h : List DeskEntry} {x : DeskEntry} {tid : Nat} {plan : PendingPlan}

theorem Since.cons (hsince : Since h plan) (hx : ¬ Locks x) : Since (x :: h) plan := by
  obtain ⟨between, y, earlier, rfl, hy, hno⟩ := hsince
  refine ⟨x :: between, y, earlier, rfl, hy, fun z hmem => ?_⟩
  rcases mem_cons.1 hmem with rfl | hmem
  · exact hx
  · exact hno z hmem

theorem Since.append {later : List DeskEntry} (hsince : Since h plan)
    (hno : ∀ y ∈ later, ¬ Locks y) : Since (later ++ h) plan := by
  induction later with
  | nil => exact hsince
  | cons y later ih =>
    exact (ih fun z hmem => hno z (mem_cons_of_mem _ hmem)).cons (hno y mem_cons_self)

theorem lookup_of_livePlans {plans : PlanStore} {now : Nat}
    {id : String} (h : (livePlans plans now).lookup id = some plan) : plans.lookup id = some plan :=
  (AList.lookup_retain_eq_some.1 h).1

theorem step_plans (hs : (desktop estr).Step x) : (∃ plan, Creates x plan ∧ x.after.shared.plans
      = x.before.shared.plans.insert plan.id plan)
    ∨ x.after.shared.plans = ∅
    ∨ (∀ tid u, x.event ≠ .exchange tid ⟨.plan .clear, u⟩)
      ∧ ∀ id plan, x.after.shared.plans.lookup id = some plan →
        x.before.shared.plans.lookup id = some plan := by
  have hmoves : ∀ {d m d'}, Moves d m d' → d'.plans = d.plans := by
    intro d m d' hm
    cases m with
    | files w =>
      obtain ⟨-, rfl⟩ := hm
      rfl
    | _ =>
      cases hm
      rfl
  rcases step_part Shared.plans DeskOp.plan
      (fun hans hno => hans.elsewhere.plans hno) hmoves hs with
    ⟨tid, ⟨op, a⟩, o, hevent, hop, hans⟩ | ⟨hno, heq⟩
  · obtain rfl : op = .plan o := hop
    obtain ⟨hi, -, plans, hplans, hafter⟩ := hans
    have hclear : o ≠ .clear → ∀ tid u, x.event ≠ .exchange tid ⟨.plan .clear, u⟩ := by
      intro hne tid' u heq
      rw [hevent] at heq
      cases heq
      exact hne rfl
    rw [hafter]
    cases o with
    | insert plan => exact .inl ⟨plan, ⟨tid, a, hevent⟩, hplans⟩
    | clear => exact .inr (.inl hplans)
    | live id =>
      obtain ⟨now, rfl, -⟩ := hplans
      exact .inr (.inr ⟨hclear (nofun), fun id' plan hlookup => lookup_of_livePlans hlookup⟩)
    | remove id =>
      obtain rfl : plans = _ := hplans
      exact .inr (.inr ⟨hclear (nofun),
        fun id' plan hlookup => (AList.lookup_erase_eq_some hlookup).2⟩)
    | build _ _ _ | ingest _ =>
      obtain rfl : plans = _ := hplans
      exact .inr (.inr ⟨hclear (nofun), fun _ _ => id⟩)
  · rw [heq]
    exact .inr (.inr ⟨fun tid u he => hno tid _ _ he rfl, fun _ _ => id⟩)

theorem holdStep_locking {e : DeskExchange} {x : Hold} (hlock : e.op ≠ .slot .lockHandle)
    (hunlock : e.op ≠ .slot .unlockHandle) (hclear : e.op ≠ .plan .clear)
    (hx : x.locked = true ∧ x.cleared = false) : ∃ y, holdStep e (some x) = some y ∧ y.locked = true
      ∧ y.cleared = false := by
  obtain ⟨op, a⟩ := e
  cases op with
  | slot o =>
    cases o with
    | lockHandle => exact absurd rfl hlock
    | unlockHandle => exact absurd rfl hunlock
    | publish handle => exact ⟨_, rfl, by simp [hx.1], hx.2⟩
    | _ => exact ⟨x, rfl, hx⟩
  | plan o =>
    cases o with
    | clear => exact absurd rfl hclear
    | _ => exact ⟨x, rfl, hx⟩
  | _ => exact ⟨x, rfl, hx⟩

theorem Locking.step
    (hrun : (desktop estr).Run allowed c h x.before) (hthreads : ∀ tid, c.threads tid = none)
    (hs : (desktop estr).Step x) (hlocking : Locking x.before)
    (hclear : ∀ tid u, x.event ≠ .exchange tid ⟨.plan .clear, u⟩) : Locking x.after := by
  obtain ⟨tid, t, y, ht, hhand, hhold, hlocked, hcleared⟩ := hlocking
  rcases hs.thread_next ht with ⟨ht', -⟩
      | ⟨e, t', hevent, hhears, ht', hans⟩ | ⟨-, r, hret⟩
  · exact ⟨tid, t, y, ht', hhand, hhold, hlocked, hcleared⟩
  · obtain ⟨t₀, -, ht₀, -, -, -, hlawful⟩ := Run.lawful hrun hthreads hs hevent
    cases ht.symm.trans ht₀
    have hheld := Run.holds hrun hthreads tid t y ht hhold
    obtain ⟨op, a⟩ := e
    obtain ⟨z, hz, hzlocked, hzcleared⟩ :=
      holdStep_locking (e := ⟨op, a⟩) (x := y) (by
          rintro rfl
          obtain ⟨hi, -, s, ⟨hfree, -⟩, -⟩ := hans
          rw [hheld.1] at hfree
          cases hfree)
        (by
          rintro rfl
          rw [hlawful hhand y hhold hlocked] at hcleared
          cases hcleared)
        (by
          rintro rfl
          exact hclear tid a hevent)
        ⟨hlocked, hcleared⟩
    refine ⟨tid, t', z, ht', hhears.call ▸ hhand, ?_, hzlocked, hzcleared⟩
    rw [hhears.said]
    show holdStep _ (hold t.said) = _
    rw [hhold]
    exact hz
  · -- a call that is over has given the guard back
    have hended := Run.ended hrun hthreads ht hret
    rw [hended.released hhand] at hhold
    cases hhold

theorem Locks.locking (hrun : (desktop estr).Run allowed c h x.before)
    (hthreads : ∀ tid, c.threads tid = none) (hs : (desktop estr).Step x)
    {u : Unit} (hevent : x.event = .exchange tid ⟨.slot (.publish none), u⟩)
    {t : Thread deskInterface String Reply Call}
    (ht : x.before.threads tid = some t) (hhand : t.call.byHand = true) : Locking x.after := by
  obtain ⟨t₀, t', ht₀, hhears, ht', -, -, hlawful, -⟩ := Run.lawful hrun hthreads hs hevent
  cases ht.symm.trans ht₀
  obtain ⟨y, hhold, hcleared⟩ := hlawful hhand
  refine ⟨tid, t', ⟨false, true, y.cleared⟩, ht', hhears.call ▸ hhand, ?_,
    rfl, hcleared⟩
  rw [hhears.said]
  show holdStep _ (hold t.said) = _
  rw [hhold]
  show some (Hold.mk _ (y.locked || true) _) = _
  rw [Bool.or_true]
  rfl

theorem Kept.step (hrun : (desktop estr).Run allowed c h x.before)
    (hthreads : ∀ tid, c.threads tid = none) (hs : (desktop estr).Step x)
    (hnone : LocksNone x) (hkept : Kept h x.before) : Kept (x :: h) x.after := by
  intro id plan hlookup
  rcases step_plans hs with ⟨plan', hcreates, heq⟩ | heq
      | ⟨hclear, hbefore⟩
  · have hx : ¬ Locks x := by
      rintro ⟨tid, a, hlocks⟩
      obtain ⟨tid', u, hcreates⟩ := hcreates
      rw [hcreates] at hlocks
      cases hlocks
    rw [heq] at hlookup
    rcases AList.lookup_insert_eq_some hlookup with heq | ⟨-, hlookup⟩
    · cases heq
      exact .inl ⟨[], x, h, rfl, hcreates, fun _ hmem => absurd hmem not_mem_nil⟩
    refine (hkept id plan hlookup).imp (·.cons hx) fun hlocking => ?_
    refine hlocking.step hrun hthreads hs fun tid u hclear => ?_
    obtain ⟨tid', u', hcreates⟩ := hcreates
    rw [hcreates] at hclear
    cases hclear
  · rw [heq] at hlookup
    cases hlookup
  have hlookup := hbefore id plan hlookup
  by_cases hx : Locks x
  · -- the plans are gone, or about to be
    obtain ⟨tid, u, hevent⟩ := hx
    obtain ⟨t, -, ht, -⟩ := hs.exchange_inv hevent
    cases hhand : t.call.byHand with
    | true => exact .inr (Locks.locking hrun hthreads hs hevent ht hhand)
    | false =>
      rw [hnone tid u t hevent ht hhand] at hlookup
      cases hlookup
  · exact (hkept id plan hlookup).imp (·.cons hx) fun hlocking =>
      hlocking.step hrun hthreads hs hclear

end

-- ==== runs

section

variable {estr : CoreError → String} {c c' : DeskConfig}
  {h : List DeskEntry} {x : DeskEntry} {tid : Nat} {plan : PendingPlan}

theorem Run.kept (hrun : (desktop estr).Run LocksNone c h c') (hfresh : Fresh c) : Kept h c' := by
  induction hrun with
  | nil =>
    intro id plan hlookup
    rw [hfresh.plans] at hlookup
    cases hlookup
  | step hr hnone hs ih => exact ih.step hr hfresh.threads hs hnone

theorem Run.executed_since (hrun : (desktop estr).Run LocksNone c h x.before)
    (hfresh : Fresh c) (hs : (desktop estr).Step x) (hx : Executes x plan) : Since h plan := by
  obtain ⟨tid, r, hevent⟩ := hx
  obtain ⟨t, -, ht, -, -, -, hhand, id, before, y, hsaid, hhold⟩ :=
    Run.lawful hrun hfresh.threads hs hevent
  -- it was found among the plans under the guard
  obtain ⟨later, u, earlier, t₀, rfl, hu, ht₀, hsaid₀, hcall₀, hsince⟩ :=
    hrun.said_between (hfresh.threads tid) ht (show t.said = [] ++ _ :: _ from hsaid)
  obtain ⟨hr, -, hsu⟩ := hrun.split
  obtain ⟨hi, -, plans, ⟨now, rfl, hlookup⟩, hafter⟩ := step_answers hsu hu
  have hheld := Run.holds hr hfresh.threads tid t₀ y ht₀ (by rw [hsaid₀]; exact hhold)
  have hlookup := lookup_of_livePlans (Eq.symm hlookup)
  have hsince₀ : Since earlier plan := by
    rcases Run.kept hr hfresh id plan hlookup with hsince₀
        | ⟨tid', t', y', ht', hhand', hhold', -⟩
    · exact hsince₀
    -- a lock by hand would hold the guard as well
    have hheld' := Run.holds hr hfresh.threads tid' t' y' ht' hhold'
    obtain rfl : tid' = tid := Option.some.inj (hheld'.1.symm.trans hheld.1)
    cases ht'.symm.trans ht₀
    rw [hcall₀, hhand] at hhand'
    cases hhand'
  -- the guard is still held
  have hholder : u.after.shared.slot.holder = some tid := by
    rw [hafter]
    exact hheld.1
  have hquiet : ∀ e ∈ later, ¬ e.event.By tid := by
    intro e hmem hby
    obtain ⟨_, hnil, -⟩ := hsince e hmem hby
    cases hnil
  have hepoch := (Run.guarded hrun.tail hholder hquiet).2
  have hno : ∀ e ∈ later, ¬ Locks e := by
    rintro e hmem ⟨tid', a, hlocks⟩
    exact Run.no_publish hrun.tail hepoch e hmem ⟨tid', none, a, hlocks⟩
  have hu' : ¬ Locks u := by
    rintro ⟨tid', a, hlocks⟩
    rw [hu] at hlocks
    cases hlocks
  exact (hsince₀.cons hu').append hno

end

/-- Where the locks that are not made by hand find no plan pending, no
plan survives a lock. -/
theorem plans_end {estr : CoreError → String} {c c' : DeskConfig} {h : List DeskEntry}
    (hfresh : Fresh c) (hrun : (desktop estr).Run LocksNone c h c') : PlansEnd h := by
  have hcreated : ∀ after z earlier plan, h = after ++ z :: earlier →
      Executes z plan → Since earlier plan := by
    rintro after z earlier plan rfl hz
    obtain ⟨hr, -, hs⟩ := hrun.split
    exact Run.executed_since hr hfresh hs hz
  refine ⟨hcreated, ?_⟩
  intro after z between x earlier plan heq hx hlast hz y hmem
  obtain ⟨between', x', earlier', heq', hx', hno⟩ := hcreated after z _ plan heq hz
  -- the creation since the last lock is this one or one before it
  rcases append_eq_append_iff.1 heq' with ⟨more, rfl, -⟩
      | ⟨more, rfl, hrest⟩
  · exact hno y (mem_append_left _ hmem)
  cases more with
  | nil =>
    rw [append_nil] at hmem
    exact hno y hmem
  | cons w more =>
    obtain ⟨rfl, -⟩ := List.cons.inj hrest
    exact absurd hx' (hlast _ (mem_append_right _ mem_cons_self))

def created (x : DeskEntry) : Option PendingPlan :=
  match x.event with
  | .exchange _ ⟨.plan (.insert plan), _⟩ => some plan
  | _ => none

def executed (x : DeskEntry) : Option PendingPlan :=
  match x.event with
  | .exchange _ ⟨.plan (.ingest plan), _⟩ => some plan
  | _ => none

def tickLocks (x : DeskEntry) : Bool :=
  match x.event with
  | .exchange tid ⟨.slot (.publish none), _⟩ =>
    (x.before.threads tid).any fun t =>
      match t.call with
      | .tick => true
      | _ => false
  | _ => false

def locksNone (x : DeskEntry) : Bool :=
  match x.event with
  | .exchange tid ⟨.slot (.publish none), _⟩ => (x.before.threads tid).all (·.call.byHand)
  | _ => true

section

variable {x : DeskEntry} {plan : PendingPlan}

theorem created_iff : created x = some plan ↔ Creates x plan := by
  constructor
  · intro hx
    unfold created at hx
    split at hx
    · next tid _ u heq =>
      cases hx
      exact ⟨tid, u, heq⟩
    · cases hx
  · rintro ⟨tid, u, hx⟩
    unfold created
    rw [hx]

theorem executes_of_executed (hx : executed x = some plan) : Executes x plan := by
  unfold executed at hx
  split at hx
  · next tid _ r heq =>
    cases hx
    exact ⟨tid, r, heq⟩
  · cases hx

theorem locks_of_tickLocks (hx : tickLocks x = true) : Locks x := by
  unfold tickLocks at hx
  split at hx
  · next tid u heq => exact ⟨tid, u, heq⟩
  · cases hx

theorem LocksNone.of_locksNone (hx : locksNone x = true) : LocksNone x := by
  intro tid u t hevent ht hhand
  unfold locksNone at hx
  rw [hevent] at hx
  have hx : (x.before.threads tid).all (·.call.byHand) = true := hx
  rw [ht] at hx
  exact absurd (hhand.symm.trans hx) Bool.false_ne_true

end

namespace Sample

def planAt (now : Nat) : PendingPlan where
  id := s!"plan {now}"
  plan := ⟨"/p/.env", "/p/.env.vault-manifest.json", "dotenv", "digest"⟩
  createdAt := now

def planCall : Call := .planFile "scan" "/p/.env" "dotenv"

def planActs : List (Act Call Move) :=
  List.flatten [whole 0 (.unlock none) 10, [.move (.pass (secs 3500))],
      .call 1 planCall :: answers 1 7]

def executeActs (now : Nat) : List (Act Call Move) :=
  List.flatten [.call 4 (.execute (planAt now).id "digest") :: answers 4 8,
      .call 5 (.respond 1 true none) :: answers 5 6, answers 4 8]

def capActs : List (Act Call Move) :=
  List.flatten [answers 1 3, [.finish 1, .move (.pass (secs 100))], whole 2 .tick 15,
      whole 3 (.unlock none) 10, executeActs (secs 3500)]

def planRun : List DeskEntry × DeskConfig :=
  plainPlayer.play (launch lockedRoot) planActs

def capRun : List DeskEntry × DeskConfig :=
  plainPlayer.play planRun.2 capActs

def replanActs : List (Act Call Move) :=
  List.flatten [whole 0 (.unlock none) 10, whole 1 planCall 10,
      whole 2 (.lock "manual") 10, whole 3 (.unlock none) 10,
      [.move (.pass (secs 1))], whole 1 planCall 10, executeActs (secs 1)]

def replanRun : List DeskEntry × DeskConfig :=
  plainPlayer.play (launch lockedRoot) replanActs

theorem replanRun_run : (desktop estr).Run LocksNone (launch lockedRoot) replanRun.1 replanRun.2 :=
  plainPlayer.play_tested (fun _ _ => .of_locksNone) (by decide +kernel)

end Sample

open Sample

theorem plans_end_replanned : PlansEnd replanRun.1 ∧ ∃ z rest, replanRun.1 = z :: rest
      ∧ Executes z (planAt (secs 1)) := by
  refine ⟨plans_end (launch_fresh _) replanRun_run, ?_⟩
  have hhead : replanRun.1.head?.bind executed = some (planAt (secs 1)) := by decide +kernel
  obtain ⟨z, hz, hexecuted⟩ := Option.bind_eq_some_iff.1 hhead
  obtain ⟨rest, heq⟩ := head?_eq_some_iff.1 hz
  exact ⟨z, rest, heq, executes_of_executed hexecuted⟩

/-- The session cap locks the vault with a plan pending, and the plan is
executed in the next session. -/
theorem plan_survives : ∃ z between x earlier c', (desktop estr).Run (fun _ => True)
      (launch lockedRoot) (z :: between ++ x :: earlier) c'
    ∧ Creates x (planAt (secs 3500))
    ∧ (∀ w ∈ between, ¬ Creates w (planAt (secs 3500)))
    ∧ (∃ y ∈ between, Locks y)
    ∧ Executes z (planAt (secs 3500)) := by
  have hrun :
      (desktop estr).Run (fun _ => True) (launch lockedRoot) (capRun.1 ++ planRun.1) capRun.2 :=
    plainPlayer.play_run.append plainPlayer.play_run
  have hcreates : planRun.1.head?.bind created = some (planAt (secs 3500)) := by decide +kernel
  have hexecutes : capRun.1.head?.bind executed = some (planAt (secs 3500)) := by decide +kernel
  have hlocks : capRun.1.tail.any tickLocks = true := by decide +kernel
  have hlast : capRun.1.tail.all (fun w => created w ≠ some (planAt (secs 3500))) = true := by
    decide +kernel
  obtain ⟨x, hx, hcreated⟩ := Option.bind_eq_some_iff.1 hcreates
  obtain ⟨earlier, hearlier⟩ := head?_eq_some_iff.1 hx
  obtain ⟨z, hz, hexecuted⟩ := Option.bind_eq_some_iff.1 hexecutes
  obtain ⟨between, hbetween⟩ := head?_eq_some_iff.1 hz
  rw [hbetween] at hlocks hlast hrun
  rw [hearlier] at hrun
  obtain ⟨y, hmem, hy⟩ := any_eq_true.1 hlocks
  refine ⟨z, between, x, earlier, _, hrun, created_iff.1 hcreated,
    fun w hw hcreates => ?_, ⟨y, hmem, locks_of_tickLocks hy⟩, executes_of_executed hexecuted⟩
  have hne := of_decide_eq_true (all_eq_true.1 hlast w hw)
  exact hne (created_iff.2 hcreates)

end SovereignVault.Desk
