/-
What the presence coordinator keeps, whoever steps when.

`prompts_serialised` says what holds in every state of every run, and what
`Verified` means: the backend approved the operation, and in the poll that
took the result the caller had looked at its signal and at its timer
first. Between the look and the result either can still change; the owner
looks again, at the gate.

The first half are invariants of the state (`Sound`). The second half
goes back in the history: a call is somewhere by the last step that took
it there, and has been there since (`at_entered`).
-/
import SovereignVault.Presence.Steps

namespace SovereignVault.Presence

open Audit Dialogue Sync PresenceCoordinator List

-- ==== the invariant

def Claims (s : PresenceCoordinator) : Holder → Prop
  | .call c => ∃ call, s.calls[c]? = some call ∧ call.phase.holds = true
  | .task c => ∃ call, s.calls[c]? = some call ∧ call.task.holds = true

/-- What holds of the coordinator and of its calls in every state. -/
structure Sound (s : PresenceCoordinator) : Prop where
  exclusive : s.slot.Exclusive (Claims s)
  places : s.waiting = s.calls.countP (·.phase.hasPlace)
  bounded : s.calls.countP (·.phase.within) ≤ MAX_WAITING
  idle : ∀ (c : Nat) (call : Call), s.calls[c]? = some call →
    call.phase.awaits = true → call.task = .none
  told : ∀ (c : Nat) (call : Call), s.calls[c]? = some call →
    call.phase.denial = some .invalidated → s.fired call.attempt = true
  attempted : ∀ (c : Nat) (call : Call), s.calls[c]? = some call → call.attempt < s.attempts.length
  ids : ∀ (k : Nat) (attempt : Attempt), s.attempts[k]? = some attempt → attempt.id = k + 1
  count : s.nextAttempt = s.attempts.length
  registered : ∀ id k, s.registry id = some k → id = k + 1
  found : ∀ (i : Nat) (invalidation : Invalidation) (k : Nat),
    s.invalidations[i]? = some invalidation → invalidation.found = some k → invalidation.id = k + 1

theorem sound_new : Sound .new where
  exclusive i h := by
    cases i with
    | call c | task c =>
      obtain ⟨call, hcall, -⟩ := h
      cases hcall
  places := rfl
  bounded := Nat.zero_le _
  idle _ _ h := by cases h
  told _ _ h := by cases h
  attempted _ _ h := by cases h
  ids _ _ h := by cases h
  count := rfl
  registered _ _ h := by cases h
  found _ _ _ h := by cases h

section Invariant

variable {s s' : PresenceCoordinator} {a : Action} {call' : Call} {c : Nat}

theorem countP_set_add {α : Type} {p : α → Bool} {l : List α} {i : Nat} {x y : α}
    (h : l[i]? = some x) : (l.set i y).countP p + (p x).toNat = l.countP p + (p y).toNat := by
  induction l generalizing i with
  | nil => cases h
  | cons z rest ih =>
    cases i with
    | zero =>
      cases h
      simp only [set_cons_zero, countP_cons, Bool.toNat, Bool.cond_eq_ite]
      omega
    | succ i =>
      have hrest := ih h
      simp only [set_cons_succ, countP_cons]
      omega

theorem Sound.waiting_pos (hs : Sound s) {call : Call}
    (hcall : s.calls[c]? = some call) (hplace : call.phase.hasPlace = true) : 0 < s.waiting := by
  rw [hs.places]
  exact countP_pos_iff.2 ⟨call, mem_of_getElem? hcall, hplace⟩

theorem within_le_places (calls : List Call) :
    calls.countP (·.phase.within) ≤ calls.countP (·.phase.hasPlace) := by
  refine countP_mono_left fun call _ h => ?_
  obtain ⟨k, op, deadline, phase, task⟩ := call
  cases phase with
  | counted | queued => rfl
  | _ => cases h

theorem unprompted_of_awaits {phase : Phase} (h : phase.awaits = true) :
    phase.unprompted = true := by
  cases phase with
  | cleared | ready | prompting | expiring => cases h
  | _ => rfl

theorem Sound.step_exclusive (hs : Sound s) (h : s.step a = some s') :
    s'.slot.Exclusive (Claims s') := by
  cases a with
  | owner o =>
    have haside := owned_aside h
    rw [haside.slot]
    intro i hi
    refine hs.exclusive i ?_
    cases i with
    | call c | task c =>
      obtain ⟨call, hcall, hholds⟩ := hi
      rw [haside.calls] at hcall
      exact ⟨call, hcall, hholds⟩
  | verify k op deadline =>
    intro i hi
    have hclaims : Claims s i := by
      cases i with
      | call c | task c =>
        obtain ⟨call, hcall, hholds⟩ := hi
        cases step_calls h hcall with
        | kept hkept => exact ⟨call, hkept, hholds⟩
        | began _ _ hbegan =>
          subst hbegan
          cases hholds
    obtain ⟨-, rfl⟩ := step_verify h
    exact hs.exclusive i hclaims
  | caller c x =>
    obtain ⟨call, m, hcall, hm, rfl⟩ := step_caller h
    have hfits := callerMove_fits hm
    have hold : call.phase.holds = true → s.slot.holder = some (.call c) :=
      fun hholds => hs.exclusive (.call c) ⟨call, hcall, hholds⟩
    refine hs.exclusive.step (hfits.spares hold) fun j hj => ?_
    cases j with
    | call c' =>
      obtain ⟨call', hcall', hholds⟩ := hj
      rcases getElem?_set_cases hcall' with ⟨rfl, rfl⟩ | ⟨hne, hkept⟩
      · exact .inr (hfits.holds hold hholds)
      · exact .inl ⟨fun heq => hne (Holder.call.inj heq), call', hkept, hholds⟩
    | task c' =>
      obtain ⟨call', hcall', hholds⟩ := hj
      rcases getElem?_set_cases hcall' with ⟨rfl, rfl⟩ | ⟨hne, hkept⟩
      · cases hspawns : m.spawns with
        | true => exact .inr (hfits.spawns hspawns).1
        | false =>
          rw [hspawns] at hholds
          exact .inl ⟨nofun, call, hcall, hholds⟩
      · exact .inl ⟨nofun, call', hkept, hholds⟩
  | task c t =>
    obtain ⟨call, task, hcall, htask, rfl⟩ := step_task h
    have hold : call.task.holds = true → s.slot.holder = some (.task c) :=
      fun hholds => hs.exclusive (.task c) ⟨call, hcall, hholds⟩
    obtain ⟨hspares, hkeeps⟩ := taskMove_slot htask hold
    refine hs.exclusive.step hspares fun j hj => ?_
    cases j with
    | call c' =>
      obtain ⟨call', hcall', hholds⟩ := hj
      rcases getElem?_set_cases hcall' with ⟨rfl, rfl⟩ | ⟨-, hkept⟩
      · exact .inl ⟨nofun, call, hcall, hholds⟩
      · exact .inl ⟨nofun, call', hkept, hholds⟩
    | task c' =>
      obtain ⟨call', hcall', hholds⟩ := hj
      rcases getElem?_set_cases hcall' with ⟨rfl, rfl⟩ | ⟨hne, hkept⟩
      · exact .inr (hkeeps hholds)
      · exact .inl ⟨fun heq => hne (Holder.task.inj heq), call', hkept, hholds⟩

theorem Sound.step_places (hs : Sound s) (h : s.step a = some s') :
    s'.waiting = s'.calls.countP (·.phase.hasPlace) := by
  cases a with
  | owner o =>
    have haside := owned_aside h
    rw [haside.waiting, haside.calls]
    exact hs.places
  | verify k op deadline =>
    obtain ⟨-, rfl⟩ := step_verify h
    rw [countP_append]
    exact hs.places
  | caller c x =>
    obtain ⟨call, m, hcall, hm, rfl⟩ := step_caller h
    have hmove := (callerMove_fits hm).places (hs.waiting_pos hcall)
    have hset : (s.calls.set c (call.moved m)).countP (·.phase.hasPlace) + call.phase.hasPlace.toNat
          = s.calls.countP (·.phase.hasPlace) + m.phase.hasPlace.toNat :=
      countP_set_add hcall
    have hplaces := hs.places
    change m.waiting = (s.calls.set c (call.moved m)).countP (·.phase.hasPlace)
    omega
  | task c t =>
    obtain ⟨call, task, hcall, htask, rfl⟩ := step_task h
    have hset := countP_set_add (p := fun call => call.phase.hasPlace)
      (y := { call with task := task }) hcall
    exact hs.places.trans (Nat.add_right_cancel hset).symm

theorem Sound.step_bounded (hs : Sound s) (h : s.step a = some s') :
    s'.calls.countP (·.phase.within) ≤ MAX_WAITING := by
  cases a with
  | owner o =>
    rw [(owned_aside h).calls]
    exact hs.bounded
  | verify k op deadline =>
    obtain ⟨-, rfl⟩ := step_verify h
    rw [countP_append]
    exact hs.bounded
  | caller c x =>
    obtain ⟨call, m, hcall, hm, rfl⟩ := step_caller h
    have hset : (s.calls.set c (call.moved m)).countP (·.phase.within) + call.phase.within.toNat
          = s.calls.countP (·.phase.within) + m.phase.within.toNat :=
      countP_set_add hcall
    change (s.calls.set c (call.moved m)).countP (·.phase.within) ≤ MAX_WAITING
    cases hwithin : m.phase.within with
    | false =>
      rw [hwithin] at hset
      exact (Nat.le_of_add_right_le hset.le).trans hs.bounded
    | true =>
      rw [hwithin] at hset
      rcases (callerMove_fits hm).within hwithin with hwas
        | ⟨-, hroom⟩
      · rw [hwas] at hset
        exact (Nat.add_right_cancel hset).le.trans hs.bounded
      -- everybody with a number has a place, and there is room
      have hle := within_le_places s.calls
      rw [← hs.places] at hle
      have hone : Bool.toNat true = 1 := rfl
      omega
  | task c t =>
    obtain ⟨call, task, hcall, htask, rfl⟩ := step_task h
    have hset := countP_set_add (p := fun call => call.phase.within)
      (y := { call with task := task }) hcall
    exact (Nat.add_right_cancel hset).le.trans hs.bounded

theorem Sound.step_idle (hs : Sound s) (h : s.step a = some s') (hcall' : s'.calls[c]? = some call')
    (hawaits : call'.phase.awaits = true) : call'.task = .none := by
  cases step_calls h hcall' with
  | kept hkept => exact hs.idle c call' hkept hawaits
  | began _ _ hbegan =>
    subst hbegan
    rfl
  | @caller call x m hcall hm hmoved =>
    subst hmoved
    have hfits := callerMove_fits hm
    have hbefore := hfits.awaits hawaits
    unfold Call.moved
    cases hspawns : m.spawns with
    | false => exact hs.idle c call hcall hbefore
    | true =>
      have hprompted := (hfits.spawns hspawns).2
      rw [unprompted_of_awaits hbefore] at hprompted
      cases hprompted
  | task hcall htask hmoved =>
    subst hmoved
    have hnone := hs.idle c _ hcall hawaits
    rw [hnone, taskMove_none] at htask
    cases htask

theorem Sound.step_told (hs : Sound s) (h : s.step a = some s') (hcall' : s'.calls[c]? = some call')
    (hdenial : call'.phase.denial = some .invalidated) : s'.fired call'.attempt = true := by
  refine step_fired_kept h ?_
  cases step_calls h hcall' with
  | kept hkept => exact hs.told c call' hkept hdenial
  | began _ _ hbegan =>
    subst hbegan
    cases hdenial
  | @caller call x m hcall hm hmoved =>
    subst hmoved
    rcases (callerMove_fits hm).denial hdenial with hbefore | hfired
    · exact hs.told c call hcall hbefore
    · exact hfired
  | @task call t task hcall htask hmoved =>
    subst hmoved
    exact hs.told c call hcall hdenial

theorem Sound.step_attempted (hs : Sound s) (h : s.step a = some s')
    (hcall' : s'.calls[c]? = some call') : call'.attempt < s'.attempts.length := by
  refine Nat.lt_of_lt_of_le ?_ (step_attempts_length h)
  cases step_calls h hcall' with
  | kept hkept => exact hs.attempted c call' hkept
  | began _ hk hbegan =>
    subst hbegan
    exact hk
  | @caller call x m hcall hm hmoved | @task call t task hcall htask hmoved =>
    subst hmoved
    exact hs.attempted c call hcall

theorem Sound.step_attempts (hs : Sound s) (h : s.step a = some s') {k : Nat}
    {attempt' : Attempt} (hattempt' : s'.attempts[k]? = some attempt') : attempt'.id = k + 1 := by
  cases Presence.step_attempts h hattempt' with
  | kept hattempt hid _ => exact hid.trans (hs.ids k _ hattempt)
  | drawn hk hid _ => rw [hid, hs.count, hk]

theorem Sound.step (hs : Sound s) (h : s.step a = some s') : Sound s' where
  exclusive := hs.step_exclusive h
  places := hs.step_places h
  bounded := hs.step_bounded h
  idle _ _ := hs.step_idle h
  told _ _ := hs.step_told h
  attempted _ _ := hs.step_attempted h
  ids _ _ := hs.step_attempts h
  count := by
    rcases step_ids h with ⟨o, rfl⟩ | ⟨hlength, hnext, -⟩
    · have hcount := (owned_aside h).count
      rw [hs.count, Nat.add_comm] at hcount
      exact Nat.add_left_cancel hcount
    · rw [hnext, hlength, hs.count]
  registered id k hk := by
    rcases step_ids h with ⟨o, rfl⟩ | ⟨-, -, hregistry, -⟩
    · rcases (owned_aside h).registry id k hk with hold
        | ⟨attempt, hattempt, rfl⟩
      · exact hs.registered id k hold
      · exact hs.ids k attempt hattempt
    · rw [hregistry] at hk
      exact hs.registered id k hk
  found i invalidation k hinv hfound := by
    rcases step_ids h with ⟨o, rfl⟩ | ⟨-, -, -, hsame⟩
    · rcases (owned_aside h).found i invalidation k hinv hfound with hold
        | hregistry
      · exact hs.found i invalidation k hold hfound
      · exact hs.registered _ k hregistry
    · rw [hsame] at hinv
      exact hs.found i invalidation k hinv hfound

end Invariant

-- ==== whole runs

abbrev CoordinatorHistory := List (Exchange coordinatorInterface)

section Runs

variable {h : CoordinatorHistory} {s s' : PresenceCoordinator}
  {e : Exchange coordinatorInterface} {k : Nat}

theorem step_of_Step (hstep : coordinator.Step s e s') : s.step e.op = some s' := by
  obtain ⟨hallowed, hact⟩ := hstep.inv
  obtain ⟨t, ht⟩ := Option.isSome_iff_exists.1 hallowed
  have hs' : (s.step e.op).getD s = s' := congrArg Prod.snd hact
  rw [ht] at hs' ⊢
  exact congrArg some hs'

theorem Sound.run (hs : Sound s) (hrun : coordinator.Run (fun _ _ => True) s h s') : Sound s' := by
  refine hrun.invariant (P := fun _ s => Sound s) hs ?_
  intro h s e s' hs _ hstep
  exact hs.step (step_of_Step hstep)

theorem Sound.idOf (hs : Sound s) (hk : k < s.attempts.length) : s.idOf k = k + 1 := by
  have hattempt := getElem?_eq_getElem hk
  unfold PresenceCoordinator.idOf
  rw [hattempt]
  exact hs.ids k _ hattempt

-- ==== the invalidated

/-- The attempt is invalidated, and if call `c` is one of it, its signal
will be looked at before anything is spawned. -/
def Barred (k c : Nat) (s : PresenceCoordinator) : Prop :=
  s.fired k = true ∧ ∀ call, s.calls[c]? = some call → call.attempt = k →
    call.phase.unprompted = true ∧ call.task = .none

theorem Barred.step {c : Nat} {a : Action} (hb : Barred k c s)
    (h : s.step a = some s') : Barred k c s' := by
  obtain ⟨hfired, hcalls⟩ := hb
  refine ⟨step_fired_kept h hfired, fun call' hcall' hk => ?_⟩
  cases step_calls h hcall' with
  | kept hkept => exact hcalls call' hkept hk
  | began _ _ hbegan =>
    subst hbegan
    exact ⟨rfl, rfl⟩
  | @caller call x m hcall hm hmoved =>
    subst hmoved
    obtain ⟨hunprompted, hnone⟩ := hcalls call hcall hk
    have hfits := callerMove_fits hm
    refine ⟨hfits.unprompted hunprompted (hk ▸ hfired), ?_⟩
    unfold Call.moved
    cases hspawns : m.spawns with
    | false => exact hnone
    | true =>
      have hprompted := (hfits.spawns hspawns).2
      rw [hunprompted] at hprompted
      cases hprompted
  | @task call t task hcall htask hmoved =>
    subst hmoved
    rw [(hcalls call hcall hk).2, taskMove_none] at htask
    cases htask

theorem Barred.run {c : Nat} (hb : Barred k c s)
    (hrun : coordinator.Run (fun _ _ => True) s h s') : Barred k c s' := by
  refine hrun.invariant (P := fun _ s => Barred k c s) hb ?_
  intro h s e s' hb _ hstep
  exact hb.step (step_of_Step hstep)

-- ==== the moments

structure Call.Same (call call' : Call) : Prop where
  attempt : call'.attempt = call.attempt
  op : call'.op = call.op
  deadline : call'.deadline = call.deadline

def At (c : Nat) (call : Call) (p : Phase → Task → Prop) (s : PresenceCoordinator) : Prop :=
  ∃ call', s.calls[c]? = some call' ∧ call.Same call' ∧ p call'.phase call'.task

inductive Comes (c : Nat) (call : Call) (p : Phase → Task → Prop)
    (s : PresenceCoordinator) : Action → Prop where
  | began {k : Nat} {op : OpDescriptor} {deadline : Nat}
      (hp : p .entered .none) : Comes c call p s (.verify k op deadline)
  | caller {call₁ : Call}
      {x : CallerStep} {m : Move} (h : s.calls[c]? = some call₁) (hsame : call.Same call₁)
      (hnot : ¬ p call₁.phase call₁.task) (hmove : s.callerMove c call₁ x = some m)
      (hp : p m.phase (call₁.moved m).task) : Comes c call p s (.caller c x)
  | task {call₁ : Call}
      {t : TaskStep} {task : Task} (h : s.calls[c]? = some call₁) (hsame : call.Same call₁)
      (hnot : ¬ p call₁.phase call₁.task) (hmove : taskMove call₁.task t = some task)
      (hp : p call₁.phase task) : Comes c call p s (.task c t)

theorem at_entered {c : Nat}
    {call : Call} {p : Phase → Task → Prop} (hrun : coordinator.Run (fun _ _ => True) .new h s)
    (hnow : At c call p s) : ∃ later a earlier s₁, h = later ++ ⟨a, ()⟩ :: earlier
      ∧ coordinator.Run (fun _ _ => True) .new earlier s₁
      ∧ Comes c call p s₁ a
      ∧ ∀ x ∈ later, ∃ t t', At c call p t ∧ t.step x.op = some t'
        ∧ At c call p t' := by
  have hstart : ¬ At c call p .new := by
    rintro ⟨call', hcall', -⟩
    cases hcall'
  obtain ⟨later, ⟨a, _⟩, earlier, s₁, s₂, rfl, hearlier, hstep, hnot, hyes,
    hheld⟩ := hrun.entered hstart hnow
  refine ⟨later, a, earlier, s₁, rfl, hearlier, ?_, fun x hx => ?_⟩
  · obtain ⟨call', hcall', hsame, hp⟩ := hyes
    cases step_calls (step_of_Step hstep) hcall' with
    | kept hkept => exact absurd ⟨call', hkept, hsame, hp⟩ hnot
    | began _ _ hbegan =>
      subst hbegan
      exact .began hp
    | @caller call₁ x m hcall hm hmoved =>
      subst hmoved
      have hsame₁ : call.Same call₁ := ⟨hsame.1, hsame.2, hsame.3⟩
      exact .caller hcall hsame₁ (fun hp₁ => hnot ⟨call₁, hcall, hsame₁, hp₁⟩) hm hp
    | @task call₁ t task hcall htask hmoved =>
      subst hmoved
      have hsame₁ : call.Same call₁ := ⟨hsame.1, hsame.2, hsame.3⟩
      exact .task hcall hsame₁ (fun hp₁ => hnot ⟨call₁, hcall, hsame₁, hp₁⟩) htask hp
  · obtain ⟨t, t', ht, hstep', ht'⟩ := hheld x hx
    exact ⟨t, t', ht, step_of_Step hstep', ht'⟩

-- ==== the approval

def Polls (stage : Stage) (phase : Phase) (_ : Task) : Prop :=
  ∃ elapsed, phase = .prompting stage elapsed

def Silent (c : Nat) (x : Exchange coordinatorInterface) : Prop :=
  ∀ y, x.op = .caller c y → y = .timer

section Polling

variable {c : Nat} {call : Call} {a : Action} {stage : Stage} {r : BackendResult} {v : Verified}

theorem callerMove_polls {x : CallerStep}
    {m : Move} (hm : s.callerMove c call x = some m) (hnot : ¬ Polls stage call.phase call.task)
    (hp : Polls stage m.phase call.task) : x = .advance ∧ s.move c call = some m := by
  obtain ⟨elapsed, hp⟩ := hp
  rcases callerMove_cases hm with hadvance | ⟨phase, rfl, hring | hdrop⟩
  · exact hadvance
  · rcases ring_eq hring with ⟨_, -, rfl⟩ | ⟨stage', hphase, rfl⟩
    · cases hp
    · cases hp
      exact absurd ⟨_, hphase⟩ hnot
  · rcases abandon_eq hdrop with ⟨-, rfl⟩ | ⟨_, -, rfl⟩ | ⟨_, -, rfl⟩
    · cases hp
    · cases hp
    · cases hp

theorem comes_polls (h : Comes c call (Polls stage) s a) :
    a = .caller c .advance ∧ ∃ call₁ m, s.calls[c]? = some call₁
      ∧ call.Same call₁ ∧ s.move c call₁ = some m
      ∧ Polls stage m.phase .none := by
  cases h with
  | began hp =>
    obtain ⟨_, hp⟩ := hp
    cases hp
  | caller hcall hsame hnot hm hp =>
    obtain ⟨rfl, hmove⟩ := callerMove_polls hm hnot hp
    exact ⟨rfl, _, _, hcall, hsame, hmove, hp⟩
  | task _ _ hnot _ hp => exact absurd hp hnot

theorem comes_looked (h : Comes c call (Polls .looked) s a) :
    a = .caller c .advance ∧ At c call (Polls .parked) s
      ∧ s.fired call.attempt = false := by
  obtain ⟨rfl, call₁, m, hcall, hsame, hmove, elapsed, hp⟩ := comes_polls h
  obtain ⟨hparked, hsilent⟩ := move_looked hmove hp
  rw [hsame.attempt] at hsilent
  exact ⟨rfl, ⟨call₁, hcall, hsame, _, hparked⟩, hsilent⟩

theorem comes_timed (h : Comes c call (Polls .timed) s a) : a = .caller c .advance
      ∧ At c call (fun phase _ => phase = .prompting .looked false) s := by
  obtain ⟨rfl, call₁, m, hcall, hsame, hmove, elapsed, hp⟩ := comes_polls h
  exact ⟨rfl, call₁, hcall, hsame, move_timed hmove hp⟩

theorem comes_verified
    (h : Comes c call (fun phase _ => phase = .returned (.ok v)) s a) : a = .caller c .advance
      ∧ At c call (fun phase task => Polls .timed phase task
        ∧ task = .sent (some (.ok v.modality))) s
      ∧ v.attempt = s.idOf call.attempt ∧ v.digest = call.op.digest := by
  cases h with
  | began hp => cases hp
  | @caller call₁ x m hcall hsame hnot hm hp =>
    rcases callerMove_cases hm with ⟨rfl, hmove⟩ | ⟨phase, rfl, hring | hdrop⟩
    · obtain ⟨hpolls, htask, hid, hdigest⟩ := move_verified hmove hp
      rw [hsame.attempt] at hid
      rw [hsame.op] at hdigest
      exact ⟨rfl, ⟨call₁, hcall, hsame, hpolls, htask⟩, hid, hdigest⟩
    · rcases ring_eq hring with ⟨_, -, rfl⟩ | ⟨_, -, rfl⟩
      · cases hp
      · cases hp
    · rcases abandon_eq hdrop with ⟨-, rfl⟩ | ⟨_, -, rfl⟩ | ⟨_, -, rfl⟩
      · cases hp
      · cases hp
      · cases hp
  | task _ _ hnot _ hp => exact absurd hp hnot

def Task.result : Task → Option BackendResult
  | .ended r | .released r | .sent r => r
  | _ => Option.none

theorem taskMove_result {task task' : Task} {t : TaskStep} (h : taskMove task t = some task')
    (hr : task'.result = some r) : task.result = some r ∨ t = .backend r := by
  unfold taskMove at h
  grind [Task.result]

theorem comes_result (h : Comes c call (fun _ task => task.result = some r) s a) :
    a = .task c (.backend r) := by
  cases h with
  | began hp => cases hp
  | @caller call₁ x m _ _ hnot hm hp =>
    unfold Call.moved at hp
    cases hspawns : m.spawns with
    | true =>
      rw [hspawns] at hp
      cases hp
    | false =>
      rw [hspawns] at hp
      exact absurd hp hnot
  | @task call₁ t task _ _ hnot htask hp =>
    rcases taskMove_result htask hp with hbefore | rfl
    · exact absurd hbefore hnot
    · rfl

theorem silent_of_stays {t t' : PresenceCoordinator}
    {x : Exchange coordinatorInterface} (hstage : stage ≠ .parked) (ht : At c call (Polls stage) t)
    (hstep : t.step x.op = some t') (ht' : At c call (Polls stage) t') : Silent c x := by
  intro y hy
  rw [hy] at hstep
  obtain ⟨call₁, m, hcall, hm, rfl⟩ := step_caller hstep
  obtain ⟨call₀, hcall₀, -, elapsed₀, hphase⟩ := ht
  cases hcall.symm.trans hcall₀
  obtain ⟨call', hcall', -, elapsed, hphase'⟩ := ht'
  obtain ⟨hlt, -⟩ := List.getElem?_eq_some_iff.1 hcall
  have hmoved : (t.taking c call₁ m).calls[c]? = some (call₁.moved m) := getElem?_set_self hlt
  cases hmoved.symm.trans hcall'
  cases y with
  | timer => rfl
  | advance =>
    -- every row of the table leaves the stage
    exfalso
    cases stage with
    | parked => exact hstage rfl
    | looked =>
      have hbefore := (move_looked hm hphase').1
      cases hphase.symm.trans hbefore
    | timed =>
      have hbefore := move_timed hm hphase'
      cases hphase.symm.trans hbefore
  | abort =>
    exfalso
    obtain ⟨phase, hdrop, -⟩ := Option.map_eq_some_iff.1 hm
    rcases abandon_eq hdrop with ⟨hbefore, -⟩ | ⟨_, hbefore, -⟩
      | ⟨_, hbefore, -⟩
    · cases hphase.symm.trans hbefore
    · cases hphase.symm.trans hbefore
    · cases hphase.symm.trans hbefore
      exact hstage rfl

/-- The last poll of call `c`: it looked at its signal, then at its timer,
then took the result, and did nothing else in between. -/
structure LastPoll (c : Nat) (call : Call) (h : CoordinatorHistory) :
    Prop where
  poll : ∃ h₀ h₁ h₂ s₀ s₁, h = h₂ ++ ⟨.caller c .advance, ()⟩ :: (h₁
      ++ ⟨.caller c .advance, ()⟩ :: h₀)
    ∧ coordinator.Run (fun _ _ => True) .new h₀ s₀
    ∧ At c call (Polls .parked) s₀ ∧ s₀.fired call.attempt = false
    ∧ coordinator.Run (fun _ _ => True) .new (h₁ ++ ⟨.caller c .advance, ()⟩ :: h₀) s₁
    ∧ At c call (fun phase _ => phase = .prompting .looked false) s₁
    ∧ (∀ x ∈ h₁, Silent c x) ∧ ∀ x ∈ h₂, Silent c x

theorem lastPoll_of_timed (hrun : coordinator.Run (fun _ _ => True) .new h s)
    (htimed : At c call (Polls .timed) s) : LastPoll c call h := by
  obtain ⟨h₂, a₁, earlier, s₁, rfl, hrun₁, hcomes₁, hheld₁⟩ := at_entered hrun htimed
  obtain ⟨rfl, hlooked⟩ := comes_timed hcomes₁
  have hpolls : At c call (Polls .looked) s₁ := by
    obtain ⟨call', hcall', hsame, hphase⟩ := hlooked
    exact ⟨call', hcall', hsame, false, hphase⟩
  obtain ⟨h₁, a₀, h₀, s₀, rfl, hrun₀, hcomes₀, hheld₀⟩ := at_entered hrun₁ hpolls
  obtain ⟨rfl, hparked, hsilent⟩ := comes_looked hcomes₀
  refine ⟨h₀, h₁, h₂, s₀, s₁, rfl, hrun₀, hparked, hsilent, hrun₁, hlooked,
    fun x hx => ?_, fun x hx => ?_⟩
  · obtain ⟨t, t', ht, hstep, ht'⟩ := hheld₀ x hx
    refine silent_of_stays ?_ ht hstep ht'
    decide
  · obtain ⟨t, t', ht, hstep, ht'⟩ := hheld₁ x hx
    refine silent_of_stays ?_ ht hstep ht'
    decide

/-- What `verify` promises with `Verified`. -/
structure Approved (c : Nat) (call : Call) (v : Verified)
    (h : CoordinatorHistory) (s : PresenceCoordinator) : Prop where
  attempt : v.attempt = s.idOf call.attempt
  digest : v.digest = call.op.digest
  /-- The backend said so, asked about the operation of the call. -/
  backend : ⟨.task c (.backend (.ok v.modality)), ()⟩ ∈ h
  /-- The result was taken at the end of a poll that began with a look at
  the signal and at the timer. -/
  poll : ∃ later earlier, h = later ++ ⟨.caller c .advance, ()⟩ :: earlier ∧ LastPoll c call earlier

theorem approved_of_verified
    (hrun : coordinator.Run (fun _ _ => True) .new h s) (hcall : s.calls[c]? = some call)
    (hverified : call.phase = .returned (.ok v)) : Approved c call v h s := by
  have hnow : At c call (fun phase _ => phase = .returned (.ok v)) s :=
    ⟨call, hcall, ⟨rfl, rfl, rfl⟩, hverified⟩
  obtain ⟨later, a, earlier, s₁, rfl, hrun₁, hcomes, -⟩ := at_entered hrun hnow
  obtain ⟨rfl, ⟨call₁, hcall₁, hsame, hpolls, htask⟩, hid, hdigest⟩ := comes_verified hcomes
  have hresult : At c call (fun _ task => task.result = some (.ok v.modality)) s₁ := by
    refine ⟨call₁, hcall₁, hsame, ?_⟩
    rw [htask]
    rfl
  obtain ⟨later', a', earlier', s₀, rfl, -, hcomes', -⟩ := at_entered hrun₁ hresult
  cases comes_result hcomes'
  refine ⟨?_, hdigest, by simp, later, _, rfl,
    lastPoll_of_timed hrun₁ ⟨call₁, hcall₁, hsame, hpolls⟩⟩
  -- the id of an attempt does not change
  have hs₁ := sound_new.run hrun₁
  have hs := sound_new.run hrun
  have hbound := hs₁.attempted c call₁ hcall₁
  rw [hsame.attempt] at hbound
  rw [hid, hs₁.idOf hbound, hs.idOf (hs.attempted c call hcall)]

end Polling

-- ==== the contract

inductive Invalidates (s : PresenceCoordinator) (k : Nat) : Action → Prop where
  | invalidate {i : Nat} {invalidation : Invalidation} (h : s.invalidations[i]? = some invalidation)
      (hid : invalidation.id = s.idOf k) : Invalidates s k (.owner (.fire i))
  | drop : Invalidates s k (.owner (.dropFire k))
  | expiry {c : Nat} {call : Call} (h : s.calls[c]? = some call) (hattempt : call.attempt = k)
      (hphase : call.phase = .expiring) : Invalidates s k (.caller c .advance)

/-- What the coordinator promises, after the steps `h`, in state `s`. -/
structure Serialised (h : CoordinatorHistory) (s : PresenceCoordinator) :
    Prop where
  /-- At most one backend verification is in progress. -/
  one : ∀ (c c' : Nat) (call call' : Call), s.calls[c]?
    = some call → s.calls[c']? = some call' → call.task = .running → call'.task = .running → c = c'
  waiting : s.calls.countP (·.phase.waits) ≤ MAX_WAITING
  /-- The places taken are those that some call has still to return. -/
  places : s.waiting = s.calls.countP (·.phase.hasPlace)
  /-- Nothing keeps a call from going on, or its destructors. -/
  unblocked : ∀ (c : Nat) (call : Call), s.calls[c]? = some call →
    isOver call.phase = false → (s.step (.caller c .advance)).isSome = true
  /-- An attempt invalidated by now has no call reach the backend that
  has not had the slot by now. -/
  barred : ∀ (k c : Nat), s.fired k = true →
    (∀ call : Call, s.calls[c]? = some call → call.phase.awaits = true) → ∀ h' s', coordinator.Run
    (fun _ _ => True) s h' s' → ∀ call : Call, s'.calls[c]? = some call → call.attempt = k →
      call.task = .none
  approved : ∀ (c : Nat) (call : Call) (v : Verified),
    s.calls[c]? = some call → call.phase = .returned (.ok v) → Approved c call v h s
  /-- A signal that has fired was fired for its own attempt. -/
  own : ∀ k, s.fired k = true → ∃ later a earlier s₁, h = later ++ ⟨a, ()⟩ :: earlier
      ∧ coordinator.Run (fun _ _ => True) .new earlier s₁
      ∧ Invalidates s₁ k a
  /-- Only who was invalidated is told so. -/
  told : ∀ (c : Nat) (call : Call), s.calls[c]?
    = some call → call.phase = .returned (.error .invalidated) → s.fired call.attempt = true

theorem fired_own (hrun : coordinator.Run (fun _ _ => True) .new h s)
    (hfired : s.fired k = true) : ∃ later a earlier s₁, h = later ++ ⟨a, ()⟩ :: earlier
      ∧ coordinator.Run (fun _ _ => True) .new earlier s₁
      ∧ Invalidates s₁ k a := by
  have hstart : ¬ PresenceCoordinator.new.fired k = true := nofun
  obtain ⟨later, ⟨a, _⟩, earlier, s₁, s₂, rfl, hrun₁, hstep, hnot, hyes, -⟩ :=
    hrun.entered (φ := fun s => s.fired k = true) hstart hfired
  refine ⟨later, a, earlier, s₁, rfl, hrun₁, ?_⟩
  have hs₁ := sound_new.run hrun₁
  rcases step_fired (step_of_Step hstep) hyes with hbefore | ⟨hk, hfires⟩
  · exact absurd hbefore hnot
  cases hfires with
  | @invalidate i invalidation hinv hfound =>
    refine .invalidate hinv ?_
    rw [hs₁.idOf hk]
    exact hs₁.found i invalidation k hinv hfound
  | drop => exact .drop
  | expiry hcall hattempt hphase => exact .expiry hcall hattempt hphase

theorem waits_le_within (calls : List Call) :
    calls.countP (·.phase.waits) ≤ calls.countP (·.phase.within) := by
  refine countP_mono_left fun call _ h => ?_
  obtain ⟨k, op, deadline, phase, task⟩ := call
  cases phase with
  | queued => rfl
  | _ => cases h

/-- The coordinator keeps its promises, whoever steps when. -/
theorem prompts_serialised (hrun : coordinator.Run (fun _ _ => True) .new h s) :
    Serialised h s := by
  have hs := sound_new.run hrun
  constructor
  case one =>
    intro c c' call call' hcall hcall' hrunning hrunning'
    have hclaims : Claims s (.task c) := ⟨call, hcall, by rw [hrunning]; rfl⟩
    have hclaims' : Claims s (.task c') := ⟨call', hcall', by rw [hrunning']; rfl⟩
    exact Holder.task.inj (hs.exclusive.unique hclaims hclaims')
  case waiting => exact (waits_le_within s.calls).trans hs.bounded
  case places => exact hs.places
  case unblocked =>
    intro c call hcall hover
    obtain ⟨m, hm⟩ := Option.isSome_iff_exists.1 (move_isSome s c hover)
    refine Option.isSome_iff_exists.2 ⟨s.taking c call m, ?_⟩
    exact Option.bind_eq_some_iff.2 ⟨call, hcall, Option.bind_eq_some_iff.2 ⟨m, hm, rfl⟩⟩
  case barred =>
    intro k c hfired hawaits h' s' hrun' call hcall hk
    have hbarred : Barred k c s := by
      refine ⟨hfired, fun call hcall _ => ?_⟩
      have hphase := hawaits call hcall
      exact ⟨unprompted_of_awaits hphase, hs.idle c call hcall hphase⟩
    exact ((hbarred.run hrun').2 call hcall hk).2
  case approved => exact fun c call v hcall hv => approved_of_verified hrun hcall hv
  case own => exact fun k hfired => fired_own hrun hfired
  case told =>
    intro c call hcall hphase
    refine hs.told c call hcall ?_
    rw [hphase]
    rfl

end Runs

def Takes (c : Nat) (call : Call) (v : Verified) (s : PresenceCoordinator) : Prop :=
  s.calls[c]? = some call ∧ ∃ m, s.move c call = some m ∧ m.phase = .returned (.ok v)

namespace Sample

def read : OpDescriptor := (OpDescriptor.new "read_file").field "file" "a"

def prompted : List Action :=
  [.owner .draw, .owner (.register 0),
    .verify 0 read 5, .caller 0 .advance, .caller 0 .advance, .caller 0 .advance, .caller
    0 .advance, .task 0 .start, .task 0 (.backend (.ok .unknown)), .task 0 .release, .task 0 .send]

def looks : List Action := [.caller 0 .advance, .caller 0 .advance]

def raced : List Action :=
  prompted ++ looks ++ [.owner (.lookUp 1), .owner (.fire 0)]

def late : List Action := prompted ++ List.replicate 5 (.owner .tick) ++ looks

def crowded : List Action :=
  prompted.take 8
      ++ (List.range 9).flatMap (fun c => [.owner .draw, .owner (.register (c + 1)), .verify
      (c + 1) read 5, .caller (c + 1) .advance, .caller (c + 1) .advance, .caller (c + 1) .advance])
    ++ [.caller 9 .advance, .caller 1 .abort, .caller 1 .advance, .caller 1 .advance]

end Sample

/-- An approval is returned although the attempt was invalidated before
the result was taken, and although the deadline had passed before it was
even looked for. -/
theorem verified_too_late : (∃ h s v, coordinator.Run (fun _ _ => True) .new h s
      ∧ (∃ call, Takes 0 call v s ∧ s.fired call.attempt = true))
    ∧ ∃ h s v, coordinator.Run (fun _ _ => True) .new h s
      ∧ (∃ call, Takes 0 call v s ∧ call.deadline ≤ s.now) := by
  have hraced : (coordinator.play .new Sample.raced).isSome := by rfl
  have hlate : (coordinator.play .new Sample.late).isSome := by rfl
  exact ⟨⟨_, _, _, Service.played_run hraced, _, ⟨rfl, _, rfl, rfl⟩, rfl⟩,
    ⟨_, _, _, Service.played_run hlate, _, ⟨rfl, _, rfl, rfl⟩, Nat.le_of_eq rfl⟩⟩

/-- With nine callers behind the first, of which one was refused and one
dropped, seven places are taken. -/
theorem prompts_serialised_crowd : ∃ h s, coordinator.Run (fun _ _ => True) .new h s ∧ s.waiting = 7
      ∧ Serialised h s := by
  have hcrowded : (coordinator.play .new Sample.crowded).isSome := by rfl
  exact ⟨_, _, Service.played_run hcrowded, rfl, prompts_serialised (Service.played_run hcrowded)⟩

end SovereignVault.Presence
