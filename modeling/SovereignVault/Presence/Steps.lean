/-
What one step of the presence coordinator can do.

The table of a caller (`move`) is read once per question: what a step does
to the slot, to the queue places, to the signal, to what the caller is
told (`Fits`). The steps of the owners touch no call (`Aside`). What
becomes of one call is `CallMoves`, of one attempt `AttemptMoves`.
-/
import SovereignVault.Presence.Coordinator

namespace SovereignVault.Presence

open Audit Dialogue Sync PresenceCoordinator List Option

-- ==== the phases

def Phase.holds : Phase → Bool
  | .acquired | .admitted | .cleared | .ready | .releasing _ => true
  | _ => false

def Phase.hasPlace : Phase → Bool
  | .counted _ | .queued _ _ | .leaving _ | .left _ | .acquired => true
  | _ => false

def Phase.waits : Phase → Bool
  | .queued _ _ => true
  | _ => false

/-- The caller waits, or will once it has compared its number. -/
def Phase.within : Phase → Bool
  | .counted before => before < MAX_WAITING
  | .queued _ _ => true
  | _ => false

def Phase.awaits : Phase → Bool
  | .entered | .refused | .counted _ | .queued _ _ | .leaving _ | .left _ => true
  | _ => false

/-- The caller has not found its signal silent, or is through. -/
def Phase.unprompted : Phase → Bool
  | .cleared | .ready | .prompting _ _ | .expiring => false
  | _ => true

def Phase.denial : Phase → Option Denial
  | .leaving denial | .left denial => denial
  | .releasing denial | .returned (.error denial) => some denial
  | _ => none

def Task.holds : Task → Bool
  | .spawned | .running | .ended _ | .closed => true
  | _ => false

-- ==== one caller's step

section Moves

variable {s : PresenceCoordinator} {c : Nat} {call : Call} {a : CallerStep}
  {m : Move} {elapsed : Bool}

theorem ring_eq {phase phase' : Phase} (h : ring phase = some phase') :
    (∃ stage, phase = .queued stage false ∧ phase' = .queued stage true)
      ∨ ∃ stage, phase = .prompting stage false
        ∧ phase' = .prompting stage true := by
  unfold ring at h
  split at h
  · cases h
    exact .inl ⟨_, rfl, rfl⟩
  · cases h
    exact .inr ⟨_, rfl, rfl⟩
  · cases h

theorem abandon_eq {phase phase' : Phase} (h : abandon phase = some phase') :
    (phase = .entered ∧ phase' = .dropped)
      ∨ (∃ elapsed, phase = .queued .parked elapsed ∧ phase' = .leaving none)
      ∨ ∃ elapsed, phase = .prompting .parked elapsed ∧ phase' = .dropped := by
  unfold abandon at h
  split at h
  · cases h
    exact .inl ⟨rfl, rfl⟩
  · cases h
    exact .inr (.inl ⟨_, rfl, rfl⟩)
  · cases h
    exact .inr (.inr ⟨_, rfl, rfl⟩)
  · cases h

theorem callerMove_cases (h : s.callerMove c call a = some m) :
    (a = .advance ∧ s.move c call = some m) ∨ ∃ phase, m = s.quiet phase
        ∧ (ring call.phase = some phase ∨ abandon call.phase = some phase) := by
  cases a with
  | advance => exact .inl ⟨rfl, h⟩
  | timer =>
    unfold callerMove at h
    dsimp only at h
    split at h
    · obtain ⟨phase, hring, rfl⟩ := map_eq_some_iff.1 h
      exact .inr ⟨phase, rfl, .inl hring⟩
    · cases h
  | abort =>
    obtain ⟨phase, hdrop, rfl⟩ := map_eq_some_iff.1 h
    exact .inr ⟨phase, rfl, .inr hdrop⟩

structure Fits (s : PresenceCoordinator) (c : Nat) (call : Call) (m : Move) : Prop where
  /-- The counter and the place change together. -/
  places : (call.phase.hasPlace → 0 < s.waiting) →
    m.waiting + call.phase.hasPlace.toNat = s.waiting + m.phase.hasPlace.toNat
  /-- Who comes to wait has come with a number below the bound. -/
  within : m.phase.within → call.phase.within
    ∨ (call.phase.hasPlace = false ∧ s.waiting < MAX_WAITING)
  /-- Nobody else loses the permit. -/
  spares : (call.phase.holds → s.slot.holder = some (.call c)) → Slot.Spares (.call c) s.slot m.slot
  holds : (call.phase.holds → s.slot.holder = some (.call c)) →
    m.phase.holds → m.slot.holder = some (.call c)
  /-- The task is spawned with the permit, after the signal was silent. -/
  spawns : m.spawns → m.slot.holder = some (.task c) ∧ call.phase.unprompted = false
  fires : m.fires → call.phase = .expiring
  denial : m.phase.denial = some .invalidated →
    call.phase.denial = some .invalidated ∨ s.fired call.attempt
  unprompted : call.phase.unprompted → s.fired call.attempt → m.phase.unprompted
  awaits : m.phase.awaits → call.phase.awaits

theorem fits_quiet {phase : Phase}
    (hplace : phase.hasPlace = call.phase.hasPlace) (hwithin : phase.within → call.phase.within)
    (hholds : phase.holds → call.phase.holds) (hdenial : phase.denial = some .invalidated →
      call.phase.denial = some .invalidated ∨ s.fired call.attempt)
    (hunprompted : call.phase.unprompted → s.fired call.attempt → phase.unprompted)
    (hawaits : phase.awaits → call.phase.awaits) : Fits s c call (s.quiet phase) where
  places _ := congrArg (s.waiting + ·.toNat) hplace.symm
  within h := .inl (hwithin h)
  spares _ := .refl _ _
  holds hold h := hold (hholds h)
  spawns h := by cases h
  fires h := by cases h
  denial := hdenial
  unprompted := hunprompted
  awaits := hawaits

theorem answer_denial (id : Nat) (digest : OpDigest) (r : Option BackendResult) :
    (Phase.returned (answer id digest r)).denial ≠ some .invalidated := by
  unfold answer
  split
  · nofun
  · nofun
  · split
    · nofun
    · nofun
  · nofun

theorem move_fits (h : s.move c call = some m) : Fits s c call m := by
  obtain ⟨k, op, deadline, phase, task⟩ := call
  cases phase with
  | entered =>
    cases htry : s.slot.tryAcquire (.call c) with
    | none =>
      simp only [move, htry] at h
      cases h
      exact fits_quiet rfl nofun nofun nofun (fun _ _ => rfl) fun _ => rfl
    | some slot =>
      simp only [move, htry] at h
      cases h
      obtain ⟨hholder, hspares⟩ := Slot.tryAcquire_some htry
      exact ⟨fun _ => rfl, nofun, fun _ => hspares, fun _ _ => hholder,
        nofun, nofun, nofun, fun _ _ => rfl, fun _ => rfl⟩
  | refused =>
    cases h
    refine ⟨fun _ => rfl, fun hwithin => .inr ⟨rfl, ?_⟩, fun _ => .refl _ _,
      nofun, nofun, nofun, nofun, fun _ _ => rfl, fun _ => rfl⟩
    exact of_decide_eq_true hwithin
  | counted before =>
    cases h
    by_cases hfull : MAX_WAITING ≤ before
    · rw [if_pos hfull]
      exact fits_quiet rfl nofun nofun nofun (fun _ _ => rfl) fun _ => rfl
    · rw [if_neg hfull]
      exact fits_quiet rfl
        (fun _ => decide_eq_true (Nat.lt_of_not_le hfull)) nofun nofun (fun _ _ => rfl) fun _ => rfl
  | queued stage elapsed =>
    cases stage with
    | parked =>
      cases h
      cases hfired : s.fired k with
      | true =>
        exact fits_quiet rfl nofun nofun (fun _ => .inr hfired) (fun _ _ => rfl) fun _ => rfl
      | false => exact fits_quiet rfl (fun _ => rfl) nofun nofun (fun _ _ => rfl) fun _ => rfl
    | looked =>
      cases h
      cases elapsed with
      | true => exact fits_quiet rfl nofun nofun nofun (fun _ _ => rfl) fun _ => rfl
      | false => exact fits_quiet rfl (fun _ => rfl) nofun nofun (fun _ _ => rfl) fun _ => rfl
    | timed =>
      have hspares := Slot.poll_spares s.slot (.call c)
      have htrue : (s.slot.poll (.call c)).2 = true →
        (s.slot.poll (.call c)).1.holder = some (.call c) := Slot.poll_true
      unfold move at h
      dsimp only at h
      split at h
      · next slot hpoll =>
        cases h
        rw [hpoll] at hspares htrue
        exact ⟨fun _ => rfl, nofun,
          fun _ => hspares, fun _ _ => htrue rfl, nofun, nofun, nofun, fun _ _ => rfl, fun _ => rfl⟩
      · next slot hpoll =>
        cases h
        rw [hpoll] at hspares
        exact ⟨fun _ => rfl, fun _ => .inl rfl, fun _ => hspares, nofun,
          nofun, nofun, nofun, fun _ _ => rfl, fun _ => rfl⟩
  | leaving denial =>
    cases h
    exact ⟨fun _ => rfl, nofun, fun _ => Slot.cancel_spares _ _, nofun,
      nofun, nofun, fun h => .inl h, fun _ _ => rfl, fun _ => rfl⟩
  | left denial =>
    cases denial with
    | none =>
      cases h
      exact ⟨fun hplace => Nat.sub_add_cancel (hplace rfl), nofun,
        fun _ => .refl _ _, nofun, nofun, nofun, nofun, fun _ _ => rfl,
        nofun⟩
    | some denial =>
      cases h
      exact ⟨fun hplace => Nat.sub_add_cancel (hplace rfl),
        nofun, fun _ => .refl _ _, nofun, nofun, nofun, fun h => .inl h, fun _ _ => rfl, nofun⟩
  | acquired =>
    cases h
    exact ⟨fun hplace => Nat.sub_add_cancel (hplace rfl),
      nofun, fun _ => .refl _ _, fun hold _ => hold rfl, nofun, nofun, nofun, fun _ _ => rfl, nofun⟩
  | admitted =>
    cases h
    cases hfired : s.fired k with
    | true =>
      exact fits_quiet rfl nofun (fun _ => rfl) (fun _ => .inr hfired) (fun _ _ => rfl) nofun
    | false =>
      refine fits_quiet rfl nofun (fun _ => rfl) nofun (fun _ h => ?_)
        nofun
      cases hfired.symm.trans h
  | cleared =>
    cases h
    by_cases hlate : deadline ≤ s.now
    · rw [if_pos hlate]
      exact fits_quiet rfl nofun (fun _ => rfl) nofun (fun _ _ => rfl)
        nofun
    · rw [if_neg hlate]
      exact fits_quiet rfl nofun (fun _ => rfl) nofun nofun nofun
  | ready =>
    cases h
    exact ⟨fun _ => rfl, nofun, fun hold => Slot.pass_spares (hold rfl) _,
      nofun, fun _ => ⟨rfl, rfl⟩, nofun, nofun, nofun, nofun⟩
  | releasing denial =>
    cases h
    exact ⟨fun _ => rfl, nofun, fun hold => Slot.release_spares (hold rfl),
      nofun, nofun, nofun, fun h => .inl h, fun _ _ => rfl, nofun⟩
  | prompting stage elapsed =>
    cases stage with
    | parked =>
      cases h
      cases hfired : s.fired k with
      | true => exact fits_quiet rfl nofun nofun (fun _ => .inr hfired) (fun _ _ => rfl) nofun
      | false => exact fits_quiet rfl nofun nofun nofun nofun nofun
    | looked =>
      cases h
      cases elapsed with
      | true | false => exact fits_quiet rfl nofun nofun nofun nofun nofun
    | timed =>
      cases h
      -- a result of the task, or nothing yet
      cases task with
      | sent r | closed =>
        exact fits_quiet rfl nofun nofun (fun h => absurd h (answer_denial _ _ _)) (fun _ _ => rfl)
          nofun
      | _ => exact fits_quiet rfl nofun nofun nofun nofun nofun
  | expiring =>
    cases h
    exact ⟨fun _ => rfl, nofun, fun _ => .refl _ _, nofun, nofun, fun _ => rfl, nofun, nofun, nofun⟩
  | returned r | dropped => cases h

theorem callerMove_fits (h : s.callerMove c call a = some m) : Fits s c call m := by
  rcases callerMove_cases h with ⟨-, hmove⟩ | ⟨phase, rfl, hring | hdrop⟩
  · exact move_fits hmove
  · obtain ⟨k, op, deadline, phase₀, task⟩ := call
    rcases ring_eq hring with ⟨stage, rfl, rfl⟩ | ⟨stage, rfl, rfl⟩
    · exact fits_quiet rfl (fun _ => rfl) nofun nofun (fun _ _ => rfl) fun _ => rfl
    · exact fits_quiet rfl nofun nofun nofun nofun nofun
  obtain ⟨k, op, deadline, phase₀, task⟩ := call
  rcases abandon_eq hdrop with ⟨rfl, rfl⟩ | ⟨elapsed, rfl, rfl⟩
    | ⟨elapsed, rfl, rfl⟩
  · exact fits_quiet rfl nofun nofun nofun (fun _ _ => rfl) nofun
  · exact fits_quiet rfl nofun nofun nofun (fun _ _ => rfl) fun _ => rfl
  · exact fits_quiet rfl nofun nofun nofun (fun _ _ => rfl) nofun

theorem taskMove_slot {task task' : Task} {t : TaskStep}
    (h : taskMove task t = some task') (hold : task.holds → s.slot.holder = some (.task c)) :
    Slot.Spares (.task c) s.slot (taskSlot t s.slot)
      ∧ (task'.holds → (taskSlot t s.slot).holder = some (.task c)) := by
  unfold taskMove at h
  split at h <;> cases h
  case h_5 | h_8 => exact ⟨Slot.release_spares (hold rfl), nofun⟩
  case h_6 => exact ⟨.refl _ _, nofun⟩
  all_goals exact ⟨.refl _ _, fun _ => hold rfl⟩

theorem taskMove_none (t : TaskStep) : taskMove .none t = none := by
  cases t with
  | _ => rfl

theorem move_isSome (s : PresenceCoordinator) (c : Nat)
    (hover : isOver call.phase = false) : (s.move c call).isSome := by
  unfold move
  grind [isOver]

theorem move_looked (h : s.move c call = some m) (hm : m.phase = .prompting .looked elapsed) :
    call.phase = .prompting .parked elapsed ∧ s.fired call.attempt = false := by
  unfold move quiet at h
  grind

theorem move_timed (h : s.move c call = some m)
    (hm : m.phase = .prompting .timed elapsed) : call.phase = .prompting .looked false := by
  unfold move quiet at h
  grind

theorem move_verified {v : Verified} (h : s.move c call = some m)
    (hm : m.phase = .returned (.ok v)) : (∃ elapsed, call.phase = .prompting .timed elapsed)
      ∧ call.task = .sent (some (.ok v.modality))
      ∧ v.attempt = s.idOf call.attempt ∧ v.digest = call.op.digest := by
  unfold move quiet answer at h
  grind

end Moves

-- ==== what one step can do

section Steps

variable {s s' : PresenceCoordinator} {a : Action} {c : Nat} {call' : Call}
  {k : Nat} {attempt' : Attempt}

theorem getElem?_set_cases {α : Type} {l : List α} {i j : Nat}
    {a b : α} (h : (l.set i a)[j]? = some b) : (j = i ∧ b = a) ∨ (j ≠ i ∧ l[j]? = some b) := by
  rw [getElem?_set] at h
  split_ifs at h with hij hlt
  · cases h
    exact .inl ⟨hij.symm, rfl⟩
  · exact .inr ⟨fun heq => hij heq.symm, h⟩

inductive Fires (s : PresenceCoordinator) (k : Nat) : Action → Prop where
  | invalidate {i : Nat} {invalidation : Invalidation} (h : s.invalidations[i]? = some invalidation)
      (hfound : invalidation.found = some k) : Fires s k (.owner (.fire i))
  | drop : Fires s k (.owner (.dropFire k))
  | expiry {c : Nat} {call : Call} (h : s.calls[c]? = some call) (hattempt : call.attempt = k)
      (hphase : call.phase = .expiring) : Fires s k (.caller c .advance)

inductive AttemptMoves (s : PresenceCoordinator) (k : Nat)
    (attempt' : Attempt) : Action → Prop where
  | kept {a : Action} {attempt : Attempt} (h : s.attempts[k]? = some attempt)
      (hid : attempt'.id = attempt.id) (hfired : attempt'.fired = attempt.fired
        ∨ (attempt'.fired = true ∧ Fires s k a)) :
      AttemptMoves s k attempt' a
  | drawn (hk : k = s.attempts.length) (hid : attempt'.id = s.nextAttempt + 1)
      (hfired : attempt'.fired = false) : AttemptMoves s k attempt' (.owner .draw)

theorem AttemptMoves.of_kept {attempt : Attempt}
    (h : s.attempts[k]? = some attempt) : AttemptMoves s k attempt a :=
  .kept h rfl (.inl rfl)

theorem AttemptMoves.of_fired {j : Nat} (h : (fireSignal j s.attempts)[k]? = some attempt')
    (hfires : Fires s j a) : AttemptMoves s k attempt' a := by
  unfold fireSignal at h
  rw [getElem?_modify] at h
  obtain ⟨attempt, hattempt, rfl⟩ := map_eq_some_iff.1 h
  split_ifs with hjk
  · subst hjk
    exact .kept hattempt rfl (.inr ⟨rfl, hfires⟩)
  · exact .of_kept hattempt

theorem AttemptMoves.of_set {j : Nat} {attempt attempt₁ : Attempt}
    (h : (s.attempts.set j attempt₁)[k]? = some attempt') (hattempt : s.attempts[j]? = some attempt)
    (hid : attempt₁.id = attempt.id) (hfired : attempt₁.fired = attempt.fired
      ∨ (attempt₁.fired = true ∧ Fires s j a)) : AttemptMoves s k attempt' a := by
  rcases getElem?_set_cases h with ⟨rfl, rfl⟩ | ⟨-, hkept⟩
  · exact .kept hattempt hid hfired
  · exact .of_kept hkept

/-- What a step of an owner does: no call, neither the slot nor the queue;
signals are found by the ids they were registered under. -/
structure Aside (s : PresenceCoordinator) (o : OwnerStep) (s' : PresenceCoordinator) : Prop where
  calls : s'.calls = s.calls
  slot : s'.slot = s.slot
  waiting : s'.waiting = s.waiting
  attempts : ∀ k attempt', s'.attempts[k]? = some attempt' → AttemptMoves s k attempt' (.owner o)
  length : s.attempts.length ≤ s'.attempts.length
  count : s'.nextAttempt + s.attempts.length = s.nextAttempt + s'.attempts.length
  registry : ∀ id k, s'.registry id = some k → s.registry id = some k
    ∨ ∃ attempt, s.attempts[k]? = some attempt ∧ attempt.id = id
  found : ∀ (i : Nat) (invalidation : Invalidation) (k : Nat), s'.invalidations[i]?
    = some invalidation → invalidation.found = some k → s.invalidations[i]? = some invalidation
      ∨ s.registry invalidation.id = some k

theorem Aside.of_set {o : OwnerStep} {j : Nat} {attempt attempt₁ : Attempt}
    {registry : Nat → Option Nat} (hattempt : s.attempts[j]? = some attempt)
    (hid : attempt₁.id = attempt.id) (hfired : attempt₁.fired = attempt.fired
      ∨ (attempt₁.fired = true ∧ Fires s j (.owner o)))
    (hregistry : ∀ id k, registry id = some k → s.registry id = some k
      ∨ ∃ attempt, s.attempts[k]? = some attempt ∧ attempt.id = id) :
    Aside s o { s with registry := registry, attempts := s.attempts.set j attempt₁ } := by
  refine ⟨rfl, rfl, rfl, fun k attempt' h => .of_set h hattempt hid hfired, ?_, ?_, hregistry,
    fun _ _ _ h _ => .inl h⟩
  · rw [length_set]
  · rw [length_set]

theorem owned_aside {o : OwnerStep} (h : s.owned o = some s') : Aside s o s' := by
  cases o with
  | tick =>
    cases h
    exact ⟨rfl, rfl, rfl, fun _ _ h => .of_kept h, Nat.le_refl _, rfl,
      fun _ _ => .inl, fun _ _ _ h _ => .inl h⟩
  | draw =>
    cases h
    refine ⟨rfl, rfl, rfl, fun k attempt' hattempt' => ?_, ?_, ?_,
      fun _ _ => .inl, fun _ _ _ h _ => .inl h⟩
    · dsimp only at hattempt'
      rw [getElem?_append] at hattempt'
      split at hattempt'
      · exact .of_kept hattempt'
      next hlt =>
      obtain ⟨hlt', rfl⟩ := List.getElem?_eq_some_iff.1 hattempt'
      rw [getElem_singleton]
      refine .drawn ?_ rfl rfl
      rw [length_singleton] at hlt'
      omega
    · simp
    · simp only [length_append, length_singleton]
      omega
  | register j =>
    obtain ⟨attempt, hattempt, h⟩ := bind_eq_some_iff.1 h
    obtain ⟨-, -, h⟩ := bind_eq_some_iff.1 h
    cases h
    refine .of_set hattempt rfl (.inl rfl) fun id k hk => ?_
    rw [Function.update_apply] at hk
    split at hk
    · next heq =>
      cases hk
      exact .inr ⟨attempt, hattempt, heq.symm⟩
    · exact .inl hk
  | lookUp id =>
    cases h
    refine ⟨rfl, rfl, rfl, fun _ _ h => .of_kept h, Nat.le_refl _, rfl,
      fun _ _ => .inl, fun i invalidation k hinv hfound => ?_⟩
    rw [getElem?_append] at hinv
    split at hinv
    · exact .inl hinv
    · obtain ⟨hlt, rfl⟩ := List.getElem?_eq_some_iff.1 hinv
      rw [getElem_singleton] at hfound ⊢
      exact .inr hfound
  | fire i =>
    obtain ⟨invalidation, hinv, h⟩ := bind_eq_some_iff.1 h
    obtain ⟨j, hfound, h⟩ := bind_eq_some_iff.1 h
    cases h
    refine ⟨rfl, rfl, rfl, fun k attempt' hattempt' => ?_, ?_, ?_,
      fun _ _ => .inl, fun i' invalidation' k hinv' hfound' => ?_⟩
    · exact .of_fired hattempt' (.invalidate hinv hfound)
    · exact (length_modify _ _ _).ge
    · exact congrArg (s.nextAttempt + ·) (length_modify _ _ _).symm
    · rcases getElem?_set_cases hinv' with ⟨-, rfl⟩ | ⟨-, hkept⟩
      · cases hfound'
      · exact .inl hkept
  | dropFire j =>
    obtain ⟨attempt, hattempt, h⟩ := bind_eq_some_iff.1 h
    obtain ⟨-, -, h⟩ := bind_eq_some_iff.1 h
    obtain ⟨-, -, h⟩ := bind_eq_some_iff.1 h
    cases h
    exact .of_set hattempt rfl (.inr ⟨rfl, .drop⟩) fun _ _ => .inl
  | dropRemove j =>
    obtain ⟨attempt, hattempt, h⟩ := bind_eq_some_iff.1 h
    obtain ⟨-, -, h⟩ := bind_eq_some_iff.1 h
    cases h
    refine .of_set hattempt rfl (.inl rfl) fun id k hk => ?_
    rw [Function.update_apply] at hk
    split at hk
    · cases hk
    · exact .inl hk

theorem step_verify {op : OpDescriptor} {deadline : Nat}
    (h : s.step (.verify k op deadline) = some s') : k < s.attempts.length ∧ s' = { s with
      calls := s.calls ++ [⟨k, op, deadline, .entered, .none⟩] } := by
  obtain ⟨attempt, hattempt, h⟩ := bind_eq_some_iff.1 h
  obtain ⟨-, -, h⟩ := bind_eq_some_iff.1 h
  cases h
  exact ⟨(List.getElem?_eq_some_iff.1 hattempt).1, rfl⟩

theorem step_caller {x : CallerStep} (h : s.step (.caller c x) = some s') :
    ∃ call m, s.calls[c]? = some call ∧ s.callerMove c call x = some m
      ∧ s' = s.taking c call m := by
  obtain ⟨call, hcall, h⟩ := bind_eq_some_iff.1 h
  obtain ⟨m, hm, h⟩ := bind_eq_some_iff.1 h
  cases h
  exact ⟨call, m, hcall, hm, rfl⟩

theorem step_task {t : TaskStep} (h : s.step (.task c t) = some s') :
    ∃ call task, s.calls[c]? = some call ∧ taskMove call.task t = some task
      ∧ s' = { s with
        slot := taskSlot t s.slot
        calls := s.calls.set c { call with task := task } } := by
  obtain ⟨call, hcall, h⟩ := bind_eq_some_iff.1 h
  obtain ⟨task, htask, h⟩ := bind_eq_some_iff.1 h
  cases h
  exact ⟨call, task, hcall, htask, rfl⟩

theorem step_attempts (h : s.step a = some s')
    (hattempt' : s'.attempts[k]? = some attempt') : AttemptMoves s k attempt' a := by
  cases a with
  | owner o => exact (owned_aside h).attempts k attempt' hattempt'
  | verify k op deadline =>
    obtain ⟨-, rfl⟩ := step_verify h
    exact .of_kept hattempt'
  | caller c x =>
    obtain ⟨call, m, hcall, hm, rfl⟩ := step_caller h
    unfold taking at hattempt'
    split at hattempt'
    · next hfires =>
      rcases callerMove_cases hm with ⟨rfl, -⟩ | ⟨phase, rfl, -⟩
      · exact .of_fired hattempt' (.expiry hcall rfl ((callerMove_fits hm).fires hfires))
      · cases hfires
    · exact .of_kept hattempt'
  | task c t =>
    obtain ⟨call, task, hcall, htask, rfl⟩ := step_task h
    exact .of_kept hattempt'

theorem step_ids (h : s.step a = some s') :
    (∃ o, a = .owner o) ∨ (s'.attempts.length = s.attempts.length
      ∧ s'.nextAttempt = s.nextAttempt ∧ s'.registry = s.registry
      ∧ s'.invalidations = s.invalidations) := by
  cases a with
  | owner o => exact .inl ⟨o, rfl⟩
  | verify k op deadline =>
    obtain ⟨-, rfl⟩ := step_verify h
    exact .inr ⟨rfl, rfl, rfl, rfl⟩
  | caller c x =>
    obtain ⟨call, m, -, -, rfl⟩ := step_caller h
    refine .inr ⟨?_, rfl, rfl, rfl⟩
    unfold taking
    split
    · exact length_modify _ _ _
    · rfl
  | task c t =>
    obtain ⟨call, task, -, -, rfl⟩ := step_task h
    exact .inr ⟨rfl, rfl, rfl, rfl⟩

theorem step_attempts_length (h : s.step a = some s') : s.attempts.length ≤ s'.attempts.length := by
  rcases step_ids h with ⟨o, rfl⟩ | ⟨hlength, -⟩
  · exact (owned_aside h).length
  · exact hlength.ge

def Call.moved (call : Call) (m : Move) : Call :=
  { call with
    phase := m.phase
    task := if m.spawns then .spawned else call.task }

/-- What a step can have made of call `c`, which it left as `call'`. -/
inductive CallMoves (s : PresenceCoordinator) (c : Nat) (call' : Call) : Action → Prop where
  | kept {a : Action} (h : s.calls[c]? = some call') : CallMoves s c call' a
  | began {k : Nat} {op : OpDescriptor} {deadline : Nat} (h : s.calls[c]? = none)
      (hk : k < s.attempts.length) (hcall : call' = ⟨k, op, deadline, .entered, .none⟩) :
      CallMoves s c call' (.verify k op deadline)
  | caller {call : Call} {x : CallerStep}
      {m : Move} (h : s.calls[c]? = some call) (hmove : s.callerMove c call x = some m)
      (hcall : call' = call.moved m) : CallMoves s c call' (.caller c x)
  | task {call : Call} {t : TaskStep} {task : Task}
      (h : s.calls[c]? = some call) (hmove : taskMove call.task t = some task)
      (hcall : call' = { call with task := task }) :
      CallMoves s c call' (.task c t)

theorem step_calls (h : s.step a = some s')
    (hcall' : s'.calls[c]? = some call') : CallMoves s c call' a := by
  cases a with
  | owner o =>
    rw [(owned_aside h).calls] at hcall'
    exact .kept hcall'
  | verify k op deadline =>
    obtain ⟨hk, rfl⟩ := step_verify h
    rw [getElem?_append] at hcall'
    split at hcall'
    · exact .kept hcall'
    · next hlt =>
      refine .began (getElem?_eq_none (Nat.le_of_not_lt hlt)) hk ?_
      obtain ⟨hlt', rfl⟩ := List.getElem?_eq_some_iff.1 hcall'
      exact getElem_singleton _
  | caller c₀ x =>
    obtain ⟨call, m, hcall, hm, rfl⟩ := step_caller h
    rcases getElem?_set_cases hcall' with ⟨rfl, rfl⟩ | ⟨-, hkept⟩
    · exact .caller hcall hm rfl
    · exact .kept hkept
  | task c₀ t =>
    obtain ⟨call, task, hcall, htask, rfl⟩ := step_task h
    rcases getElem?_set_cases hcall' with ⟨rfl, rfl⟩ | ⟨-, hkept⟩
    · exact .task hcall htask rfl
    · exact .kept hkept

theorem fired_iff : s.fired k = true ↔
    ∃ attempt, s.attempts[k]? = some attempt ∧ attempt.fired = true := by
  unfold fired
  rw [Option.any_eq_true]

theorem step_fired_kept (h : s.step a = some s') (hfired : s.fired k = true) :
    s'.fired k = true := by
  obtain ⟨attempt, hattempt, hfired⟩ := fired_iff.1 hfired
  obtain ⟨hlt, -⟩ := List.getElem?_eq_some_iff.1 hattempt
  have hlt' := Nat.lt_of_lt_of_le hlt (step_attempts_length h)
  have hattempt' := getElem?_eq_getElem hlt'
  refine fired_iff.2 ⟨_, hattempt', ?_⟩
  rcases step_attempts h hattempt' with ⟨hold, -, hsame | ⟨hnow, -⟩⟩ | ⟨hk, -⟩
  · cases hattempt.symm.trans hold
    exact hsame.trans hfired
  · exact hnow
  · exact absurd hk hlt.ne

theorem step_fired (h : s.step a = some s') (hfired : s'.fired k = true) :
    s.fired k = true ∨ (k < s.attempts.length ∧ Fires s k a) := by
  obtain ⟨attempt', hattempt', hfired⟩ := fired_iff.1 hfired
  rcases step_attempts h hattempt' with ⟨hold, -, hsame | ⟨-, hfires⟩⟩
    | ⟨-, -, hnot⟩
  · exact .inl (fired_iff.2 ⟨_, hold, hsame.symm.trans hfired⟩)
  · exact .inr ⟨(List.getElem?_eq_some_iff.1 hold).1, hfires⟩
  · cases hnot.symm.trans hfired

end Steps

end SovereignVault.Presence
