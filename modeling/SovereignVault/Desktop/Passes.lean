/-
A gate pass is bound to one unlock: what the closure of
`with_gated_handle` rests on, in every run.

The gate reads the epoch first and again at its end, and the pass is
consumed under the guard at the same epoch, so there was no lock or unlock
in between.

An operation that is begun is in flight until its own gate ends it or
gives it back (`Flying`). All that time it stands in the registry as it
was returned, unless its deadline passes or a lock drains the registry.
-/
import SovereignVault.Desktop.Decisions

namespace SovereignVault.Desk

open Dialogue Talk Audit Presence List AList Sample

-- ==== the registry

def SameOp (op op' : PendingDesktopOp) : Prop :=
  op' = { op with gate := op'.gate }

theorem SameOp.refl (op : PendingDesktopOp) : SameOp op op := rfl

theorem SameOp.trans {op₁ op₂ op₃ : PendingDesktopOp}
    (h : SameOp op₁ op₂) (h' : SameOp op₂ op₃) : SameOp op₁ op₃ := by
  unfold SameOp at *
  rw [h', h]

section Registry

variable {s s' : DesktopOps} {lo hi now attempt deadline id : Nat}
  {digest : OpDigest} {isProtected : Bool} {op op' : PendingDesktopOp}

inductive Begun (s : DesktopOps) (now : Nat) (digest : OpDigest)
    (deadline : Nat) (isProtected : Bool) (attempt : Nat) :
    Except GateError PendingDesktopOp → DesktopOps → Prop where
  | busy {op : PendingDesktopOp} {e : GateError} (hlive : (s.live now).lookup digest = some op) :
      Begun s now digest deadline isProtected attempt (.error e)
        ⟨s.next, (s.live now).insert digest op⟩
  | again {op : PendingDesktopOp} (hlive : (s.live now).lookup digest = some op)
      (hgate : op.gate = .pending) : Begun s now digest deadline isProtected attempt
        (.ok { op with gate := .verifying attempt digest })
        ⟨s.next, (s.live now).insert digest { op with gate := .verifying attempt digest }⟩
  | fresh (hlive : (s.live now).lookup digest = none) :
      Begun s now digest deadline isProtected attempt
        (.ok ⟨s.next + 1, deadline, isProtected, .verifying attempt digest⟩)
        ⟨s.next + 1, (s.live now).insert digest ⟨s.next + 1, deadline,
          isProtected, .verifying attempt digest⟩⟩

theorem begun_of_begin {r : Except GateError PendingDesktopOp}
    (h : s.begin now digest deadline isProtected attempt = (r, s')) :
    Begun s now digest deadline isProtected attempt r s' := by
  unfold DesktopOps.begin DesktopOps.findOrCreate at h
  cases hlive : (s.live now).lookup digest with
  | none =>
    rw [hlive] at h
    cases h
    exact .fresh hlive
  | some op =>
    rw [hlive] at h
    dsimp only at h
    split at h
    · cases h
      exact .busy hlive
    · next gate hbegin =>
      cases h
      obtain ⟨hgate, rfl⟩ := GateState.begin_ok hbegin
      exact .again hlive hgate

theorem OpsOp.Answers.begun {a : (OpsOp.begin digest deadline).Ans}
    (hans : (OpsOp.begin digest deadline).Answers lo hi attempt s a s') :
    ∃ r now isProtected, a = (attempt, r) ∧ lo ≤ now ∧ now ≤ hi
      ∧ Begun s now digest deadline isProtected attempt r s' := by
  obtain ⟨attempt', r⟩ := a
  obtain ⟨hattempt, now, isProtected, hlo, hhi, hbegin⟩ := hans
  obtain rfl : attempt' = attempt := hattempt
  exact ⟨r, now, isProtected, rfl, hlo, hhi, begun_of_begin hbegin⟩

theorem lookup_live : (s.live now).lookup digest = some op
      ↔ s.ops.lookup digest = some op ∧ now < op.deadline := by
  unfold DesktopOps.live
  rw [lookup_retain_eq_some]
  simp

theorem expired_of_not_live (hlookup : s.ops.lookup digest = some op)
    (hlive : (s.live now).lookup digest = none) : op.deadline ≤ now := by
  by_contra hlt
  rw [lookup_live.2 ⟨hlookup, by omega⟩] at hlive
  cases hlive

variable {o : OpsOp} {a : o.Ans}

theorem OpsOp.Answers.next_le (hans : o.Answers lo hi attempt s a s') : s.next ≤ s'.next := by
  cases o with
  | begin digest deadline =>
    obtain ⟨r, now, isProtected, -, -, -, hbegun⟩ := hans.begun
    cases hbegun with
    | fresh => exact Nat.le_succ _
    | _ => exact le_rfl
  | retry digest id a =>
    cases hans
    unfold DesktopOps.retry
    split
    · exact le_rfl
    · split <;> exact le_rfl
  | finish digest id =>
    cases hans
    unfold DesktopOps.finish
    split
    · exact le_rfl
    · split <;> exact le_rfl
  | drain =>
    obtain ⟨-, rfl⟩ := Prod.mk.inj hans
    exact le_rfl

/-- What becomes of the operation under a digest: it stays, with a gate
that moves only if it is begun or given back; it ends; or a new one takes
its place. -/
inductive OpNext (o : OpsOp) (hi : Nat) (s s' : DesktopOps) (digest : OpDigest) : Prop where
  | same (h : s'.ops.lookup digest = s.ops.lookup digest)
  | moved {op : PendingDesktopOp} {gate : GateState} (hbefore : s.ops.lookup digest = some op)
      (hafter : s'.ops.lookup digest = some { op with gate := gate })
      (hwhy : gate = op.gate ∨ op.gate = .pending
        ∨ ∃ tried d, op.gate = .verifying tried d ∧ o = .retry digest op.id tried)
  | ended (hwhy : ∀ op, s.ops.lookup digest = some op →
        op.deadline ≤ hi ∨ o = .drain ∨ o = .finish digest op.id)
      (hafter : s'.ops.lookup digest = none)
  | fresh {op' : PendingDesktopOp} {deadline : Nat}
      (hexpired : ∀ op, s.ops.lookup digest = some op → op.deadline ≤ hi)
      (hafter : s'.ops.lookup digest = some op') (hid : op'.id = s.next + 1)
      (hnext : s'.next = s.next + 1) (ho : o = .begin digest deadline)

theorem OpsOp.Answers.op_next (hans : o.Answers lo hi attempt s a s') (digest : OpDigest) :
    OpNext o hi s s' digest := by
  cases o with
  | begin digest' deadline =>
    obtain ⟨r, now, isProtected, -, -, hhi, hbegun⟩ := hans.begun
    have hexpired : (s.live now).lookup digest = none →
        ∀ op, s.ops.lookup digest = some op → op.deadline ≤ hi :=
      fun hnone op hlookup => (expired_of_not_live hlookup hnone).trans hhi
    by_cases heq : digest = digest'
    · subst heq
      cases hbegun with
      | busy hlive => exact .same ((lookup_insert _).trans (lookup_live.1 hlive).1.symm)
      | again hlive hgate =>
        exact .moved (lookup_live.1 hlive).1 (lookup_insert _) (.inr (.inl hgate))
      | fresh hlive => exact .fresh (hexpired hlive) (lookup_insert _) rfl rfl rfl
    -- another digest: what is live was there
    have hafter : s'.ops.lookup digest = (s.live now).lookup digest := by
      cases hbegun <;> exact lookup_insert_ne heq
    cases hlive : (s.live now).lookup digest with
    | none => exact .ended (fun op hop => .inl (hexpired hlive op hop)) (hafter.trans hlive)
    | some op => exact .same ((hafter.trans hlive).trans (lookup_live.1 hlive).1.symm)
  | retry digest' id tried =>
    cases hans
    unfold DesktopOps.retry
    split
    · exact .same rfl
    next op hlookup =>
    split
    · by_cases heq : digest = digest'
      · next hid =>
        subst heq hid
        refine .moved hlookup (lookup_insert _) ?_
        cases hgate : op.gate with
        | pending | authenticated d => exact .inl rfl
        | verifying active d =>
          by_cases htried : active = tried
          · subst htried
            exact .inr (.inr ⟨active, d, rfl, rfl⟩)
          · exact .inl (if_neg htried)
      · exact .same (lookup_insert_ne heq)
    · exact .same rfl
  | finish digest' id =>
    cases hans
    unfold DesktopOps.finish
    split
    · exact .same rfl
    next op hlookup =>
    split
    · by_cases heq : digest = digest'
      · next hid =>
        subst heq hid
        refine .ended (fun op' hop => ?_) (lookup_erase _ _)
        cases hlookup.symm.trans hop
        exact .inr (.inr rfl)
      · exact .same (lookup_erase_ne heq)
    · exact .same rfl
  | drain =>
    obtain ⟨-, rfl⟩ := Prod.mk.inj hans
    exact .ended (fun _ _ => .inr (.inl rfl)) rfl

theorem OpsOp.Answers.op_cases (hans : o.Answers lo hi attempt s a s')
    (h : s'.ops.lookup digest = some op') : (∃ op, s.ops.lookup digest = some op ∧ SameOp op op')
    ∨ op'.id = s.next + 1 ∧ s'.next = s.next + 1
      ∧ ∃ deadline, o = .begin digest deadline := by
  cases hans.op_next digest with
  | same hsame => exact .inl ⟨op', hsame.symm.trans h, .refl _⟩
  | moved hbefore hafter =>
    cases hafter.symm.trans h
    exact .inl ⟨_, hbefore, rfl⟩
  | ended _ hafter => cases hafter.symm.trans h
  | fresh _ hafter hid hnext ho =>
    cases hafter.symm.trans h
    exact .inr ⟨hid, hnext, _, ho⟩

def Gone (s : DesktopOps) (digest : OpDigest) (id : Nat) : Prop :=
  ∀ op, s.ops.lookup digest = some op → op.id ≠ id

theorem gone_of_none (h : s.ops.lookup digest = none) : Gone s digest id := by
  intro op hlookup
  rw [h] at hlookup
  cases hlookup

theorem OpsOp.Answers.gone (hans : o.Answers lo hi attempt s a s')
    (hgone : Gone s digest id) (hid : id ≤ s.next) : Gone s' digest id := by
  intro op' hlookup
  rcases hans.op_cases hlookup with ⟨op, hbefore, hsame⟩ | ⟨hnew, -⟩
  · rw [hsame]
    exact hgone op hbefore
  · omega

theorem OpsOp.Answers.verifying {tried : Nat} (hans : o.Answers lo hi attempt s a s')
    (hlookup : s.ops.lookup digest = some op) (hgate : op.gate = .verifying tried digest)
    (hid : op.id ≤ s.next) (hretry : o ≠ .retry digest op.id tried)
    (hfinish : o ≠ .finish digest op.id) : s'.ops.lookup digest = some op
    ∨ (op.deadline ≤ hi ∨ o = .drain) ∧ Gone s' digest op.id := by
  cases hans.op_next digest with
  | same hsame => exact .inl (hsame.trans hlookup)
  | moved hbefore hafter hwhy =>
    cases hlookup.symm.trans hbefore
    rcases hwhy with rfl | hpending | ⟨tried', d, hgate', hown⟩
    · exact .inl hafter
    · rw [hgate] at hpending
      cases hpending
    · rw [hgate] at hgate'
      cases hgate'
      exact absurd hown hretry
  | ended hwhy hafter =>
    refine .inr ⟨?_, gone_of_none hafter⟩
    rcases hwhy op hlookup with hexpired | hdrain | hown
    · exact .inl hexpired
    · exact .inr hdrain
    · exact absurd hown hfinish
  | fresh hexpired hafter hnew =>
    refine .inr ⟨.inl (hexpired op hlookup), fun op' hop => ?_⟩
    cases hafter.symm.trans hop
    omega

end Registry

-- ==== what happens

def BeginsOp (x : DeskEntry) (tid : Nat) (digest : OpDigest)
    (attempt : Nat) (pending : PendingDesktopOp) : Prop :=
  ∃ deadline, x.event = .exchange tid ⟨.ops (.begin digest deadline), (attempt, .ok pending)⟩

def FinishesOp (x : DeskEntry) (digest : OpDigest) (id : Nat) : Prop :=
  ∃ tid u, x.event = .exchange tid ⟨.ops (.finish digest id), u⟩

def DrainsOps (x : DeskEntry) : Prop :=
  ∃ tid drained, x.event = .exchange tid ⟨.ops .drain, drained⟩

/-- The operation of a call is verifying: it was begun, and neither the
call itself nor a lock has ended it. -/
def VerifyingOp (h : List DeskEntry) (c : DeskConfig)
    (tid : Nat) (digest : OpDigest) (attempt : Nat) (pending : PendingDesktopOp) : Prop :=
  ∃ t later b earlier, c.threads tid = some t ∧ inFlight t.said = some (digest, attempt, pending)
    ∧ h = later ++ b :: earlier ∧ BeginsOp b tid digest attempt pending
    ∧ ∀ y ∈ later, ¬ DrainsOps y

/-- The consent for an operation: a verification of it that ended by its
deadline, or a declared click for it that was approved by then. -/
def ConsentsTo (w : DeskEntry) (earlier : List DeskEntry)
    (tid : Nat) (op : OpDescriptor) (attempt : Nat) (pending : PendingDesktopOp) : Prop :=
  (pending.isProtected = true ∧ ∃ modality, w.event = .exchange tid
      ⟨.outside (.verify attempt op pending.deadline), .ok modality⟩
    ∧ w.after.shared.clock ≤ pending.deadline)
  ∨ pending.isProtected = false ∧ ∃ click id, click.op = op
    ∧ w.event = .exchange tid ⟨.click (.await id pending.deadline), .decided true⟩
    ∧ ∃ later x before, earlier = later ++ x :: before
      ∧ Approves x before click false pending.deadline id

/-- What the closure of a pass rests on: a gate of the same call, from
whose start on nothing was locked or unlocked, and a consent in it. -/
def BoundPass (earlier : List DeskEntry) (tid : Nat) (digest : OpDigest) (n : Nat) : Prop :=
  ∃ since w mid b first g before op attempt pending,
    earlier = since ++ w :: (mid ++ b :: (first ++ g :: before))
    ∧ g.event = .exchange tid ⟨.slot .epoch, n⟩
    ∧ (∀ e ∈ since ++ w :: (mid ++ b :: first), ¬ Publishes e)
    ∧ OpDescriptor.digest op = digest
    ∧ BeginsOp b tid digest attempt pending
    ∧ ConsentsTo w (mid ++ b :: (first ++ g :: before)) tid op attempt pending

structure PassesSound (h : List DeskEntry) (c' : DeskConfig) : Prop where
  /-- A closure runs within the unlock in which its gate began, on a
  consent that was given in time. -/
  bound : ∀ later x earlier tid digest n u, h = later ++ x :: earlier →
    x.event = .exchange tid ⟨.slot (.closure digest n), u⟩ → BoundPass earlier tid digest n
  /-- Of one digest at most one operation that has time left is
  verifying. -/
  exclusive : ∀ tid₁ tid₂ digest attempt₁ attempt₂ pending₁ pending₂,
    VerifyingOp h c' tid₁ digest attempt₁ pending₁ →
    VerifyingOp h c' tid₂ digest attempt₂ pending₂ →
    c'.shared.clock < pending₁.deadline →
    c'.shared.clock < pending₂.deadline → tid₁ = tid₂
  /-- An operation has the same deadline and classification whenever it is
  begun. -/
  fixed : ∀ later x earlier y tid tid' digest digest' attempt attempt' pending pending',
    h = later ++ x :: earlier → y ∈ earlier →
    BeginsOp y tid digest attempt pending →
    BeginsOp x tid' digest' attempt' pending' →
    pending.id = pending'.id → digest' = digest ∧ SameOp pending pending'
  /-- Until it ends or its deadline passes, who begins it again gets the
  same operation. -/
  kept : ∀ later x mid y earlier tid tid' digest attempt attempt' pending pending',
    h = later ++ x :: (mid ++ y :: earlier) →
    BeginsOp y tid digest attempt pending →
    BeginsOp x tid' digest attempt' pending' →
    (∀ z ∈ mid, ¬ DrainsOps z ∧ ¬ FinishesOp z digest pending.id) →
    x.after.shared.clock < pending.deadline → SameOp pending pending'

-- ==== runs

section Runs

variable {estr : CoreError → String} {allowed : DeskEntry → Prop}
  {c c' : DeskConfig} {h : List DeskEntry} {x : DeskEntry} {tid attempt : Nat}
  {digest : OpDigest} {pending : PendingDesktopOp} {op : PendingDesktopOp} {e : DeskExchange}

theorem step_ops (hs : (desktop estr).Step x) : (∃ tid o a, x.event = .exchange tid ⟨.ops o, a⟩
      ∧ o.Answers x.before.shared.clock
        x.after.shared.clock x.before.shared.nextAttempt x.before.shared.ops a x.after.shared.ops)
    ∨ (∀ tid o a, x.event ≠ .exchange tid ⟨.ops o, a⟩)
      ∧ x.after.shared.ops = x.before.shared.ops := by
  rcases step_part Shared.ops DeskOp.ops
      (fun hans => hans.elsewhere.ops) (fun hm => hm.pending.2.2.1) hs with
    ⟨tid, ⟨op, a⟩, o, hevent, hop, hans⟩ | ⟨hno, heq⟩
  · obtain rfl : op = .ops o := hop
    obtain ⟨hi, -, ops, hops, hafter⟩ := hans
    refine .inl ⟨tid, o, a, hevent, ?_⟩
    rw [hafter]
    exact hops
  · exact .inr ⟨fun tid o a he => hno tid _ o he rfl, heq⟩

theorem BeginsOp.begun (hs : (desktop estr).Step x)
    (hx : BeginsOp x tid digest attempt pending) : x.before.shared.nextAttempt = attempt
      ∧ x.after.shared.nextAttempt = attempt + 1
      ∧ ∃ deadline now isProtected, now ≤ x.after.shared.clock
        ∧ Begun x.before.shared.ops now digest deadline isProtected attempt
          (.ok pending) x.after.shared.ops := by
  obtain ⟨deadline, hevent⟩ := hx
  obtain ⟨hi, -, ops, hops, hafter⟩ := step_answers hs hevent
  obtain ⟨r, now, isProtected, heq, -, hhi, hbegun⟩ := hops.begun
  obtain ⟨rfl, rfl⟩ := Prod.mk.inj heq
  rw [hafter]
  exact ⟨rfl, rfl, deadline, now, isProtected, hhi, hbegun⟩

theorem BeginsOp.lookup (hs : (desktop estr).Step x) (hx : BeginsOp x tid digest attempt pending) :
    x.after.shared.ops.ops.lookup digest = some pending
      ∧ pending.gate = .verifying attempt digest := by
  obtain ⟨-, -, _, now, isProtected, -, hbegun⟩ := hx.begun hs
  generalize x.after.shared.ops = s' at hbegun
  cases hbegun with
  | again | fresh => exact ⟨lookup_insert _, rfl⟩

theorem Run.attempt_once (hrun : (desktop estr).Run allowed c h c')
    (attempt : Nat) : Once (fun x => ∃ tid digest pending,
      BeginsOp x tid digest attempt pending) h := by
  refine Run.once hrun fun earlier x mid y _ hsy hy hmid hs hx => ?_
  obtain ⟨_, _, _, hy⟩ := hy
  obtain ⟨_, _, _, hx⟩ := hx
  have hle := Run.nextAttempt_le hmid
  have hlater := (hx.begun hs).1
  have hearlier := (hy.begun hsy).2.1
  omega

theorem Run.attempt_tid (hrun : (desktop estr).Run allowed c h c')
    {tid' : Nat} {digest' : OpDigest} {pending' : PendingDesktopOp}
    {b b' : DeskEntry} (hb : b ∈ h) (hb' : b' ∈ h) (hx : BeginsOp b tid digest attempt pending)
    (hx' : BeginsOp b' tid' digest' attempt pending') : tid = tid' := by
  obtain ⟨_, _, hsplit⟩ := append_of_mem hb
  obtain ⟨_, _, hsplit'⟩ := append_of_mem hb'
  obtain ⟨-, rfl, -⟩ := (Run.attempt_once hrun attempt).unique hsplit
    ⟨_, _, _, hx⟩ hsplit' ⟨_, _, _, hx'⟩
  obtain ⟨_, hevent⟩ := hx
  obtain ⟨_, hevent'⟩ := hx'
  rw [hevent] at hevent'
  cases hevent'
  rfl

-- ==== numbers

/-- What the numbers of the operations are: each is below the next one,
and no two digests share one. -/
structure Registry (h : List DeskEntry) (s : DesktopOps) : Prop where
  le : ∀ digest op, s.ops.lookup digest = some op → op.id ≤ s.next
  distinct : ∀ digest digest' op op', s.ops.lookup digest = some op →
    s.ops.lookup digest' = some op' → op.id = op'.id → digest' = digest
  recorded : ∀ b ∈ h, ∀ tid digest attempt pending,
    BeginsOp b tid digest attempt pending → pending.id ≤ s.next
      ∧ ∀ digest' op, s.ops.lookup digest' = some op →
        pending.id = op.id → digest' = digest ∧ SameOp pending op

theorem Registry.step (hreg : Registry h x.before.shared.ops)
    (hs : (desktop estr).Step x) : Registry (x :: h) x.after.shared.ops := by
  rcases step_ops hs with ⟨tid, o, a, hevent, hans⟩ | ⟨hno, heq⟩
  · have hle : ∀ digest op, x.after.shared.ops.ops.lookup digest = some op →
        op.id ≤ x.after.shared.ops.next := by
      intro digest op hlookup
      rcases hans.op_cases hlookup with ⟨op₀, hbefore, hsame⟩
          | ⟨hid, hnext, -⟩
      · rw [hsame]
        exact (hreg.le digest op₀ hbefore).trans hans.next_le
      · omega
    have hdistinct : ∀ digest digest' op op', x.after.shared.ops.ops.lookup digest = some op →
        x.after.shared.ops.ops.lookup digest' = some op' → op.id = op'.id → digest' = digest := by
      intro digest digest' op op' hlookup hlookup' hid
      rcases hans.op_cases hlookup with ⟨op₀, hbefore, hsame⟩
          | ⟨hnew, -, deadline, rfl⟩
      · rw [hsame] at hid
        rcases hans.op_cases hlookup' with ⟨op₁, hbefore', hsame'⟩
            | ⟨hnew', -⟩
        · rw [hsame'] at hid
          exact hreg.distinct _ _ _ _ hbefore hbefore' hid
        · have hbelow : op₀.id ≤ _ := hreg.le digest op₀ hbefore
          have hid : op₀.id = op'.id := hid
          omega
      · rcases hans.op_cases hlookup' with ⟨op₁, hbefore', hsame'⟩
            | ⟨-, -, deadline', heq⟩
        · rw [hsame'] at hid
          have hbelow : op₁.id ≤ _ := hreg.le digest' op₁ hbefore'
          have hid : op.id = op₁.id := hid
          omega
        · cases heq
          rfl
    refine ⟨hle, hdistinct, fun b hmem tid' digest attempt pending hb => ?_⟩
    rcases mem_cons.1 hmem with rfl | hmem
    · have hlookup := (hb.lookup hs).1
      refine ⟨hle _ _ hlookup, fun digest' op hlookup' hid => ?_⟩
      obtain rfl := hdistinct _ _ _ _ hlookup hlookup' hid
      cases hlookup.symm.trans hlookup'
      exact ⟨rfl, .refl _⟩
    · obtain ⟨hbelow, hsame⟩ := hreg.recorded b hmem tid' digest attempt pending hb
      refine ⟨hbelow.trans hans.next_le, fun digest' op hlookup' hid => ?_⟩
      rcases hans.op_cases hlookup' with ⟨op₀, hbefore, hop⟩ | ⟨hnew, -⟩
      · rw [hop] at hid
        obtain ⟨hdigest, hpending⟩ := hsame digest' op₀ hbefore hid
        exact ⟨hdigest, hpending.trans hop⟩
      · omega
  · refine ⟨by rw [heq]; exact hreg.le, by rw [heq]; exact hreg.distinct,
      fun b hmem tid' digest attempt pending hb => ?_⟩
    rw [heq]
    rcases mem_cons.1 hmem with rfl | hmem
    · obtain ⟨deadline, hevent⟩ := hb
      exact absurd hevent (hno _ _ _)
    · exact hreg.recorded b hmem tid' digest attempt pending hb

theorem Run.registry (hrun : (desktop estr).Run allowed c h c')
    (hops : c.shared.ops = .empty) : Registry h c'.shared.ops := by
  induction hrun with
  | nil =>
    rw [hops]
    refine ⟨fun _ _ hlookup => ?_, fun _ _ _ _ hlookup => ?_, fun _ hmem => absurd hmem not_mem_nil⟩
    · cases hlookup
    · cases hlookup
  | step _ _ hs ih => exact ih.step hs

-- ==== in flight

/-- An operation in flight: it stands in the registry as it was returned,
or its time is over, or a lock ended it. -/
structure Flying (h : List DeskEntry) (d : Shared) (tid : Nat)
    (digest : OpDigest) (attempt : Nat) (pending : PendingDesktopOp) :
    Prop where
  id_le : pending.id ≤ d.ops.next
  gate : pending.gate = .verifying attempt digest
  stands : ∃ later b earlier, h = later ++ b :: earlier ∧ BeginsOp b tid digest attempt pending
    ∧ (d.ops.ops.lookup digest = some pending
      ∨ (pending.deadline ≤ d.clock ∨ ∃ y ∈ later, DrainsOps y) ∧ Gone d.ops digest pending.id)

theorem Flying.step (hf : Flying h x.before.shared tid digest attempt pending)
    (hs : (desktop estr).Step x) (hnot : ∀ tid' o a, x.event = .exchange tid' ⟨.ops o, a⟩ →
      x.before.shared.ops.ops.lookup digest = some pending →
      o ≠ .retry digest pending.id attempt ∧ o ≠ .finish digest pending.id) :
    Flying (x :: h) x.after.shared tid digest attempt pending := by
  obtain ⟨later, b, earlier, rfl, hb, hstands⟩ := hf.stands
  have hclock := step_clock_le hs
  -- the reason why it is gone stays a reason
  have hreason : (pending.deadline ≤ x.before.shared.clock ∨ ∃ y ∈ later, DrainsOps y) →
      pending.deadline ≤ x.after.shared.clock
        ∨ ∃ y ∈ x :: later, DrainsOps y := by
    rintro (hle | ⟨y, hmem, hy⟩)
    · exact .inl (hle.trans hclock)
    · exact .inr ⟨y, mem_cons_of_mem _ hmem, hy⟩
  rcases step_ops hs with ⟨tid', o, a, hevent, hans⟩ | ⟨-, heq⟩
  · refine ⟨hf.id_le.trans hans.next_le, hf.gate, x :: later, b, earlier,
      rfl, hb, ?_⟩
    rcases hstands with hlookup | ⟨hwhy, hgone⟩
    · obtain ⟨hretry, hfinish⟩ := hnot tid' o a hevent hlookup
      refine (hans.verifying hlookup hf.gate hf.id_le hretry hfinish).imp_right ?_
      rintro ⟨hexpired | rfl, hgone⟩
      · exact ⟨.inl hexpired, hgone⟩
      · exact ⟨.inr ⟨x, mem_cons_self, tid', a, hevent⟩, hgone⟩
    · exact .inr ⟨hreason hwhy, hans.gone hgone hf.id_le⟩
  · refine ⟨by rw [heq]; exact hf.id_le, hf.gate, x :: later, b, earlier,
      rfl, hb, ?_⟩
    rw [heq]
    exact hstands.imp_right fun hwhy => ⟨hreason hwhy.1, hwhy.2⟩

theorem inFlight_cons {said : List DeskExchange}
    (hflight : inFlight (e :: said) = some (digest, attempt, pending)) :
    (∃ deadline, e = ⟨.ops (.begin digest deadline), (attempt, .ok pending)⟩)
    ∨ inFlight said = some (digest, attempt, pending)
      ∧ ∀ o a, e = ⟨.ops o, a⟩ → o = .drain := by
  obtain ⟨op, a⟩ := e
  cases op with
  | ops o =>
    cases o with
    | begin digest' deadline =>
      obtain ⟨attempt', r⟩ := a
      cases r with
      | error e => cases hflight
      | ok pending' =>
        cases hflight
        exact .inl ⟨deadline, rfl⟩
    | retry _ _ _ | finish _ _ => cases hflight
    | drain =>
      refine .inr ⟨hflight, fun o a heq => ?_⟩
      cases heq
      rfl
  | _ => exact .inr ⟨hflight, nofun⟩

theorem Run.flying (hrun : (desktop estr).Run allowed c h c')
    (hfresh : Fresh c) : ∀ tid t digest attempt pending, c'.threads tid = some t →
      inFlight t.said = some (digest, attempt, pending) →
      Flying h c'.shared tid digest attempt pending := by
  induction hrun with
  | nil =>
    intro tid t digest attempt pending ht
    rw [hfresh.threads] at ht
    cases ht
  | @step h x hr hallow hs ih =>
    intro tid t digest attempt pending ht hflight
    rcases hs.thread_cases ht with ⟨hbefore, hby⟩
        | ⟨call, p, -, rfl, -⟩ | ⟨e, t₀, hevent, ht₀, hhears, -⟩
    · have hf := ih tid t digest attempt pending hbefore hflight
      refine hf.step hs fun tid' o a hevent hlookup => ?_
      have hne : tid' ≠ tid := by
        rw [hevent] at hby
        exact hby
      obtain ⟨t', -, ht', -, -, -, hlawful⟩ := Run.lawful hr hfresh.threads hs hevent
      obtain ⟨_, b, _, hh, hb, -⟩ := hf.stands
      have hmem : b ∈ h := by simp [hh]
      -- another call in the same attempt is this one
      have hsame : ∀ {digest' pending'}, inFlight t'.said
          = some (digest', attempt, pending') → False := by
        intro digest' pending' hflight'
        obtain ⟨_, b', _, hh', hb', -⟩ := (ih tid' t' _ _ _ ht' hflight').stands
        have hmem' : b' ∈ h := by simp [hh']
        exact hne (Run.attempt_tid hr hmem' hmem hb' hb)
      constructor
      · rintro rfl
        obtain ⟨pending', hflight', -⟩ := hlawful
        exact hsame hflight'
      rintro rfl
      obtain ⟨attempt', pending', hflight', hid⟩ := hlawful
      have hf' := ih tid' t' _ _ _ ht' hflight'
      obtain ⟨_, _, _, -, -, hstands⟩ := hf'.stands
      rcases hstands with hlookup' | ⟨-, hgone⟩
      · cases hlookup.symm.trans hlookup'
        have hgate := hf'.gate
        rw [hf.gate] at hgate
        cases hgate
        exact hsame hflight'
      · exact hgone _ hlookup hid.symm
    · cases hflight
    rw [hhears.said] at hflight
    rcases inFlight_cons hflight with ⟨deadline, rfl⟩
        | ⟨hflight₀, hdrain⟩
    · have hx : BeginsOp x tid digest attempt pending := ⟨deadline, hevent⟩
      obtain ⟨hlookup, hgate⟩ := hx.lookup hs
      have hreg := (Run.registry hr hfresh.ops).step hs
      exact ⟨hreg.le _ _ hlookup, hgate, [], x, h, rfl, hx, .inl hlookup⟩
    refine (ih tid t₀ _ _ _ ht₀ hflight₀).step hs ?_
    intro tid' o a hevent' _
    rw [hevent] at hevent'
    cases hevent'
    obtain rfl := hdrain _ _ rfl
    exact ⟨nofun, nofun⟩

theorem VerifyingOp.stands (hrun : (desktop estr).Run allowed c h c')
    (hfresh : Fresh c) (hv : VerifyingOp h c' tid digest attempt pending)
    (hlt : c'.shared.clock < pending.deadline) : c'.shared.ops.ops.lookup digest = some pending
      ∧ pending.gate = .verifying attempt digest
      ∧ ∃ b ∈ h, BeginsOp b tid digest attempt pending := by
  obtain ⟨t, later, b, earlier, ht, hflight, hh, hb, hdrain⟩ := hv
  have hf := Run.flying hrun hfresh tid t digest attempt pending ht hflight
  obtain ⟨later', b', earlier', hh', hb', hstands⟩ := hf.stands
  obtain ⟨rfl, -, -⟩ := (Run.attempt_once hrun attempt).unique hh ⟨_, _, _, hb⟩ hh' ⟨_, _, _, hb'⟩
  refine ⟨?_, hf.gate, b, by simp [hh], hb⟩
  rcases hstands with hlookup | ⟨hexpired | ⟨y, hmem, hy⟩, -⟩
  · exact hlookup
  · omega
  · exact absurd hy (hdrain y hmem)

theorem Run.op_kept (hrun : (desktop estr).Run allowed c h c')
    (hlookup : c.shared.ops.ops.lookup digest = some op) (hid : op.id ≤ c.shared.ops.next)
    (hnot : ∀ z ∈ h, ¬ DrainsOps z ∧ ¬ FinishesOp z digest op.id) : op.id ≤ c'.shared.ops.next
    ∧ ((∃ op', c'.shared.ops.ops.lookup digest = some op' ∧ SameOp op op')
      ∨ op.deadline ≤ c'.shared.clock) := by
  induction hrun with
  | nil => exact ⟨hid, .inl ⟨op, hlookup, .refl _⟩⟩
  | @step h x hr _ hs ih =>
    obtain ⟨hle, hkept⟩ := ih fun z hmem => hnot z (mem_cons_of_mem _ hmem)
    obtain ⟨hdrain, hfinish⟩ := hnot x mem_cons_self
    rcases step_ops hs with ⟨tid, o, a, hevent, hans⟩ | ⟨-, heq⟩
    · refine ⟨hle.trans hans.next_le, ?_⟩
      rcases hkept with ⟨op', hbefore, hsame⟩ | hexpired
      · have hid' : op'.id = op.id := by rw [hsame]
        have hdeadline : op'.deadline = op.deadline := by rw [hsame]
        cases hans.op_next digest with
        | same h => exact .inl ⟨op', h.trans hbefore, hsame⟩
        | moved hthere hafter =>
          cases hbefore.symm.trans hthere
          exact .inl ⟨_, hafter, hsame.trans rfl⟩
        | ended hwhy =>
          rcases hwhy op' hbefore with hexpired | rfl | rfl
          · exact .inr (hdeadline ▸ hexpired)
          · exact absurd ⟨tid, a, hevent⟩ hdrain
          · rw [hid'] at hevent
            exact absurd ⟨tid, _, hevent⟩ hfinish
        | fresh hexpired => exact .inr (hdeadline ▸ hexpired op' hbefore)
      · exact .inr (hexpired.trans (step_clock_le hs))
    · rw [heq]
      exact ⟨hle, hkept.imp_right fun hexpired => hexpired.trans (step_clock_le hs)⟩

theorem BeginsOp.same (hs : (desktop estr).Step x) (hx : BeginsOp x tid digest attempt pending)
    (hlookup : x.before.shared.ops.ops.lookup digest = some op)
    (hlt : x.after.shared.clock < op.deadline) : SameOp op pending := by
  obtain ⟨-, -, deadline, now, isProtected, hle, hbegun⟩ := hx.begun hs
  generalize x.after.shared.ops = s' at hbegun
  cases hbegun with
  | again hlive =>
    cases hlookup.symm.trans (lookup_live.1 hlive).1
    rfl
  | fresh hlive =>
    have hexpired := expired_of_not_live hlookup hlive
    omega

-- ==== the gate

theorem Run.gate_steps (hrun : (desktop estr).Run allowed c h c')
    (hthreads : ∀ tid, c.threads tid = none) {t : Thread deskInterface String Reply Call}
    (ht : c'.threads tid = some t) {after mid before : List DeskExchange}
    {deadline now n : Nat} (hsaid : t.said = after ++ e :: (mid ++ ⟨.ops (.begin digest deadline),
        (attempt, .ok pending)⟩ :: ⟨.outside .now, now⟩ :: ⟨.slot .epoch, n⟩ :: before)) :
    ∃ since w rest mid' b first g before' t₁, h = since ++ w :: rest ∧ w.event = .exchange tid e
      ∧ (desktop estr).Run allowed c rest w.before
      ∧ (desktop estr).Step w
      ∧ w.before.threads tid = some t₁ ∧ (∀ e' ∈ mid, e' ∈ t₁.said)
      ∧ rest = mid' ++ b :: (first ++ g :: before')
      ∧ BeginsOp b tid digest attempt pending
      ∧ g.event = .exchange tid ⟨.slot .epoch, n⟩ := by
  obtain ⟨since, w, rest, t₁, rfl, hw, ht₁, hsaid₁, -⟩ := hrun.said_entry (hthreads tid) ht hsaid
  obtain ⟨hrw, -, hsw⟩ := hrun.split
  obtain ⟨mid', b, rest', t₂, rfl, hb, ht₂, hsaid₂, -⟩ := hrw.said_entry (hthreads tid) ht₁ hsaid₁
  obtain ⟨hrb, -, -⟩ := hrw.split
  obtain ⟨first, g, before', t₃, rfl, hg, -⟩ :=
    hrb.said_entry (hthreads tid) ht₂ (show t₂.said = [_] ++ _ :: _ from hsaid₂)
  refine ⟨since, w, _, mid', b, first, g, before', t₁, rfl, hw, hrw, hsw,
    ht₁, fun e' hmem => ?_, rfl, ⟨deadline, hb⟩, hg⟩
  rw [hsaid₁]
  exact mem_append_left _ hmem

theorem Run.bound (hrun : (desktop estr).Run allowed c h x.before)
    (hfresh : Fresh c) (hs : (desktop estr).Step x) {n : Nat} {u : Unit}
    (hevent : x.event = .exchange tid ⟨.slot (.closure digest n), u⟩) :
    BoundPass h tid digest n := by
  obtain ⟨t, -, ht, -, -, -, hlawful⟩ := Run.lawful hrun hfresh.threads hs hevent
  obtain ⟨op, said, rfl, hsaid, since, e, mid, deadline, attempt, pending,
    now, before, rfl, -, hconsents⟩ := hlawful
  have hepoch : x.before.shared.slot.epoch = n := Run.epoch_read hrun hfresh.threads ht hsaid
  -- from the first reading of the epoch on nothing was published
  have hquiet : ∀ (later old : List DeskEntry) (g : DeskEntry), h = later
      ++ g :: old → g.event = .exchange tid ⟨.slot .epoch, n⟩ → ∀ y ∈ later, ¬ Publishes y := by
    rintro later old g rfl hg
    obtain ⟨-, -, hsg⟩ := hrun.split
    obtain ⟨hi, -, slot, ⟨hn, rfl⟩, hafter⟩ := step_answers hsg hg
    refine Run.no_publish hrun.tail ?_
    rw [hepoch, hafter]
    exact hn
  rcases hconsents with ⟨hplain, click, id, stale, rfl, rfl, hmem⟩
      | ⟨hprotected, modality, now', rfl, hle, hmem⟩
  · obtain ⟨since', w, rest, mid', b, first, g, before', t₁, rfl, hw, hrw,
      hsw, ht₁, hmid, rfl, hb, hg⟩ := Run.gate_steps hrun hfresh.threads ht
        (show t.said = ([_, _] ++ since) ++ _ :: _ from hsaid)
    obtain ⟨_, r, _, _, hrest, -, -, hr, -⟩ := Run.mem_said hrw hfresh.threads ht₁ (hmid _ hmem)
    obtain ⟨later, y, earlier, hy, happroves⟩ :=
      Run.approved hfresh hrw hsw hw (show Once (RegistersId id) ([] ++ _) from
          Run.registered_once hrw id)
        (show r ∈ [] ++ _ by rw [nil_append, hrest]; simp)
        ⟨tid, stale, hr⟩
    refine ⟨since', w, mid', b, first, g, before', click.op, attempt,
      pending, rfl, hg, ?_, rfl, hb, .inr ⟨hplain, click, id, rfl, hw,
        later, y, earlier, hy, happroves⟩⟩
    exact hquiet _ before' g (by simp) hg
  · -- the clock was read after the verification
    obtain ⟨s₁, s₂, rfl⟩ := append_of_mem hmem
    rw [append_assoc] at hsaid
    obtain ⟨new, y, old, t₀, rfl, hy, ht₀, hsaid₀, -⟩ :=
      hrun.said_entry (hfresh.threads tid) ht (show t.said = ([_, _] ++ s₁) ++ _ :: _ from hsaid)
    obtain ⟨hry, -, hsy⟩ := hrun.split
    obtain ⟨since', w, rest, mid', b, first, g, before', t₁, rfl, hw, hrw,
      hsw, -, -, rfl, hb, hg⟩ := Run.gate_steps hry hfresh.threads ht₀ hsaid₀
    have hinTime : w.after.shared.clock ≤ pending.deadline := by
      obtain ⟨hi, -, ⟨hlo, -⟩, -⟩ := step_answers hsy hy
      exact ((Run.clock_le hry.tail).trans hlo).trans hle
    refine ⟨new ++ y :: since', w, mid', b, first, g, before', op, attempt,
      pending, by simp, hg, ?_, rfl, hb, .inl ⟨hprotected, modality, hw,
        hinTime⟩⟩
    exact hquiet _ before' g (by simp) hg

end Runs

/-- A gate pass is bound to one unlock. -/
theorem passes_sound {estr : CoreError → String}
    {allowed : DeskEntry → Prop} {c c' : DeskConfig} {h : List DeskEntry}
    (hfresh : Fresh c) (hrun : (desktop estr).Run allowed c h c') : PassesSound h c' where
  bound := by
    rintro later x earlier tid digest n u rfl hevent
    obtain ⟨hr, -, hs⟩ := hrun.split
    exact Run.bound hr hfresh hs hevent
  exclusive := by
    intro tid₁ tid₂ digest attempt₁ attempt₂ pending₁ pending₂ hv₁ hv₂ hlt₁ hlt₂
    obtain ⟨hlookup₁, hgate₁, b₁, hmem₁, hb₁⟩ := hv₁.stands hrun hfresh hlt₁
    obtain ⟨hlookup₂, hgate₂, b₂, hmem₂, hb₂⟩ := hv₂.stands hrun hfresh hlt₂
    cases hlookup₁.symm.trans hlookup₂
    rw [hgate₁] at hgate₂
    cases hgate₂
    exact Run.attempt_tid hrun hmem₁ hmem₂ hb₁ hb₂
  fixed := by
    rintro later x earlier y tid tid' digest digest' attempt attempt'
      pending pending' rfl hmem hy hx hid
    obtain ⟨hr, -, hs⟩ := hrun.split
    have hreg := (Run.registry hr hfresh.ops).step hs
    exact (hreg.recorded y (mem_cons_of_mem _ hmem) tid digest attempt
      pending hy).2 digest' pending' (hx.lookup hs).1 hid
  kept := by
    rintro later x mid y earlier tid tid' digest attempt attempt' pending
      pending' rfl hy hx hnot hlt
    obtain ⟨hr, -, hs⟩ := hrun.split
    obtain ⟨hry, -, hsy⟩ := hr.split
    have hlookup := (hy.lookup hsy).1
    have hid := ((Run.registry hry hfresh.ops).step hsy).le _ _ hlookup
    obtain ⟨-, ⟨op, hbefore, hsame⟩ | hexpired⟩ := Run.op_kept hr.tail hlookup hid hnot
    · have hdeadline : op.deadline = pending.deadline := by rw [hsame]
      exact hsame.trans (hx.same hs hbefore (hdeadline ▸ hlt))
    · have hle := step_clock_le hs
      omega

def closes (x : DeskEntry) : Option (OpDigest × Nat) :=
  match x.event with
  | .exchange _ ⟨.slot (.closure digest n), _⟩ => some (digest, n)
  | _ => none

theorem closes_some {x : DeskEntry} {digest : OpDigest} {n : Nat} (h : closes x = some (digest, n))
    : ∃ tid u, x.event = .exchange tid ⟨.slot (.closure digest n), u⟩ := by
  unfold closes at h
  split at h
  · next tid digest' n' u hevent =>
    cases h
    exact ⟨tid, u, hevent⟩
  · cases h

namespace Sample

def rotation : ClickRequest :=
  .desktop "rotate" .keyRotated (.new "rotate")

def gatedRun : List DeskEntry × DeskConfig :=
  presencePlayer.play (launch (root .approval)) (.call 0 (.gated rotation) :: answers 0 14)

theorem gatedRun_run : (desktop estr).Run (fun _ => True)
    (launch (root .approval)) gatedRun.1 gatedRun.2 :=
  presencePlayer.play_run

end Sample

theorem passes_sound_verified : PassesSound gatedRun.1 gatedRun.2
    ∧ ∃ x ∈ gatedRun.1, ∃ tid n u, x.event = .exchange tid
      ⟨.slot (.closure rotation.op.digest n), u⟩ := by
  refine ⟨passes_sound (launch_fresh _) gatedRun_run, ?_⟩
  have hany : gatedRun.1.any (fun x =>
      closes x = some (rotation.op.digest, 0)) = true := by
    decide +kernel
  obtain ⟨x, hmem, hx⟩ := any_eq_true.1 hany
  obtain ⟨tid, u, hevent⟩ := closes_some (of_decide_eq_true hx)
  exact ⟨x, hmem, tid, 0, u, hevent⟩

end SovereignVault.Desk
