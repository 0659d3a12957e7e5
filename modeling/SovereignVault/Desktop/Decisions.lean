/-
Click approvals are sound: what a request that returns `Ok` rests on, in
every run.

A request's entry holds the one sender of its channel. So whoever takes
the entry out decides, and the entry is taken out once
(`Run.removed_once`). An approval is sent only by a response that took it
out (`Approving`); what it took out is what was entered (`Run.entered`).
-/
import SovereignVault.Desktop.Lawful
import SovereignVault.Desktop.Play

namespace SovereignVault.Desk

open Dialogue Talk Audit Presence List AList Function Sample

-- ==== channels

namespace Channel

def Over : Channel → Prop
  | .sent _ | .closed => True
  | _ => False

/-- What becomes of a channel that is there: it stays, one end goes, or a
decision is sent. -/
inductive Next (c : Channel) (truth : Prop) : Channel → Prop where
  | same : Next c truth c
  | hungUp : Next c truth c.hangUp
  | dropped : Next c truth c.dropSender
  | sent {approved : Bool} (htrue : approved = true → truth) : Next c truth (c.send approved).2

variable {c c' : Channel} {truth : Prop}

theorem Next.over (h : Next c truth c') (hover : c.Over) : c'.Over := by
  cases h with
  | same => exact hover
  | _ => cases c <;> first | exact hover | exact trivial

theorem Next.closed (h : Next c truth c') (hclosed : c = .closed) : c' = .closed := by
  subst hclosed
  cases h <;> rfl

theorem Next.absent (h : Next c truth c') (habsent : c = .absent) : c' = .absent := by
  subst habsent
  cases h <;> rfl

theorem Next.sent_true (h : Next c truth c') (hsent : c' = .sent true) :
    c = .sent true ∨ truth := by
  cases h with
  | same => exact .inl hsent
  | hungUp => cases c <;> cases hsent
  | dropped => cases c <;> first | exact .inl hsent | cases hsent
  | sent htrue =>
    cases c with
    | waiting =>
      cases hsent
      exact .inr (htrue rfl)
    | _ => first | exact .inl hsent | cases hsent

end Channel

-- ==== sections

section Sections

variable {c c' : Clicks} {lo hi nextId attempt now id : Nat} {o : ClickOp}

inductive Responding (c : Clicks) (now attempt id : Nat) : Clicks.RespondBegin → Clicks → Prop where
  | unknown : Responding c now attempt id .unknown c
  | wrongCode : Responding c now attempt id .wrongCode c
  | busy {e : GateError} : Responding c now attempt id (.busy e) c
  | expired {entry : PendingApproval} (hlookup : c.pending.lookup id = some entry) :
      Responding c now attempt id (.expired entry) (c.remove id)
  | declared {entry : PendingApproval} (hlookup : c.pending.lookup id = some entry)
      (hinTime : now ≤ entry.deadline) (hplain : entry.isProtected = false) :
      Responding c now attempt id (.declared entry) (c.remove id)
  | begun {entry : PendingApproval} {gate : GateState}
      (hlookup : c.pending.lookup id = some entry) (hinTime : now ≤ entry.deadline) :
      Responding c now attempt id (.begun attempt entry.op entry.deadline)
        (c.update id { entry with gate := gate })

theorem responding {otp : Option String} {a : Clicks.RespondBegin}
    (h : c.respondBegin now attempt id otp = (a, c')) : Responding c now attempt id a c' := by
  unfold Clicks.respondBegin at h
  split at h
  · cases h
    exact .unknown
  next entry hlookup =>
  split at h
  · cases h
    exact .wrongCode
  split at h
  · cases h
    exact .expired hlookup
  next htime =>
  split at h
  · next hplain =>
    cases h
    exact .declared hlookup (Nat.le_of_not_lt htime) hplain
  split at h
  · cases h
    exact .busy
  · cases h
    exact .begun hlookup (Nat.le_of_not_lt htime)

inductive Finished (c : Clicks) (now id attempt : Nat) (result : Except Denial Verified) :
    Clicks.RespondFinish → Clicks → Prop where
  | gone : Finished c now id attempt result .gone c
  | approved {entry : PendingApproval}
      {gate : GateState} {verified : Verified} (hlookup : c.pending.lookup id = some entry)
      (hok : result = .ok verified) (hdigest : verified.digest = entry.op.digest)
      (hinTime : now ≤ entry.deadline) : Finished c now id attempt result
        (.approved { entry with gate := gate }) (c.remove id)
  | retry {entry : PendingApproval} {gate : GateState} {e : PresenceError}
      (hlookup : c.pending.lookup id = some entry) : Finished c now id attempt result (.retry e)
        (c.update id { entry with gate := gate })
  | denied {entry entry' : PendingApproval} {message : String}
      (hlookup : c.pending.lookup id = some entry) :
      Finished c now id attempt result (.denied entry' message) (c.remove id)

theorem finished {result : Except Denial Verified}
    {a : Clicks.RespondFinish} (h : c.respondFinish now id attempt result = (a, c')) :
    Finished c now id attempt result a c' := by
  unfold Clicks.respondFinish at h
  split at h
  · cases h
    exact .gone
  next entry hlookup =>
  split at h
  · next verified =>
    split at h
    · cases h
      exact .denied hlookup
    · next gate hfinish =>
      cases h
      obtain ⟨-, hdigest, hinTime, -⟩ := GateState.finish_ok hfinish
      exact .approved hlookup rfl hdigest hinTime
  · cases h
    exact .retry hlookup
  · cases h
    exact .denied hlookup

def Same (entry entry' : PendingApproval) : Prop :=
  entry' = { entry with gate := entry'.gate }

theorem Same.refl (entry : PendingApproval) : Same entry entry := rfl

theorem Same.trans {entry₁ entry₂ entry₃ : PendingApproval}
    (h : Same entry₁ entry₂) (h' : Same entry₂ entry₃) : Same entry₁ entry₃ := by
  unfold Same at *
  rw [h', h]

theorem lookup_update {entry entry' : PendingApproval} {gate : GateState}
    {i : Nat} (hlookup : c.pending.lookup i = some entry)
    (h : (c.update i { entry with gate := gate }).pending.lookup id = some entry') :
    ∃ entry₀, c.pending.lookup id = some entry₀ ∧ Same entry₀ entry' := by
  rcases lookup_insert_eq_some h with heq | ⟨-, hbefore⟩
  · cases heq
    exact ⟨entry, hlookup, rfl⟩
  · exact ⟨entry', hbefore, .refl _⟩

theorem ClickOp.Answers.entry_cases {a : o.Ans} (hans : o.Answers lo hi nextId attempt c a c')
    {entry' : PendingApproval} (h : c'.pending.lookup id = some entry') :
    (∃ entry, c.pending.lookup id = some entry ∧ Same entry entry')
    ∨ ∃ click isProtected deadline stale, id = nextId
      ∧ (⟨.click o, a⟩ : DeskExchange) = ⟨.click (.register click
        isProtected deadline), (id, stale)⟩
      ∧ entry' = click.entry id isProtected deadline := by
  have hremove : ∀ i, (c.remove i).pending.lookup id = some entry' →
      ∃ entry, c.pending.lookup id = some entry ∧ Same entry entry' :=
    fun i h => ⟨entry', (lookup_erase_eq_some h).2, .refl _⟩
  cases o with
  | register click isProtected deadline =>
    obtain ⟨hid, hregister⟩ := hans
    obtain ⟨id', stale⟩ := a
    obtain ⟨-, rfl⟩ := Prod.mk.inj hregister
    rcases lookup_insert_eq_some h with heq | ⟨-, hbefore⟩
    · cases heq
      cases hid
      exact .inr ⟨click, isProtected, deadline, stale, rfl, rfl, rfl⟩
    · exact .inl ⟨entry', (lookup_retain_eq_some.1 hbefore).1, .refl _⟩
  | take i =>
    obtain ⟨-, rfl⟩ := hans
    exact .inl (hremove i h)
  | respondBegin i otp =>
    obtain ⟨now, -, -, hsection⟩ := hans
    refine .inl ?_
    cases responding hsection with
    | expired | declared => exact hremove i h
    | begun hlookup => exact lookup_update hlookup h
    | _ => exact ⟨entry', h, .refl _⟩
  | respondFinish i attempt result =>
    obtain ⟨now, -, -, hsection⟩ := hans
    refine .inl ?_
    cases finished hsection with
    | gone => exact ⟨entry', h, .refl _⟩
    | approved | denied => exact hremove i h
    | retry hlookup => exact lookup_update hlookup h
  | drain =>
    obtain ⟨-, rfl⟩ := Prod.mk.inj hans
    cases h
  | await i deadline =>
    obtain ⟨rfl, -⟩ := hans
    exact .inl ⟨entry', h, .refl _⟩
  | send i approved =>
    obtain ⟨-, rfl⟩ := hans
    exact .inl ⟨entry', h, .refl _⟩
  | dropSender i | hangUp i =>
    cases hans
    exact .inl ⟨entry', h, .refl _⟩

theorem next_setChannel {truth : Prop} {i : Nat} {f : Channel → Channel}
    (hf : id = i → (c.channel i).Next truth (f (c.channel i))) :
    (c.channel id).Next truth ((c.setChannel i f).channel id) := by
  unfold Clicks.setChannel
  dsimp only
  by_cases heq : id = i
  · have hnext := hf heq
    subst heq
    rw [update_self]
    exact hnext
  · rw [update_of_ne heq]
    exact .same

theorem ClickOp.Answers.channel_cases {a : o.Ans} (hans : o.Answers lo hi nextId attempt c a c')
    (id : Nat) : (id = nextId ∧ o.draws = 1 ∧ c'.channel id = .waiting)
    ∨ (c.channel id).Next (o = .send id true) (c'.channel id) := by
  cases o with
  | register click isProtected deadline =>
    obtain ⟨-, hregister⟩ := hans
    obtain ⟨-, rfl⟩ := Prod.mk.inj hregister
    dsimp only
    by_cases heq : id = nextId
    · subst heq
      exact .inl ⟨rfl, rfl, update_self _ _ _⟩
    rw [update_of_ne heq]
    refine .inr ?_
    split
    · exact .sent nofun
    · exact .same
  | await i deadline =>
    obtain ⟨rfl, -⟩ := hans
    exact .inr (next_setChannel fun _ => .hungUp)
  | send i approved =>
    obtain ⟨-, rfl⟩ := hans
    refine .inr (next_setChannel fun heq => .sent ?_)
    rintro rfl
    rw [heq]
  | dropSender i =>
    cases hans
    exact .inr (next_setChannel fun _ => .dropped)
  | hangUp i =>
    cases hans
    exact .inr (next_setChannel fun _ => .hungUp)
  | take i =>
    obtain ⟨-, rfl⟩ := hans
    exact .inr .same
  | respondBegin i otp =>
    obtain ⟨now, -, -, hsection⟩ := hans
    cases responding hsection <;> exact .inr .same
  | respondFinish i attempt result =>
    obtain ⟨now, -, -, hsection⟩ := hans
    cases finished hsection <;> exact .inr .same
  | drain =>
    obtain ⟨-, rfl⟩ := Prod.mk.inj hans
    exact .inr .same

end Sections

-- ==== what happens

def Registers (x : DeskEntry) (click : ClickRequest) (isProtected : Bool)
    (deadline id : Nat) : Prop :=
  ∃ tid stale, x.event = .exchange tid ⟨.click (.register click isProtected deadline), (id, stale)⟩

def RegistersId (id : Nat) (x : DeskEntry) : Prop :=
  ∃ click isProtected deadline, Registers x click isProtected deadline id

def Removes (id : Nat) (x : DeskEntry) : Prop :=
  (∃ entry, x.before.shared.clicks.pending.lookup id = some entry)
    ∧ x.after.shared.clicks.pending.lookup id = none

def Decides (id : Nat) (x : DeskEntry) : Prop :=
  x.before.shared.clicks.channel id = .waiting
    ∧ ∃ approved, x.after.shared.clicks.channel id = .sent approved

def HearsDecision (id : Nat) (x : DeskEntry) : Prop :=
  ∃ tid deadline approved, x.event = .exchange tid ⟨.click (.await id deadline), .decided approved⟩

/-- The verification of a response: it is begun on the request, and what
is verified is the request's own operation. -/
def Verifies (tid id : Nat) (otp : Option String) (attempt : Nat)
    (op : OpDescriptor) (deadline : Nat) (h : List DeskEntry) : Prop :=
  ∃ since w mid b before modality, h = since ++ w :: (mid ++ b :: before)
    ∧ w.event = .exchange tid ⟨.outside (.verify attempt op deadline), .ok modality⟩
    ∧ b.event = .exchange tid ⟨.click (.respondBegin id otp), .begun attempt op deadline⟩

/-- A response passes its deadline check at this step, in time and with
the vault unlocked unless the click comes before that, and after the
verification if the request is protected. -/
def Approves (x : DeskEntry) (earlier : List DeskEntry)
    (click : ClickRequest) (isProtected : Bool) (deadline id : Nat) : Prop :=
  ∃ tid t otp now, x.before.threads tid = some t ∧ t.call = .respond id true otp
    ∧ x.before.shared.clock ≤ now ∧ now ≤ x.after.shared.clock
    ∧ now ≤ deadline
    ∧ (x.before.shared.slot.world.handle.isSome = true
      ∨ click.preUnlock = true ∧ isProtected = false)
    ∧ ((∃ entry, x.event = .exchange tid ⟨.click (.respondBegin id otp),
          .declared entry⟩ ∧ isProtected = false)
      ∨ ∃ attempt verified entry, x.event = .exchange tid
          ⟨.click (.respondFinish id attempt (.ok verified)), .approved entry⟩
        ∧ Verifies tid id otp attempt
          (click.op.bind "request_id" (toString id)) deadline earlier)

inductive Withdraws (id : Nat) (x : DeskEntry) : Prop where
  | taken {tid : Nat} {entry : PendingApproval}
      (h : x.event = .exchange tid ⟨.click (.take id), some entry⟩)
  | drained {tid : Nat} {drained : List ((_ : Nat) × PendingApproval)}
      (h : x.event = .exchange tid ⟨.click .drain, drained⟩) (hmem : id ∈ drained.map Sigma.fst)
  | superseded {tid deadline id' : Nat} {click : ClickRequest}
      {isProtected : Bool} {stale : List ((_ : Nat) × PendingApproval)}
      (h : x.event = .exchange tid ⟨.click (.register click isProtected deadline), (id', stale)⟩)
      (hmem : id ∈ stale.map Sigma.fst)
  | expired {tid : Nat} {otp : Option String} {entry : PendingApproval}
      (h : x.event = .exchange tid ⟨.click (.respondBegin id otp), .expired entry⟩)
  | denied {tid attempt : Nat} {result : Except Denial Verified} {entry : PendingApproval}
      {message : String} (h : x.event = .exchange tid ⟨.click (.respondFinish id attempt
        result), .denied entry message⟩)

/-- `request_click` has returned, within a call, for the request it
entered under the number. -/
def ClickReturned (t : Thread deskInterface String Reply Call) (click : ClickRequest)
    (isProtected : Bool) (deadline id : Nat) (r : Except String Unit) : Prop :=
  ∃ classification deadlineAt since said before stale, t.said = since ++ (said ++ before)
    ∧ Follows (requestClick click classification deadlineAt) said (.ret (.ok r))
    ∧ ⟨.click (.register click isProtected deadline), (id, stale)⟩ ∈ said

structure ClicksSound (h : List DeskEntry) (c' : DeskConfig) : Prop where
  /-- A request returns `Ok` only on an approval of its own. -/
  approved : ∀ tid t click isProtected deadline id, c'.threads tid = some t → ClickReturned
    t click isProtected deadline id (.ok ()) → ∃ later x earlier, h = later ++ x :: earlier
      ∧ Approves x earlier click isProtected deadline id
  once : ∀ id, Once (Decides id) h ∧ Once (HearsDecision id) h
  /-- What takes its entry out first makes it an error. -/
  withdrawn : ∀ id x, x ∈ h → Withdraws id x →
    ∀ tid t click isProtected deadline r, c'.threads tid = some t →
      ClickReturned t click isProtected deadline id r →
      ∃ e, r = .error e

-- ==== numbers

section Numbers

variable {estr : CoreError → String} {allowed : DeskEntry → Prop}
  {c c' : DeskConfig} {h : List DeskEntry} {x : DeskEntry} {tid id : Nat}
  {t : Thread deskInterface String Reply Call} {said : List DeskExchange} {earlier : List DeskEntry}

theorem step_clicks (hs : (desktop estr).Step x) : (∃ tid o a, x.event = .exchange tid ⟨.click o, a⟩
      ∧ o.Answers x.before.shared.clock x.after.shared.clock x.before.shared.nextId
        x.before.shared.nextAttempt x.before.shared.clicks a x.after.shared.clicks
      ∧ x.after.shared.nextId = x.before.shared.nextId + o.draws)
    ∨ (∀ tid o a, x.event ≠ .exchange tid ⟨.click o, a⟩)
      ∧ x.after.shared.clicks = x.before.shared.clicks := by
  rcases step_part Shared.clicks DeskOp.click
      (fun hans => hans.elsewhere.clicks) (fun hm => hm.pending.1) hs with
    ⟨tid, ⟨op, a⟩, o, hevent, hop, hans⟩ | ⟨hno, heq⟩
  · obtain rfl : op = .click o := hop
    obtain ⟨hi, -, clicks, hclicks, hafter⟩ := hans
    refine .inl ⟨tid, o, a, hevent, ?_, by rw [hafter]⟩
    rw [hafter]
    exact hclicks
  · exact .inr ⟨fun tid o a he => hno tid _ o he rfl, heq⟩

variable {click : ClickRequest} {isProtected : Bool} {deadline : Nat}
  {later : List DeskEntry} {r : DeskEntry}

theorem Registers.id_eq (hs : (desktop estr).Step x)
    (hx : Registers x click isProtected deadline id) :
    x.before.shared.nextId = id ∧ x.after.shared.nextId = id + 1 := by
  obtain ⟨tid, stale, hevent⟩ := hx
  obtain ⟨hi, -, clicks, ⟨hid, -⟩, hafter⟩ := step_answers hs hevent
  have hid : id = x.before.shared.nextId := hid
  rw [hafter, hid]
  exact ⟨rfl, rfl⟩

theorem Run.registered_once (hrun : (desktop estr).Run allowed c h c')
    (id : Nat) : Once (RegistersId id) h := by
  refine Run.once hrun fun earlier x mid y _ hsy hy hmid hs hx => ?_
  obtain ⟨_, _, _, hy⟩ := hy
  obtain ⟨_, _, _, hx⟩ := hx
  have hle := Run.nextId_le hmid
  have hlater := (hx.id_eq hs).1
  have hearlier := (hy.id_eq hsy).2
  omega

structure Numbered (h : List DeskEntry) (d : Shared) (id : Nat) :
    Prop where
  channel : d.clicks.channel id ≠ .absent → id < d.nextId
  entered : ∀ entry, d.clicks.pending.lookup id = some entry →
    id < d.nextId ∧ ∃ x ∈ h, ∃ click isProtected deadline, Registers x click isProtected deadline id
      ∧ Same (click.entry id isProtected deadline) entry
  sent : d.clicks.channel id = .sent true → ∃ later z earlier tid a, h = later ++ z :: earlier
      ∧ z.event = .exchange tid ⟨.click (.send id true), a⟩

theorem Numbered.nil {d : Shared} (hclicks : d.clicks = .empty) : Numbered [] d id where
  channel hne := absurd (by rw [hclicks]; rfl) hne
  entered entry hlookup := by
    rw [hclicks] at hlookup
    cases hlookup
  sent hsent := by
    rw [hclicks] at hsent
    cases hsent

theorem Numbered.step (hs : (desktop estr).Step x)
    (hn : Numbered h x.before.shared id) : Numbered (x :: h) x.after.shared id := by
  have hle := step_nextId_le hs
  -- what was so before stays so in the longer history
  have hentered : ∀ entry entry', x.before.shared.clicks.pending.lookup id = some entry →
      Same entry entry' → id < x.after.shared.nextId ∧ ∃ y ∈ x :: h, ∃ click isProtected deadline,
          Registers y click isProtected deadline id
          ∧ Same (click.entry id isProtected deadline) entry' := by
    intro entry entry' hlookup hsame
    obtain ⟨hlt, y, hmem, click, isProtected, deadline, hy, hentry⟩ := hn.entered entry hlookup
    exact ⟨hlt.trans_le hle, y, mem_cons_of_mem _ hmem, click,
      isProtected, deadline, hy, hentry.trans hsame⟩
  have hsent : x.before.shared.clicks.channel id = .sent true →
      ∃ later z earlier tid a, x :: h = later ++ z :: earlier
        ∧ z.event = .exchange tid ⟨.click (.send id true), a⟩ := by
    intro hsent
    obtain ⟨later, z, earlier, tid, a, rfl, hz⟩ := hn.sent hsent
    exact ⟨x :: later, z, earlier, tid, a, rfl, hz⟩
  rcases step_clicks hs with ⟨tid, o, a, hevent, hans, hnext⟩ | ⟨-, heq⟩
  · refine ⟨fun hne => ?_, fun entry' hlookup => ?_, fun hafter => ?_⟩
    · rcases hans.channel_cases id with ⟨rfl, hdraws, -⟩ | hchannel
      · omega
      · exact (hn.channel fun habsent => hne (hchannel.absent habsent)).trans_le hle
    · rcases hans.entry_cases hlookup with ⟨entry, hbefore, hsame⟩
          | ⟨click, isProtected, deadline, stale, hid, heq, rfl⟩
      · exact hentered entry entry' hbefore hsame
      rw [heq] at hevent
      have hx : Registers x click isProtected deadline id := ⟨tid, stale, hevent⟩
      have hlt := (hx.id_eq hs).2
      exact ⟨by omega, x, mem_cons_self, click, isProtected,
        deadline, hx, .refl _⟩
    · rcases hans.channel_cases id with ⟨-, -, hwaiting⟩ | hchannel
      · rw [hwaiting] at hafter
        cases hafter
      · rcases hchannel.sent_true hafter with hbefore | rfl
        · exact hsent hbefore
        · exact ⟨[], x, h, tid, a, rfl, hevent⟩
  · rw [← heq] at hentered hsent
    exact ⟨fun hne => (hn.channel (heq ▸ hne)).trans_le hle,
      fun entry hlookup => hentered entry entry hlookup (.refl _), hsent⟩

theorem Run.numbered (hrun : (desktop estr).Run allowed c h c')
    (hclicks : c.shared.clicks = .empty) (id : Nat) : Numbered h c'.shared id := by
  induction hrun with
  | nil => exact .nil hclicks
  | step _ _ hs ih => exact ih.step hs

-- ==== once

theorem step_channel (hs : (desktop estr).Step x)
    (hlt : id < x.before.shared.nextId) : ∃ truth, (x.before.shared.clicks.channel id).Next truth
      (x.after.shared.clicks.channel id) := by
  rcases step_clicks hs with ⟨tid, o, a, -, hans, -⟩ | ⟨-, heq⟩
  · rcases hans.channel_cases id with ⟨rfl, -⟩ | hchannel
    · exact absurd hlt (Nat.lt_irrefl _)
    · exact ⟨_, hchannel⟩
  · rw [heq]
    exact ⟨True, .same⟩

theorem Run.channel_kept (hrun : (desktop estr).Run allowed c h c')
    {P : Channel → Prop} (hP : ∀ {ch truth ch'}, ch.Next truth ch' →
      P ch → P ch') (hlt : id < c.shared.nextId) (hbefore : P (c.shared.clicks.channel id)) :
    P (c'.shared.clicks.channel id) := by
  induction hrun with
  | nil => exact hbefore
  | step hr _ hs ih =>
    obtain ⟨truth, hnext⟩ := step_channel hs (hlt.trans_le (Run.nextId_le hr))
    exact hP hnext ih

theorem Run.gone (hrun : (desktop estr).Run allowed c h c')
    (hlt : id < c.shared.nextId) (hnone : c.shared.clicks.pending.lookup id = none) :
    c'.shared.clicks.pending.lookup id = none := by
  induction hrun with
  | nil => exact hnone
  | @step h x hr _ hs ih =>
    rw [Option.eq_none_iff_forall_ne_some]
    intro entry hlookup
    have hle := Run.nextId_le hr
    rcases step_clicks hs with ⟨tid, o, a, -, hans, -⟩ | ⟨-, heq⟩
    · rcases hans.entry_cases hlookup with ⟨entry₀, hbefore, -⟩
          | ⟨click, isProtected, deadline, stale, hid, -⟩
      · rw [ih] at hbefore
        cases hbefore
      · omega
    · rw [heq, ih] at hlookup
      cases hlookup

theorem step_responds (hs : (desktop estr).Step x) {otp : Option String} {a : Clicks.RespondBegin}
    (hevent : x.event = .exchange tid ⟨.click (.respondBegin id otp), a⟩) :
    ∃ now clicks, x.before.shared.clock ≤ now
      ∧ now ≤ x.after.shared.clock ∧ x.after.shared.clicks = clicks
      ∧ Responding x.before.shared.clicks now x.before.shared.nextAttempt id a clicks := by
  obtain ⟨hi, -, clicks, ⟨now, hlo, hhi, hsection⟩, hafter⟩ := step_answers hs hevent
  rw [hafter]
  exact ⟨now, clicks, hlo, hhi, rfl, responding hsection⟩

theorem step_finishes (hs : (desktop estr).Step x)
    {attempt : Nat} {result : Except Denial Verified} {a : Clicks.RespondFinish} (hevent : x.event
      = .exchange tid ⟨.click (.respondFinish id attempt result), a⟩) :
    ∃ now clicks, x.before.shared.clock ≤ now
      ∧ now ≤ x.after.shared.clock ∧ x.after.shared.clicks = clicks
      ∧ Finished x.before.shared.clicks now id attempt result a clicks := by
  obtain ⟨hi, -, clicks, ⟨now, hlo, hhi, hsection⟩, hafter⟩ := step_answers hs hevent
  rw [hafter]
  exact ⟨now, clicks, hlo, hhi, rfl, finished hsection⟩

theorem Approves.removes (hs : (desktop estr).Step x)
    (hx : Approves x earlier click isProtected deadline id) : Removes id x := by
  obtain ⟨tid, t, otp, now, -, -, -, -, -, -, hevent⟩ := hx
  rcases hevent with ⟨entry, hevent, -⟩
      | ⟨attempt, verified, entry, hevent, -⟩
  · obtain ⟨_, clicks, -, -, hafter, hsection⟩ := step_responds hs hevent
    cases hsection with
    | declared hlookup => exact ⟨⟨_, hlookup⟩, by rw [hafter]; exact lookup_erase _ _⟩
  · obtain ⟨_, clicks, -, -, hafter, hsection⟩ := step_finishes hs hevent
    cases hsection with
    | approved hlookup => exact ⟨⟨_, hlookup⟩, by rw [hafter]; exact lookup_erase _ _⟩

theorem Withdraws.not_approves (hx : Withdraws id x) :
    ¬ Approves x earlier click isProtected deadline id := by
  rintro ⟨tid, t, otp, now, -, -, -, -, -, -, hevent⟩
  rcases hevent with ⟨entry, hevent, -⟩
      | ⟨attempt, verified, entry, hevent, -⟩
  · cases hx with
    | taken h | drained h _ | superseded h _ | expired h | denied h =>
      rw [hevent] at h
      cases h
  · cases hx with
    | taken h | drained h _ | superseded h _ | expired h | denied h =>
      rw [hevent] at h
      cases h

theorem mem_numbers {stale : List ((_ : Nat) × PendingApproval)}
    (hmem : ⟨.click (.register click isProtected deadline), (id, stale)⟩ ∈ said) :
    id ∈ numbers said := by
  induction said with
  | nil => exact absurd hmem not_mem_nil
  | cons e said ih =>
    rcases mem_cons.1 hmem with rfl | hlater
    · exact mem_cons_self
    have hid := ih hlater
    unfold numbers
    split
    · exact mem_cons_of_mem _ hid
    · exact hid

theorem clicked_of_follows {classification : Option Bool}
    {deadlineAt : Option Nat} (hf : Follows (requestClick click classification deadlineAt) said
      (.ret (.ok (.ok ())))) :
    ∃ isProtected deadline id stale mid, said = ⟨.click (.await id deadline), .decided true⟩ :: mid
      ∧ ⟨.click (.register click isProtected deadline), (id, stale)⟩ ∈ mid
      ∧ numbers said = [id] := by
  -- the call it is part of does not matter to it
  have hwp : wp (Lawful .tick) _ (Clicked click _ _ []) [] :=
    wp_requestClick rfl click classification deadlineAt
  obtain ⟨-, -, a, ha, hclicked⟩ := hwp.returns hf
  cases ha
  obtain ⟨isProtected, deadline, id, stale, mid, hsaid, hmem, hnumbers, -⟩ := hclicked rfl
  rw [append_nil] at hsaid
  exact ⟨isProtected, deadline, id, stale, mid, hsaid, hmem, hnumbers⟩

theorem ClickReturned.heard (hr : ClickReturned t click isProtected deadline id (.ok ())) :
    (∃ stale, ⟨.click (.register click isProtected deadline), (id, stale)⟩ ∈ t.said)
    ∧ ∃ deadline', ⟨.click (.await id deadline'), .decided true⟩ ∈ t.said := by
  obtain ⟨classification, deadlineAt, since, said, before, stale, hsaid, hfollows, hmem⟩ := hr
  obtain ⟨_, deadline', id', _, mid, rfl, -, hnumbers⟩ := clicked_of_follows hfollows
  have hid := mem_numbers hmem
  rw [hnumbers] at hid
  obtain rfl : id = id' := mem_singleton.1 hid
  refine ⟨⟨stale, ?_⟩, deadline', ?_⟩
  · rw [hsaid]
    exact mem_append_right _ (mem_append_left _ hmem)
  · rw [hsaid]
    exact mem_append_right _ mem_cons_self

variable (hfresh : Fresh c)
include hfresh

theorem Run.removed_once (hrun : (desktop estr).Run allowed c h c')
    (id : Nat) : Once (Removes id) h := by
  refine Run.once hrun fun earlier x mid y hry hsy hy hmid hs hx => ?_
  obtain ⟨⟨entry, hlookup⟩, hnone⟩ := hy
  have hlt := ((Run.numbered hry hfresh.clicks id).entered entry hlookup).1
  obtain ⟨⟨entry', hlookup'⟩, -⟩ := hx
  rw [Run.gone hmid (hlt.trans_le (step_nextId_le hsy)) hnone] at hlookup'
  cases hlookup'

theorem Run.channel_lt {y : DeskEntry} (hrun : (desktop estr).Run allowed c h y.before)
    (hs : (desktop estr).Step y) (hthere : y.before.shared.clicks.channel id ≠ .absent) :
    id < y.after.shared.nextId :=
  ((Run.numbered hrun hfresh.clicks id).channel hthere).trans_le (step_nextId_le hs)

theorem Run.decided_once (hrun : (desktop estr).Run allowed c h c')
    (id : Nat) : Once (Decides id) h := by
  refine Run.once hrun fun earlier x mid y hry hsy hy hmid hs hx => ?_
  obtain ⟨hwaiting, approved, hsent⟩ := hy
  have hlt := Run.channel_lt hfresh hry hsy (by rw [hwaiting]; exact Channel.noConfusion)
  have hover := Run.channel_kept hmid Channel.Next.over hlt (by rw [hsent]; exact trivial)
  rw [hx.1] at hover
  exact hover

theorem Run.heard_once (hrun : (desktop estr).Run allowed c h c')
    (id : Nat) : Once (HearsDecision id) h := by
  -- a decision that is heard is in the channel, and then nothing is
  have hheard : ∀ {z}, (desktop estr).Step z → HearsDecision id z →
      (∃ approved, z.before.shared.clicks.channel id = .sent approved)
      ∧ z.after.shared.clicks.channel id = .closed := by
    rintro z hsz ⟨tid, deadline, approved, hevent⟩
    obtain ⟨hi, -, clicks, ⟨rfl, hsent⟩, hafter⟩ := step_answers hsz hevent
    have hsent : z.before.shared.clicks.channel id = .sent approved := hsent
    refine ⟨⟨approved, hsent⟩, ?_⟩
    rw [hafter]
    show update _ id _ id = _
    rw [update_self, hsent]
    rfl
  refine Run.once hrun fun earlier x mid y hry hsy hy hmid hs hx => ?_
  obtain ⟨⟨approved, hsent⟩, hclosed⟩ := hheard hsy hy
  have hlt := Run.channel_lt hfresh hry hsy (by rw [hsent]; exact Channel.noConfusion)
  have hlater := Run.channel_kept hmid Channel.Next.closed hlt hclosed
  obtain ⟨⟨approved', hsent'⟩, -⟩ := hheard hs hx
  rw [hlater] at hsent'
  cases hsent'

-- ==== soundness

theorem Run.entry_same
    (hrun : (desktop estr).Run allowed c h c') (honce : Once (RegistersId id) (later ++ h))
    (hmem : r ∈ later ++ h) (hr : Registers r click isProtected deadline id)
    {entry : PendingApproval} (hlookup : c'.shared.clicks.pending.lookup id = some entry) :
    Same (click.entry id isProtected deadline) entry := by
  obtain ⟨-, y, hy, click', isProtected', deadline', hregisters, hsame⟩ :=
    (Run.numbered hrun hfresh.clicks id).entered entry hlookup
  obtain ⟨_, _, hsplit⟩ := append_of_mem hmem
  obtain ⟨_, _, hsplit'⟩ := append_of_mem (mem_append_right later hy)
  obtain ⟨-, rfl, -⟩ := honce.unique hsplit ⟨_, _, _, hr⟩ hsplit' ⟨_, _, _, hregisters⟩
  obtain ⟨_, _, hevent⟩ := hr
  obtain ⟨_, _, hevent'⟩ := hregisters
  rw [hevent] at hevent'
  cases hevent'
  exact hsame

theorem Run.approving
    {z : DeskEntry} (hrun : (desktop estr).Run allowed c h z.before) (hs : (desktop estr).Step z)
    {a : Bool} (hevent : z.event = .exchange tid ⟨.click (.send id true), a⟩)
    (honce : Once (RegistersId id) (later ++ h)) (hmem : r ∈ later ++ h)
    (hr : Registers r click isProtected deadline id) : ∃ since x earlier, h = since ++ x :: earlier
      ∧ Approves x earlier click isProtected deadline id := by
  obtain ⟨t, -, ht, -, -, -, hlawful⟩ := Run.lawful hrun hfresh.threads hs hevent
  -- the entry found at an earlier step is the one that was entered
  have hfound : ∀ {since earlier : List DeskEntry} {x : DeskEntry}
      {entry : PendingApproval}, h = since ++ x :: earlier →
      (desktop estr).Run allowed c earlier x.before → x.before.shared.clicks.pending.lookup
      id = some entry → Same (click.entry id isProtected deadline) entry := by
    intro since earlier x entry hh hrx hlookup
    have hsplit : later ++ h = (later ++ since ++ [x]) ++ earlier := by
      rw [hh]
      simp
    rw [hsplit] at honce hmem
    exact Run.entry_same hfresh hrx honce hmem hr hlookup
  -- a click that needs no more
  have hdeclared : ∀ {said before : List DeskExchange}
      {otp : Option String} {entry : PendingApproval} {unlocked : Bool},
      t.said = said ++ ⟨.click (.respondBegin id otp), .declared entry⟩
        :: ⟨.slot .lockHandle, unlocked⟩ :: before →
      (unlocked = true ∨ entry.preUnlock = true) →
      ∃ since x earlier, h = since ++ x :: earlier
        ∧ Approves x earlier click isProtected deadline id := by
    intro said before otp entry unlocked hsaid hunlocked
    obtain ⟨since, x, earlier, t₀, rfl, hx, ht₀, hsaid₀, -⟩ :=
      hrun.said_entry (hfresh.threads tid) ht hsaid
    obtain ⟨hrx, -, hsx⟩ := hrun.split
    obtain ⟨t₁, -, ht₁, -, -, -, hcall⟩ := Run.lawful hrx hfresh.threads hsx hx
    obtain ⟨now, clicks, hlo, hhi, -, hsection⟩ := step_responds hsx hx
    have hheld := Run.holds hrx hfresh.threads tid t₀
      ⟨unlocked, false, false⟩ ht₀ (by rw [hsaid₀]; rfl)
    cases hsection with
    | declared hlookup hinTime hplain =>
      have hsame := hfound rfl hrx hlookup
      rw [hsame] at hinTime hplain hunlocked
      refine ⟨since, x, earlier, rfl, tid, t₁, otp, now, ht₁, hcall, hlo, hhi, hinTime,
        hunlocked.imp (fun htrue => ?_) (fun hpre => ⟨hpre, hplain⟩), .inl ⟨entry, hx, hplain⟩⟩
      exact hheld.2.trans htrue
  generalize hsaid : t.said = said at hlawful
  cases hlawful with
  | declared => exact hdeclared (show t.said = [_, _] ++ _ :: _ from hsaid) (.inl rfl)
  | preUnlock hpre => exact hdeclared (show t.said = [] ++ _ :: _ from hsaid) (.inr hpre)
  | @verified otp entry attempt op deadline' r event time u u' before =>
    -- the steps of the response, from its last one back
    obtain ⟨since, x, earlier, t₀, rfl, hx, ht₀, hsaid₀, -⟩ :=
      hrun.said_entry (hfresh.threads tid) ht (show t.said = [_, _] ++ _ :: _ from hsaid)
    obtain ⟨hrx, -, hsx⟩ := hrun.split
    obtain ⟨now, clicks, hlo, hhi, -, hsection⟩ := step_finishes hsx hx
    have hheld := Run.holds hrx hfresh.threads tid t₀ ⟨true, false, false⟩ ht₀ (by rw [hsaid₀]; rfl)
    obtain ⟨mid, w, rest, t₁, rfl, hw, ht₁, hsaid₁, hcall₁, -⟩ :=
      hrx.said_entry (hfresh.threads tid) ht₀ (show t₀.said = [_] ++ _ :: _ from hsaid₀)
    obtain ⟨hrw, -, -⟩ := hrx.split
    obtain ⟨first, b, old, t₂, rfl, hb, ht₂, -, hcall₂, -⟩ :=
      hrw.said_entry (hfresh.threads tid) ht₁ (show t₁.said = [_] ++ _ :: _ from hsaid₁)
    obtain ⟨hrb, -, hsb⟩ := hrw.split
    obtain ⟨t₃, -, ht₃, -, -, -, hcall₃⟩ := Run.lawful hrb hfresh.threads hsb hb
    cases ht₂.symm.trans ht₃
    have hcall : t₀.call = .respond id true otp := (hcall₁.symm.trans hcall₂.symm).trans hcall₃
    obtain ⟨_, _, -, -, -, hbegun⟩ := step_responds hsb hb
    cases hsection with
    | @approved entry₀ gate verified hlookup hok hdigest hinTime =>
      have hsame := hfound rfl hrx hlookup
      rw [hsame] at hinTime
      obtain ⟨modality, rfl⟩ : ∃ modality, r = .ok modality := by
        cases r with
        | error e => cases hok
        | ok modality => exact ⟨modality, rfl⟩
      cases hbegun with
      | @begun entry₁ gate₁ hlookup₁ =>
        have hsame₁ := hfound (show since ++ x :: (mid ++ w :: (first ++ b :: old))
            = (since ++ x :: (mid ++ w :: first)) ++ b :: old by simp)
          hrb hlookup₁
        rw [hsame₁] at hw hb
        exact ⟨since, x, _, rfl, tid, t₀, otp, now, ht₀, hcall, hlo,
          hhi, hinTime, .inl hheld.2, .inr ⟨_, _, _, hx, mid, w,
            first, b, old, modality, rfl, hw, hb⟩⟩

theorem Run.approved
    {y : DeskEntry} (hrun : (desktop estr).Run allowed c h y.before) (hs : (desktop estr).Step y)
    {deadline' : Nat} (hevent : y.event = .exchange tid ⟨.click (.await id deadline'),
      .decided true⟩) (honce : Once (RegistersId id) (later ++ h)) (hmem : r ∈ later ++ h)
    (hr : Registers r click isProtected deadline id) : ∃ since x earlier, h = since ++ x :: earlier
      ∧ Approves x earlier click isProtected deadline id := by
  obtain ⟨hi, -, clicks, ⟨-, hsent⟩, -⟩ := step_answers hs hevent
  obtain ⟨new, z, old, tid', a, rfl, hz⟩ := (Run.numbered hrun hfresh.clicks id).sent hsent
  obtain ⟨hrz, -, hsz⟩ := hrun.split
  have hsplit : later ++ (new ++ z :: old) = (later ++ new ++ [z]) ++ old := by simp
  rw [hsplit] at honce hmem
  obtain ⟨since, x, earlier, rfl, hx⟩ := Run.approving hfresh hrz hsz hz honce hmem hr
  exact ⟨new ++ z :: since, x, earlier, by simp, hx⟩

theorem Withdraws.removes (hrun : (desktop estr).Run allowed c h x.before)
    (hs : (desktop estr).Step x) (hx : Withdraws id x) : Removes id x := by
  cases hx with
  | taken hevent =>
    obtain ⟨hi, -, clicks, ⟨hlookup, rfl⟩, hafter⟩ := step_answers hs hevent
    exact ⟨⟨_, hlookup.symm⟩, by rw [hafter]; exact lookup_erase _ _⟩
  | drained hevent hmem =>
    obtain ⟨hi, -, clicks, hdrain, hafter⟩ := step_answers hs hevent
    obtain ⟨rfl, rfl⟩ := Prod.mk.inj hdrain
    obtain ⟨entry, hentry, rfl⟩ := mem_map.1 hmem
    exact ⟨⟨_, lookup_of_mem_entries hentry⟩, by rw [hafter]; rfl⟩
  | superseded hevent hmem =>
    obtain ⟨hi, -, clicks, ⟨-, hregister⟩, hafter⟩ := step_answers hs hevent
    obtain ⟨rfl, rfl⟩ := Prod.mk.inj hregister
    obtain ⟨entry, hentry, rfl⟩ := mem_map.1 hmem
    obtain ⟨hpending, hstale⟩ := mem_filter.1 hentry
    have hlookup := lookup_of_mem_entries hpending
    have hlt := ((Run.numbered hrun hfresh.clicks entry.1).entered _ hlookup).1
    refine ⟨⟨_, hlookup⟩, ?_⟩
    rw [hafter]
    rw [lookup_insert_ne (by omega), Option.eq_none_iff_forall_ne_some]
    intro entry' hlookup'
    obtain ⟨hbefore, hkept⟩ := lookup_retain_eq_some.1 hlookup'
    cases hlookup.symm.trans hbefore
    rw [hstale] at hkept
    cases hkept
  | expired hevent =>
    obtain ⟨_, clicks, -, -, hafter, hsection⟩ := step_responds hs hevent
    cases hsection with
    | expired hlookup => exact ⟨⟨_, hlookup⟩, by rw [hafter]; exact lookup_erase _ _⟩
  | denied hevent =>
    obtain ⟨_, clicks, -, -, hafter, hsection⟩ := step_finishes hs hevent
    cases hsection with
    | denied hlookup => exact ⟨⟨_, hlookup⟩, by rw [hafter]; exact lookup_erase _ _⟩

theorem ClickReturned.approved (hrun : (desktop estr).Run allowed c h c')
    (ht : c'.threads tid = some t) (hr : ClickReturned t click isProtected deadline id (.ok ())) :
    ∃ later x earlier, h = later ++ x :: earlier ∧ (desktop estr).Step x
      ∧ Approves x earlier click isProtected deadline id := by
  obtain ⟨⟨stale, hregister⟩, deadline', hawait⟩ := hr.heard
  obtain ⟨_, r, _, _, hh, -, -, hr, -⟩ := Run.mem_said hrun hfresh.threads ht hregister
  have hmem : r ∈ h := by
    rw [hh]
    simp
  obtain ⟨since, y, before, _, rfl, hry, hsy, hy, -⟩ := Run.mem_said hrun hfresh.threads ht hawait
  have honce := Run.registered_once hrun id
  have hsplit : since ++ y :: before = (since ++ [y]) ++ before := by simp
  rw [hsplit] at honce hmem
  obtain ⟨later, x, earlier, rfl, hx⟩ := Run.approved hfresh hry hsy hy honce hmem ⟨tid, stale, hr⟩
  obtain ⟨-, -, hsx⟩ := hry.split
  exact ⟨since ++ y :: later, x, earlier, by simp, hsx, hx⟩

end Numbers

theorem granted_click {estr : CoreError → String} {allowed : DeskEntry → Prop}
    {c c' : DeskConfig} {h : List DeskEntry} {tid : Nat} (hfresh : Fresh c)
    (hrun : (desktop estr).Run allowed c h c') {t : Thread deskInterface String Reply Call}
    (ht : c'.threads tid = some t) {request : Mcp.AccessRequest}
    (hcall : t.call = .request request) (hclick : approvalRequirement request = .ok .click)
    {reply : Reply} (hret : t.talk = .ret (.ok reply)) :
    ∃ isProtected deadline id, ClickReturned t (.fromAccess request)
      isProtected deadline id (.ok ()) := by
  have hfollows := t.follows
  rw [Run.origin hrun hfresh.threads tid t ht, hcall, hret] at hfollows
  have hfollows : Follows (Desk.request request) t.said _ := hfollows
  unfold Desk.request at hfollows
  rw [hclick] at hfollows
  obtain ⟨first, rest, a, hsaid, hfirst, hrest⟩ := hfollows.bind_returned
  cases a with
  | error e =>
    -- an error is thrown on
    cases (Follows.of_ret hrest).2
  | ok _ =>
    obtain ⟨isProtected, deadline, id, stale, mid, hmid, hmem, -⟩ := clicked_of_follows hfirst
    refine ⟨isProtected, deadline, id, none, none, rest, first, [],
      stale, by simpa using hsaid, hfirst, ?_⟩
    rw [hmid]
    exact mem_cons_of_mem _ hmem

theorem clicks_sound {estr : CoreError → String}
    {allowed : DeskEntry → Prop} {c c' : DeskConfig} {h : List DeskEntry}
    (hfresh : Fresh c) (hrun : (desktop estr).Run allowed c h c') : ClicksSound h c' where
  approved := by
    intro tid t click isProtected deadline id ht hr
    obtain ⟨later, x, earlier, hh, -, hx⟩ := hr.approved hfresh hrun ht
    exact ⟨later, x, earlier, hh, hx⟩
  once id := ⟨Run.decided_once hfresh hrun id, Run.heard_once hfresh hrun id⟩
  withdrawn := by
    intro id x hmem hx tid t click isProtected deadline r ht hr
    cases r with
    | error e => exact ⟨e, rfl⟩
    | ok _ =>
      -- both would take the entry out
      obtain ⟨later, y, earlier, hh, hsy, hy⟩ := hr.approved hfresh hrun ht
      obtain ⟨later', earlier', hh'⟩ := append_of_mem hmem
      have hremoves : Removes id x := by
        rw [hh'] at hrun
        obtain ⟨hrx, -, hsx⟩ := hrun.split
        exact hx.removes hfresh hrx hsx
      obtain ⟨-, rfl, -⟩ := (Run.removed_once hfresh hrun id).unique
        hh' hremoves hh (hy.removes hsy)
      exact absurd hy hx.not_approves

namespace Sample

def clickRead : Mcp.AccessRequest :=
  { otpRead none with mode := some .approval }

def approvedActs : List (Act Call Move) :=
  [.call 0 (.request clickRead)]
    ++ answers 0 4 ++ [.call 1 (.respond 1 true none)] ++ answers 1 10 ++ [.finish 1] ++ answers 0 1

def approvedRun : List DeskEntry × DeskConfig :=
  presencePlayer.play (launch (root .approval)) approvedActs

theorem approvedRun_run : (desktop estr).Run (fun _ => True)
    (launch (root .approval)) approvedRun.1 approvedRun.2 :=
  presencePlayer.play_run

def returned (c : DeskConfig) (tid : Nat) (request : Mcp.AccessRequest) : Bool :=
  match c.threads tid with
  | none => false
  | some t =>
    match t.call, t.talk with
    | .request request', .ret (.ok _) => request' = request
    | _, _ => false

theorem of_returned {c : DeskConfig} {tid : Nat}
    {request : Mcp.AccessRequest} (h : returned c tid request = true) :
    ∃ t reply, c.threads tid = some t ∧ t.call = .request request
      ∧ t.talk = .ret (.ok reply) := by
  unfold returned at h
  split at h
  · cases h
  next t ht =>
  split at h
  · next request' reply hcall htalk =>
    obtain rfl := of_decide_eq_true h
    exact ⟨t, reply, ht, hcall, htalk⟩
  · cases h

end Sample

theorem clicks_sound_approved : ClicksSound approvedRun.1 approvedRun.2
    ∧ ∃ t isProtected deadline id, approvedRun.2.threads 0 = some t
      ∧ ClickReturned t (.fromAccess clickRead) isProtected deadline id (.ok ()) := by
  refine ⟨clicks_sound (launch_fresh _) approvedRun_run, ?_⟩
  obtain ⟨t, reply, ht, hcall, hret⟩ :=
    of_returned (show returned approvedRun.2 0
      clickRead = true by decide +kernel)
  obtain ⟨isProtected, deadline, id, hr⟩ := granted_click
    (launch_fresh _) approvedRun_run ht hcall rfl hret
  exact ⟨t, isProtected, deadline, id, ht, hr⟩

end SovereignVault.Desk
