/-
One-time codes are sound: what a code authorizes, in every run.

Every challenge in the store goes back to the step that issued it, with
nothing accepted on its code since; and where its gate is open, to a
reveal that verified its operation within one session (`Backed`).

The codes are taken to be distinct.
-/
import SovereignVault.Desktop.Challenges
import SovereignVault.Desktop.Lawful
import SovereignVault.Desktop.Play

namespace SovereignVault.Desk

open Dialogue Talk Audit Presence List Sample
open Mcp (AccessRequest)

-- ==== what happens

def Issues (x : DeskEntry) (request : AccessRequest) (code : String)
    (id : Nat) (isProtected : Bool) (op : OpDescriptor) : Prop :=
  ∃ tid t op₀ auditAction replaced, x.before.threads tid = some t ∧ t.call = .request request
    ∧ x.event = .exchange tid ⟨.otp (.issue (requestSignature request) code
        isProtected op₀ auditAction), .issued id replaced⟩
    ∧ op = op₀.bind "request_id" (toString id)

def IssuesCode (code : String) (x : DeskEntry) : Prop :=
  ∃ request id isProtected op, Issues x request code id isProtected op

def Accepts (x : DeskEntry) (request : AccessRequest) (code : String) : Prop :=
  ∃ tid t unlocked id removed, x.before.threads tid = some t ∧ t.call = .request request
    ∧ x.event = .exchange tid ⟨.otp (.request (requestSignature request)
        (some code) unlocked), .accepted id removed⟩

/-- The code is revealed, after a verification of the operation, within
one session. -/
def Reveals (v : DeskEntry) (earlier : List DeskEntry) (modalId : Nat)
    (op : OpDescriptor) (code : String) : Prop :=
  ∃ tid key attempt deadline result,
    v.event = .exchange tid ⟨.otp (.revealFinish key modalId attempt
      deadline false result), .code code⟩
    ∧ v.before.shared.slot.world.handle.isSome = true
    ∧ ∃ since w mid b before asked modality epoch, earlier = since ++ w :: (mid ++ b :: before)
      ∧ w.event = .exchange tid ⟨.outside (.verify attempt asked deadline), .ok modality⟩
      ∧ asked.digest = op.digest
      ∧ b.event = .exchange tid ⟨.otp (.revealBegin modalId),
        .begun key attempt asked deadline epoch⟩
      ∧ ∀ e ∈ since ++ w :: mid, ¬ Publishes e

def WasRevealed (h : List DeskEntry) (modalId : Nat) (op : OpDescriptor) (code : String) : Prop :=
  ∃ later v earlier, h = later ++ v :: earlier ∧ Reveals v earlier modalId op code

/-- The code leaves the process: a modal shows it, or a reveal returns
it. -/
def Leaves (x : DeskEntry) (code : String) : Prop :=
  (∃ tid id isProtected a, x.event = .exchange tid ⟨.outside (.emit id isProtected (some code)), a⟩)
  ∨ ∃ tid t modalId, x.event = .finish tid
    ∧ x.before.threads tid = some t ∧ t.call = .reveal modalId
    ∧ t.talk = .ret (.ok (.code code))

-- ==== the invariant

structure Backed (h : List DeskEntry) (key : String) (chal : OtpChallenge) : Prop where
  issued : ∃ later x earlier request, h = later ++ x :: earlier ∧ requestSignature request = key
    ∧ Issues x request chal.code chal.modalId chal.isProtected chal.op
    ∧ chal.issuedAt ≤ x.after.shared.clock
    ∧ ∀ y ∈ later, ∀ request', ¬ Accepts y request' chal.code
  opened : ∀ digest, chal.gate = .authenticated digest →
    WasRevealed h chal.modalId chal.op chal.code

section

variable {estr : CoreError → String} {allowed : DeskEntry → Prop} {c c' : DeskConfig}
  {h : List DeskEntry} {x : DeskEntry} {tid : Nat} {d d' : Shared} {key code : String}
  {request : AccessRequest} {op : OpDescriptor} {later : List DeskEntry} {i : DeskEntry} {id : Nat}

theorem WasRevealed.cons {modalId : Nat} (hr : WasRevealed h modalId op code)
    (x : DeskEntry) : WasRevealed (x :: h) modalId op code := by
  obtain ⟨later, v, earlier, rfl, hv⟩ := hr
  exact ⟨x :: later, v, earlier, rfl, hv⟩

theorem step_otp (hs : (desktop estr).Step x) : (∃ tid o a, x.event = .exchange tid ⟨.otp o, a⟩
      ∧ o.Answers x.before.shared.clock
        x.after.shared.clock x.before.shared.nextId x.before.shared.nextAttempt
        x.before.shared.slot.epoch x.before.shared.otp a x.after.shared.otp)
    ∨ (∀ tid o a, x.event ≠ .exchange tid ⟨.otp o, a⟩)
      ∧ x.after.shared.otp = x.before.shared.otp := by
  rcases step_part Shared.otp DeskOp.otp
      (fun hans => hans.elsewhere.otp) (fun hm => hm.pending.2.1) hs with
    ⟨tid, ⟨op, a⟩, o, hevent, hop, hans⟩ | ⟨hno, heq⟩
  · obtain rfl : op = .otp o := hop
    obtain ⟨hi, -, store, hstore, hafter⟩ := hans
    refine .inl ⟨tid, o, a, hevent, ?_⟩
    rw [hafter]
    exact hstore
  · exact .inr ⟨fun tid o a he => hno tid _ o he rfl, heq⟩

theorem Run.otp_size_le (hrun : (desktop estr).Run allowed c h c')
    (hotp : c.shared.otp = ∅) : c'.shared.otp.size ≤ OTP_MAX_PENDING := by
  induction hrun with
  | nil =>
    rw [hotp]
    exact Nat.zero_le _
  | step _ _ hs ih =>
    rcases step_otp hs with ⟨tid, o, a, -, hans⟩ | ⟨-, heq⟩
    · exact hans.size_le ih
    · rw [heq]
      exact ih

structure Found (x : DeskEntry) (request : AccessRequest) (code : String)
    (chal : OtpChallenge) : Prop where
  lookup : x.before.shared.otp.lookup (requestSignature request) = some chal
  code : chal.code = code
  inTime : x.before.shared.clock ≤ chal.issuedAt + secs OTP_TTL_SECS
  unlocked : x.before.shared.slot.world.handle.isSome = true
  lockedOut : ∃ now, x.before.shared.clock ≤ now
    ∧ now ≤ x.after.shared.clock ∧ chal.isLockedOut now = false
  gate : chal.isProtected = true → chal.gate = .authenticated chal.op.digest
  removed : x.after.shared.otp.lookup (requestSignature request) = none

theorem Accepts.found (hrun : (desktop estr).Run allowed c h x.before)
    (hthreads : ∀ tid, c.threads tid = none) (hs : (desktop estr).Step x)
    (hx : Accepts x request code) : ∃ chal, Found x request code chal := by
  obtain ⟨tid, t, unlocked, id, removed, ht, hcall, hevent⟩ := hx
  obtain ⟨t', -, ht', -, -, hans, hlawful⟩ := Run.lawful hrun hthreads hs hevent
  cases ht.symm.trans ht'
  obtain ⟨request', -, -, -, hguard⟩ := hlawful
  obtain ⟨before, hsaid⟩ := hguard rfl
  obtain ⟨hi, -, store, ⟨r, hwithin, hsection⟩, hafter⟩ := hans
  cases handled hsection with
  | @accepted chal code' hsupplied hlookup _ hvalid hunlocked =>
    cases hsupplied
    obtain ⟨hlive, hopen, hgate, rfl⟩ := chal.validate_true hvalid
    have hclock : x.after.shared.clock = hi := by rw [hafter]
    have hotp : x.after.shared.otp = (pruneExpired r
        x.before.shared.otp).erase (requestSignature request) := by
      rw [hafter]
    have hheld := Run.holds hrun hthreads tid t ⟨unlocked, false, false⟩ ht (by rw [hsaid]; rfl)
    refine ⟨chal, lookup_of_pruned hlookup, rfl, ?_, hheld.2.trans hunlocked, ?_, hgate, ?_⟩
    · have hle := hwithin.validExpiry.1
      have hage : ¬ r.validExpiry - chal.issuedAt > secs OTP_TTL_SECS := of_decide_eq_false hlive
      omega
    · exact ⟨r.validLockout, hwithin.validLockout.1, hclock ▸ hwithin.validLockout.2, hopen⟩
    · rw [hotp, AList.lookup_erase]

theorem reveals_of_code (hrun : (desktop estr).Run allowed c h x.before)
    (hthreads : ∀ tid, c.threads tid = none) (hs : (desktop estr).Step x)
    {modalId attempt deadline : Nat} {moved : Bool} {result : Except Denial Verified}
    (hevent : x.event = .exchange tid ⟨.otp (.revealFinish key modalId
      attempt deadline moved result), .code code⟩) :
    ∃ chal, x.before.shared.otp.lookup key = some chal ∧ chal.modalId = modalId ∧ chal.code = code
      ∧ Reveals x h chal.modalId chal.op chal.code := by
  obtain ⟨t, -, ht, -, -, hans, hlawful⟩ := Run.lawful hrun hthreads hs hevent
  obtain ⟨-, op, epoch, epoch', unlocked, result', before, hsaid, hmoved, hresult⟩ := hlawful
  obtain ⟨hi, -, store, ⟨r, hwithin, hsection⟩, -⟩ := hans
  cases revealed hsection with
  | left hcode | removed hcode | closed hcode => exact absurd rfl (hcode code)
  | @code chal verified hstill hok hlookup hmodal _ hdigest _ =>
    refine ⟨chal, hlookup, hmodal, rfl, ?_⟩
    subst hmodal
    rw [hstill] at hmoved
    obtain ⟨hunlocked, hepoch⟩ := Bool.or_eq_false_iff.1 hmoved.symm
    have hunlocked : unlocked = true := by simpa using hunlocked
    have hepoch : epoch' = epoch := by simpa using hepoch
    subst hunlocked hepoch hstill
    -- what was verified is what the challenge is for
    obtain ⟨modality, rfl⟩ : ∃ modality, result' = .ok modality := by
      cases result' with
      | error e =>
        rw [hok] at hresult
        cases hresult
      | ok modality => exact ⟨modality, rfl⟩
    have hverified : op.digest = chal.op.digest := by
      rw [hok] at hresult
      cases hresult
      exact hdigest
    -- the steps of the reveal, from its last one back
    obtain ⟨since, w, rest, t₁, rfl, hw, ht₁, hsaid₁, -⟩ :=
      hrun.said_between (hthreads tid) ht (show t.said = [_, _] ++ _ :: _ from hsaid)
    obtain ⟨hr₁, -, hs₁⟩ := hrun.split
    obtain ⟨mid, b, before', t₂, rfl, hb, -⟩ :=
      hr₁.said_between (hthreads tid) ht₁ (show t₁.said = [] ++ _ :: _ from hsaid₁)
    obtain ⟨hr₂, -, hs₂⟩ := hr₁.split
    -- the epoch now is that of the beginning
    have hbegin : b.after.shared.slot.epoch = epoch' := by
      obtain ⟨_, -, _, ⟨r', -, hsection⟩, hafter⟩ := step_answers hs₂ hb
      rw [hafter]
      cases revealing hsection with
      | begun => rfl
    have hnow : x.before.shared.slot.epoch = epoch' := Run.epoch_read hrun hthreads ht hsaid
    have htail : (desktop estr).Run allowed b.after (since ++ w :: mid) x.before := by
      have hsplit : since ++ w :: (mid ++ b :: before')
          = (since ++ w :: mid) ++ b :: before' := by simp
      rw [hsplit] at hrun
      exact hrun.tail
    have hheld := Run.holds hrun hthreads tid t ⟨true, false, false⟩ ht (by rw [hsaid]; rfl)
    exact ⟨tid, key, attempt, deadline, result, hevent, hheld.2, since, w, mid, b, before',
      op, modality, epoch', rfl, hw, hverified, hb, Run.no_publish htail (hnow.trans hbegin.symm)⟩

-- ==== backing

theorem Issues.unique {request' : AccessRequest} {code' : String} {id' : Nat}
    {isProtected isProtected' : Bool} {op' : OpDescriptor}
    (hx : Issues x request code id isProtected op)
    (hx' : Issues x request' code' id' isProtected' op') :
    requestSignature request = requestSignature request' ∧ id = id'
      ∧ isProtected = isProtected' ∧ op = op' := by
  obtain ⟨tid, t, op₀, auditAction, replaced, -, -, hevent, rfl⟩ := hx
  obtain ⟨tid', t', op₀', auditAction', replaced', -, -, hevent', rfl⟩ := hx'
  rw [hevent] at hevent'
  generalize requestSignature request = key at hevent'
  generalize requestSignature request' = key' at hevent'
  cases hevent'
  exact ⟨rfl, rfl, rfl, rfl⟩

theorem Backed.same_code {key' : String}
    {chal chal' : OtpChallenge} (honce : Once (IssuesCode chal.code) h) (hb : Backed h key chal)
    (hb' : Backed h key' chal') (hcode : chal'.code = chal.code) : key' = key := by
  obtain ⟨later, x, earlier, request, hsplit, rfl, hx, -⟩ := hb.issued
  obtain ⟨later', x', earlier', request', hsplit', rfl, hx', -⟩ := hb'.issued
  rw [hcode] at hx'
  obtain ⟨-, rfl, -⟩ := honce.unique hsplit ⟨request, _, _, _, hx⟩ hsplit' ⟨request', _, _, _, hx'⟩
  exact (hx.unique hx').1.symm

theorem Backed.cons {chal chal' : OtpChallenge} (hb : Backed h key chal)
    (hsame : Continues chal chal') (haccept : ∀ request, ¬ Accepts x request chal.code)
    (hgate : ∀ digest, chal'.gate = .authenticated digest → chal.gate = .authenticated digest
      ∨ WasRevealed (x :: h) chal.modalId chal.op chal.code) : Backed (x :: h) key chal' := by
  obtain ⟨hcode, hmodal, hissued, hprotected, hop⟩ := hsame
  refine ⟨?_, fun digest hauth => ?_⟩
  · obtain ⟨later, y, earlier, request, rfl, hkey, hy, hle, hnone⟩ := hb.issued
    rw [hcode, hmodal, hissued, hprotected, hop]
    refine ⟨x :: later, y, earlier, request, rfl, hkey, hy, hle, fun z hmem => ?_⟩
    rcases mem_cons.1 hmem with rfl | hmem
    · exact haccept
    · exact hnone z hmem
  · rw [hcode, hmodal, hop]
    rcases hgate digest hauth with hbefore | hnow
    · exact (hb.opened digest hbefore).cons x
    · exact hnow

theorem Run.backed (hrun : (desktop estr).Run allowed c h c') (hfresh : Fresh c)
    (honce : ∀ code, Once (IssuesCode code) h) : ∀ key chal, c'.shared.otp.lookup key = some chal →
      Backed h key chal := by
  induction hrun with
  | nil =>
    intro key chal hlookup
    rw [hfresh.otp] at hlookup
    cases hlookup
  | @step h x hr _ hs ih =>
    have ih := ih fun code => (honce code).tail
    intro key chal' hlookup
    rcases step_otp hs with ⟨tid, o, a, hevent, hans⟩ | ⟨hno, heq⟩
    · rcases hans.entry_cases hlookup with ⟨chal, hbefore, hsame, hgate⟩
          | ⟨code, isProtected, op, auditAction, replaced, now, heq, -, hle, rfl⟩
      · have hb := ih key chal hbefore
        refine hb.cons hsame (fun request hx => ?_)
          fun digest hauth => (hgate digest hauth).imp_right ?_
        · -- the challenge whose code is accepted is taken out
          obtain ⟨chal₀, hfound⟩ := hx.found hr hfresh.threads hs
          have hkey := hb.same_code (honce chal.code).tail (ih _ chal₀ hfound.lookup) hfound.code
          have hgone := hfound.removed
          rw [hkey, hlookup] at hgone
          cases hgone
        · rintro ⟨attempt, deadline, verified, heq, -⟩
          rw [heq] at hevent
          obtain ⟨chal₀, hlookup₀, -, -, hreveals⟩ := reveals_of_code hr hfresh.threads hs hevent
          cases hbefore.symm.trans hlookup₀
          exact ⟨[], x, h, rfl, hreveals⟩
      · rw [heq] at hevent
        obtain ⟨t, -, ht, -, -, -, hlawful⟩ := Run.lawful hr hfresh.threads hs hevent
        obtain ⟨request, hcall, rfl, -, -⟩ := hlawful
        refine ⟨⟨[], x, h, request, rfl, rfl, ?_, hle, fun _ hmem => absurd hmem not_mem_nil⟩,
          nofun⟩
        exact ⟨tid, t, op, auditAction, replaced, ht, hcall, hevent, rfl⟩
    · rw [heq] at hlookup
      refine (ih key chal' hlookup).cons (.refl _) ?_ fun _ => .inl
      rintro request ⟨tid, t, unlocked, id, removed, -, -, hevent⟩
      exact hno tid _ _ hevent

-- ==== soundness

def Authorized (x : DeskEntry) (earlier : List DeskEntry)
    (request : AccessRequest) (code : String) : Prop :=
  ∃ chal i request', Found x request code chal ∧ i ∈ earlier
    ∧ requestSignature request' = requestSignature request
    ∧ Issues i request' code chal.modalId chal.isProtected chal.op
    ∧ x.before.shared.clock ≤ i.after.shared.clock + secs OTP_TTL_SECS
    ∧ (chal.isProtected = true → WasRevealed earlier chal.modalId chal.op code)

structure OtpSound (h : List DeskEntry) (c' : DeskConfig) : Prop where
  bounded : c'.shared.otp.size ≤ OTP_MAX_PENDING
  /-- A request that needs a code returns `Ok` only on one that was
  accepted, in this call. -/
  granted : ∀ later y earlier tid t request reply, h = later ++ y :: earlier → y.event = .finish
    tid → y.before.threads tid = some t → t.call = .request request → approvalRequirement request
    = .ok .otp → t.talk = .ret (.ok reply) → ∃ since x before code, earlier = since ++ x :: before
      ∧ request.otp = some code ∧ Accepts x request code
      ∧ x.event.By tid
      ∧ ∀ e ∈ since, ∀ call, e.event ≠ .call tid call
  once : ∀ code, Once (fun x => ∃ request, Accepts x request code) h
  /-- It is accepted for what it was issued for, in time, with the vault
  unlocked, not during a lockout, and if it is protected after a reveal. -/
  authorized : ∀ later x earlier request code,
    h = later ++ x :: earlier → Accepts x request code → Authorized x earlier request code
  /-- A protected code leaves the process only by a reveal. -/
  leaves : ∀ later x earlier code i request id op, h = later ++ x :: earlier →
    Leaves x code → i ∈ h → Issues i request code id true op → WasRevealed earlier id op code

theorem Accepts.authorized (hrun : (desktop estr).Run allowed c h x.before)
    (hfresh : Fresh c) (hs : (desktop estr).Step x) (honce : ∀ code, Once (IssuesCode code) h)
    (hx : Accepts x request code) : Authorized x h request code := by
  obtain ⟨chal, hfound⟩ := hx.found hrun hfresh.threads hs
  have hb := Run.backed hrun hfresh honce _ chal hfound.lookup
  obtain ⟨later, i, earlier, request', rfl, hkey, hi, hle, -⟩ := hb.issued
  have hcode := hfound.code
  subst hcode
  refine ⟨chal, i, request', hfound, by simp, hkey, hi, ?_,
    fun hprotected => hb.opened _ (hfound.gate hprotected)⟩
  have hinTime := hfound.inTime
  omega

theorem Accepts.not_earlier (hrun : (desktop estr).Run allowed c h x.before)
    (hfresh : Fresh c) (hs : (desktop estr).Step x) (honce : ∀ code, Once (IssuesCode code) h)
    (hx : Accepts x request code) : ∀ y ∈ h, ∀ request', ¬ Accepts y request' code := by
  intro y hmem request' hy
  obtain ⟨chal, hfound⟩ := hx.found hrun hfresh.threads hs
  have hb := Run.backed hrun hfresh honce _ chal hfound.lookup
  obtain ⟨later, i, earlier, request₀, rfl, -, hi, -, hnone⟩ := hb.issued
  rw [hfound.code] at hi hnone
  rcases mem_append.1 hmem with hmem | hmem
  · exact hnone y hmem request' hy
  rcases mem_cons.1 hmem with rfl | hmem
  · obtain ⟨_, _, _, _, _, -, -, hevent, -⟩ := hi
    obtain ⟨_, _, _, _, _, -, -, hevent'⟩ := hy
    rw [hevent] at hevent'
    cases hevent'
  -- accepted before it was issued: then it was issued before that
  obtain ⟨mid, before, rfl⟩ := append_of_mem hmem
  rw [← cons_append, ← append_assoc] at hrun
  obtain ⟨hry, -, hsy⟩ := hrun.split
  have hbefore : ∀ code, Once (IssuesCode code) before := by
    intro code
    have hlong := honce code
    rw [← cons_append, ← append_assoc] at hlong
    exact hlong.of_append.tail
  obtain ⟨_, i', request₁, -, hmem', -, hi', -⟩ := hy.authorized hry hfresh hsy hbefore
  refine (honce code).not_earlier ⟨request₀, _, _, _, hi⟩ i' ?_ ⟨request₁, _, _, _, hi'⟩
  exact mem_append_right _ (mem_cons_of_mem _ hmem')

theorem Run.issue_of_code (hrun : (desktop estr).Run allowed c h c')
    (hfresh : Fresh c) (honce : ∀ code, Once (IssuesCode code) (later ++ h))
    {chal : OtpChallenge} (hlookup : c'.shared.otp.lookup key = some chal) {isProtected : Bool}
    (hmem : i ∈ later ++ h) (hi : Issues i request chal.code id isProtected op) :
    chal.modalId = id ∧ chal.isProtected = isProtected ∧ chal.op = op := by
  have hb := Run.backed hrun hfresh (fun code => (honce code).of_append) key chal hlookup
  obtain ⟨later', i', earlier', request', hh, -, hi', -⟩ := hb.issued
  obtain ⟨mid, before, hsplit⟩ := append_of_mem hmem
  have hsplit' : later ++ h = (later ++ later') ++ i' :: earlier' := by rw [hh, append_assoc]
  obtain ⟨-, rfl, -⟩ := (honce chal.code).unique hsplit
    ⟨request, _, _, _, hi⟩ hsplit' ⟨request', _, _, _, hi'⟩
  obtain ⟨-, hid, hprotected, hop⟩ := hi'.unique hi
  exact ⟨hid, hprotected, hop⟩

theorem Leaves.revealed
    (hrun : (desktop estr).Run allowed c h x.before) (hfresh : Fresh c) (hs : (desktop estr).Step x)
    (honce : ∀ code, Once (IssuesCode code) (later ++ h)) (hx : Leaves x code)
    (hmem : i ∈ later ++ h) (hi : Issues i request code id true op) : WasRevealed h id op code := by
  -- a challenge with this code, found at an earlier step, is this one
  have hthis : ∀ {since before : List DeskEntry} {y : DeskEntry}
      {key : String} {chal : OtpChallenge}, h = since ++ y :: before →
      (desktop estr).Run allowed c before y.before →
      y.before.shared.otp.lookup key = some chal → chal.code = code →
      chal.modalId = id ∧ chal.isProtected = true ∧ chal.op = op := by
    intro since before y key chal hh hr hlookup hcode
    have hsplit : later ++ h = (later ++ since ++ [y]) ++ before := by
      rw [hh]
      simp
    rw [hsplit] at honce hmem
    subst hcode
    exact Run.issue_of_code hr hfresh honce hlookup hmem hi
  rcases hx with ⟨tid, id', isProtected, a, hevent⟩
      | ⟨tid, t, modalId, -, ht, hcall, hret⟩
  · obtain ⟨t, -, ht, -, -, -, hlawful⟩ := Run.lawful hrun hfresh.threads hs hevent
    obtain ⟨-, hshown⟩ := hlawful code rfl
    rcases hshown with ⟨key, op', auditAction, replaced, hsaid⟩
        | ⟨key, supplied, unlocked, chal, shown, hsaid, -, hcode, hplain⟩
    · obtain ⟨since, y, before, t₀, rfl, hr, hsy, hy, ht₀, -, -⟩ :=
        Run.mem_said hrun hfresh.threads ht hsaid
      obtain ⟨t₁, -, ht₁, -, -, -, request', hcall, rfl, -⟩ := Run.lawful hr hfresh.threads hsy hy
      have hissue : Issues y request' code id' false
          (op'.bind "request_id" (toString id')) :=
        ⟨tid, t₁, op', auditAction, replaced, ht₁, hcall, hy, rfl⟩
      obtain ⟨l, r, hsplit⟩ := append_of_mem hmem
      obtain ⟨-, rfl, -⟩ := (honce code).unique
        hsplit ⟨request, _, _, _, hi⟩ (append_assoc later since _).symm ⟨request', _, _, _, hissue⟩
      cases (hi.unique hissue).2.2.1
    · obtain ⟨since, y, before, t₀, hh, hr, hsy, hy, -⟩ := Run.mem_said hrun hfresh.threads ht hsaid
      obtain ⟨_, -, _, ⟨r, -, hsection⟩, -⟩ := step_answers hsy hy
      cases handled hsection with
      | reused _ hlookup =>
        have hprotected := (hthis hh hr (lookup_of_pruned hlookup) hcode).2.1
        rw [hplain] at hprotected
        cases hprotected
  · have hended := (Run.ended hrun hfresh.threads ht hret).uncovered
      modalId hcall code rfl
    rcases hended with hsaid | ⟨key, attempt, deadline, moved, result, hsaid⟩
    · obtain ⟨since, y, before, t₀, hh, hr, hsy, hy, -⟩ := Run.mem_said hrun hfresh.threads ht hsaid
      obtain ⟨_, -, _, ⟨r, -, hsection⟩, -⟩ := step_answers hsy hy
      cases revealing hsection with
      | plain hlookup _ hplain =>
        have hprotected := (hthis hh hr (lookup_of_pruned hlookup) rfl).2.1
        rw [hplain] at hprotected
        cases hprotected
    · obtain ⟨since, y, before, t₀, hh, hr, hsy, hy, -⟩ := Run.mem_said hrun hfresh.threads ht hsaid
      obtain ⟨chal, hlookup, -, hcode, hreveals⟩ := reveals_of_code hr hfresh.threads hsy hy
      obtain ⟨rfl, -, rfl⟩ := hthis hh hr hlookup hcode
      subst hcode
      exact ⟨since, y, before, hh, hreveals⟩

theorem granted_accepts (hrun : (desktop estr).Run allowed c h c')
    (hfresh : Fresh c) {t : Thread deskInterface String Reply Call}
    (ht : c'.threads tid = some t) (hcall : t.call = .request request)
    (hotp : approvalRequirement request = .ok .otp) {reply : Reply}
    (hret : t.talk = .ret (.ok reply)) : ∃ since x before code, h = since ++ x :: before
      ∧ request.otp = some code ∧ Accepts x request code
      ∧ x.event.By tid
      ∧ ∀ e ∈ since, ∀ call, e.event ≠ .call tid call := by
  obtain ⟨unlocked, id, removed, hsaid⟩ :=
    (Run.ended hrun hfresh.threads ht hret).granted request hcall hotp reply rfl
  obtain ⟨since, y, before, t₀, hh, hr, hsy, hy, ht₀, hcall₀, hcalls⟩ :=
    Run.mem_said hrun hfresh.threads ht hsaid
  obtain ⟨_, -, _, ⟨r, -, hsection⟩, -⟩ := step_answers hsy hy
  cases handled hsection with
  | @accepted chal code hsupplied =>
    refine ⟨since, y, before, code, hh, hsupplied, ?_, ?_, hcalls⟩
    · rw [hsupplied] at hy
      exact ⟨tid, t₀, unlocked, _, _, ht₀, hcall₀.trans hcall, hy⟩
    · rw [hy]
      exact rfl

/-- One-time codes are sound in every run in which no code is issued
twice. -/
theorem otp_sound (hfresh : Fresh c) (hrun : (desktop estr).Run allowed c h c')
    (hdistinct : ∀ code, Once (IssuesCode code) h) : OtpSound h c' where
  bounded := Run.otp_size_le hrun hfresh.otp
  granted := by
    rintro later y earlier tid t request reply rfl - ht hcall hotp hret
    obtain ⟨hr, -, -⟩ := hrun.split
    exact granted_accepts hr hfresh ht hcall hotp hret
  once := by
    refine fun code => .of_not_earlier ?_
    rintro later x earlier rfl ⟨request, hx⟩ y hmem ⟨request', hy⟩
    obtain ⟨hr, -, hs⟩ := hrun.split
    exact hx.not_earlier hr hfresh hs
      (fun code => (hdistinct code).of_append.tail) y hmem request' hy
  authorized := by
    rintro later x earlier request code rfl hx
    obtain ⟨hr, -, hs⟩ := hrun.split
    exact hx.authorized hr hfresh hs fun code => (hdistinct code).of_append.tail
  leaves := by
    rintro later x earlier code i request id op rfl hx hmem hi
    obtain ⟨hr, -, hs⟩ := hrun.split
    have hsplit : later ++ x :: earlier = (later ++ [x]) ++ earlier := by simp
    rw [hsplit] at hdistinct hmem
    exact hx.revealed hr hfresh hs hdistinct hmem hi

def accepted (x : DeskEntry) : Option (AccessRequest × String) :=
  match x.event with
  | .exchange tid ⟨.otp (.request key (some code) _), .accepted _ _⟩ =>
    match x.before.threads tid with
    | none => none
    | some t =>
      match t.call with
      | .request request =>
        if key = requestSignature request then some (request, code)
        else none
      | _ => none
  | _ => none

theorem accepts_of_accepted (h : accepted x = some (request, code)) : Accepts x request code := by
  unfold accepted at h
  split at h
  · next tid key code' unlocked id removed hevent =>
    split at h
    · cases h
    next t ht =>
    split at h
    · next request' hcall =>
      split at h
      · next hkey =>
        cases h
        subst hkey
        exact ⟨tid, t, unlocked, id, removed, ht, hcall, hevent⟩
      · cases h
    · cases h
  · cases h

def issues (x : DeskEntry) : Bool :=
  match x.event with
  | .exchange _ ⟨.otp (.issue _ _ _ _ _), .issued _ _⟩ => true
  | _ => false

theorem issues_of_issuesCode (hx : IssuesCode code x) : issues x = true := by
  obtain ⟨request, id, isProtected, op, hissues⟩ := hx
  obtain ⟨tid, t, op₀, auditAction, replaced, -, -, hevent, -⟩ := hissues
  unfold issues
  rw [hevent]

end

namespace Sample

def codeActs : List (Act Call Move) :=
  [.call 0 (.request (otpRead none))] ++ answers 0 5 ++ [.finish 0]
    ++ [.call 1 (.reveal 1)] ++ answers 1 6 ++ [.finish 1]
    ++ [.call 2 (.request (otpRead (some "code 1")))] ++ answers 2 5
    ++ [.finish 2]

def codeRun : List DeskEntry × DeskConfig :=
  presencePlayer.play (launch (root .otp)) codeActs

theorem codeRun_run : (desktop estr).Run (fun _ => True) (launch (root .otp)) codeRun.1 codeRun.2 :=
  presencePlayer.play_run

theorem codeRun_distinct (code : String) : Once (IssuesCode code) codeRun.1 :=
  .of_countP (fun _ => issues_of_issuesCode) (by decide +kernel)

end Sample

theorem otp_sound_revealed : OtpSound codeRun.1 codeRun.2 ∧ ∃ x ∈ codeRun.1,
      Accepts x (otpRead (some "code 1")) "code 1" := by
  refine ⟨otp_sound (launch_fresh _) codeRun_run codeRun_distinct, ?_⟩
  have hany : codeRun.1.any (fun x => accepted x
      = some (otpRead (some "code 1"), "code 1")) = true := by
    decide +kernel
  obtain ⟨x, hmem, hx⟩ := any_eq_true.1 hany
  exact ⟨x, hmem, accepts_of_accepted (of_decide_eq_true hx)⟩

end SovereignVault.Desk
