/-
The lockout of a challenge: how long it lasts, and what it covers.

A challenge that is locked out and has no reveal in flight stays in the
store until the lockout ends (`OtpOp.Answers.locked`). Three things can
take it away all the same: a request that found no challenge issues one
over what is there by then; a reveal that ends with the vault locked
removes its challenge; and locking the vault drops every challenge.

The first two are steps that are not `Sealed`; the third is no shortening,
since with the vault locked no code is accepted.
-/
import SovereignVault.Desktop.Codes
import SovereignVault.Mcp.Mediation

namespace SovereignVault.Desk

open Dialogue Talk Audit Presence List Mcp
open Mcp (AccessRequest)

-- ==== one section

/-- The challenge of the key is locked out until `t`, and no reveal of it
is in flight. -/
def Locked (store : OtpStore) (key : String) (t : Nat) : Prop :=
  ∃ chal, store.lookup key = some chal ∧ chal.lockoutUntil = some t ∧ chal.gate = .pending

section

variable {r : Readings} {key : String} {store store' : OtpStore}
  {chal : OtpChallenge} {lo hi t : Nat} {key' : String}

theorem isLockedOut_of_lt (hchal : chal.lockoutUntil = some t) {now : Nat}
    (hlt : now < t) : chal.isLockedOut now = true := by
  unfold OtpChallenge.isLockedOut
  rw [hchal]
  exact decide_eq_true hlt

theorem Locked.prune (h : Locked store key t) (hlt : r.prune < t) :
    Locked (pruneExpired r store) key t := by
  obtain ⟨chal, hlookup, hchal, hgate⟩ := h
  refine ⟨chal, AList.lookup_retain_eq_some.2 ⟨hlookup, ?_⟩, hchal, hgate⟩
  simp [isLockedOut_of_lt hchal hlt]

theorem Locked.erase (h : Locked store key t) (hne : key' ≠ key) :
    Locked (store.erase key') key t := by
  obtain ⟨chal, hlookup, hrest⟩ := h
  exact ⟨chal, by rw [AList.lookup_erase_ne hne.symm]; exact hlookup, hrest⟩

theorem Locked.insert {chal' : OtpChallenge}
    (h : Locked store key t) (hne : key' ≠ key) : Locked (store.insert key' chal') key t := by
  obtain ⟨chal, hlookup, hrest⟩ := h
  exact ⟨chal, by rw [AList.lookup_insert_ne hne.symm]; exact hlookup, hrest⟩

theorem Locked.not_open (h : Locked store key t) {now : Nat} (hlt : now < t)
    (hlookup : store.lookup key' = some chal)
    (hopen : chal.isLockedOut now = false) : key' ≠ key := by
  rintro rfl
  obtain ⟨chal', hlookup', hchal, -⟩ := h
  cases hlookup.symm.trans hlookup'
  rw [isLockedOut_of_lt hchal hlt] at hopen
  cases hopen

theorem OtpOp.Answers.locked {nextId attempt epoch : Nat}
    {o : OtpOp} {a : o.Ans} (h : o.Answers lo hi nextId attempt epoch store a store')
    (hlt : hi < t) (hlocked : Locked store key t) (hissue : ∀ code isProtected op auditAction,
      o ≠ .issue key code isProtected op auditAction)
    (hbegin : ∀ id attempt op deadline epoch, (⟨.otp o, a⟩ : DeskExchange)
      ≠ ⟨.otp (.revealBegin id), .begun key attempt op deadline epoch⟩) (hdrain : o ≠ .drain) :
    Locked store' key t
    ∧ ∀ supplied unlocked ans, (⟨.otp o, a⟩ : DeskExchange)
        = ⟨.otp (.request key supplied unlocked), ans⟩ → ∃ chal, ans = .lockedOut chal := by
  obtain ⟨r, hwithin, h⟩ := h
  have hpruned := hlocked.prune (hwithin.prune.2.trans_lt hlt)
  have hnow := hwithin.lockout.2.trans_lt hlt
  cases o with
  | request key' supplied unlocked =>
    have hother : ∀ {store'' : OtpStore} {a' : OtpOutcome},
        key' ≠ key → Locked store'' key t → Locked store'' key t ∧ ∀ supplied' unlocked' ans,
          (⟨.otp (.request key' supplied unlocked), a'⟩ : DeskExchange)
            = ⟨.otp (.request key supplied' unlocked'), ans⟩ →
          ∃ chal, ans = .lockedOut chal := by
      intro store'' a' hne hkept
      refine ⟨hkept, fun supplied' unlocked' ans heq => ?_⟩
      cases heq
      exact absurd rfl hne
    cases handled h with
    | full hnone | needFresh hnone =>
      refine hother ?_ hpruned
      rintro rfl
      obtain ⟨chal, hlookup, -⟩ := hpruned
      rw [hnone] at hlookup
      cases hlookup
    | accepted _ hfound hopen =>
      have hne := hpruned.not_open hnow hfound hopen
      exact hother hne (hpruned.erase hne)
    | vaultLocked hfound hopen => exact hother (hpruned.not_open hnow hfound hopen) hpruned
    | reused _ hfound hopen | invalid _ hfound hopen =>
      have hne := hpruned.not_open hnow hfound hopen
      exact hother hne (hpruned.insert hne)
    | lockedOut =>
      refine ⟨hpruned, fun supplied' unlocked' ans heq => ?_⟩
      cases heq
      exact ⟨_, rfl⟩
    | expired hopen =>
      have hne : key' ≠ key := by
        rintro rfl
        have hfound := hpruned
        obtain ⟨chal, hlookup, -⟩ := hfound
        exact hpruned.not_open hnow hlookup (hopen chal hlookup) rfl
      exact hother hne (hpruned.erase hne)
  | issue key' code isProtected op auditAction =>
    have hne : key' ≠ key := by
      rintro rfl
      exact hissue _ _ _ _ rfl
    refine ⟨?_, fun _ _ _ heq => by cases heq⟩
    rcases issued h with ⟨-, rfl⟩ | ⟨-, -, rfl⟩
    · exact hpruned
    · exact (hpruned.erase hne).insert hne
  | expire id =>
    refine ⟨?_, fun _ _ _ heq => by cases heq⟩
    rcases expired h with rfl | ⟨key', chal, hfound, hopen, rfl⟩
    · exact hlocked
    · exact hlocked.erase (hlocked.not_open hnow hfound hopen)
  | revealBegin modalId =>
    refine ⟨?_, fun _ _ _ heq => by cases heq⟩
    cases revealing h with
    | @begun key' chal hfound _ _ =>
      refine hpruned.insert ?_
      rintro rfl
      exact hbegin _ _ _ _ _ rfl
    | _ => exact hpruned
  | revealFinish key' modalId attempt' deadline moved result =>
    refine ⟨?_, fun _ _ _ heq => by cases heq⟩
    have hidle : ∀ {chal}, store.lookup key' = some chal → chal.gate ≠ .pending → key' ≠ key := by
      rintro chal hfound hbusy rfl
      obtain ⟨chal', hlookup, -, hgate⟩ := hlocked
      cases hfound.symm.trans hlookup
      exact hbusy hgate
    cases revealed h with
    | left => exact hlocked
    | removed _ hfound hmine =>
      refine hlocked.erase (hidle hfound fun hgate => ?_)
      have hattempt := (of_decide_eq_true hmine).2
      unfold OtpChallenge.attempt at hattempt
      rw [hgate] at hattempt
      cases hattempt
    | @closed a chal gate _ hfound hgate =>
      by_cases hkey : key' = key
      · subst hkey
        obtain ⟨chal', hlookup, hchal, hpending⟩ := hlocked
        cases hfound.symm.trans hlookup
        refine ⟨_, AList.lookup_insert _, hchal, ?_⟩
        rcases hgate with hsame | hopen
        · exact hsame.trans hpending
        · exact hopen
      · exact hlocked.insert hkey
    | code _ _ hfound _ hgate =>
      refine hlocked.insert (hidle hfound ?_)
      rw [hgate]
      exact nofun
  | drain => exact absurd rfl hdrain

end

-- ==== the condition

/-- A step that leaves lockouts as they are. -/
structure Sealed (x : DeskEntry) : Prop where
  alone : ∀ tid key supplied unlocked chal, x.event = .exchange tid
      ⟨.otp (.request key supplied unlocked), .invalid chal true⟩ →
    ∀ tid' t, tid' ≠ tid → x.before.threads tid' = some t → issuing t.said ≠ some key
  unrevealed : ∀ tid id key attempt op deadline epoch chal,
    x.event = .exchange tid ⟨.otp (.revealBegin id), .begun key attempt op deadline epoch⟩ →
    x.before.shared.otp.lookup key = some chal → chal.isLockedOut x.before.shared.clock = false

/-- The challenge of the key is locked out, nobody is about to issue
another, and nobody is about to drop them all. -/
structure LockedOut (c : DeskConfig) (key : String) (t : Nat) : Prop where
  locked : Locked c.shared.otp key t
  issuing : ∀ tid th, c.threads tid = some th → issuing th.said ≠ some key
  holding : ∀ tid th x, c.threads tid = some th → hold th.said = some x → x.locked = false

section

variable {estr : CoreError → String} {allowed : DeskEntry → Prop} {c c' : DeskConfig}
  {h : List DeskEntry} {x : DeskEntry} {e : DeskExchange} {key : String} {t : Nat}

theorem issuing_cons {said : List DeskExchange}
    (h : issuing (e :: said) = some key) : issuing said = some key ∨ ∃ supplied unlocked ans,
      e = ⟨.otp (.request key supplied unlocked), ans⟩
      ∧ ∀ chal, ans ≠ .lockedOut chal := by
  obtain ⟨o, a⟩ := e
  cases o with
  | otp o =>
    cases o with
    | request key' supplied unlocked =>
      cases a with
      | needFresh | expired =>
        cases h
        refine .inr ⟨supplied, unlocked, _, rfl, fun chal hchal => ?_⟩
        cases hchal
      | _ => cases h
    | _ => cases h
  | _ => exact .inl h

theorem holdStep_locked {before : Option Hold} {y : Hold} (h : holdStep e before = some y)
    (hy : y.locked = true) : (∃ z, before = some z ∧ z.locked = true)
    ∨ ∃ a, e = ⟨.slot (.publish none), a⟩ := by
  obtain ⟨o, a⟩ := e
  cases o with
  | slot o =>
    cases o with
    | lockHandle =>
      cases h
      cases hy
    | unlockHandle => cases h
    | publish handle =>
      obtain ⟨z, hz, rfl⟩ := Option.map_eq_some_iff.1 h
      cases handle with
      | none => exact .inr ⟨a, rfl⟩
      | some handle => exact .inl ⟨z, hz, by simpa using hy⟩
    | _ => exact .inl ⟨y, h, hy⟩
  | plan o =>
    cases o with
    | clear =>
      obtain ⟨z, hz, rfl⟩ := Option.map_eq_some_iff.1 h
      exact .inl ⟨z, hz, hy⟩
    | _ => exact .inl ⟨y, h, hy⟩
  | _ => exact .inl ⟨y, h, hy⟩

/-- A step issues nothing for the key, and a request for it is told of the
lockout. -/
structure Shuts (x : DeskEntry) (key : String) : Prop where
  told : ∀ tid supplied unlocked ans,
    x.event = .exchange tid ⟨.otp (.request key supplied unlocked), ans⟩ →
    ∃ chal, ans = .lockedOut chal
  issues : ∀ tid code isProtected op auditAction ans, x.event ≠ .exchange tid
    ⟨.otp (.issue key code isProtected op auditAction), ans⟩

/-- During a lockout a sealed step is shut, and leaves the lockout. -/
theorem LockedOut.step
    (hout : LockedOut x.before key t) (hrun : (desktop estr).Run allowed c h x.before)
    (hthreads : ∀ tid, c.threads tid = none) (hs : (desktop estr).Step x) (hsealed : Sealed x)
    (hlock : ¬ Locks x) (hlt : x.after.shared.clock < t) :
    LockedOut x.after key t ∧ Shuts x key := by
  have hnotIssue : ∀ tid code isProtected op auditAction ans, x.event ≠ .exchange tid
        ⟨.otp (.issue key code isProtected op auditAction), ans⟩ := by
    intro tid code isProtected op auditAction ans hevent
    obtain ⟨th, -, hth, -, -, -, hlawful⟩ := Run.lawful hrun hthreads hs hevent
    obtain ⟨request, -, -, -, hissuing⟩ := hlawful
    exact hout.issuing tid th hth hissuing
  have hnotDrain : ∀ tid a, x.event ≠ .exchange tid ⟨.otp .drain, a⟩ := by
    intro tid a hevent
    obtain ⟨th, -, hth, -, -, -, y, hhold, hy⟩ := Run.lawful hrun hthreads hs hevent
    rw [hout.holding tid th y hth hhold] at hy
    cases hy
  have hotp : Locked x.after.shared.otp key t ∧ ∀ tid supplied unlocked ans, x.event = .exchange tid
          ⟨.otp (.request key supplied unlocked), ans⟩ →
        ∃ chal, ans = .lockedOut chal := by
    rcases step_otp hs with ⟨tid, o, a, hevent, hans⟩ | ⟨hno, heq⟩
    · obtain ⟨hlocked, hrequest⟩ := hans.locked hlt hout.locked (by
          rintro code isProtected op auditAction rfl
          exact hnotIssue _ _ _ _ _ _ hevent)
        (by
          intro id attempt op deadline epoch heq
          rw [heq] at hevent
          obtain ⟨chal, hlookup, hchal, -⟩ := hout.locked
          have hopen := hsealed.unrevealed _ _ _ _ _ _ _ chal hevent hlookup
          rw [isLockedOut_of_lt hchal ((step_clock_le hs).trans_lt hlt)] at hopen
          cases hopen)
        (by
          rintro rfl
          exact hnotDrain _ _ hevent)
      refine ⟨hlocked, fun tid' supplied unlocked ans hevent' => ?_⟩
      rw [hevent] at hevent'
      injection hevent' with _ heq
      exact hrequest supplied unlocked ans heq
    · rw [heq]
      exact ⟨hout.locked, fun tid supplied unlocked ans hevent => absurd hevent (hno tid _ _)⟩
  refine ⟨⟨hotp.1, ?_, ?_⟩, ⟨hotp.2, hnotIssue⟩⟩
  · intro tid th hth hissuing
    rcases hs.thread_cases hth with ⟨hbefore, -⟩ | ⟨call, p, -, rfl, -⟩
        | ⟨e, th₀, hevent, hth₀, hhears, -⟩
    · exact hout.issuing tid th hbefore hissuing
    · cases hissuing
    rw [hhears.said] at hissuing
    rcases issuing_cons hissuing with hbefore
        | ⟨supplied, unlocked, ans, rfl, hne⟩
    · exact hout.issuing tid th₀ hth₀ hbefore
    · obtain ⟨chal, hchal⟩ := hotp.2 _ _ _ _ hevent
      exact hne chal hchal
  · intro tid th y hth hhold
    rcases hs.thread_cases hth with ⟨hbefore, -⟩ | ⟨call, p, -, rfl, -⟩
        | ⟨e, th₀, hevent, hth₀, hhears, -⟩
    · exact hout.holding tid th y hbefore hhold
    · cases hhold
    rw [hhears.said] at hhold
    refine Bool.eq_false_iff.2 fun hy => ?_
    rcases holdStep_locked hhold hy with ⟨z, hz, hzlocked⟩ | ⟨a, rfl⟩
    · rw [hout.holding tid th₀ z hth₀ hz] at hzlocked
      cases hzlocked
    · exact hlock ⟨tid, a, hevent⟩

-- ==== the lockout

/-- A wrong code is recorded against the challenge of the key, the fifth
or a later one. -/
def FailsFive (x : DeskEntry) (key : String) : Prop :=
  ∃ tid supplied unlocked chal lockout, x.event = .exchange tid
      ⟨.otp (.request key supplied unlocked), .invalid (some chal) lockout⟩
    ∧ OTP_MAX_ATTEMPTS ≤ chal.failedAttempts

theorem FailsFive.lockedOut (hrun : (desktop estr).Run allowed c h x.before)
    (hthreads : ∀ tid, c.threads tid = none) (hs : (desktop estr).Step x) (hsealed : Sealed x)
    (hfails : FailsFive x key) : ∃ now, x.before.shared.clock ≤ now ∧ now ≤ x.after.shared.clock
      ∧ (x.after.shared.clock < now + secs OTP_LOCKOUT_SECS →
        LockedOut x.after key (now + secs OTP_LOCKOUT_SECS)) := by
  obtain ⟨tid, supplied, unlocked, chal', lockout, hevent, hfive⟩ := hfails
  obtain ⟨th, th', hth, hhears, hth', hans, hlawful⟩ := Run.lawful hrun hthreads hs hevent
  obtain ⟨request, -, -, -, hguard⟩ := hlawful
  obtain ⟨hi, -, store, ⟨r, hwithin, hsection⟩, hafter⟩ := hans
  have hclock : x.after.shared.clock = hi := by rw [hafter]
  cases handled hsection with
  | @invalid chal code gate lockout hsupplied hfound _ hlockout hgate =>
    have huntil : (chal.recordFailure r.failure).lockoutUntil
        = some (r.failure + secs OTP_LOCKOUT_SECS) := if_pos hfive
    refine ⟨r.failure, hwithin.failure.1, hclock ▸ hwithin.failure.2, fun hlt => ?_⟩
    -- the lockout is still open when the gate is looked at
    have hopen : lockout = true := by
      rw [hlockout]
      refine isLockedOut_of_lt huntil ?_
      exact (hwithin.lockedOut.2.trans_eq hclock.symm).trans_lt hlt
    subst hopen
    have hsaid : hold th'.said = some ⟨unlocked, false, false⟩ := by
      obtain ⟨before, hbefore⟩ := hguard (by rw [hsupplied]; rfl)
      rw [hhears.said, hbefore]
      rfl
    have hrun' : (desktop estr).Run (fun _ => True) c (x :: h) x.after :=
      .step (hrun.restrict fun _ _ _ => trivial) trivial hs
    have hheld := Run.holds hrun' hthreads tid th' _ hth' hsaid
    have hlocked : Locked x.after.shared.otp key (r.failure + secs OTP_LOCKOUT_SECS) := by
      rw [hafter]
      exact ⟨{ chal.recordFailure r.failure with gate := gate },
        AList.lookup_insert _, huntil, hgate⟩
    refine ⟨hlocked, ?_, ?_⟩
    · intro tid' th₁ hth₁
      rcases hs.thread_cases hth₁ with ⟨hbefore, hby⟩
          | ⟨call, p, -, rfl, -⟩ | ⟨e, th₀, hevent', hth₀, hhears', -⟩
      · rw [hevent] at hby
        exact hsealed.alone tid key supplied unlocked _ hevent tid' th₁
          (fun heq => hby heq.symm) hbefore
      · exact nofun
      · rw [hevent] at hevent'
        cases hevent'
        rw [hhears'.said]
        exact nofun
    · intro tid' th₁ y hth₁ hhold
      have hheld' := Run.holds hrun' hthreads tid' th₁ y hth₁ hhold
      have hsame : tid' = tid := Option.some.inj (hheld'.1.symm.trans hheld.1)
      subst hsame
      cases hth'.symm.trans hth₁
      rw [hsaid] at hhold
      cases hhold
      rfl

theorem LockedOut.run
    {later earlier : List DeskEntry} (hrun : (desktop estr).Run Sealed c (later ++ x :: earlier) c')
    (hthreads : ∀ tid, c.threads tid = none) (hout : LockedOut x.after key t)
    (hlt : c'.shared.clock < t) (hlock : ∀ y ∈ later, ¬ Locks y) : LockedOut c' key t := by
  induction later generalizing c' with
  | nil =>
    cases hrun with
    | step _ _ _ => exact hout
  | cons y later ih =>
    cases hrun with
    | step hr hsealed hs =>
      have hbefore := ih hr ((step_clock_le hs).trans_lt hlt)
        fun z hmem => hlock z (mem_cons_of_mem _ hmem)
      exact (hbefore.step hr hthreads hs hsealed (hlock y mem_cons_self) hlt).1

/-- From a fifth failure on every step is shut for 300 s, unless the vault
is locked. -/
theorem FailsFive.shuts {later earlier : List DeskEntry} {e : DeskEntry}
    (hfails : FailsFive e key) (hthreads : ∀ tid, c.threads tid = none)
    (hrun : (desktop estr).Run Sealed c (later ++ e :: earlier) c') :
    ∃ now, e.before.shared.clock ≤ now ∧ now ≤ e.after.shared.clock
      ∧ ∀ after x since, later = after ++ x :: since →
        x.after.shared.clock < now + secs OTP_LOCKOUT_SECS →
        (∀ y ∈ since, ¬ Locks y) → Shuts x key := by
  obtain ⟨hr, hsealed, hs⟩ := hrun.split
  obtain ⟨now, hle, hle', hout⟩ := hfails.lockedOut hr hthreads hs hsealed
  refine ⟨now, hle, hle', ?_⟩
  rintro after x since rfl hlt hlock
  rw [append_assoc, cons_append] at hrun
  obtain ⟨hrx, hsealedx, hsx⟩ := hrun.split
  have hclock := step_clock_le hsx
  have hout := hout (((Run.clock_le hrx.tail).trans hclock).trans_lt hlt)
  have hbefore := LockedOut.run hrx hthreads hout (hclock.trans_lt hlt) hlock
  by_cases hx : Locks x
  · obtain ⟨tid, a, hevent⟩ := hx
    refine ⟨fun tid' supplied unlocked ans hevent' => ?_,
      fun tid' code isProtected op auditAction ans hevent' => ?_⟩
    · rw [hevent] at hevent'
      cases hevent'
    · rw [hevent] at hevent'
      cases hevent'
  · exact (hbefore.step hrx hthreads hsx hsealedx hx hlt).2

/-- For 300 s from an instant nothing is accepted and nothing is issued
under the signature, unless the vault is locked. -/
def ShutFor (later : List DeskEntry) (now : Nat) (key : String) : Prop :=
  ∀ after x since, later = after ++ x :: since → x.after.shared.clock < now
    + secs OTP_LOCKOUT_SECS → (∀ y ∈ since, ¬ Locks y) → ∀ request, requestSignature request = key →
      (∀ code, ¬ Accepts x request code)
      ∧ ∀ code id isProtected op, ¬ Issues x request code id isProtected op

/-- In a run of sealed steps a lockout is not shortened. -/
theorem lockout_kept {later earlier : List DeskEntry} {e : DeskEntry}
    (hfresh : Fresh c) (hrun : (desktop estr).Run Sealed c (later ++ e :: earlier) c')
    (hfails : FailsFive e key) : ∃ now, e.before.shared.clock ≤ now ∧ now ≤ e.after.shared.clock
      ∧ ShutFor later now key := by
  obtain ⟨now, hle, hle', hshuts⟩ := hfails.shuts hfresh.threads hrun
  refine ⟨now, hle, hle', ?_⟩
  rintro after x since hlater hlt hlock request rfl
  obtain ⟨hrequest, hissue⟩ := hshuts after x since hlater hlt hlock
  refine ⟨?_, ?_⟩
  · rintro code ⟨tid, th, unlocked, id, removed, -, -, hevent⟩
    obtain ⟨chal, hchal⟩ := hrequest tid _ _ _ hevent
    cases hchal
  · rintro code id isProtected op ⟨tid, th, op₀, auditAction, replaced, -, -, hevent, -⟩
    exact hissue tid _ _ _ _ _ hevent

def failsFive (x : DeskEntry) (key : String) : Bool :=
  match x.event with
  | .exchange _ ⟨.otp (.request key' _ _), .invalid (some chal) _⟩ =>
    key' = key ∧ OTP_MAX_ATTEMPTS ≤ chal.failedAttempts
  | _ => false

theorem failsFive_iff (h : failsFive x key = true) : FailsFive x key := by
  unfold failsFive at h
  split at h
  · next tid key' supplied unlocked chal lockout hevent =>
    obtain ⟨rfl, hfive⟩ := of_decide_eq_true h
    exact ⟨tid, supplied, unlocked, chal, lockout, hevent, hfive⟩
  · cases h

def locks (x : DeskEntry) : Bool :=
  match x.event with
  | .exchange _ ⟨.slot (.publish none), _⟩ => true
  | _ => false

theorem not_locks (h : locks x = false) : ¬ Locks x := by
  rintro ⟨tid, a, hevent⟩
  unfold locks at h
  rw [hevent] at h
  cases h

def isSealed (n : Nat) (x : DeskEntry) : Bool :=
  match x.event with
  | .call tid _ => tid < n
  | .exchange tid ⟨.otp (.request key _ _), .invalid _ true⟩ =>
    (List.range n).all fun i => i == tid
      || match x.before.threads i with
        | some t => issuing t.said != some key
        | none => true
  | .exchange _ ⟨.otp (.revealBegin _), .begun _ _ _ _ _⟩ => false
  | _ => true

theorem run_sealed
    {n : Nat} (hrun : (desktop estr).Run allowed c h c') (hthreads : ∀ tid, c.threads tid = none)
    (hall : h.all (isSealed n) = true) : (desktop estr).Run Sealed c h c' := by
  refine hrun.restrict fun x hmem hs => ?_
  have hx := all_eq_true.1 hall x hmem
  refine ⟨?_, ?_⟩
  · intro tid key supplied unlocked chal hevent tid' th hne hth
    obtain ⟨later, earlier, rfl⟩ := append_of_mem hmem
    obtain ⟨hr, -, -⟩ := hrun.split
    -- a thread that is there was called, so its number is below `n`
    obtain ⟨y, hy, call, hcall⟩ := hr.called (hthreads tid') hth
    have hlt : tid' < n := by
      have hbelow := all_eq_true.1 hall y (by simp [hy])
      unfold isSealed at hbelow
      rw [hcall] at hbelow
      exact of_decide_eq_true hbelow
    unfold isSealed at hx
    rw [hevent] at hx
    have htest := all_eq_true.1 hx tid' (mem_range.2 hlt)
    rcases Bool.or_eq_true_iff.1 htest with heq | hnot
    · exact absurd (beq_iff_eq.1 heq) hne
    · rw [hth] at hnot
      exact bne_iff_ne.1 hnot
  · intro tid id key attempt op deadline epoch chal hevent
    unfold isSealed at hx
    rw [hevent] at hx
    cases hx

end

namespace Sample

def otpKey : String := requestSignature (otpRead none)

def wrongCode (read : Option String → AccessRequest) (tid : Nat) : List (Act Call Move) :=
  [.call tid (.request (read (some "wrong")))] ++ answers tid 3 ++ [.finish tid]

def lockoutActs (read : Option String → AccessRequest) : List (Act Call Move) :=
  [.call 1 (.request (read none))] ++ answers 1 5 ++ [.finish 1]
    ++ [2, 3, 4, 5, 6].flatMap (wrongCode read)

def refusedActs : List (Act Call Move) :=
  [.call 7 (.request (otpRead (some "code 1")))] ++ answers 7 3 ++ [.finish 7]

def refusedRun : List DeskEntry × DeskConfig :=
  plainPlayer.play (launch (root .otp)) (lockoutActs otpRead ++ refusedActs)

/-- The run has a fifth failure, and its steps are sealed. -/
theorem refusedRun_fails : ∃ later e earlier, refusedRun.1 = later ++ e :: earlier
    ∧ FailsFive e otpKey
    ∧ (desktop estr).Run Sealed (launch (root .otp)) (later ++ e :: earlier) refusedRun.2 := by
  have hany : refusedRun.1.any (failsFive · otpKey) = true := by decide +kernel
  obtain ⟨e, hmem, he⟩ := any_eq_true.1 hany
  obtain ⟨later, earlier, heq⟩ := append_of_mem hmem
  refine ⟨later, e, earlier, heq, failsFive_iff he, heq ▸ ?_⟩
  exact run_sealed plainPlayer.play_run (launch_fresh _).threads
    (show refusedRun.1.all (isSealed 8) = true by decide +kernel)

end Sample

open Sample

theorem lockout_kept_refused : ∃ later e earlier, refusedRun.1 = later ++ e :: earlier
    ∧ FailsFive e otpKey
    ∧ ∃ now, e.before.shared.clock ≤ now ∧ now ≤ e.after.shared.clock
      ∧ ShutFor later now otpKey := by
  obtain ⟨later, e, earlier, heq, hfive, hrun⟩ := refusedRun_fails
  exact ⟨later, e, earlier, heq, hfive, lockout_kept (launch_fresh _) hrun hfive⟩

namespace Sample

def lateActs : List (Act Call Move) :=
  [.call 0 (.request (otpRead none))] ++ answers 0 1 ++ lockoutActs otpRead

def replacedActs : List (Act Call Move) :=
  answers 0 4 ++ [.finish 0]
    ++ [.call 7 (.request (otpRead (some "code 2")))] ++ answers 7 5
    ++ [.finish 7]

def still (x : DeskEntry) : Bool :=
  !locks x && x.before.shared.clock == 0 && x.after.shared.clock == 0

/-- Of two runs, one after the other, the first fails five times and in
the second a code is accepted. -/
theorem accepted_after (acts acts' : List (Act Call Move)) {key code : String}
    {request : AccessRequest} :
    let r := plainPlayer.play (launch (root .otp)) acts
    let r' := plainPlayer.play r.2 acts'
    r.1.any (fun x => failsFive x key) = true →
    r'.1.any (fun x => accepted x = some (request, code)) = true →
    (r'.1 ++ r.1).all still = true →
    ∃ after x since e earlier c', (desktop estr).Run (fun _ => True) (launch (root .otp))
        (after ++ x :: since ++ e :: earlier) c'
      ∧ FailsFive e key ∧ Accepts x request code
      ∧ e.before.shared.clock = 0 ∧ x.after.shared.clock = 0
      ∧ ∀ y ∈ since, ¬ Locks y := by
  intro r r' hfive haccept hstill
  have hrun := (plainPlayer.play_run : (desktop estr).Run _ _ r.1 r.2).append
    (plainPlayer.play_run : (desktop estr).Run _ _ r'.1 r'.2)
  obtain ⟨e, hmem, he⟩ := any_eq_true.1 hfive
  obtain ⟨x, hmem', hx⟩ := any_eq_true.1 haccept
  obtain ⟨mid, earlier, heq⟩ := append_of_mem hmem
  obtain ⟨after, since, heq'⟩ := append_of_mem hmem'
  rw [heq, heq'] at hrun hstill
  have hall : ∀ y ∈ (after ++ x :: since) ++ (mid ++ e :: earlier),
      ¬ Locks y ∧ y.before.shared.clock = 0 ∧ y.after.shared.clock = 0 := by
    intro y hy
    obtain ⟨hy, hafter⟩ := Bool.and_eq_true_iff.1 (all_eq_true.1 hstill y hy)
    obtain ⟨hlocks, hbefore⟩ := Bool.and_eq_true_iff.1 hy
    exact ⟨not_locks (by simpa using hlocks), beq_iff_eq.1 hbefore,
      beq_iff_eq.1 hafter⟩
  refine ⟨after, x, since ++ mid, e, earlier, _, by simpa using hrun, failsFive_iff he,
    accepts_of_accepted (of_decide_eq_true hx),
    (hall e (by simp)).2.1, (hall x (by simp)).2.2, fun y hy => ?_⟩
  refine (hall y ?_).1
  rcases mem_append.1 hy with hy | hy <;> simp [hy]

end Sample

/-- A challenge is issued over one that is locked out, and its code is
accepted, at the instant of the lockout. -/
theorem lockout_replaced : requestSignature (otpRead (some "code 2")) = otpKey
    ∧ ∃ after x since e earlier c', (desktop estr).Run
        (fun _ => True) (launch (root .otp)) (after ++ x :: since ++ e :: earlier) c'
      ∧ FailsFive e otpKey
      ∧ Accepts x (otpRead (some "code 2")) "code 2"
      ∧ e.before.shared.clock = 0 ∧ x.after.shared.clock = 0
      ∧ ∀ y ∈ since, ¬ Locks y :=
  ⟨by decide +kernel, accepted_after lateActs replacedActs
    (by decide +kernel) (by decide +kernel) (by decide +kernel)⟩

-- ==== what it covers

theorem requestSignature_eq_iff {r r' : AccessRequest} (haction : r'.action = r.action)
    (hcontainer : r'.container = r.container) (hfile : r'.fileName = r.fileName)
    (hagent : r'.agentId = r.agentId) : requestSignature r' = requestSignature r
      ↔ r'.authorizationContext = r.authorizationContext := by
  unfold requestSignature
  rw [haction, hcontainer, hfile, hagent]
  generalize r.action.debug ++ "|" ++ debugOption r.container ++ "|"
    ++ debugOption r.fileName ++ "|" ++ debugOption r.agentId ++ "|"
    = target
  refine ⟨fun heq => ?_, fun heq => by rw [heq]⟩
  have hlist := congrArg String.toList heq
  rw [String.toList_append, String.toList_append] at hlist
  exact String.toList_inj.1 (append_cancel_left hlist)

/-- The requests are for one operation: the same action of the same agent
on the same file. -/
structure SameOperation (r r' : AccessRequest) : Prop where
  action : r'.action = r.action
  container : r'.container = r.container
  fileName : r'.fileName = r.fileName
  agentId : r'.agentId = r.agentId

section

variable {estr : CoreError → String} {c c' : DeskConfig}

/-- For 300 s from an instant the request is told of the lockout, is given
no challenge and is refused, unless the vault is locked. -/
def RefusedFor (later : List DeskEntry) (now : Nat) (request : AccessRequest) : Prop :=
  ∀ after x since, later = after ++ x :: since → x.after.shared.clock < now + secs OTP_LOCKOUT_SECS
    → (∀ y ∈ since, ¬ Locks y) → (∀ tid supplied unlocked ans, x.event = .exchange tid
        ⟨.otp (.request (requestSignature request) supplied unlocked), ans⟩ →
      ∃ chal, ans = .lockedOut chal)
    ∧ (∀ code id isProtected op, ¬ Issues x request code id isProtected op)
    ∧ ∀ tid th reply, x.event = .finish tid → x.before.threads tid = some th →
      th.call = .request request → approvalRequirement request = .ok .otp →
      (∃ b ∈ since, b.event = .call tid (.request request)) → th.talk ≠ .ret (.ok reply)

/-- The lockout covers the requests for the same operation with the same
arguments apart from the code: they are told of it and refused. Other
arguments have another signature. -/
theorem lockout_per_signature
    {later earlier : List DeskEntry} {e : DeskEntry} {r r' : AccessRequest}
    (hfresh : Fresh c) (hrun : (desktop estr).Run Sealed c (later ++ e :: earlier) c')
    (hfails : FailsFive e (requestSignature r))
    (hsame : SameOperation r r') : (r'.authorizationContext ≠ r.authorizationContext →
      requestSignature r' ≠ requestSignature r)
    ∧ (r'.authorizationContext = r.authorizationContext →
      ∃ now, e.before.shared.clock ≤ now ∧ now ≤ e.after.shared.clock
        ∧ RefusedFor later now r') := by
  have hiff := requestSignature_eq_iff hsame.action hsame.container hsame.fileName hsame.agentId
  refine ⟨fun hne => mt hiff.1 hne, fun heq => ?_⟩
  have hkey := hiff.2 heq
  obtain ⟨now, hle, hle', hshuts⟩ := hfails.shuts hfresh.threads hrun
  rw [← hkey] at hshuts
  refine ⟨now, hle, hle', ?_⟩
  rintro after x since rfl hlt hlock
  rw [append_assoc, cons_append] at hrun
  obtain ⟨hrx, -, hsx⟩ := hrun.split
  obtain ⟨hrequest, hissue⟩ := hshuts after x since rfl hlt hlock
  refine ⟨hrequest, ?_, ?_⟩
  · rintro code id isProtected op ⟨tid, th, op₀, auditAction, replaced, -, -, hevent, -⟩
    exact hissue tid _ _ _ _ _ hevent
  intro tid th reply hevent hth hcall hotp ⟨b, hmem, hb⟩ hret
  -- a code was accepted in this call, and so after the failure
  obtain ⟨mid, y, before, code, hsplit, -, hy, -, hcalls⟩ :=
    granted_accepts hrx hfresh hth hcall hotp hret
  obtain ⟨tid', th', unlocked, id, removed, -, -, hy⟩ := hy
  rcases append_eq_append_iff.1 hsplit with
      ⟨rest, rfl, -⟩ | ⟨rest, hsince, hrest⟩
  · exact hcalls b (mem_append_left _ hmem) _ hb
  cases rest with
  | nil =>
    rw [append_nil] at hsince
    rw [hsince] at hmem
    exact hcalls b hmem _ hb
  | cons z rest =>
    obtain ⟨rfl, -⟩ := List.cons.inj hrest
    rw [hsince] at hlock
    have hry : y.after.shared.clock < now + secs OTP_LOCKOUT_SECS := by
      refine lt_of_le_of_lt ?_ hlt
      rw [hsince, append_assoc] at hrx
      exact (Run.clock_le hrx.tail).trans (step_clock_le hsx)
    obtain ⟨htold, -⟩ := hshuts (after ++ x :: mid) y rest (by simp [hsince]) hry
      fun w hw => hlock w (by simp [hw])
    obtain ⟨chal, hchal⟩ := htold _ _ _ _ hy
    cases hchal

end

theorem lockout_per_signature_code : ∃ later e earlier, refusedRun.1 = later ++ e :: earlier
    ∧ FailsFive e otpKey
    ∧ ∃ now, e.before.shared.clock ≤ now ∧ now ≤ e.after.shared.clock
      ∧ RefusedFor later now (otpRead (some "code 1")) := by
  obtain ⟨later, e, earlier, heq, hfive, hrun⟩ := refusedRun_fails
  have hsame : SameOperation (otpRead none)
      (otpRead (some "code 1")) := ⟨rfl, rfl, rfl, rfl⟩
  have hrefused := (lockout_per_signature (launch_fresh _) hrun hfive hsame).2 rfl
  exact ⟨later, e, earlier, heq, hfive, hrefused⟩

namespace Sample

def printFields : List (String × Value) → String
  | [] => ""
  | (key, .string s) :: rest => debugString key ++ ":" ++ debugString s
      ++ "," ++ printFields rest
  | (key, .bool b) :: rest => debugString key ++ ":" ++ toString b
      ++ "," ++ printFields rest
  | _ :: rest => printFields rest

def crates : Crates :=
  { Sample.plainCrates with
    toVec := fun
      | .object fields => .ok (asBytes (printFields fields))
      | _ => .ok []
    sha256Hex := fun raw => toString raw.length }

def readArgs (more : List (String × Value)) : Value :=
  .object ([("container", .string "notes"),
    ("file_name", .string "card.txt")] ++ more)

def otpVault : (o : McpOp) → o.Ans
  | .facade (.containerMode _) => .ok .otp
  | o => Sample.consenting o

def toolRead (context : String) (otp : Option String) : AccessRequest :=
  { containerRequest .mcpWs .readFile "notes" (some "card.txt") .otp
      none otp context with
    agentId := some "agent" }

/-- `build_access_request` makes this request of a call without a code. -/
def Built (more : List (String × Value)) (context : String) : Prop :=
  (converse otpVault (buildAccessRequest crates "vault.read"
      (readArgs more) .mcpWs) 1).2
    = .ret (.ok { toolRead context none with agentId := none })

theorem built {more : List (String × Value)} {context : String}
    (hotp : (readArgs more).getStr "otp" = none)
    (hcontext : buildAuthorizationContext crates "vault.read"
      (readArgs more) = context) : Built more context := by
  have hbuilt : (converse otpVault (buildAccessRequest crates
        "vault.read" (readArgs more) .mcpWs) 1).2
      = .ret (.ok { toolRead (buildAuthorizationContext crates
          "vault.read" (readArgs more)) ((readArgs more).getStr "otp") with
        agentId := none }) := rfl
  rw [hotp, hcontext] at hbuilt
  exact hbuilt

def moreActs : List (Act Call Move) :=
  [.call 7 (.request (toolRead "97" none))] ++ answers 7 5 ++ [.finish 7]
    ++ [.call 8 (.request (toolRead "97" (some "code 2")))]
    ++ answers 8 5 ++ [.finish 8]

end Sample

/-- Five wrong codes for a file, and at the same instant a code for the
same file is accepted, in a call with an argument more. -/
theorem lockout_not_per_operation : Sample.Built [] "88" ∧ Sample.Built [("x", .bool true)] "97"
    ∧ SameOperation (toolRead "88" none) (toolRead "97" (some "code 2"))
    ∧ ∃ after x since e earlier c', (desktop estr).Run
        (fun _ => True) (launch (root .otp)) (after ++ x :: since ++ e :: earlier) c'
      ∧ FailsFive e (requestSignature (toolRead "88" none))
      ∧ Accepts x (toolRead "97" (some "code 2")) "code 2"
      ∧ e.before.shared.clock = 0 ∧ x.after.shared.clock = 0
      ∧ ∀ y ∈ since, ¬ Locks y :=
  ⟨built rfl (by decide +kernel),
    built rfl (by decide +kernel), ⟨rfl, rfl, rfl, rfl⟩,
    accepted_after (lockoutActs (toolRead "88")) moreActs
    (by decide +kernel) (by decide +kernel) (by decide +kernel)⟩

end SovereignVault.Desk
