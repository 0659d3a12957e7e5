/-
The store of challenges: what each critical section can do to it.

One relation for each section lists its outcomes (`Handled`, `Fresh`...).
From these comes one statement for all (`OtpOp.Answers.entry_cases`): a
challenge in the store was issued by this section, or it was there before,
with the same code, number, operation, protection and time of issue, and
with a gate that opens only by a verification of its own operation.
-/
import SovereignVault.Desktop.System

namespace SovereignVault.Desk

open Audit Presence AList

section

variable {r : Readings} {key : String} {supplied : Option String}
  {unlocked : Bool} {store store' : OtpStore} {chal chal' : OtpChallenge}
  {lo hi : Nat} {o : OtpOp} {id attempt : Nat} {code : String}

-- ==== one section

/-- The outcomes of `handle_otp`'s section on the pruned store. -/
inductive Handled (r : Readings) (key : String) (supplied : Option String)
    (unlocked : Bool) (store : OtpStore) : OtpOutcome → OtpStore → Prop where
  | full (hlookup : store.lookup key = none) : Handled r key supplied unlocked store .full store
  | accepted {chal : OtpChallenge}
      {code : String} (hsupplied : supplied = some code) (hlookup : store.lookup key = some chal)
      (hlocked : chal.isLockedOut r.lockout = false) (hvalid : chal.validate r code = true)
      (hunlocked : unlocked = true) : Handled r key supplied unlocked store
        (.accepted chal.modalId (some chal)) (store.erase key)
  | vaultLocked {chal : OtpChallenge} (hlookup : store.lookup key = some chal)
      (hlocked : chal.isLockedOut r.lockout = false) :
      Handled r key supplied unlocked store .vaultLocked store
  | reused {chal : OtpChallenge} {shown : Bool} (hnone : supplied = none)
      (hlookup : store.lookup key = some chal) (hlocked : chal.isLockedOut r.lockout = false) :
      Handled r key supplied unlocked store (.reused chal shown) (store.insert key chal)
  | needFresh (hlookup : store.lookup key = none) :
      Handled r key supplied unlocked store .needFresh store
  | lockedOut {chal : OtpChallenge} (hlookup : store.lookup key = some chal) :
      Handled r key supplied unlocked store (.lockedOut (some chal)) store
  | invalid {chal : OtpChallenge} {code : String} {gate : GateState}
      {lockout : Bool} (hsupplied : supplied = some code) (hlookup : store.lookup key = some chal)
      (hlocked : chal.isLockedOut r.lockout = false) (hlockout : lockout
        = (chal.recordFailure r.failure).isLockedOut r.lockedOut)
      (hgate : gate = if lockout then .pending else chal.gate) :
      Handled r key supplied
        unlocked store (.invalid (some (chal.recordFailure r.failure)) lockout) (store.insert key
          { chal.recordFailure r.failure with gate := gate })
  | expired (hlocked : ∀ chal, store.lookup key = some chal → chal.isLockedOut r.lockout = false) :
      Handled r key supplied unlocked store .expired (store.erase key)

theorem handled {a : OtpOutcome} (h : handleOtpSection r key supplied unlocked store = (a, store'))
    : Handled r key supplied unlocked (pruneExpired r store) a store' := by
  unfold handleOtpSection at h
  dsimp only at h
  generalize pruneExpired r store = store at h
  split at h
  · next hfull =>
    cases h
    refine .full (lookup_eq_none.2 fun hmem => ?_)
    exact of_decide_eq_false hfull (.inl hmem)
  cases hlookup : store.lookup key with
  | none =>
    have hgone : ∀ chal, store.lookup key = some chal → chal.isLockedOut r.lockout = false := by
      intro chal hchal
      rw [hlookup] at hchal
      cases hchal
    rw [hlookup] at h
    cases supplied with
    | none =>
      cases h
      exact .needFresh hlookup
    | some code =>
      cases h
      exact .expired hgone
  | some chal =>
    rw [hlookup] at h
    have hthis : chal.isLockedOut r.lockout = false →
        ∀ c, store.lookup key = some c → c.isLockedOut r.lockout = false := by
      intro hopen c hc
      cases hlookup.symm.trans hc
      exact hopen
    cases supplied with
    | none =>
      unfold processOtpRequest at h
      dsimp only at h
      by_cases hlocked : chal.isLockedOut r.lockout = true
      · rw [if_pos hlocked] at h
        cases h
        exact .lockedOut hlookup
      rw [if_neg hlocked] at h
      by_cases hexpired : chal.isExpired r.expiry = true
      · rw [if_pos hexpired] at h
        cases h
        exact .expired (hthis (Bool.eq_false_iff.2 hlocked))
      · rw [if_neg hexpired] at h
        cases h
        exact .reused rfl hlookup (Bool.eq_false_iff.2 hlocked)
    | some code =>
      unfold processOtpRequest at h
      dsimp only at h
      by_cases hlocked : chal.isLockedOut r.lockout = true
      · rw [if_pos hlocked] at h
        cases h
        exact .lockedOut hlookup
      rw [if_neg hlocked] at h
      have hopen := Bool.eq_false_iff.2 hlocked
      by_cases hexpired : chal.isExpired r.expiry = true
      · rw [if_pos hexpired] at h
        cases h
        exact .expired (hthis hopen)
      rw [if_neg hexpired] at h
      by_cases hvalid : chal.validate r code = true
      · rw [if_pos hvalid] at h
        dsimp only at h
        split at h
        · next hunlocked =>
          cases h
          exact .accepted rfl hlookup hopen hvalid hunlocked
        · cases h
          exact .vaultLocked hlookup hopen
      · rw [if_neg hvalid] at h
        dsimp only at h
        split at h
        · next hout =>
          cases h
          exact .invalid rfl hlookup hopen hout.symm rfl
        · next hout =>
          cases h
          exact .invalid rfl hlookup hopen (Bool.eq_false_iff.2 hout).symm rfl

/-- The outcomes of `handle_otp_fresh`'s section on the pruned store. -/
theorem issued {isProtected : Bool} {op : OpDescriptor} {auditAction : AuditAction}
    {a : IssueOutcome} (h : handleOtpFreshSection r key code id isProtected op auditAction
      store = (a, store')) : a = .full ∧ store' = pruneExpired r store
    ∨ a = .issued id ((pruneExpired r store).lookup key)
      ∧ canAdmitChallenge (pruneExpired r store) key = true
      ∧ store' = ((pruneExpired r store).erase key).insert key
        (.new code id isProtected (op.bind "request_id" (toString id)) auditAction r.issued) := by
  unfold handleOtpFreshSection at h
  dsimp only at h
  split at h
  · cases h
    exact .inl ⟨rfl, rfl⟩
  · next hadmit =>
    cases h
    exact .inr ⟨rfl, Bool.eq_true_of_not_eq_false hadmit, rfl⟩

theorem findModal_some {x : (_ : String) × OtpChallenge}
    (h : findModal store id = some x) : store.lookup x.1 = some x.2 ∧ x.2.modalId = id := by
  have hmodal := List.find?_some h
  exact ⟨lookup_of_mem_entries (List.mem_of_find?_eq_some h), of_decide_eq_true hmodal⟩

theorem expired {a : ExpireOutcome} (h : expireSection r id store = (a, store')) :
    store' = store ∨ ∃ key chal, store.lookup key = some chal
      ∧ chal.isLockedOut r.lockout = false ∧ store' = store.erase key := by
  unfold expireSection at h
  split at h
  · cases h
    exact .inl rfl
  next x hfind =>
  split at h
  · cases h
    exact .inl rfl
  split at h
  · cases h
    exact .inl rfl
  · next hlocked =>
    cases h
    exact .inr ⟨x.1, x.2, (findModal_some hfind).1, Bool.eq_false_iff.2 hlocked, rfl⟩

/-- The outcomes of `reveal_otp`'s first section on the pruned store. -/
inductive Revealing (modalId attempt epoch : Nat) (store : OtpStore) :
    RevealBegin → OtpStore → Prop where
  | unknown : Revealing modalId attempt epoch store .unknown store
  | plain {key : String} {chal : OtpChallenge} (hlookup : store.lookup key = some chal)
      (hmodal : chal.modalId = modalId) (hprotected : chal.isProtected = false) :
      Revealing modalId attempt epoch store (.plain chal.code) store
  | busy {error : GateError} : Revealing modalId attempt epoch store (.busy error) store
  | begun {key : String} {chal : OtpChallenge}
      (hlookup : store.lookup key = some chal) (hmodal : chal.modalId = modalId)
      (hgate : chal.gate = .pending) : Revealing modalId attempt epoch store
        (.begun key attempt chal.op (chal.issuedAt + secs OTP_TTL_SECS) epoch)
        (store.insert key { chal with gate := .verifying attempt chal.op.digest })

theorem revealing {modalId epoch : Nat} {a : RevealBegin}
    (h : revealBeginSection r modalId attempt epoch store = (a, store')) :
    Revealing modalId attempt epoch (pruneExpired r store) a store' := by
  unfold revealBeginSection at h
  dsimp only at h
  generalize pruneExpired r store = store at h
  split at h
  · cases h
    exact .unknown
  next x hfind =>
  obtain ⟨hlookup, hmodal⟩ := findModal_some hfind
  split at h
  · next hprotected =>
    cases h
    exact .plain hlookup hmodal hprotected
  split at h
  · cases h
    exact .busy
  · next gate hbegin =>
    cases h
    obtain ⟨hpending, rfl⟩ := GateState.begin_ok hbegin
    exact .begun hlookup hmodal hpending

inductive Revealed (r : Readings) (key : String) (modalId attempt deadline : Nat) (moved : Bool)
    (result : Except Denial Verified) (store : OtpStore) : RevealFinish → OtpStore → Prop where
  | left {a : RevealFinish} (hcode : ∀ code, a ≠ .code code) :
      Revealed r key modalId attempt deadline moved result store a store
  | removed {a : RevealFinish} {chal : OtpChallenge} (hcode : ∀ code, a ≠ .code code)
      (hlookup : store.lookup key = some chal) (hmine : mine chal modalId attempt = true)
      (hopen : moved = true ∨ chal.isLockedOut r.lockout = false) :
      Revealed r key modalId attempt deadline moved result store a (store.erase key)
  | closed
      {a : RevealFinish} {chal : OtpChallenge} {gate : GateState} (hcode : ∀ code, a ≠ .code code)
      (hlookup : store.lookup key = some chal) (hgate : gate = chal.gate ∨ gate = .pending) :
      Revealed r key modalId attempt deadline moved result store a
        (store.insert key { chal with gate := gate })
  | code {chal : OtpChallenge} {verified : Verified} (hmoved : moved = false)
      (hresult : result = .ok verified) (hlookup : store.lookup key = some chal)
      (hmodal : chal.modalId = modalId) (hgate : chal.gate = .verifying attempt chal.op.digest)
      (hdigest : verified.digest = chal.op.digest)
      (htime : r.finished ≤ deadline) : Revealed r key modalId attempt deadline moved result store
        (.code chal.code)
        (store.insert key { chal with
          gate := .authenticated chal.op.digest
          revealedModality := some verified.modality })

theorem revealed {modalId deadline : Nat} {moved : Bool} {result : Except Denial Verified}
    {a : RevealFinish} (h : revealFinishSection r key modalId attempt deadline moved result
      store = (a, store')) :
    Revealed r key modalId attempt deadline moved result store a store' := by
  have hmine : ∀ {chal}, store.lookup key = some chal →
      ((store.lookup key).any fun c => mine c modalId attempt) = true →
      mine chal modalId attempt = true := by
    intro chal hlookup hany
    rw [hlookup] at hany
    exact hany
  have hfound : ((store.lookup key).any fun c => mine c modalId attempt)
      = true → ∃ chal, store.lookup key = some chal := by
    intro hany
    cases hlookup : store.lookup key with
    | none =>
      rw [hlookup] at hany
      cases hany
    | some chal => exact ⟨chal, rfl⟩
  unfold revealFinishSection at h
  dsimp only at h
  split at h
  · next hmoved =>
    split at h
    · next hany =>
      obtain ⟨chal, hlookup⟩ := hfound hany
      cases h
      exact .removed nofun hlookup (hmine hlookup hany) (.inl hmoved)
    · cases h
      exact .left nofun
  · next hmoved =>
    split at h
    · cases h
      exact .left nofun
    next chal hfilter =>
    obtain ⟨hlookup, hmodal⟩ := Option.filter_eq_some_iff.1 hfilter
    have hmodal : chal.modalId = modalId := of_decide_eq_true hmodal
    split at h
    · cases h
      exact .left nofun
    next hlocked =>
    have hopen := Bool.eq_false_iff.2 hlocked
    split at h
    · next verified =>
      split at h
      · next e gate hfinish =>
        cases h
        exact .closed nofun hlookup (GateState.finish_error hfinish)
      · next gate hfinish =>
        cases h
        obtain ⟨hgate, hdigest, htime, rfl⟩ := GateState.finish_ok hfinish
        exact .code (Bool.eq_false_iff.2 hmoved) rfl hlookup hmodal hgate hdigest htime
    · cases h
      exact .closed nofun hlookup (GateState.abort_cases chal.gate attempt)
    split at h
    · next hany =>
      cases h
      exact .removed nofun hlookup (hmine hlookup hany) (.inr hopen)
    · cases h
      exact .left nofun

-- ==== the challenges

structure Continues (chal chal' : OtpChallenge) : Prop where
  code : chal'.code = chal.code
  modalId : chal'.modalId = chal.modalId
  issuedAt : chal'.issuedAt = chal.issuedAt
  isProtected : chal'.isProtected = chal.isProtected
  op : chal'.op = chal.op

theorem Continues.refl (chal : OtpChallenge) : Continues chal chal := ⟨rfl, rfl, rfl, rfl, rfl⟩

theorem OtpChallenge.validate_true (h : chal.validate r code = true) :
    chal.isExpired r.validExpiry = false
    ∧ chal.isLockedOut r.validLockout = false
    ∧ (chal.isProtected = true → chal.gate = .authenticated chal.op.digest)
    ∧ code = chal.code := by
  unfold validate at h
  split at h
  · cases h
  next hlive =>
  split at h
  · cases h
  next hgate =>
  rw [not_or] at hlive
  refine ⟨Bool.eq_false_iff.2 hlive.1, Bool.eq_false_iff.2 hlive.2,
    fun hprotected => ?_, of_decide_eq_true h⟩
  rw [not_and_not_right] at hgate
  exact GateState.isAuthenticatedFor_iff.1 (hgate hprotected)

theorem lookup_of_pruned (h : (pruneExpired r store).lookup key = some chal) :
    store.lookup key = some chal := (lookup_retain_eq_some.1 h).1

/-- An exchange that opens the gate of a challenge: its code is revealed,
on a verification of its operation. -/
def Opens (o : OtpOp) (a : o.Ans) (key : String) (chal : OtpChallenge) : Prop :=
  ∃ attempt deadline verified, (⟨.otp o, a⟩ : DeskExchange)
      = ⟨.otp (.revealFinish key chal.modalId attempt deadline false
        (.ok verified)), .code chal.code⟩
    ∧ verified.digest = chal.op.digest

def Stayed (o : OtpOp) (a : o.Ans) (store : OtpStore) (key : String)
    (chal' : OtpChallenge) : Prop :=
  ∃ chal, store.lookup key = some chal ∧ Continues chal chal'
    ∧ ∀ digest, chal'.gate = .authenticated digest →
      chal.gate = .authenticated digest ∨ Opens o a key chal

theorem stayed {a : o.Ans} (h : store.lookup key = some chal') :
    Stayed o a store key chal' := ⟨chal', h, .refl _, fun _ => .inl⟩

theorem stayed_put {a : o.Ans} {key' : String} {chal₀ chal₁ : OtpChallenge}
    (hleft : ∀ {key chal}, store'.lookup key = some chal →
      store.lookup key = some chal) (h₀ : store'.lookup key' = some chal₀)
    (h : (store'.insert key' chal₁).lookup key = some chal') (hsame : Continues chal₀ chal₁)
    (hgate : ∀ digest, chal₁.gate = .authenticated digest →
      chal₀.gate = .authenticated digest ∨ Opens o a key' chal₀) : Stayed o a store key chal' := by
  rcases lookup_insert_eq_some h with heq | ⟨-, hlookup⟩
  · cases heq
    exact ⟨chal₀, hleft h₀, hsame, hgate⟩
  · exact stayed (hleft hlookup)

theorem OtpOp.Answers.entry_cases
    {nextId epoch : Nat} {a : o.Ans} (h : o.Answers lo hi nextId attempt epoch store a store')
    (hlookup : store'.lookup key = some chal') : Stayed o a store key chal'
    ∨ ∃ code isProtected op auditAction replaced now, (⟨.otp o, a⟩ : DeskExchange)
        = ⟨.otp (.issue key code isProtected op auditAction), .issued nextId replaced⟩
      ∧ lo ≤ now ∧ now ≤ hi
      ∧ chal' = .new code nextId isProtected
        (op.bind "request_id" (toString nextId)) auditAction now := by
  obtain ⟨r, hwithin, h⟩ := h
  cases o with
  | request key' supplied unlocked =>
    left
    cases handled h with
    | full | vaultLocked | needFresh | lockedOut => exact stayed (lookup_of_pruned hlookup)
    | accepted | expired => exact stayed (lookup_of_pruned (lookup_erase_eq_some hlookup).2)
    | reused _ hfound => exact stayed_put lookup_of_pruned hfound hlookup (.refl _) fun _ => .inl
    | @invalid chal₀ code gate lockout _ hfound _ _ hg =>
      refine stayed_put lookup_of_pruned hfound hlookup
        ⟨rfl, rfl, rfl, rfl, rfl⟩ fun digest hauth => .inl ?_
      rw [hg] at hauth
      cases lockout with
      | true => cases hauth
      | false => exact hauth
  | issue key' code isProtected op auditAction =>
    rcases issued h with ⟨-, rfl⟩ | ⟨rfl, -, rfl⟩
    · exact .inl (stayed (lookup_of_pruned hlookup))
    rcases lookup_insert_eq_some hlookup with heq | ⟨-, hfound⟩
    · cases heq
      exact .inr ⟨code, isProtected, op, auditAction, _, r.issued,
        rfl, hwithin.issued.1, hwithin.issued.2, rfl⟩
    · exact .inl (stayed (lookup_of_pruned (lookup_erase_eq_some hfound).2))
  | expire id =>
    left
    rcases expired h with rfl | ⟨key', chal, -, -, rfl⟩
    · exact stayed hlookup
    · exact stayed (lookup_erase_eq_some hlookup).2
  | revealBegin modalId =>
    left
    cases revealing h with
    | unknown | plain | busy => exact stayed (lookup_of_pruned hlookup)
    | begun hfound =>
      exact stayed_put lookup_of_pruned hfound hlookup ⟨rfl, rfl, rfl, rfl, rfl⟩ nofun
  | revealFinish key' modalId attempt' deadline moved result =>
    left
    cases revealed h with
    | left => exact stayed hlookup
    | removed => exact stayed (lookup_erase_eq_some hlookup).2
    | closed _ hfound hg =>
      refine stayed_put id hfound hlookup ⟨rfl, rfl, rfl, rfl, rfl⟩ fun digest hauth => .inl ?_
      rcases hg with hsame | hpending
      · rw [← hsame]
        exact hauth
      · rw [hpending] at hauth
        cases hauth
    | @code chal₀ verified hmoved hresult hfound hmodal _ hdigest _ =>
      subst hmoved hresult hmodal
      exact stayed_put id hfound hlookup ⟨rfl, rfl, rfl, rfl, rfl⟩
        fun _ _ => .inr ⟨attempt', deadline, verified, rfl, hdigest⟩
  | drain =>
    cases h
    cases hlookup

theorem mem_of_lookup (h : store.lookup key = some chal) : key ∈ store := by
  rw [← lookup_isSome, h]
  rfl

theorem OtpOp.Answers.size_le
    {nextId epoch : Nat} {a : o.Ans} (h : o.Answers lo hi nextId attempt epoch store a store')
    (hsize : store.size ≤ OTP_MAX_PENDING) : store'.size ≤ OTP_MAX_PENDING := by
  obtain ⟨r, -, h⟩ := h
  have hpruned : (pruneExpired r store).size ≤ OTP_MAX_PENDING := (size_retain_le _ _).trans hsize
  have hput : ∀ {s : OtpStore} {key : String} {chal : OtpChallenge} (chal' : OtpChallenge), s.lookup
      key = some chal → s.size ≤ OTP_MAX_PENDING → (s.insert key chal').size ≤ OTP_MAX_PENDING := by
    intro s key chal chal' hlookup hle
    rw [size_insert_of_mem (mem_of_lookup hlookup)]
    exact hle
  cases o with
  | request key supplied unlocked =>
    cases handled h with
    | accepted | expired => exact (size_erase_le _ _).trans hpruned
    | reused _ hfound | invalid _ hfound => exact hput _ hfound hpruned
    | _ => exact hpruned
  | issue key code isProtected op auditAction =>
    rcases issued h with ⟨-, rfl⟩ | ⟨-, hadmit, rfl⟩
    · exact hpruned
    rcases of_decide_eq_true hadmit with hmem | hroom
    · have herase := size_erase_of_mem hmem
      have hinsert := size_insert_le ((pruneExpired r store).erase key) key (OtpChallenge.new code
          nextId isProtected (op.bind "request_id" (toString nextId))
          auditAction r.issued)
      omega
    · refine (size_insert_le _ _ _).trans ?_
      exact (Nat.add_le_add_right (size_erase_le _ _) 1).trans hroom
  | expire id =>
    rcases expired h with rfl | ⟨key, chal, -, -, rfl⟩
    · exact hsize
    · exact (size_erase_le _ _).trans hsize
  | revealBegin modalId =>
    cases revealing h with
    | begun hfound => exact hput _ hfound hpruned
    | _ => exact hpruned
  | revealFinish key modalId attempt' deadline moved result =>
    cases revealed h with
    | left => exact hsize
    | removed => exact (size_erase_le _ _).trans hsize
    | closed _ hfound | code _ _ hfound => exact hput _ hfound hsize
  | drain =>
    cases h
    exact Nat.zero_le _

end

end SovereignVault.Desk
