/-
`change_passphrase` is crash-atomic in the credentials.

Four files move: the salt, the live keyring, the staged keyring and the
journal. The salt file decides on which SIDE the disk is, because it is
written after the staged keyring and the journal and before the commit:

- `Old`: the salt is the old one and the live keyring is the original;
- `New`: the salt is the new one; the keyring under the new KEK is
  either still staged, and recovery commits it, or already live.

Each side is closed under every crash of every unlock attempt, right or
wrong passphrase (`Old.attempt`, `New.attempt`).
-/
import SovereignVault.Unlocking

namespace SovereignVault

open Crash Prog Sample Keyring

variable {w : World}

-- ==== the two sides

/-- A passphrase change of a vault that opens: from `p` with `oldSalt`
to `q` with `newSalt`. -/
structure Change where
  base : World
  p : String
  q : String
  oldSalt : Salt
  newSalt : Salt
  live : KeyringFile
  u : Unwrapped
  v : Vault
  root : MasterKey
  ne : q ≠ p
  live_loads : ∀ path, loadOf path (.fromPassphrase p oldSalt) (some live) = .ok u
  opens : openedOf u base.identity base.manifest = .ok (v, root)

namespace Change

variable (c : Change) {Q : Except CoreError CustodyMode → World → Prop} {kr : KeyringFile}

def journal : LifecycleJournal := .changePassphrase c.oldSalt c.newSalt

def disk (j : Option LifecycleJournal) (salt : Salt) (kr : KeyringFile)
    (st : Option KeyringFile) : World :=
  { c.base with
    journal := j, salt := some salt, keyring := some kr, staged := st,
    handle := none }

def Rewrapped (kr : KeyringFile) : Prop :=
  ∀ path, loadOf path (.fromPassphrase c.q c.newSalt) (some kr) = .ok c.u

/-- The side on which the current passphrase opens the vault. -/
inductive Old : World → Prop
  | mk {j : Option LifecycleJournal} (st : Option KeyringFile)
      (hj : j = none ∨ j = some c.journal) : Old (c.disk j c.oldSalt c.live st)

/-- The side on which the new passphrase opens the vault. -/
inductive New : World → Prop
  | pending {kr : KeyringFile} (hkr : c.Rewrapped kr)
      (hne : c.newSalt ≠ c.oldSalt) : New (c.disk (some c.journal) c.newSalt c.live (some kr))
  | committed {j : Option LifecycleJournal} {kr : KeyringFile}
      (hkr : c.Rewrapped kr) (hj : j = none ∨ j = some c.journal) : New (c.disk j c.newSalt kr none)

/-- A completed unlock: the handle holds the original DEKs and the
journal is gone. -/
def Opened (w : World) : Prop :=
  w.journal = none ∧ ∃ h, w.handle = some h ∧ h.vault.keys = c.u.keys
    ∧ h.vault.activeVersion = c.u.activeVersion

variable {c}

variable {w : World} {I : World → Prop} {x : String} {custody : CustodyMode} {pass : Option String}

theorem opened_withHandle (hj : w.journal = none) :
    c.Opened (w.withHandle ⟨c.v, .passphrase, c.root⟩) :=
  ⟨hj, _, rfl, openedOf_keys c.opens⟩

theorem wp_discard_remove {Q : Except CoreError Unit → World → Prop} {j st : _} {salt : Salt}
    (hi : ∀ st', (st' = st ∨ st' = none) → I (c.disk j salt kr st'))
    (hi' : I (c.disk none salt kr none)) (hq : Q (.ok ()) (c.disk none salt kr none)) :
    wp Faults.none I (do discardStaged; removeLifecycle) Q (c.disk j salt kr st) := by
  have hrest : wp Faults.none I removeLifecycle Q (c.disk j salt kr none) :=
    wp_removeFileDurable_none (hi none (.inr rfl)) (fun _ => ⟨hi', hq⟩) <| by
      intro hj
      cases j with
      | none => exact hq
      | some j => cases hj
  simp only [bind_eq, wp_bind]
  refine wp_removeFileDurable_none (hi st (.inl rfl)) (fun _ => ⟨hi none (.inr rfl), hrest⟩) ?_
  intro hst
  cases st with
  | none => exact hrest
  | some st => cases hst

/-- An unlock that fails and leaves the world as it is, at every
point. -/
def Rejected (custody : CustodyMode) (pass : Option String) (w : World) : Prop :=
  wp Faults.none (fun w' => w' = w) (unlock custody pass) (fun r _ => ∃ e, r = .error e) w

variable {j : Option LifecycleJournal} {salt : Salt} {kr : KeyringFile} {st : Option KeyringFile}

theorem wp_recover_pending (hi : I (c.disk (some c.journal) salt kr st)) (h : wp Faults.none I
      (recoverChangePassphrase x c.oldSalt c.newSalt) (fun r w => match r with
        | .ok _ => I w ∧ Q (.ok .passphrase) w
        | .error e => Q (.error e) w)
      (c.disk (some c.journal) salt kr st)) :
    wp Faults.none I (recoverLifecycleForUnlock .passphrase (some x)) Q
      (c.disk (some c.journal) salt kr st) := by
  simp only [recoverLifecycleForUnlock, bind_eq, wp_bind]
  refine observes_readLifecycle.wp_none hi ?_
  simp only [disk, journal, seqPost_ok, recoverPending,
    ne_eq, not_true_eq_false, if_false, requirePassphrase, bind_eq, bind_ret_ok, wp_bind]
  refine h.post fun r w _ hr => ?_
  cases r with
  | ok _ | error e => exact hr

theorem wp_recover_live {u : Unwrapped} (hsalt : salt = c.oldSalt ∨ salt = c.newSalt)
    (hload : loadOf KEYRING_FILE (.fromPassphrase x salt)
      (some kr) = .ok u) (hi : ∀ st', (st' = st ∨ st' = none) →
      I (c.disk (some c.journal) salt kr st')) (hi' : I (c.disk none salt kr none))
    (hq : Q (.ok .passphrase) (c.disk none salt kr none)) :
    wp Faults.none I (recoverLifecycleForUnlock .passphrase (some x)) Q
      (c.disk (some c.journal) salt kr st) := by
  have hst := hi st (.inl rfl)
  refine wp_recover_pending hst ?_
  simp only [recoverChangePassphrase, bind_eq, wp_bind]
  refine (observes_readRequired _ _).wp_none hst ?_
  by_cases hold : salt = c.oldSalt
  · subst hold
    simp only [disk, seqPost_ok, if_true, wp_bind]
    refine (observes_load _).wp_none hst ?_
    simp only [hload, seqPost_ok]
    exact wp_discard_remove hi hi' ⟨hi', hq⟩
  · obtain rfl := hsalt.resolve_left hold
    simp only [disk, seqPost_ok, hold, if_false, if_true, wp_bind, wp_attempt]
    refine (observes_load _).wp_none hst ?_
    simp only [hload, seqPost_ok]
    exact wp_discard_remove hi hi' ⟨hi', hq⟩

theorem wp_recover_refused {e : CoreError} (hsalt : salt = c.oldSalt ∨ salt = c.newSalt)
    (hload : loadOf KEYRING_FILE (.fromPassphrase x salt)
      (some kr) = .error e) (hstaged : salt ≠ c.oldSalt → ∃ e, loadOf
      STAGED_KEYRING_FILE (.fromPassphrase x salt) st = .error e)
    (hi : I (c.disk (some c.journal) salt kr st))
    (hq : ∀ e, Q (.error e) (c.disk (some c.journal) salt kr st)) :
    wp Faults.none I (recoverLifecycleForUnlock .passphrase (some x)) Q
      (c.disk (some c.journal) salt kr st) := by
  refine wp_recover_pending hi ?_
  simp only [recoverChangePassphrase, bind_eq, wp_bind]
  refine (observes_readRequired _ _).wp_none hi ?_
  by_cases hold : salt = c.oldSalt
  · subst hold
    simp only [disk, seqPost_ok, if_true, wp_bind]
    refine (observes_load _).wp_none hi ?_
    simp only [hload, seqPost_error]
    exact hq e
  · obtain rfl := hsalt.resolve_left hold
    obtain ⟨e', he'⟩ := hstaged hold
    simp only [disk, seqPost_ok, hold, if_false, if_true, wp_bind, wp_attempt]
    refine (observes_load _).wp_none hi ?_
    simp only [hload, seqPost_ok, wp_bind]
    refine (observes_loadStaged _).wp_none hi ?_
    simp only [he', seqPost_error]
    exact hq e'

theorem wp_recover_none (hj : w.journal = none) (hi : I w)
    (hq : Q (.ok custody) w) : wp Faults.none I (recoverLifecycleForUnlock custody pass) Q w := by
  simp only [recoverLifecycleForUnlock, bind_eq, wp_bind]
  refine observes_readLifecycle.wp_none hi ?_
  simp only [hj, seqPost_ok]
  exact ⟨hi, hq⟩

-- ==== the old side

theorem Old.opens_p {st : Option KeyringFile}
    (hi : ∀ w, c.Old w.crashed → I w) : wp Faults.none I (unlockWithPassphrase (some c.p))
      (fun r w => r = .ok () ∧ c.Opened w) (c.disk none c.oldSalt c.live st) :=
  wp_unlockWithPassphrase_ok trivial rfl (c.live_loads _)
    c.opens (hi _ (.mk st (.inl rfl))) (hi _ (.mk st (.inl rfl))) ⟨rfl, opened_withHandle rfl⟩

theorem Old.unlock (h : c.Old w) :
    wp Faults.none (fun w => c.Old w.crashed) (unlock .passphrase (some c.p))
      (fun r w => r = .ok () ∧ c.Opened w) w := by
  obtain ⟨st, hj⟩ := h
  refine wp_unlock_passphrase rfl (.mk st hj) ?_
  obtain rfl | rfl := hj
  · exact wp_recover_none rfl (.mk st (.inl rfl)) (Old.opens_p fun _ h => h)
  · exact wp_recover_live (.inl rfl) (c.live_loads _)
      (fun st' _ => .mk st' (.inr rfl)) (.mk none (.inl rfl)) (Old.opens_p fun _ h => h)

theorem Old.reject (h : c.Old w) (hx : x ≠ c.p) : Rejected .passphrase (some x) w := by
  obtain ⟨st, hj⟩ := h
  have hne : MasterKey.fromPassphrase c.p c.oldSalt ≠ .fromPassphrase x c.oldSalt := by
    simpa using fun h => absurd h.symm hx
  obtain ⟨e, he⟩ := loadOf_other (c.live_loads KEYRING_FILE) hne
  refine wp_unlock_passphrase rfl rfl ?_
  obtain rfl | rfl := hj
  · exact wp_recover_none rfl rfl (wp_unlockWithPassphrase_error rfl rfl he rfl ⟨e, rfl⟩)
  · exact wp_recover_refused (.inl rfl) he (absurd rfl) rfl fun e => ⟨e, rfl⟩

-- ==== the new side

theorem New.opens_q (hkr : c.Rewrapped kr) :
    wp Faults.none (fun w => c.New w.crashed) (unlockWithPassphrase (some c.q))
      (fun r w => r = .ok () ∧ c.Opened w) (c.disk none c.newSalt kr none) :=
  wp_unlockWithPassphrase_ok trivial rfl (hkr _)
    c.opens (.committed hkr (.inl rfl)) (.committed hkr (.inl rfl)) ⟨rfl, opened_withHandle rfl⟩

theorem live_refuses (hne : c.newSalt ≠ c.oldSalt) (path : String) : ∃ e, loadOf path
      (.fromPassphrase x c.newSalt) (some c.live) = .error e :=
  loadOf_other (c.live_loads path) (by simpa using fun _ h => hne h.symm)

theorem Rewrapped.refuses (hkr : c.Rewrapped kr) (hx : x ≠ c.q) (path : String) :
    ∃ e, loadOf path (.fromPassphrase x c.newSalt) (some kr)
      = .error e :=
  loadOf_other (hkr path) (by simpa using fun h => absurd h.symm hx)

theorem New.unlock (h : c.New w) :
    wp Faults.none (fun w => c.New w.crashed) (unlock .passphrase (some c.q))
      (fun r w => r = .ok () ∧ c.Opened w) w := by
  cases h with
  | @pending kr hkr hne =>
    have hp : c.New (c.disk (some c.journal) c.newSalt c.live (some kr)) := .pending hkr hne
    obtain ⟨e, he⟩ := live_refuses (c := c) (x := c.q) hne KEYRING_FILE
    refine wp_unlock_passphrase rfl hp (wp_recover_pending hp ?_)
    simp only [recoverChangePassphrase, bind_eq, wp_bind]
    refine (observes_readRequired _ _).wp_none hp ?_
    simp only [disk, seqPost_ok, hne, if_false, if_true, wp_bind, wp_attempt]
    -- the live keyring is still the original: the staged one is promoted
    refine (observes_load _).wp_none hp ?_
    simp only [he, seqPost_ok, wp_bind]
    refine (observes_loadStaged _).wp_none hp ?_
    simp only [hkr STAGED_KEYRING_FILE, seqPost_ok, wp_bind, commitStaged, bind_eq]
    refine (observes_readRequired _ _).wp_none hp ?_
    simp only [seqPost_ok]
    refine wp_writeAtomic_none hp (.committed hkr (.inr rfl)) ?_
    simp only [seqPost_ok]
    refine wp_removeFileDurable_none (.committed hkr (.inr rfl))
      (fun _ => ⟨.committed hkr (.inl rfl), .committed hkr (.inl rfl), New.opens_q hkr⟩) ?_
    intro h
    cases h
  | @committed j kr hkr hj =>
    have hc : c.New (c.disk j c.newSalt kr none) := .committed hkr hj
    refine wp_unlock_passphrase rfl hc ?_
    obtain rfl | rfl := hj
    · exact wp_recover_none rfl hc (New.opens_q hkr)
    refine wp_recover_live (.inr rfl) (hkr _) (fun st' hst => ?_)
      (.committed hkr (.inl rfl)) (New.opens_q hkr)
    obtain rfl | rfl := hst
    · exact hc
    · exact hc

theorem New.reject (h : c.New w) (hx : x ≠ c.q) : Rejected .passphrase (some x) w := by
  cases h with
  | @pending kr hkr hne =>
    obtain ⟨e, he⟩ := live_refuses (c := c) (x := x) hne KEYRING_FILE
    refine wp_unlock_passphrase rfl rfl ?_
    exact wp_recover_refused (.inr rfl) he (fun _ => hkr.refuses hx _) rfl fun e => ⟨e, rfl⟩
  | @committed j kr hkr hj =>
    obtain ⟨e, he⟩ := hkr.refuses hx KEYRING_FILE
    refine wp_unlock_passphrase rfl rfl ?_
    obtain rfl | rfl := hj
    · exact wp_recover_none rfl rfl (wp_unlockWithPassphrase_error rfl rfl he rfl ⟨e, rfl⟩)
    · exact wp_recover_refused (.inr rfl) he (fun _ => ⟨_, rfl⟩) rfl fun e => ⟨e, rfl⟩

-- ==== attempts of any kind

/-- Other custody modes, and passphrase custody without a passphrase,
are refused on both sides. -/
theorem reject_other (hj : j = none ∨ j = some c.journal)
    (h : custody ≠ .passphrase ∨ pass = none) : Rejected custody pass (c.disk j salt kr st) := by
  simp only [Rejected, unlock, bind_eq, wp_bind]
  refine observes_acquireLock.wp_none rfl ?_
  simp only [disk, Option.isSome_none, Bool.false_eq_true, if_false,
    seqPost_ok, wp_bind, recoverLifecycleForUnlock, bind_eq]
  refine observes_readLifecycle.wp_none rfl ?_
  obtain rfl | rfl := hj
  · cases custody with
    | osKeychain =>
      simp only [seqPost_ok, pure_eq, wp_ret, true_and,
        openNormal, unlockWithKeychain, bind_eq, wp_bind]
      refine observes_get.wp_none rfl ?_
      exact ⟨rfl, _, rfl⟩
    | recovery => exact ⟨rfl, rfl, _, rfl⟩
    | passphrase =>
      obtain hc | rfl := h
      · exact absurd rfl hc
      · exact ⟨rfl, rfl, _, rfl⟩
  · cases custody with
    | osKeychain | recovery => exact ⟨rfl, _, rfl⟩
    | passphrase =>
      obtain hc | rfl := h
      · exact absurd rfl hc
      · exact ⟨rfl, _, rfl⟩

theorem Old.attempt {w w' : World} (h : c.Old w)
    (hr : Reaches Faults.none (SovereignVault.unlock custody pass) w w') : c.Old w'.crashed := by
  have hstay (hrej : Rejected custody pass w) : c.Old w'.crashed := by
    have hw : w' = w := hrej.reaches hr
    subst hw
    obtain ⟨st, hj⟩ := h
    exact .mk st hj
  by_cases hp : custody = .passphrase ∧ pass = some c.p
  · obtain ⟨rfl, rfl⟩ := hp
    exact h.unlock.reaches hr
  apply hstay
  cases pass with
  | none =>
    obtain ⟨st, hj⟩ := h
    exact reject_other hj (.inr rfl)
  | some x =>
    by_cases hc : custody = .passphrase
    · subst hc
      exact h.reject fun hx => hp ⟨rfl, by rw [hx]⟩
    · obtain ⟨st, hj⟩ := h
      exact reject_other hj (.inl hc)

theorem New.attempt {w w' : World} (h : c.New w)
    (hr : Reaches Faults.none (SovereignVault.unlock custody pass) w w') : c.New w'.crashed := by
  have hcrash : w.crashed = w := by
    cases h with
    | pending | committed => rfl
  have hother (ho : custody ≠ .passphrase ∨ pass = none) : Rejected custody pass w := by
    cases h with
    | pending hkr hne => exact reject_other (.inr rfl) ho
    | committed hkr hj => exact reject_other hj ho
  have hstay (hrej : Rejected custody pass w) : c.New w'.crashed := by
    have hw : w' = w := hrej.reaches hr
    rw [hw, hcrash]
    exact h
  by_cases hc : custody = .passphrase
  · cases pass with
    | none => exact hstay (hother (.inr rfl))
    | some x =>
      subst hc
      by_cases hx : x = c.q
      · subst hx
        exact h.unlock.reaches hr
      · exact hstay (h.reject hx)
  · exact hstay (hother (.inl hc))

end Change

theorem Change.wp_commit (c : Change) {ent : Entropy}
    (hsalt : ent.salt = c.newSalt) {kr : KeyringFile}
    (hkr : c.Rewrapped kr) (st : Option KeyringFile) (h : Option VaultHandle) :
    wp Faults.none (fun w => c.Old w.crashed ∨ c.New w.crashed) (do
        writeStagedKeyring kr
        writeLifecycle (.changePassphrase c.oldSalt ent.salt)
        writeSalt ent.salt
        commitStaged
        removeLifecycle)
      (fun _ _ => True)
      { c.disk none c.oldSalt c.live st with handle := h } := by
  have hold : ∀ {j : Option LifecycleJournal} {st : Option KeyringFile},
      (j = none ∨ j = some c.journal) → c.Old (c.disk j c.oldSalt c.live st)
          ∨ c.New (c.disk j c.oldSalt c.live st) :=
    fun hj => .inl (.mk _ hj)
  -- between the salt write and the commit the salts decide the side
  have hmid : c.Old (c.disk (some c.journal) c.newSalt c.live (some kr))
      ∨ c.New (c.disk (some c.journal) c.newSalt c.live (some kr)) := by
    by_cases hs : c.newSalt = c.oldSalt
    · rw [hs]
      exact hold (.inr rfl)
    · exact .inr (.pending hkr hs)
  have hnew : ∀ {j : Option LifecycleJournal}, (j = none ∨ j = some c.journal) →
        c.Old (c.disk j c.newSalt kr none)
          ∨ c.New (c.disk j c.newSalt kr none) :=
    fun hj => .inr (.committed hkr hj)
  simp only [bind_eq, wp_bind, hsalt]
  refine wp_writeAtomic_none (hold (.inl rfl)) (hold (.inl rfl)) ?_
  simp only [seqPost_ok, wp_bind]
  refine wp_writeAtomic_none (hold (.inl rfl)) (hold (.inr rfl)) ?_
  simp only [seqPost_ok, wp_bind]
  refine wp_writeAtomic_none (hold (.inr rfl)) hmid ?_
  simp only [seqPost_ok, wp_bind, commitStaged, bind_eq]
  refine (observes_readRequired _ _).wp_none hmid ?_
  simp only [disk, seqPost_ok]
  refine wp_writeAtomic_none hmid (hnew (.inr rfl)) ?_
  simp only [seqPost_ok]
  exact wp_removeFileDurable_none (hnew (.inr rfl))
    (fun _ => ⟨hnew (.inl rfl), trivial⟩) fun _ => trivial

theorem Change.wp_change (c : Change)
    (self : VaultHandle) (ent : Entropy) (hsalt : ent.salt = c.newSalt) (st : Option KeyringFile)
    (h : Option VaultHandle) : wp Faults.none (fun w => c.Old w.crashed ∨ c.New w.crashed)
      (changePassphrase self c.p c.q ent) (fun _ _ => True)
      { c.disk none c.oldSalt c.live st with handle := h } := by
  have hi : ∀ st', c.Old (c.disk none c.oldSalt c.live st')
      ∨ c.New (c.disk none c.oldSalt c.live st') :=
    fun st' => .inl (.mk st' (.inl rfl))
  have hlive := c.live_loads KEYRING_FILE
  have hread := parsed_of_loadOf hlive
  simp only [changePassphrase]
  split
  · exact ⟨hi st, trivial⟩
  simp only [bind_eq, wp_bind]
  refine (observes_derivePassphraseKek _).wp_none (hi st) ?_
  simp only [disk, seqPost_ok, wp_bind]
  refine (observes_load _).wp_none (hi st) ?_
  simp only [hlive, seqPost_ok, wp_bind]
  cases validateNewPassphrase c.q with
  | error e => exact ⟨hi st, trivial⟩
  | ok _ =>
    refine ⟨hi st, ?_⟩
    simp only [seqPost_ok, wp_bind]
    refine (observes_readRequired _ _).wp_none (hi st) ?_
    simp only [seqPost_ok, wp_bind, stageRewrapUnderNewKek, bind_eq, readKeyring]
    refine (observes_readKeyringFile _ _).wp_none (hi st) ?_
    simp only [hread, seqPost_ok, wp_bind]
    cases hes : rewrapEntries (.fromPassphrase c.p c.oldSalt)
        (.fromPassphrase c.q ent.salt) c.live.entries with
    | error e => exact ⟨hi st, trivial⟩
    | ok es' =>
      refine ⟨hi st, ?_⟩
      simp only [seqPost_ok]
      have hkr : c.Rewrapped { c.live with entries := es' } := by
        intro path
        rw [hsalt] at hes
        exact loadOf_rewrap hlive hes
      exact (wp_bind _ _ _ _).1 (c.wp_commit hsalt hkr st h)

-- ==== the theorem

/-- The passphrase unlocks: every DEK of `u`, its active version, and no
journal left. -/
def Unlocks (w : World) (x : String) (u : Unwrapped) : Prop :=
  ((unlock .passphrase (some x)).run w).1 = .ok ()
    ∧ ((unlock .passphrase (some x)).run w).2.journal = none
    ∧ ∃ h, ((unlock .passphrase (some x)).run w).2.handle = some h
      ∧ h.vault.keys = u.keys ∧ h.vault.activeVersion = u.activeVersion

def Refuses (w : World) (x : String) : Prop :=
  ∃ e, ((unlock .passphrase (some x)).run w).1 = .error e

variable {c : Change}

theorem Change.Old.later {w' : World} (h : c.Old w) (hl : Later w w') : c.Old w' := by
  induction hl with
  | refl => exact h
  | attempt _ _ _ hr ih => exact ih.attempt hr

theorem Change.New.later {w' : World} (h : c.New w) (hl : Later w w') : c.New w' := by
  induction hl with
  | refl => exact h
  | attempt _ _ _ hr ih => exact ih.attempt hr

theorem Change.Old.verdict (h : c.Old w) : Unlocks w c.p c.u ∧ Refuses w c.q :=
  ⟨h.unlock.run, (h.reject c.ne).run⟩

theorem Change.New.verdict (h : c.New w) : Unlocks w c.q c.u ∧ Refuses w c.p :=
  ⟨h.unlock.run, (h.reject c.ne.symm).run⟩

/-- **A passphrase change is crash-atomic in the credentials.** Stop it,
and any unlocks after it, anywhere: throughout, exactly one of the two
passphrases unlocks, always the same one, to the original DEKs. -/
theorem changePassphrase_crash_atomic {w₀ w : World} {self : VaultHandle}
    {p q : String} {ent : Entropy} {u : Unwrapped} (hrest : AtRest w₀ p u)
    (hpq : q ≠ p) (hcrash : Reaches Faults.none (changePassphrase self p q ent) w₀ w) :
    (∀ w', Later w.crashed w' → Unlocks w' p u ∧ Refuses w' q)
      ∨ ∀ w', Later w.crashed w' → Unlocks w' q u ∧ Refuses w' p := by
  obtain ⟨salt, hsalt, hload⟩ := hrest.loads
  obtain ⟨v, root, hopen⟩ := hrest.opens
  cases hk : w₀.keyring with
  | none => rw [hk] at hload; cases hload
  | some live =>
    rw [hk] at hload
    let c : Change :=
      { base := w₀, p := p, q := q, oldSalt := salt, newSalt := ent.salt,
        live := live, u := u, v := v, root := root, ne := hpq,
        live_loads := fun _ => hload, opens := hopen }
    have hw₀ : w₀ = { c.disk none c.oldSalt c.live w₀.staged with
        handle := w₀.handle } := by
      simp only [Change.disk, c, ← hk, ← hsalt, ← hrest.journal]
    have hwp := c.wp_change self ent rfl w₀.staged w₀.handle
    rw [← hw₀] at hwp
    obtain hold | hnew := hwp.reaches hcrash
    · exact .inl fun w' hl => (hold.later hl).verdict
    · exact .inr fun w' hl => (hnew.later hl).verdict

theorem changePassphrase_crash_atomic_sample :
    AtRest Sample.vault pass (Unwrapped.single dek 1)
      ∧ ((∀ w', Later ((changePassphrase handle pass "another long passphrase" entropy).haltAfter 5
              Sample.vault).crashed w' → Unlocks w' pass (Unwrapped.single dek 1)
            ∧ Refuses w' "another long passphrase")
        ∨ ∀ w', Later ((changePassphrase handle pass "another long passphrase" entropy).haltAfter 5
              Sample.vault).crashed w' → Unlocks w' "another long passphrase"
              (Unwrapped.single dek 1)
            ∧ Refuses w' pass) :=
  ⟨atRest_sample, changePassphrase_crash_atomic atRest_sample (by decide)
    (haltAfter_reaches ..)⟩

end SovereignVault
