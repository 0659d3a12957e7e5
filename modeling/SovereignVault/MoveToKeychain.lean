/-
`move_to_os_keychain` never strands the vault.

Three stores move: the keychain entry, the staged and live keyring, the
salt. Recovery tries the keys the keychain holds on both keyrings. At
every crash point (`Moving`) the live keyring opens to the original DEKs,
under the passphrase KEK while the salt is still there (`idle`,
`pending`), or under a key the keychain holds (`moved`, `done`).

Nothing is assumed about the entries the keychain held before. Once the
move is `done` the vault opens with keychain custody, and only so.
-/
import SovereignVault.Unlocking

namespace SovereignVault

open Crash Prog Sample Keyring

-- ==== candidates

section Candidates

variable {own legacy : Option Credential} {l : List MasterKey} {k : MasterKey}

theorem mem_entries {credential : Credential} :
    credential ∈ own.toList ++ (if legacy = own then [] else legacy.toList)
      ↔ own = some credential ∨ legacy = some credential := by
  by_cases h : legacy = own
  · simp [h]
  · simp [h]

theorem mem_decoded {entries : List Credential} :
    k ∈ (entries.map decodeKeychainKek).filterMap Except.toOption
      ↔ .key k ∈ entries := by
  induction entries with
  | nil => simp
  | cons credential entries ih =>
    cases credential with
    | key k' =>
      simp [decodeKeychainKek, Except.toOption] at ih ⊢
      rw [ih]
    | malformed text =>
      simp [decodeKeychainKek, Except.toOption] at ih ⊢
      exact ih

theorem held_of_mem_kekCandidates (h : kekCandidates own legacy = .ok l)
    (hk : k ∈ l) : Held own legacy k := by
  rw [kekCandidates] at h
  split at h
  · cases h
  · rw [Except.ok.injEq] at h
    subst h
    exact mem_entries.1 (mem_decoded.1 hk)

theorem mem_kekCandidates_of_held (h : Held own legacy k) :
    ∃ l, kekCandidates own legacy = .ok l ∧ k ∈ l := by
  have hmem := mem_decoded.2 (mem_entries.2 h)
  rw [kekCandidates]
  split
  · next hnil _ =>
    rw [hnil] at hmem
    cases hmem
  · exact ⟨_, rfl, hmem⟩

end Candidates

theorem wp_loadKeychainKekCandidates {I : World → Prop} {w : World}
    {Q : Except CoreError (List MasterKey) → World → Prop} (hav : w.keychainAvailable = true)
    (hi : I w) (hq : Q (kekCandidates w.scopedKek w.legacyKek) w) :
    wp Faults.none I loadKeychainKekCandidates Q w := by
  simp only [loadKeychainKekCandidates, bind_eq, wp_bind]
  refine wp_loadScoped hav hi ?_
  simp only [seqPost_ok, wp_bind]
  exact wp_loadLegacy hav hi ⟨hi, hq⟩

-- ==== the invariant

/-- A custody move of a vault that opens under the passphrase `p`. -/
structure Move where
  base : World
  p : String
  salt : Salt
  live : KeyringFile
  u : Unwrapped
  v : Vault
  root : MasterKey
  live_loads : ∀ path, loadOf path (.fromPassphrase p salt) (some live) = .ok u
  opens : openedOf u base.identity base.manifest = .ok (v, root)

namespace Move

variable (c : Move) {u' : Unwrapped} {path : String}
  (custody : CustodyMode) (pass : Option String)

/-- The disk and the keychain of the move: only these differ from the
vault before. -/
def disk (j : Option LifecycleJournal) (s : Option Salt)
    (kr : KeyringFile) (st : Option KeyringFile) (own : Option Credential) : World :=
  { c.base with
    journal := j, salt := s, keyring := some kr, staged := st,
    scopedKek := own, handle := none }

def Opens (kr : KeyringFile) (k : MasterKey) : Prop :=
  ∀ path, loadOf path k (some kr) = .ok c.u

def StagedOk (st : Option KeyringFile) : Prop :=
  ∀ kr, st = some kr → ∃ k, c.Opens kr k

/-- The states crashes of the move and of later unlocks can leave. -/
inductive Moving : World → Prop
  | idle (st : Option KeyringFile) (own : Option Credential) :
      Moving (c.disk none (some c.salt) c.live st own)
  | pending {st : Option KeyringFile} (own : Option Credential)
      (hav : c.base.keychainAvailable = true) (hst : c.StagedOk st) :
      Moving (c.disk (some .moveToKeychain) (some c.salt) c.live st own)
  | moved {s : Option Salt}
      {kr : KeyringFile} {st : Option KeyringFile} {own : Option Credential} {k : MasterKey}
      (hav : c.base.keychainAvailable = true) (hst : c.StagedOk st) (hk : c.Opens kr k)
      (hheld : Held own c.base.legacyKek k) : Moving (c.disk (some .moveToKeychain) s kr st own)
  | done {kr : KeyringFile} {st : Option KeyringFile} {own : Option Credential}
      {k : MasterKey} (hav : c.base.keychainAvailable = true) (hk : c.Opens kr k)
      (hheld : Held own c.base.legacyKek k) : Moving (c.disk none none kr st own)

def Finished (w : World) : Prop :=
  w.journal = none ∧ (∃ h, w.handle = some h ∧ h.vault.keys = c.u.keys
        ∧ h.vault.activeVersion = c.u.activeVersion)
    ∧ ((∃ s, w.salt = some s ∧ loadOf KEYRING_FILE
          (.fromPassphrase c.p s) w.keyring = .ok c.u)
        ∨ w.salt = none ∧ ∃ k, w.scopedKek = some (.key k)
          ∧ loadOf KEYRING_FILE k w.keyring = .ok c.u)

variable {c}

theorem stagedOk_none : c.StagedOk none := by
  intro kr h
  cases h

theorem Opens.of_load {kr : KeyringFile} {k k' : MasterKey} (hk : c.Opens kr k)
    (h : loadOf path k' (some kr) = .ok u') : c.Opens kr k' := by
  by_cases hne : k = k'
  · subst hne
    exact hk
  · obtain ⟨e, he⟩ := loadOf_other (hk path) hne
    rw [he] at h
    cases h

theorem StagedOk.of_load {st : Option KeyringFile} (hst : c.StagedOk st) {k : MasterKey}
    (h : loadOf path k st = .ok u') : ∃ kr, st = some kr ∧ c.Opens kr k := by
  cases st with
  | none => cases h
  | some kr =>
    obtain ⟨k', hk'⟩ := hst kr rfl
    exact ⟨kr, rfl, hk'.of_load h⟩

-- ==== finishing the move

variable {s : Option Salt} {kr : KeyringFile} {st : Option KeyringFile}
  {own : Option Credential} {k : MasterKey}

def Settles (c : Move) (own : Option Credential) (w : World) : Prop :=
  ∃ kr k, c.Opens kr k ∧ Held own c.base.legacyKek k ∧ w = c.disk none none kr none own

theorem wp_dropSalt (s : Option Salt) (hav : c.base.keychainAvailable = true) (hk : c.Opens kr k)
    (hheld : Held own c.base.legacyKek k) : wp Faults.none (fun w => c.Moving w.crashed)
      (do removeSalt; removeLifecycle) (fun r w => r = .ok () ∧ c.Settles own w)
      (c.disk (some .moveToKeychain) s kr none own) := by
  have hmoved (s : Option Salt) : c.Moving (c.disk (some .moveToKeychain) s kr none own) :=
    .moved hav stagedOk_none hk hheld
  have hrest : wp Faults.none (fun w => c.Moving w.crashed) removeLifecycle
      (fun r w => r = .ok () ∧ c.Settles own w)
      (c.disk (some .moveToKeychain) none kr none own) := by
    refine wp_removeFileDurable_none (hmoved none)
      (fun _ => ⟨.done hav hk hheld, rfl, kr, k, hk, hheld, rfl⟩) ?_
    intro h
    cases h
  simp only [bind_eq, wp_bind]
  refine wp_removeFileDurable_none (hmoved s) (fun _ => ⟨hmoved none, hrest⟩) ?_
  intro hs
  cases s with
  | none => exact hrest
  | some s => cases hs

theorem wp_finishMoveToKeychain (hav : c.base.keychainAvailable = true)
    (hst : c.StagedOk st) (hkr : ∃ k, c.Opens kr k) (hheld : Held own c.base.legacyKek k)
    (hopen : c.Opens kr k ∨ ∃ kr', st = some kr' ∧ c.Opens kr' k)
    (hi : c.Moving (c.disk (some .moveToKeychain) s kr st own)) :
    wp Faults.none (fun w => c.Moving w.crashed) (finishMoveToKeychain k)
      (fun r w => r = .ok () ∧ c.Settles own w) (c.disk (some .moveToKeychain) s kr st own) := by
  obtain ⟨k₀, hk₀⟩ := hkr
  simp only [finishMoveToKeychain, bind_eq, wp_bind, wp_attempt]
  refine (observes_load k).wp_none hi ?_
  simp only [disk, seqPost_ok]
  cases hl : loadOf KEYRING_FILE k (some kr) with
  | ok u' =>
    -- the live keyring is already the moved one
    have hk : c.Opens kr k := hk₀.of_load hl
    have hrest := wp_dropSalt s hav hk hheld
    simp only [wp_bind]
    refine wp_removeFileDurable_none hi (fun _ => ⟨.moved hav stagedOk_none hk hheld, hrest⟩) ?_
    intro h
    cases st with
    | none => exact hrest
    | some st => cases h
  | error e =>
    obtain hk | ⟨kr', rfl, hk'⟩ := hopen
    · rw [hk] at hl
      cases hl
    simp only [wp_bind]
    refine (observes_loadStaged k).wp_none hi ?_
    simp only [hk' STAGED_KEYRING_FILE, seqPost_ok, wp_bind,
      commitStaged, bind_eq]
    refine (observes_readRequired _ _).wp_none hi ?_
    simp only [seqPost_ok]
    refine wp_writeAtomic_none hi (.moved hav stagedOk_none hk' hheld) ?_
    exact wp_dropSalt _ hav hk' hheld

theorem wp_opensLiveOrStaged {I : World → Prop} {Q : Except CoreError Bool → World → Prop}
    (hst : c.StagedOk st) (hkr : ∃ k, c.Opens kr k) {j : Option LifecycleJournal}
    (hi : I (c.disk j s kr st own)) (hyes : (c.Opens kr k ∨ ∃ kr', st = some kr' ∧ c.Opens kr' k) →
      Q (.ok true) (c.disk j s kr st own))
    (hno : ¬ c.Opens kr k → Q (.ok false) (c.disk j s kr st own)) :
    wp Faults.none I (opensLiveOrStaged k) Q (c.disk j s kr st own) := by
  obtain ⟨k₀, hk₀⟩ := hkr
  simp only [opensLiveOrStaged, bind_eq, wp_bind, wp_attempt]
  refine (observes_load k).wp_none hi ?_
  simp only [disk, seqPost_ok] at hyes hno ⊢
  cases hl : loadOf KEYRING_FILE k (some kr) with
  | ok u' => exact ⟨hi, hyes (.inl (hk₀.of_load hl))⟩
  | error e =>
    have hnot : ¬ c.Opens kr k := by
      intro h
      rw [h] at hl
      cases hl
    simp only [wp_bind, wp_attempt]
    refine (observes_loadStaged k).wp_none hi ?_
    simp only [seqPost_ok]
    cases hs : loadOf STAGED_KEYRING_FILE k st with
    | ok u' => exact ⟨hi, hyes (.inr (hst.of_load hs))⟩
    | error e' => exact ⟨hi, hno hnot⟩

-- ==== recovery

/-- What the recovery of a pending move ends with; it is never refused to
the original passphrase. -/
inductive Recovered (c : Move) (custody : CustodyMode)
    (pass : Option String) (own : Option Credential) : Except CoreError CustodyMode → World → Prop
  | finished {w : World} (h : c.Settles own w) : Recovered c custody pass own (.ok .osKeychain) w
  | rolledBack (hp : pass = some c.p) (hc : custody = .passphrase) :
      Recovered c custody pass own (.ok .passphrase) (c.disk none (some c.salt) c.live none own)
  | refused {e : CoreError} {w : World}
      (hp : ¬ (custody = .passphrase ∧ pass = some c.p)) : Recovered c custody pass own (.error e) w

theorem wp_rollbackMove (hav : c.base.keychainAvailable = true)
    (hst : c.StagedOk st) : wp Faults.none (fun w => c.Moving w.crashed)
      (recoverMoveToKeychain custody pass []) (c.Recovered custody pass own)
      (c.disk (some .moveToKeychain) (some c.salt) c.live st own) := by
  have hi : c.Moving (c.disk (some .moveToKeychain) (some c.salt) c.live st own) :=
    .pending own hav hst
  rw [recoverMoveToKeychain]
  by_cases hc : custody = .passphrase
  · rw [if_pos hc]
    cases pass with
    | none => exact ⟨hi, .refused (by simp)⟩
    | some x =>
      simp only [requirePassphrase, bind_eq, bind_ret_ok, wp_bind]
      refine (observes_derivePassphraseKek x).wp_none hi ?_
      simp only [disk, seqPost_ok, wp_bind]
      refine (observes_load _).wp_none hi ?_
      by_cases hx : x = c.p
      · subst hx
        have hidle : c.Moving (c.disk none (some c.salt) c.live none own) := .idle none own
        have hdrop : wp Faults.none (fun w => c.Moving w.crashed)
            (removeLifecycle.bind fun _ => pure CustodyMode.passphrase)
            (c.Recovered custody (some c.p) own)
            (c.disk (some .moveToKeychain) (some c.salt) c.live none own) := by
          rw [wp_bind]
          refine wp_removeFileDurable_none (.pending own hav stagedOk_none)
            (fun _ => ⟨hidle, hidle, .rolledBack rfl hc⟩) ?_
          intro h
          cases h
        simp only [c.live_loads, seqPost_ok, wp_bind]
        refine wp_removeFileDurable_none hi (fun _ => ⟨.pending own hav stagedOk_none, hdrop⟩) ?_
        intro h
        cases st with
        | none => exact hdrop
        | some st => cases h
      · have hne : MasterKey.fromPassphrase c.p c.salt
            ≠ .fromPassphrase x c.salt := by
          simpa using fun h => absurd h.symm hx
        obtain ⟨e, he⟩ := loadOf_other (c.live_loads KEYRING_FILE) hne
        simp only [he, seqPost_error]
        exact .refused (by simpa using fun _ => hx)
  · rw [if_neg hc]
    exact ⟨hi, .refused fun h => hc h.1⟩

/-- By induction on the candidates: one of those left opens the live
keyring, or the passphrase is there to roll back with. -/
theorem wp_recoverMoveToKeychain (hav : c.base.keychainAvailable = true) (hst : c.StagedOk st)
    (hkr : ∃ k, c.Opens kr k) (hi : c.Moving (c.disk (some .moveToKeychain) s kr st own))
    (l : List MasterKey) (hl : ∀ k ∈ l, Held own c.base.legacyKek k)
    (hfind : (∃ k ∈ l, c.Opens kr k) ∨ kr = c.live ∧ s = some c.salt) :
    wp Faults.none (fun w => c.Moving w.crashed) (recoverMoveToKeychain custody pass l)
      (c.Recovered custody pass own) (c.disk (some .moveToKeychain) s kr st own) := by
  induction l with
  | nil =>
    obtain ⟨k, hk, -⟩ | ⟨rfl, rfl⟩ := hfind
    · cases hk
    · exact wp_rollbackMove custody pass hav hst
  | cons k l ih =>
    rw [recoverMoveToKeychain, bind_eq, wp_bind]
    refine wp_opensLiveOrStaged hst hkr hi (fun hopen => ?_) fun hnot => ?_
    · simp only [seqPost_ok, if_true, bind_eq, wp_bind]
      refine (wp_finishMoveToKeychain hav hst hkr (hl k List.mem_cons_self) hopen hi).post ?_
      rintro r w hw ⟨rfl, hset⟩
      exact ⟨hw, .finished hset⟩
    simp only [seqPost_ok, Bool.false_eq_true, if_false]
    refine ih (fun k' hk' => hl k' (List.mem_cons_of_mem _ hk')) ?_
    obtain ⟨k', hmem, hk'⟩ | hlive := hfind
    · obtain rfl | hmem := List.mem_cons.1 hmem
      · exact absurd hk' hnot
      · exact .inl ⟨k', hmem, hk'⟩
    · exact .inr hlive

theorem wp_recoverLifecycle (hav : c.base.keychainAvailable = true) (hst : c.StagedOk st)
    (hkr : ∃ k, c.Opens kr k) (hi : c.Moving (c.disk (some .moveToKeychain) s kr st own))
    (hfind : (∃ k, Held own c.base.legacyKek k ∧ c.Opens kr k) ∨ kr = c.live ∧ s = some c.salt) :
    wp Faults.none (fun w => c.Moving w.crashed) (recoverLifecycleForUnlock custody pass)
      (c.Recovered custody pass own) (c.disk (some .moveToKeychain) s kr st own) := by
  simp only [recoverLifecycleForUnlock, bind_eq, wp_bind]
  refine observes_readLifecycle.wp_none hi ?_
  simp only [disk, seqPost_ok, recoverPending, bind_eq, wp_bind, wp_attempt]
  refine wp_loadKeychainKekCandidates hav hi ?_
  simp only [seqPost_ok]
  cases hcand : kekCandidates own c.base.legacyKek with
  | ok l =>
    refine wp_recoverMoveToKeychain custody pass hav hst hkr hi l
      (fun k hk => held_of_mem_kekCandidates hcand hk) ?_
    obtain ⟨k, hheld, hk⟩ | hlive := hfind
    · obtain ⟨l', hl', hmem⟩ := mem_kekCandidates_of_held hheld
      obtain rfl : l' = l := by
        rw [hl', Except.ok.injEq] at hcand
        exact hcand
      exact .inl ⟨k, hmem, hk⟩
    · exact .inr hlive
  | error e =>
    obtain ⟨k, hheld, -⟩ | ⟨rfl, rfl⟩ := hfind
    · obtain ⟨l', hl', -⟩ := mem_kekCandidates_of_held hheld
      rw [hl'] at hcand
      cases hcand
    by_cases hc : custody = .passphrase
    · simp only [if_pos hc]
      exact wp_rollbackMove custody pass hav hst
    · simp only [if_neg hc]
      exact ⟨hi, .refused fun h => hc h.1⟩

-- ==== unlocking

theorem finished_passphrase {h : VaultHandle} (hv : h.vault = c.v) :
    c.Finished ((c.disk none (some c.salt) c.live st own).withHandle h) := by
  obtain ⟨hkeys, hact⟩ := openedOf_keys c.opens
  refine ⟨rfl, ⟨h, rfl, ?_, ?_⟩, .inl ⟨c.salt, rfl, c.live_loads _⟩⟩
  · rw [hv, hkeys]
  · rw [hv, hact]

theorem wp_unlock_idle :
      wp Faults.none (fun w => c.Moving w.crashed) (unlockWithPassphrase (some c.p))
      (fun r w => r = .ok () ∧ c.Finished w) (c.disk none (some c.salt) c.live st own) :=
  wp_unlockWithPassphrase_ok trivial rfl (c.live_loads _) c.opens
    (.idle st own) (.idle st own) ⟨rfl, finished_passphrase rfl⟩

theorem wp_unlock_done (hav : c.base.keychainAvailable = true)
    (hk : c.Opens kr k) (hheld : Held own c.base.legacyKek k) :
    wp Faults.none (fun w => c.Moving w.crashed) unlockWithKeychain
      (fun r w => r = .ok () ∧ c.Finished w) (c.disk none none kr st own) := by
  have hkeep : c.Moving (c.disk none none kr st (some (.key k))) := .done hav hk (.inl rfl)
  refine wp_unlockWithKeychain_ok trivial hav rfl (hk _) hheld c.opens
    (.done hav hk hheld) hkeep hkeep ⟨rfl, rfl, ?_, ?_⟩
  · exact ⟨_, rfl, openedOf_keys c.opens⟩
  · exact .inr ⟨rfl, k, rfl, hk _⟩

/-- The credential a state asks for: keychain custody once the salt and
the journal are gone, else the original passphrase. -/
def Right (c : Move) (w : World) (custody : CustodyMode) (pass : Option String) : Prop :=
  if w.journal = none ∧ w.salt = none then custody = .osKeychain
  else custody = .passphrase ∧ pass = some c.p

/-- What every unlock attempt gives: the invariant at each point and, if
the credential is the right one, the opened vault. -/
def Serves (c : Move) (custody : CustodyMode) (pass : Option String) (w : World) : Prop :=
  wp Faults.none (fun w => c.Moving w.crashed) (unlock custody pass)
    (fun r w' => c.Right w custody pass → r = .ok () ∧ c.Finished w') w

theorem serves_of_recovered {custody : CustodyMode} {pass : Option String}
    (hav : c.base.keychainAvailable = true)
    (hi : c.Moving (c.disk (some .moveToKeychain) s kr st own))
    (h : wp Faults.none (fun w => c.Moving w.crashed) (recoverLifecycleForUnlock custody pass)
      (c.Recovered custody pass own) (c.disk (some .moveToKeychain) s kr st own)) :
    c.Serves custody pass (c.disk (some .moveToKeychain) s kr st own) := by
  have hright (hr : c.Right (c.disk (some .moveToKeychain) s kr st own)
      custody pass) : custody = .passphrase ∧ pass = some c.p := by
    simpa [Right, disk] using hr
  simp only [Serves, unlock, bind_eq, wp_bind]
  refine observes_acquireLock.wp_none hi ?_
  simp only [disk, Option.isSome_none, Bool.false_eq_true, if_false, seqPost_ok, wp_bind]
  refine h.post fun r w hw hrec => ?_
  cases hrec with
  | finished hset =>
    obtain ⟨kr', k', hk', hheld', rfl⟩ := hset
    exact (wp_unlock_done hav hk' hheld').post fun _ _ _ hq _ => hq
  | rolledBack hp hc =>
    subst hp hc
    exact wp_unlock_idle.post fun _ _ _ hq _ => hq
  | refused hp => exact fun hr => absurd (hright hr) hp

theorem serves_idle : c.Serves custody pass (c.disk none (some c.salt) c.live st own) := by
  have hi : c.Moving (c.disk none (some c.salt) c.live st own) := .idle st own
  have hright (hr : c.Right (c.disk none (some c.salt) c.live st own)
      custody pass) : custody = .passphrase ∧ pass = some c.p := by
    simpa [Right, disk] using hr
  simp only [Serves, unlock, bind_eq, wp_bind, recoverLifecycleForUnlock]
  refine observes_acquireLock.wp_none hi ?_
  simp only [disk, Option.isSome_none, Bool.false_eq_true, if_false, seqPost_ok, wp_bind]
  refine observes_readLifecycle.wp_none hi ?_
  cases custody with
  | osKeychain =>
    simp only [seqPost_ok, pure_eq, wp_ret, openNormal, unlockWithKeychain, bind_eq, wp_bind]
    refine ⟨hi, observes_get.wp_none hi ⟨hi, fun hr => ?_⟩⟩
    exact absurd (hright hr).1 (by decide)
  | recovery => exact ⟨hi, hi, fun hr => absurd (hright hr).1 (by decide)⟩
  | passphrase =>
    refine ⟨hi, ?_⟩
    cases pass with
    | none => exact ⟨hi, fun hr => absurd (hright hr).2 (by simp)⟩
    | some x =>
      by_cases hx : x = c.p
      · subst hx
        exact wp_unlock_idle.post fun _ _ _ hq _ => hq
      have hne : MasterKey.fromPassphrase c.p c.salt
          ≠ .fromPassphrase x c.salt := by
        simpa using fun h => absurd h.symm hx
      obtain ⟨e, he⟩ := loadOf_other (c.live_loads KEYRING_FILE) hne
      refine wp_unlockWithPassphrase_error rfl rfl he hi fun hr => ?_
      exact absurd (Option.some.inj (hright hr).2) hx

theorem done_refuses : wp Faults.none (fun w => w = c.disk none none kr st own)
      (unlock .passphrase pass) (fun r _ => ∃ e, r = .error e) (c.disk none none kr st own) := by
  simp only [unlock, bind_eq, wp_bind, recoverLifecycleForUnlock]
  refine observes_acquireLock.wp_none rfl ?_
  simp only [disk, Option.isSome_none, Bool.false_eq_true, if_false, seqPost_ok, wp_bind]
  refine observes_readLifecycle.wp_none rfl ⟨rfl, ?_⟩
  cases pass with
  | none => exact ⟨rfl, _, rfl⟩
  | some x =>
    simp only [seqPost_ok, openNormal, unlockWithPassphrase,
      requirePassphrase, bind_eq, bind_ret_ok, wp_bind]
    exact (observes_derivePassphraseKek x).wp_none rfl ⟨_, rfl⟩

theorem serves_done (hav : c.base.keychainAvailable = true) (hk : c.Opens kr k)
    (hheld : Held own c.base.legacyKek k) : c.Serves custody pass (c.disk none none kr st own) := by
  have hi : c.Moving (c.disk none none kr st own) := .done hav hk hheld
  have hright (hr : c.Right (c.disk none none kr st own) custody pass) : custody = .osKeychain := by
    simpa [Right, disk] using hr
  by_cases hc : custody = .passphrase
  · subst hc
    refine wp_mono (done_refuses pass) ?_ ?_
    · rintro _ rfl
      exact hi
    · exact fun _ _ _ _ hr => absurd (hright hr) (by decide)
  · simp only [Serves, unlock, bind_eq, wp_bind, recoverLifecycleForUnlock]
    refine observes_acquireLock.wp_none hi ?_
    simp only [disk, Option.isSome_none, Bool.false_eq_true, if_false, seqPost_ok, wp_bind]
    refine observes_readLifecycle.wp_none hi ⟨hi, ?_⟩
    cases custody with
    | passphrase => exact absurd rfl hc
    | recovery => exact ⟨hi, fun hr => absurd (hright hr) (by decide)⟩
    | osKeychain => exact (wp_unlock_done hav hk hheld).post fun _ _ _ hq _ => hq

theorem Moving.serves {w : World} (h : c.Moving w) (custody : CustodyMode)
    (pass : Option String) : c.Serves custody pass w := by
  have hi := h
  cases h with
  | idle st own => exact serves_idle custody pass
  | pending own hav hst =>
    exact serves_of_recovered hav hi (wp_recoverLifecycle custody pass hav
      hst ⟨_, c.live_loads⟩ hi (.inr ⟨rfl, rfl⟩))
  | moved hav hst hk hheld =>
    exact serves_of_recovered hav hi (wp_recoverLifecycle custody pass hav
      hst ⟨_, hk⟩ hi (.inl ⟨_, hheld, hk⟩))
  | done hav hk hheld => exact serves_done custody pass hav hk hheld

theorem Moving.later {w w' : World} (h : c.Moving w) (hl : Later w w') : c.Moving w' := by
  induction hl with
  | refl => exact h
  | attempt custody pass _ hr ih => exact (ih.serves custody pass).reaches hr

theorem wp_commitMove (st : Option KeyringFile)
    (own : Option Credential) (hav : c.base.keychainAvailable = true)
    {kek : MasterKey} (hkr : c.Opens kr kek) (h : Option VaultHandle) :
    wp Faults.none (fun w => c.Moving w.crashed) (do
        writeStagedKeyring kr
        writeLifecycle .moveToKeychain
        Keychain.storeScoped kek
        let _ ← loadStaged kek
        commitStaged
        removeSalt
        removeLifecycle
        setCustody .osKeychain)
      (fun _ _ => True)
      { c.disk none (some c.salt) c.live st own with handle := h } := by
  have hst : c.StagedOk (some kr) := by
    intro kr' h
    obtain rfl := Option.some.inj h
    exact ⟨kek, hkr⟩
  have hpend (own : Option Credential) : c.Moving
      (c.disk (some .moveToKeychain) (some c.salt) c.live (some kr) own) :=
    .pending own hav hst
  have hheld : Held (some (.key kek)) c.base.legacyKek kek := .inl rfl
  have hmoved (s : Option Salt) : c.Moving
      (c.disk (some .moveToKeychain) s kr none (some (.key kek))) :=
    .moved hav stagedOk_none hkr hheld
  have hdone : c.Moving (c.disk none none kr none (some (.key kek))) := .done hav hkr hheld
  simp only [bind_eq, wp_bind]
  refine wp_writeAtomic_none (.idle st own) (.idle (some kr) own) ?_
  simp only [seqPost_ok, wp_bind]
  refine wp_writeAtomic_none (.idle (some kr) own) (hpend own) ?_
  simp only [seqPost_ok, wp_bind]
  refine wp_storeScoped hav (hpend own) (hpend _) ?_
  simp only [seqPost_ok, wp_bind]
  refine (observes_loadStaged kek).wp_none (hpend _) ?_
  simp only [disk, World.withScoped, hkr STAGED_KEYRING_FILE,
    seqPost_ok, wp_bind, commitStaged, bind_eq]
  refine (observes_readRequired _ _).wp_none (hpend _) ?_
  simp only [seqPost_ok]
  refine wp_writeAtomic_none (hpend _) (hmoved _) ?_
  simp only [seqPost_ok, wp_bind]
  refine wp_removeFileDurable_none (hmoved _) (fun _ => ⟨hmoved none, ?_⟩) ?_
  · simp only [seqPost_ok, wp_bind]
    refine wp_removeFileDurable_none (hmoved none) (fun _ => ⟨hdone, hdone, hdone, trivial⟩) ?_
    intro h
    cases h
  · intro h
    cases h

theorem wp_move
    (c : Move) (st : Option KeyringFile) (own : Option Credential) (self : VaultHandle) (x : String)
    (ent : Entropy) (h : Option VaultHandle) : wp Faults.none (fun w => c.Moving w.crashed)
      (moveToOsKeychain self x ent) (fun _ _ => True)
      { c.disk none (some c.salt) c.live st own with handle := h } := by
  have hi : c.Moving (c.disk none (some c.salt) c.live st own) := .idle st own
  have hlive := c.live_loads KEYRING_FILE
  simp only [moveToOsKeychain]
  split
  · exact ⟨hi, trivial⟩
  simp only [bind_eq, wp_bind]
  refine wp_ensureAvailable hi (fun hav => ?_) fun _ _ => trivial
  · simp only [seqPost_ok, wp_bind]
    refine (observes_derivePassphraseKek _).wp_none hi ?_
    simp only [disk, seqPost_ok, wp_bind]
    refine (observes_load _).wp_none hi ?_
    by_cases hx : x = c.p
    · subst hx
      simp only [hlive, seqPost_ok, wp_bind,
        stageRewrapUnderNewKek, bind_eq, readKeyring]
      refine (observes_readKeyringFile _ _).wp_none hi ?_
      simp only [parsed_of_loadOf hlive, seqPost_ok, wp_bind]
      cases hes : rewrapEntries (.fromPassphrase c.p c.salt)
          ent.kek c.live.entries with
      | error e => exact ⟨hi, trivial⟩
      | ok es' =>
        refine ⟨hi, ?_⟩
        have hkr : c.Opens { c.live with entries := es' } ent.kek :=
          fun path => loadOf_rewrap hlive hes
        exact (wp_bind _ _ _ _).1 (c.wp_commitMove st own hav hkr h)
    · have hne : MasterKey.fromPassphrase c.p c.salt
          ≠ .fromPassphrase x c.salt := by
        simpa using fun h => absurd h.symm hx
      obtain ⟨e, he⟩ := loadOf_other hlive hne
      simp only [he, seqPost_error]

end Move

-- ==== the theorem

/-- An unlock of `w` runs to completion: it yields every DEK of `u` and
its active version, leaves no journal, and the salt with a keyring under
the passphrase KEK, or no salt and a keyring under the keychain's. -/
def Completes (w : World) (custody : CustodyMode) (p : String) (u : Unwrapped) : Prop :=
  ((unlock custody (some p)).run w).1 = .ok () ∧ ((unlock custody (some p)).run w).2.journal = none
    ∧ (∃ h, ((unlock custody (some p)).run w).2.handle = some h
        ∧ h.vault.keys = u.keys ∧ h.vault.activeVersion = u.activeVersion)
    ∧ ((∃ s, ((unlock custody (some p)).run w).2.salt = some s
          ∧ loadOf KEYRING_FILE (.fromPassphrase p s)
            ((unlock custody (some p)).run w).2.keyring = .ok u)
        ∨ ((unlock custody (some p)).run w).2.salt = none
          ∧ ∃ k, ((unlock custody (some p)).run w).2.scopedKek = some (.key k)
            ∧ loadOf KEYRING_FILE k
              ((unlock custody (some p)).run w).2.keyring = .ok u)

/-- **A custody move never strands the vault.** Stop it, and any unlocks
after it, anywhere: the original passphrase unlocks the vault, except
where the move has been finished, where keychain custody does. -/
theorem moveToOsKeychain_never_strands
    {w₀ w w' : World} {self : VaultHandle} {p x : String} {ent : Entropy} {u : Unwrapped}
    (hrest : AtRest w₀ p u) (hcrash : Reaches Faults.none (moveToOsKeychain self x ent) w₀ w)
    (hlater : Later w.crashed w') : if w'.journal = none ∧ w'.salt = none then
      Completes w' .osKeychain p u ∧ ∃ e, ((unlock .passphrase (some p)).run w').1 = .error e
    else Completes w' .passphrase p u := by
  obtain ⟨salt, hsalt, hload⟩ := hrest.loads
  obtain ⟨v, root, hopen⟩ := hrest.opens
  cases hk : w₀.keyring with
  | none => rw [hk] at hload; cases hload
  | some live =>
    rw [hk] at hload
    let c : Move :=
      { base := w₀, p := p, salt := salt, live := live, u := u, v := v,
        root := root, live_loads := fun _ => hload, opens := hopen }
    have hw₀ : w₀ = { c.disk none (some c.salt) c.live w₀.staged
        w₀.scopedKek with handle := w₀.handle } := by
      simp only [Move.disk, c, ← hk, ← hsalt, ← hrest.journal]
    have hwp := c.wp_move w₀.staged w₀.scopedKek self x ent w₀.handle
    rw [← hw₀] at hwp
    have hm : c.Moving w' := (hwp.reaches hcrash).later hlater
    split
    · next hnone =>
      refine ⟨(hm.serves .osKeychain (some p)).run ?_, ?_⟩
      · exact (if_pos hnone).mpr rfl
      · cases hm with
        | idle => cases hnone.2
        | pending | moved => cases hnone.1
        | done => exact (Move.done_refuses (some p)).run
    · next hsome =>
      exact (hm.serves .passphrase (some p)).run ((if_neg hsome).mpr ⟨rfl, rfl⟩)

def Sample.moveStopped (n : Nat) : World :=
  ((moveToOsKeychain handle pass entropy).haltAfter n Sample.vault).crashed

theorem moveToOsKeychain_never_strands_sample :
    AtRest Sample.vault pass (Unwrapped.single dek 1)
      ∧ (moveStopped 7).journal = some .moveToKeychain
      ∧ Completes (moveStopped 7) .passphrase pass (Unwrapped.single dek 1) := by
  refine ⟨atRest_sample, rfl, ?_⟩
  have h := moveToOsKeychain_never_strands atRest_sample
    (haltAfter_reaches Faults.none (moveToOsKeychain handle pass entropy) 7 Sample.vault) .refl
  have hj : ¬ ((moveStopped 7).journal = none
      ∧ (moveStopped 7).salt = none) := by
    rintro ⟨h, -⟩
    cases h
  exact (if_neg hj).mp h

/-- A crash after the journal's removal: the move is complete, no handle
was told, and the original passphrase no longer unlocks, although the
keychain holds the credential. -/
theorem moved_vault_refuses_passphrase : AtRest Sample.vault pass (Unwrapped.single dek 1)
      ∧ Sample.vault.keychainAvailable = true
      ∧ Reaches Faults.none (moveToOsKeychain handle pass entropy) Sample.vault
        ((moveToOsKeychain handle pass entropy).haltAfter 10 Sample.vault)
      ∧ (moveStopped 10).scopedKek = some (.key entropy.kek)
      ∧ ((unlock .passphrase (some pass)).run (moveStopped 10)).1
        = .error (.misuse "passphrase salt does not exist: master.salt") :=
  ⟨atRest_sample, rfl, haltAfter_reaches .., rfl, rfl⟩

end SovereignVault
