/-
What an unlock does once the journal is dealt with, as rules for the
crash-only environment.

An opening reads the keyring, the identity and the manifest, and writes
nothing but process memory (unless a completed bootstrap is pending,
which `Settled` excludes). If the files open, the handle is installed; if
the keyring does not open under the given KEK, the unlock fails.
-/
import SovereignVault.Lifecycle

namespace SovereignVault

open Crash Prog Keyring Storage Keychain

variable {I : World → Prop} {w : World} {u : Unwrapped} {k : MasterKey}

def Settled : Option LifecycleJournal → Prop
  | some (.bootstrap _ _ _ (some _)) => False
  | _ => True

def World.withHandle (w : World) (h : VaultHandle) : World :=
  { w with handle := some h }

variable {Q : Except CoreError Unit → World → Prop}

theorem wp_finishPendingBootstrap_settled {root : MasterKey} (hs : Settled w.journal)
    (hi : I w) (hq : Q (.ok ()) w) : wp Faults.none I (finishPendingBootstrap root) Q w := by
  simp only [finishPendingBootstrap, bind_eq, wp_bind]
  refine observes_readLifecycle.wp_none hi ?_
  rw [seqPost_ok]
  split
  · next heq =>
    rw [heq] at hs
    exact hs.elim
  · exact ⟨hi, hq⟩

theorem wp_openAndInstall {custody : CustodyMode} {v : Vault} {root : MasterKey}
    (hs : Settled w.journal) (hopen : openedOf u w.identity w.manifest = .ok (v, root)) (hi : I w)
    (hi' : I (w.withHandle ⟨v, custody, root⟩)) (hq : Q (.ok ()) (w.withHandle ⟨v, custody, root⟩))
    : wp Faults.none I (openAndInstall custody u) Q w := by
  simp only [openAndInstall, bind_eq, wp_bind]
  refine (observes_openUnwrapped u).wp_none hi ?_
  simp only [hopen, seqPost_ok, wp_bind]
  refine wp_finishPendingBootstrap_settled hs hi ?_
  exact ⟨hi, hi', hq⟩

theorem wp_unlockWithPassphrase_ok {pass : String} {salt : Salt} {v : Vault}
    {root : MasterKey} (hs : Settled w.journal) (hsalt : w.salt = some salt)
    (hload : loadOf KEYRING_FILE (.fromPassphrase pass salt) w.keyring = .ok u)
    (hopen : openedOf u w.identity w.manifest = .ok (v, root)) (hi : I w)
    (hi' : I (w.withHandle ⟨v, .passphrase, root⟩))
    (hq : Q (.ok ()) (w.withHandle ⟨v, .passphrase, root⟩)) :
    wp Faults.none I (unlockWithPassphrase (some pass)) Q w := by
  have hkr : w.keyring.isNone = false := by
    cases hk : w.keyring with
    | none => rw [hk] at hload; cases hload
    | some kr => rfl
  simp only [unlockWithPassphrase, requirePassphrase, bind_eq, bind_ret_ok, wp_bind]
  refine (observes_derivePassphraseKek pass).wp_none hi ?_
  simp only [hsalt, seqPost_ok, wp_bind]
  refine observes_get.wp_none hi ?_
  simp only [seqPost_ok, hkr, Bool.false_eq_true, if_false, wp_bind]
  refine (observes_load _).wp_none hi ?_
  simp only [hload, seqPost_ok]
  exact wp_openAndInstall hs hopen hi hi' hq

theorem wp_unlockWithPassphrase_error {pass : String} {salt : Salt}
    {e : CoreError} (hsalt : w.salt = some salt) (hkr : w.keyring.isSome)
    (hload : loadOf KEYRING_FILE
      (.fromPassphrase pass salt) w.keyring = .error e) (hi : I w) (hq : Q (.error e) w) :
    wp Faults.none I (unlockWithPassphrase (some pass)) Q w := by
  have hkr' : w.keyring.isNone = false := by
    rw [Option.isNone_eq_false_iff]
    exact hkr
  simp only [unlockWithPassphrase, requirePassphrase, bind_eq, bind_ret_ok, wp_bind]
  refine (observes_derivePassphraseKek pass).wp_none hi ?_
  simp only [hsalt, seqPost_ok, wp_bind]
  refine observes_get.wp_none hi ?_
  simp only [seqPost_ok, hkr', Bool.false_eq_true, if_false, wp_bind]
  refine (observes_load _).wp_none hi ?_
  simp only [hload, seqPost_error]
  exact hq

theorem wp_unlock_passphrase {pass : Option String} (hh : w.handle = none)
    (hi : I w) (hrec : wp Faults.none I (recoverLifecycleForUnlock .passphrase pass)
      (fun r w' => match r with
        | .ok .osKeychain => wp Faults.none I unlockWithKeychain Q w'
        | .ok _ => wp Faults.none I (unlockWithPassphrase pass) Q w'
        | .error e => Q (.error e) w') w) :
    wp Faults.none I (unlock .passphrase pass) Q w := by
  simp only [unlock, bind_eq, wp_bind]
  refine observes_acquireLock.wp_none hi ?_
  simp only [hh, Option.isSome_none, Bool.false_eq_true, if_false, seqPost_ok, wp_bind]
  refine hrec.post fun r w' _ hr => ?_
  cases r with
  | error e => exact hr
  | ok c =>
    cases c with
    | osKeychain | passphrase | recovery => exact hr

-- ==== keychain credentials

def Held (own legacy : Option Credential) (k : MasterKey) : Prop :=
  own = some (.key k) ∨ legacy = some (.key k)

def World.withScoped (w : World) (k : MasterKey) : World :=
  { w with scopedKek := some (.key k) }

theorem withScoped_eq_self (h : w.scopedKek = some (.key k)) : w.withScoped k = w := by
  rw [World.withScoped, ← h]

theorem wp_requireSession
    {Q : Except CoreError World → World → Prop} (hav : w.keychainAvailable = true)
    (hi : I w) (hq : Q (.ok w) w) : wp Faults.none I requireSession Q w := by
  simp only [requireSession, bind_eq, wp_bind]
  refine observes_get.wp_none hi ?_
  simp only [seqPost_ok, hav, if_true]
  exact ⟨hi, hq⟩

theorem wp_ensureAvailable (hi : I w) (hyes : w.keychainAvailable = true → Q (.ok ()) w)
    (hno : w.keychainAvailable ≠ true → ∀ e, Q (.error e) w) :
    wp Faults.none I ensureAvailable Q w := by
  simp only [ensureAvailable, bind_eq, wp_bind]
  by_cases hav : w.keychainAvailable = true
  · exact wp_requireSession hav hi ⟨hi, hyes hav⟩
  · simp only [requireSession, bind_eq, wp_bind]
    refine observes_get.wp_none hi ?_
    simp only [seqPost_ok, if_neg hav]
    exact ⟨hi, hno hav _⟩

theorem wp_loadScoped
    {Q : Except CoreError (Option Credential) → World → Prop} (hav : w.keychainAvailable = true)
    (hi : I w) (hq : Q (.ok w.scopedKek) w) : wp Faults.none I loadScoped Q w := by
  simp only [loadScoped, bind_eq, wp_bind]
  exact wp_requireSession hav hi ⟨hi, hq⟩

theorem wp_loadLegacy
    {Q : Except CoreError (Option Credential) → World → Prop} (hav : w.keychainAvailable = true)
    (hi : I w) (hq : Q (.ok w.legacyKek) w) : wp Faults.none I loadLegacy Q w := by
  simp only [loadLegacy, bind_eq, wp_bind]
  exact wp_requireSession hav hi ⟨hi, hq⟩

theorem wp_storeScoped (hav : w.keychainAvailable = true) (hi : I w) (hi' : I (w.withScoped k))
    (hq : Q (.ok ()) (w.withScoped k)) : wp Faults.none I (storeScoped k) Q w := by
  simp only [storeScoped, bind_eq, wp_bind]
  refine wp_requireSession hav hi ?_
  simp only [seqPost_ok, wp_modify]
  exact ⟨hi, ⟨hi', hq⟩, fun _ he => he.elim⟩

section Held

variable {k : MasterKey} {u : Unwrapped}
  {Q : Except CoreError (Except (Option CoreError) (MasterKey × Unwrapped)) → World → Prop}

theorem wp_tryCredential_key (hload : loadOf KEYRING_FILE k w.keyring = .ok u)
    (hi : I w) (hq : Q (.ok (.ok (k, u))) w) : wp Faults.none I (tryCredential (.key k)) Q w := by
  simp only [tryCredential, decodeKeychainKek, bind_eq, wp_bind, wp_attempt]
  refine (observes_load k).wp_none hi ?_
  simp only [hload, seqPost_ok]
  exact ⟨hi, hq⟩

theorem wp_tryCredential_other {credential : Credential}
    (hload : loadOf KEYRING_FILE k w.keyring = .ok u)
    (hne : credential ≠ .key k) (hi : I w) (hq : ∀ e, Q (.ok (.error e)) w) :
    wp Faults.none I (tryCredential credential) Q w := by
  cases credential with
  | malformed text => exact ⟨hi, hq _⟩
  | key k' =>
    have hk : k ≠ k' := fun h => hne (by rw [h])
    obtain ⟨e, he⟩ := loadOf_other hload hk
    simp only [tryCredential, decodeKeychainKek, bind_eq, wp_bind, wp_attempt]
    refine (observes_load k').wp_none hi ?_
    simp only [he, seqPost_ok]
    exact ⟨hi, hq _⟩

theorem wp_loadLegacyUnwrapped {own : Option Credential} {decodeError : Option CoreError}
    {Q : Except CoreError (MasterKey × Unwrapped) → World → Prop}
    (hav : w.keychainAvailable = true)
    (hload : loadOf KEYRING_FILE k w.keyring = .ok u)
    (hlegacy : w.legacyKek = some (.key k)) (hown : own ≠ some (.key k))
    (hi : I w) (hi' : I (w.withScoped k)) (hq : Q (.ok (k, u)) (w.withScoped k)) :
    wp Faults.none I (loadLegacyUnwrapped own decodeError) Q w := by
  simp only [loadLegacyUnwrapped, bind_eq, wp_bind]
  refine wp_loadLegacy hav hi ?_
  simp only [hlegacy, seqPost_ok, if_neg hown, wp_bind]
  refine wp_tryCredential_key hload hi ?_
  simp only [seqPost_ok, wp_bind]
  exact wp_storeScoped hav hi hi' ⟨hi', hq⟩

/-- A keychain that holds the keyring's KEK, under either account, opens
it and ends with that KEK as the scoped credential. -/
theorem wp_loadKeychainUnwrapped
    {Q : Except CoreError (MasterKey × Unwrapped) → World → Prop}
    (hav : w.keychainAvailable = true)
    (hload : loadOf KEYRING_FILE k w.keyring = .ok u)
    (hheld : Held w.scopedKek w.legacyKek k) (hi : I w) (hi' : I (w.withScoped k))
    (hq : Q (.ok (k, u)) (w.withScoped k)) : wp Faults.none I loadKeychainUnwrapped Q w := by
  simp only [loadKeychainUnwrapped, bind_eq, wp_bind]
  refine wp_loadScoped hav hi ?_
  rw [seqPost_ok]
  by_cases hown : w.scopedKek = some (.key k)
  · rw [withScoped_eq_self hown] at hq
    simp only [hown, wp_bind]
    refine wp_tryCredential_key hload hi ?_
    exact ⟨hi, hq⟩
  have hlegacy : w.legacyKek = some (.key k) := hheld.resolve_left hown
  cases hs : w.scopedKek with
  | none => exact wp_loadLegacyUnwrapped hav hload hlegacy (by simp) hi hi' hq
  | some credential =>
    rw [hs] at hown
    simp only [wp_bind]
    refine wp_tryCredential_other hload (fun h => hown (by rw [h])) hi fun e => ?_
    exact wp_loadLegacyUnwrapped hav hload hlegacy hown hi hi' hq

theorem wp_unlockWithKeychain_ok
    {v : Vault} {root : MasterKey} {Q : Except CoreError Unit → World → Prop}
    (hs : Settled w.journal) (hav : w.keychainAvailable = true)
    (hsalt : w.salt = none) (hload : loadOf KEYRING_FILE k w.keyring = .ok u)
    (hheld : Held w.scopedKek w.legacyKek k)
    (hopen : openedOf u w.identity w.manifest = .ok (v, root)) (hi : I w)
    (hi' : I (w.withScoped k)) (hi'' : I ((w.withScoped k).withHandle ⟨v, .osKeychain, root⟩))
    (hq : Q (.ok ()) ((w.withScoped k).withHandle ⟨v, .osKeychain, root⟩)) :
    wp Faults.none I unlockWithKeychain Q w := by
  have hkr : w.keyring.isNone = false := by
    cases hk : w.keyring with
    | none => rw [hk] at hload; cases hload
    | some kr => rfl
  simp only [unlockWithKeychain, bind_eq, wp_bind]
  refine observes_get.wp_none hi ?_
  simp only [seqPost_ok, hsalt, Option.isSome_none, hkr, Bool.false_eq_true, if_false, wp_bind]
  refine wp_loadKeychainUnwrapped hav hload hheld hi hi' ?_
  rw [seqPost_ok]
  exact wp_openAndInstall hs hopen hi' hi'' hq

end Held

/-- A passphrase-custody vault at rest: it opens under `p`, to `u`. -/
structure AtRest (w : World) (p : String) (u : Unwrapped) :
    Prop where
  journal : w.journal = none
  loads : ∃ salt, w.salt = some salt ∧ loadOf
    KEYRING_FILE (.fromPassphrase p salt) w.keyring = .ok u
  opens : ∃ v root, openedOf u w.identity w.manifest = .ok (v, root)

/-- What a series of unlock attempts can leave, with any credential. -/
inductive Later (w : World) : World → Prop
  | refl : Later w w
  | attempt {w' w'' : World} (custody : CustodyMode) (pass : Option String) :
      Later w w' → Reaches Faults.none (unlock custody pass) w' w'' → Later w w''.crashed

-- ==== a fresh vault

/-- The vault a bootstrap with these draws leaves behind: one DEK, no
container, no material. -/
def World.fresh (kek dek root : MasterKey) (salt : Option Salt)
    (phrase : Mnemonic) (bundleSalt : Salt) : World :=
  { World.empty with
    salt := salt
    keyring := some (single kek dek 1)
    recovery := some (Recovery.bundleFor phrase bundleSalt dek (some 1))
    identity := some (Transit.authenticatedIdentity (materialWrapForDek dek) root)
    manifest := some (authenticated
      (deriveManifestAuthKey root) defaultManifest)
    audit := .initialised (auditKey root) }

theorem openedOf_fresh (kek dek root : MasterKey) (salt : Option Salt)
    (phrase : Mnemonic) (bundleSalt : Salt) : ∃ v, openedOf (Unwrapped.single dek 1)
      (World.fresh kek dek root salt phrase bundleSalt).identity
      (World.fresh kek dek root salt phrase bundleSalt).manifest = .ok (v, root) := by
  have hi := authenticatedIdentityOf_authenticated dek root
    (World.fresh kek dek root salt phrase bundleSalt).manifest
  exact ⟨_, openedOf_ok (u := Unwrapped.single dek 1) hi
    (verifiedManifest_authenticated (deriveManifestAuthKey root)
      (show defaultManifest.schemaVersion = _ from rfl))⟩

def VaultHandle.fresh (dek root : MasterKey) (custody : CustodyMode) : VaultHandle where
  vault := singleKeyVault dek (deriveManifestAuthKey root)
  custody := custody
  identityRoot := root

namespace Sample

/-! A small passphrase vault for closed instances of the results. -/

def pass : String := "correct horse battery staple"
def salt : Salt := Vector.replicate SALT_LEN 1
def kek : MasterKey := .fromPassphrase pass salt
def dek : MasterKey := .generate 1
def root : MasterKey := .generate 2
def phrase : Mnemonic := ⟨"abandon ability able"⟩

def handle : VaultHandle := .fresh dek root .passphrase

def vault : World :=
  (World.fresh kek dek root (some salt) phrase salt).withHandle handle

def entropy : Entropy where
  kek := .generate 10
  dek := .generate 11
  identityRoot := .generate 12
  salt := Vector.replicate SALT_LEN 2
  phrase := ⟨"zoo zone zero"⟩
  bundleSalt := Vector.replicate SALT_LEN 3

end Sample

theorem atRest_sample : AtRest Sample.vault Sample.pass
      (Unwrapped.single Sample.dek 1) where
  journal := rfl
  loads := ⟨Sample.salt, rfl, (loadOf_some rfl).trans (unwrapKeyring_single ..)⟩
  opens := by
    obtain ⟨v, hv⟩ := openedOf_fresh Sample.kek Sample.dek Sample.root
      (some Sample.salt) Sample.phrase Sample.salt
    exact ⟨v, Sample.root, hv⟩

end SovereignVault
