/-
Where a key comes from: `sv-recovery`, `sv-keychain`, and the credential
helpers of `sv-core/src/lib.rs`.

The recovery bundle wraps a copy of the active DEK under a key derived
from the phrase. The version beside it is not sealed, so only the key is
sure to be that of the phrase (`restore_labels_iff`).

The older `master-key` account of the keychain is consulted only when the
scoped credential cannot serve this vault, and a KEK found there is stored
under the scoped account before it is used. What a function draws is among
its arguments.
-/
import SovereignVault.Keyring

namespace SovereignVault

open Crash

-- ==== the recovery bundle

namespace Recovery

def RECOVERY_AAD : String := "sv-recovery-v1"

def RECOVERY_VERSION : Nat := 1

def RECOVERY_FILE : String := "recovery.svault"

def PROVIDER_ID : String := "bip39-24"

structure RecoveredMasterKey where
  masterKey : MasterKey
  dekVersion : Option Nat

def bundleFor (phrase : Mnemonic) (salt : Salt) (master : MasterKey)
    (dekVersion : Option Nat) : RecoveryBundle where
  version := RECOVERY_VERSION
  provider := PROVIDER_ID
  dekVersion := dekVersion
  salt := salt
  wrappedKey := aeadSeal (.fromPassphrase phrase.words salt) master RECOVERY_AAD

def writeBundle (bundle : RecoveryBundle) : VaultM Unit :=
  writeAtomic fun w => { w with recovery := some bundle }

def issueRecoveryPhraseForVersion (master : MasterKey) (dekVersion : Nat)
    (phrase : Mnemonic) (salt : Salt) : VaultM Mnemonic := do
  if dekVersion = 0 then
    throw (.recovery (.provider
      "recovery DEK version must be greater than zero"))
  else
    writeBundle (bundleFor phrase salt master (some dekVersion))
    pure phrase

def openBundle (bundle : RecoveryBundle) (phrase : Mnemonic) :
    Except CoreError RecoveredMasterKey :=
  if bundle.version ≠ RECOVERY_VERSION then
    .error (.recovery (.provider
      s!"unsupported recovery bundle version: {bundle.version}"))
  else
    match aeadOpen (.fromPassphrase phrase.words bundle.salt)
        bundle.wrappedKey RECOVERY_AAD with
    | .error e => .error (.recovery (.crypto e))
    | .ok key => .ok ⟨key, bundle.dekVersion⟩

/-- `restore_master_key_with_version`. The phrase is `none` when BIP39
parsing rejects the text, before the bundle is read. -/
def restoreMasterKeyWithVersion (phrase : Option Mnemonic) : VaultM RecoveredMasterKey :=
  match phrase with
  | none => throw (.recovery (.invalidCode "invalid mnemonic"))
  | some phrase => do
    let bundle ← readRequired World.recovery
      (.recovery (.io "No such file or directory"))
    .ret (openBundle bundle phrase)

theorem openBundle_unique {bundle : RecoveryBundle} {p p' : Mnemonic}
    {rec rec' : RecoveredMasterKey} (h : openBundle bundle p = .ok rec)
    (h' : openBundle bundle p' = .ok rec') : rec = rec' := by
  rw [openBundle] at h h'
  split at h
  · cases h
  next hv =>
  rw [if_neg hv] at h'
  split at h
  · cases h
  next key hk =>
  split at h'
  · cases h'
  next key' hk' =>
  have hsame := (aeadOpen_ok_iff.1 hk).symm.trans (aeadOpen_ok_iff.1 hk')
  simp only [aeadSeal, Sealed.mk.injEq] at hsame
  obtain rfl : key = key' := hsame.2.1
  exact Except.ok.inj (h.symm.trans h')

section Relabelling

open Prog

structure Issue where
  phrase : Mnemonic
  salt : Salt
  master : MasterKey
  dekVersion : Nat

def Issue.bundle (i : Issue) : RecoveryBundle :=
  bundleFor i.phrase i.salt i.master (some i.dekVersion)

/-- What can be written without a phrase: under a key of an issued phrase,
only a wrapped key seen before. -/
def Forgeable (issues : List Issue) (bundle : RecoveryBundle) : Prop :=
  ∀ i ∈ issues, ∀ salt, bundle.wrappedKey.key = .fromPassphrase i.phrase.words salt →
    ∃ j ∈ issues, bundle.wrappedKey = j.bundle.wrappedKey

/-- The vaults after any of the `issues`, each returned, failed or stopped
anywhere, with any edits of `recovery.svault` between them. -/
inductive Tampered (issues : List Issue) : World → Prop where
  | edit {w : World} (file : Option RecoveryBundle) (hfile : ∀ b ∈ file, Forgeable issues b) :
      Tampered issues { w with recovery := file }
  | issue {w w' : World} {i : Issue} (hi : i ∈ issues) (hw : Tampered issues w)
      (hr : Reaches Faults.any
        (issueRecoveryPhraseForVersion i.master i.dekVersion i.phrase i.salt) w w') :
      Tampered issues w'

variable {issues : List Issue} {w w' : World} {i : Issue} {r : RecoveredMasterKey}

theorem Tampered.forgeable (h : Tampered issues w) : ∀ b ∈ w.recovery, Forgeable issues b := by
  induction h with
  | edit file hfile => exact hfile
  | @issue w w' i hi _ hr ih =>
    refine wp.reaches (I := fun w => ∀ b ∈ w.recovery, Forgeable issues b)
      (Q := fun _ _ => True) ?_ hr
    have hwritten : ∀ b ∈ some i.bundle, Forgeable issues b := by
      intro b hb
      cases hb
      exact fun _ _ _ _ => ⟨i, hi, rfl⟩
    unfold issueRecoveryPhraseForVersion
    split
    · exact ⟨ih, trivial⟩
    · rw [bind_eq, wp_bind]
      exact wp_writeAtomic ih hwritten ⟨hwritten, trivial⟩ (fun _ _ => trivial) fun _ _ => trivial

theorem restore_observes (phrase : Mnemonic) :
    Observes (restoreMasterKeyWithVersion (some phrase)) fun w =>
      match w.recovery with
      | some bundle => openBundle bundle phrase
      | none => .error (.recovery (.io "No such file or directory")) := by
  refine (observes_bind (observes_readRequired World.recovery _)
    fun bundle => observes_ret (openBundle bundle phrase)).congr fun w => ?_
  cases w.recovery <;> rfl

theorem openBundle_ok_iff {bundle : RecoveryBundle} {phrase : Mnemonic} :
    openBundle bundle phrase = .ok r ↔ bundle = { bundleFor phrase bundle.salt r.masterKey
      r.dekVersion with provider := bundle.provider } := by
  obtain ⟨version, provider, dekVersion, salt, wrappedKey⟩ := bundle
  obtain ⟨key, label⟩ := r
  simp only [openBundle, bundleFor, RecoveryBundle.mk.injEq, true_and]
  rw [← aeadOpen_ok_iff]
  split
  · simp_all
  · split <;> grind

theorem Forgeable.issued {bundle : RecoveryBundle} (hb : Forgeable issues bundle)
    (hphrases : (issues.map Issue.phrase).Nodup) (hi : i ∈ issues)
    (h : openBundle bundle i.phrase = .ok r) :
    bundle = { i.bundle with provider := bundle.provider, dekVersion := r.dekVersion } ∧
      r.masterKey = i.master := by
  have hopen := openBundle_ok_iff.1 h
  have hwrapped := congrArg RecoveryBundle.wrappedKey hopen
  obtain ⟨j, hj, hsame⟩ := hb i hi bundle.salt (congrArg Sealed.key hwrapped)
  rw [hwrapped] at hsame
  simp only [Issue.bundle, bundleFor, aeadSeal, Sealed.mk.injEq, MasterKey.fromPassphrase.injEq,
    and_true] at hsame
  obtain ⟨⟨hwords, hsalt⟩, hkey⟩ := hsame
  obtain rfl : i = j :=
    List.inj_on_of_nodup_map hphrases hi hj (congrArg Mnemonic.mk hwords)
  rw [hsalt, hkey] at hopen
  exact ⟨hopen, hkey⟩

/-- Restoring with an issued phrase gives the key of that issue, and its
version exactly if the file still carries it: the seal does not cover it. -/
theorem restore_labels_iff (hphrases : (issues.map Issue.phrase).Nodup)
    (hw : Tampered issues w) (hi : i ∈ issues)
    (hr : Returns Faults.any (restoreMasterKeyWithVersion (some i.phrase)) w (.ok r) w') :
    r.masterKey = i.master ∧ (r = ⟨i.master, some i.dekVersion⟩ ↔
      ∃ provider, w.recovery = some { i.bundle with provider }) := by
  obtain ⟨-, hread⟩ := (restore_observes i.phrase).returns hr
  have hforged := hw.forgeable
  cases hfile : w.recovery with
  | none =>
    rw [hfile] at hread
    cases hread
  | some bundle =>
    rw [hfile] at hread hforged
    obtain ⟨hbundle, hkey⟩ := (hforged bundle rfl).issued hphrases hi hread
    refine ⟨hkey, ?_, ?_⟩
    · rintro rfl
      exact ⟨bundle.provider, congrArg some hbundle⟩
    rintro ⟨provider, hsome⟩
    have hlabel : r.dekVersion = some i.dekVersion := by
      rw [hbundle] at hsome
      exact congrArg RecoveryBundle.dekVersion (Option.some.inj hsome)
    exact congrArg₂ RecoveredMasterKey.mk hkey hlabel

def firstIssue : Issue := ⟨⟨"abandon"⟩, Vector.replicate SALT_LEN 0, .generate 0, 1⟩

def relabelled (dekVersion : Option Nat) : World :=
  { World.empty with recovery := some { firstIssue.bundle with dekVersion } }

theorem relabelled_tampered (dekVersion : Option Nat) :
    Tampered [firstIssue] (relabelled dekVersion) := by
  refine .edit _ fun b hb => ?_
  cases hb
  exact fun _ _ _ _ => ⟨firstIssue, List.mem_singleton_self _, rfl⟩

theorem restore_labels_untouched :
    (restoreMasterKeyWithVersion (some firstIssue.phrase)).run (relabelled (some 1)) =
      (.ok ⟨firstIssue.master, some 1⟩, relabelled (some 1)) := by
  have hphrases : ([firstIssue].map Issue.phrase).Nodup := List.nodup_singleton _
  have hlabel := (restore_labels_iff hphrases (relabelled_tampered (some 1))
    (List.mem_singleton_self firstIssue) (run_returns _ _ _)).2.2 ⟨PROVIDER_ID, rfl⟩
  exact Prod.ext (congrArg Except.ok hlabel) rfl

/-- The key issued as version 1 comes back as version 2. -/
theorem restore_relabels_edited : Tampered [firstIssue] (relabelled (some 2)) ∧
    (restoreMasterKeyWithVersion (some firstIssue.phrase)).run (relabelled (some 2)) =
      (.ok ⟨firstIssue.master, some 2⟩, relabelled (some 2)) :=
  ⟨relabelled_tampered _, rfl⟩

end Relabelling

end Recovery

-- ==== the keychain

namespace Keychain

def requireSession : VaultM World := do
  let w ← Prog.get
  if w.keychainAvailable then
    pure w
  else
    throw (.keychain (.unavailable "OS keychain is unavailable"))

def ensureAvailable : VaultM Unit := do
  let _ ← requireSession
  pure ()

def loadScoped : VaultM (Option Credential) := do
  let w ← requireSession
  pure w.scopedKek

def loadLegacy : VaultM (Option Credential) := do
  let w ← requireSession
  pure w.legacyKek

def storeScoped (kek : MasterKey) : VaultM Unit := do
  let _ ← requireSession
  Prog.modify fun w => { w with scopedKek := some (.key kek) }

def deleteScoped : VaultM Unit := do
  let _ ← requireSession
  Prog.modify fun w => { w with scopedKek := none }

end Keychain

-- ==== credentials of a root

def SALT_FILENAME : String := "master.salt"

def decodeKeychainKek : Credential → Except CoreError MasterKey
  | .key kek => .ok kek
  | .malformed text => .error (.base64 text)

def readSalt : VaultM Salt :=
  readRequired World.salt
    (.misuse s!"passphrase salt does not exist: {SALT_FILENAME}")

def derivePassphraseKek (passphrase : String) : VaultM MasterKey := do
  let salt ← readSalt
  pure (.fromPassphrase passphrase salt)

/-- One credential tried on the keyring. A decode failure is kept, a
keyring that does not open is not. -/
def tryCredential (credential : Credential) :
    VaultM (Except (Option CoreError) (MasterKey × Keyring.Unwrapped)) :=
  match decodeKeychainKek credential with
  | .error e => pure (.error (some e))
  | .ok kek => do
    match ← (Keyring.load kek).attempt with
    | .ok unwrapped => pure (.ok (kek, unwrapped))
    | .error _ => pure (.error none)

/-- What `load_keychain_unwrapped` reports when no credential opens: the
last decode failure, else the mismatch. -/
def keychainMismatch (decodeError : Option CoreError) : CoreError :=
  decodeError.getD (.misuse
    "OS keychain key could not unwrap this vault's keyring; use recovery unlock or restore the original OS keychain credential")

/-- The legacy half of `load_keychain_unwrapped`, after the scoped
credential could not serve. -/
def loadLegacyUnwrapped (own : Option Credential) (decodeError : Option CoreError) :
    VaultM (MasterKey × Keyring.Unwrapped) := do
  let legacy ← Keychain.loadLegacy
  match legacy with
  | none =>
    if own.isNone then
      throw (.misuse "no key in OS keychain - bootstrap the vault first")
    else
      throw (keychainMismatch decodeError)
  | some credential =>
    if own = some credential then
      throw (keychainMismatch decodeError)
    else
      match ← tryCredential credential with
      | .ok (kek, unwrapped) =>
        -- migrate to the scoped account before the key is used
        Keychain.storeScoped kek
        pure (kek, unwrapped)
      | .error e => throw (keychainMismatch (e.orElse fun _ => decodeError))

/-- `load_keychain_unwrapped`: the legacy credential only when the scoped
one cannot serve. -/
def loadKeychainUnwrapped : VaultM (MasterKey × Keyring.Unwrapped) := do
  let own ← Keychain.loadScoped
  match own with
  | none => loadLegacyUnwrapped none none
  | some credential =>
    match ← tryCredential credential with
    | .ok found => pure found
    | .error e => loadLegacyUnwrapped own e

def loadVerifiedKeychainKek : VaultM MasterKey := do
  let found ← loadKeychainUnwrapped
  pure found.1

/-- The candidates of `load_keychain_kek_candidates` among two entries:
those that decode, the legacy one only when it differs. -/
def kekCandidates (own legacy : Option Credential) : Except CoreError (List MasterKey) :=
  let entries := own.toList ++ (if legacy = own then [] else legacy.toList)
  let decoded := entries.map decodeKeychainKek
  let keys := decoded.filterMap Except.toOption
  let errors := decoded.filterMap fun
    | .error e => some e
    | .ok _ => none
  match keys, errors.getLast? with
  | [], some e => .error e
  | keys, _ => .ok keys

def loadKeychainKekCandidates : VaultM (List MasterKey) := do
  let own ← Keychain.loadScoped
  let legacy ← Keychain.loadLegacy
  .ret (kekCandidates own legacy)

/-- `should_repair_keychain_after_recovery`: a vault without a salt whose
keychain credential does not open it. -/
def shouldRepairKeychainAfterRecovery : VaultM Bool := do
  let w ← Prog.get
  if w.keyring.isNone || w.salt.isSome then
    pure false
  else
    match ← loadKeychainUnwrapped.attempt with
    | .ok _ => pure false
    | .error (.keychain (.unavailable _)) => pure false
    | .error _ =>
      match ← Keychain.ensureAvailable.attempt with
      | .ok _ => pure true
      | .error _ => pure false

end SovereignVault
