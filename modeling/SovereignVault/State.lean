/-
The vault root as a store of typed files, the OS keychain beside it,
and the live handle in process memory.

Each named file of the root is a field that is either absent or holds the
parsed content: every writer of the source goes through a temporary file
and an atomic replace. What a file can hold is the type of the field. The
permission bits, the lock file's inode and the root path itself are left
out: one root, one process at a time.

The exclusive `.vault.lock` is held exactly while a handle is live, and a
crash loses it, so the handle is part of the state.
-/
import Mathlib.Data.List.AList
import SovereignVault.Crypto
import SovereignVault.Crash.Logic

namespace SovereignVault

open Crash

-- ==== the errors

inductive StorageError where
  | io (detail : String)
  | manifest (detail : String)
  | invalidPath (detail : String)
  | state (detail : String)
  | crypto (e : CryptoError)
  deriving DecidableEq

inductive KeychainError where
  | unavailable (detail : String)
  | notFound (detail : String)
  | backend (detail : String)
  deriving DecidableEq

inductive RecoveryError where
  | invalidCode (detail : String)
  | provider (detail : String)
  | io (detail : String)
  | crypto (e : CryptoError)
  deriving DecidableEq

inductive AuditError where
  | notInitialized (detail : String)
  | alreadyExists (detail : String)
  | authentication (detail : String)
  deriving DecidableEq

inductive CoreError where
  | crypto (e : CryptoError)
  | storage (e : StorageError)
  | keychain (e : KeychainError)
  | recovery (e : RecoveryError)
  | audit (e : AuditError)
  | io (detail : String)
  | base64 (detail : String)
  | misuse (detail : String)
  | vaultLocked
  deriving DecidableEq

structure WrappedDek where
  dekVersion : Nat
  wrapped : Sealed MasterKey

structure KeyringFile where
  version : Nat
  activeDekVersion : Nat
  minDecryptionVersion : Nat
  entries : List WrappedDek

-- ==== identity and material

/-- What `identity.svault` seals: the bare root in schema 1, the root
with its authentication flag in schema 2. -/
inductive IdentityPayload where
  | v1 (root : MasterKey)
  | v2 (root : MasterKey) (manifestAuthRequired : Bool)

structure IdentityFile where
  schema : Nat
  wrappedRoot : Sealed IdentityPayload

structure MaterialEntry (μ β : Type) where
  info : μ
  wrapped : Sealed β

/-- A material store: `transit.svault`, `signing.svault` or
`brokers.svault`. -/
structure MaterialFile (μ β : Type) where
  schema : Nat
  entries : List (MaterialEntry μ β)

structure TransitKeyInfo where
  name : String
  version : Nat

structure SigningKeyInfo where
  name : String
  version : Nat
  publicKey : Bytes

structure BrokerAllow where
  host : String
  pathPrefix : String
  methods : List String
  allowPrivateIp : Bool

inductive BrokerInjection where
  | bearerAuth
  | header (name : String)

structure BrokerSecretInfo where
  name : String
  allow : List BrokerAllow
  injection : BrokerInjection

structure Mnemonic where
  words : String

/-- `recovery.svault`. Bundles written before version binding carry no
`dekVersion`. -/
structure RecoveryBundle where
  version : Nat
  provider : String
  dekVersion : Option Nat
  salt : Salt
  wrappedKey : Sealed MasterKey

-- ==== the manifest

inductive SecurityMode where
  | direct | approval | otp | anonymized | zkp | native
  deriving DecidableEq

structure ManifestRule where
  pattern : String
  mode : SecurityMode
  description : Option String
  deriving DecidableEq

/-- The manifest without its integrity field: what is authenticated. -/
structure ManifestBody where
  schemaVersion : Nat
  defaultMode : SecurityMode
  rules : List ManifestRule
  deriving DecidableEq

/-- An ideal HMAC tag over a manifest body. -/
structure ManifestTag where
  key : MasterKey
  body : ManifestBody
  deriving DecidableEq

structure ManifestIntegrity where
  version : Nat
  hmacSha256 : ManifestTag
  deriving DecidableEq

structure Manifest where
  body : ManifestBody
  integrity : Option ManifestIntegrity
  deriving DecidableEq

structure Envelope where
  formatVersion : Nat
  keyVersion : Nat
  sealedBytes : Sealed Bytes

/-- The raw content of a `.svault` blob: at least a five-byte header,
or too short to have one. -/
inductive RawFile where
  | short (raw : Bytes)
  | envelope (e : Envelope)

-- ==== custody, journal

inductive CustodyMode where
  | osKeychain | passphrase | recovery
  deriving DecidableEq

/-- A keychain entry: a base64 key, or text that does not decode to
one. -/
inductive Credential where
  | key (k : MasterKey)
  | malformed (text : String)
  deriving DecidableEq

/-- An ideal SHA-256 digest of a keychain entry. -/
structure Fingerprint where
  credential : Credential
  deriving DecidableEq

inductive LifecycleJournal where
  | bootstrap (custody : CustodyMode) (salt : Option Salt)
      (scopedKekFingerprint : Option Fingerprint) (wrappedPhrase : Option (Sealed Mnemonic))
  | changePassphrase (oldSalt newSalt : Salt)
  | moveToKeychain
  | rotate (oldVersion newVersion : Nat) (recoveryBackup : RecoveryBundle)

/-- The audit directory as the lifecycle code meets it. -/
inductive AuditDir where
  | absent
  | activeOnly
  | initialised (key : MasterKey)

-- ==== the handle

/-- `BTreeMap<u32, MasterKey>`: the DEKs a vault handle holds. -/
abbrev KeyMap := Nat → Option MasterKey

/-- `Vault`: the open storage layer. Opening checks that the active
version is one of the keys. -/
structure Vault where
  keys : KeyMap
  activeVersion : Nat
  manifestAuthKey : MasterKey
  active_mem : (keys activeVersion).isSome

def Vault.activeDek (v : Vault) : MasterKey :=
  (v.keys v.activeVersion).get v.active_mem

structure VaultHandle where
  vault : Vault
  custody : CustodyMode
  identityRoot : MasterKey

abbrev BlobPath := String × String

/-- The vault root, the keychain and the live handle. -/
structure World where
  journal : Option LifecycleJournal
  salt : Option Salt
  keyring : Option KeyringFile
  staged : Option KeyringFile
  recovery : Option RecoveryBundle
  identity : Option IdentityFile
  transit : Option (MaterialFile TransitKeyInfo Bytes)
  signing : Option (MaterialFile SigningKeyInfo Bytes)
  brokers : Option (MaterialFile BrokerSecretInfo String)
  manifest : Option Manifest
  containers : List String
  files : AList fun _ : BlobPath => RawFile
  audit : AuditDir
  keychainAvailable : Bool
  /-- The entry under this root's scoped account. -/
  scopedKek : Option Credential
  /-- The entry under the legacy `master-key` account. -/
  legacyKek : Option Credential
  handle : Option VaultHandle

abbrev VaultM := Prog World CoreError

def World.empty : World where
  journal := none
  salt := none
  keyring := none
  staged := none
  recovery := none
  identity := none
  transit := none
  signing := none
  brokers := none
  manifest := none
  containers := []
  files := ∅
  audit := .absent
  keychainAvailable := true
  scopedKek := none
  legacyKek := none
  handle := none

/-- What a crash leaves: everything durable, no handle. -/
def World.crashed (w : World) : World := { w with handle := none }

def World.withFiles (w : World) (fs : AList fun _ : BlobPath => RawFile) : World :=
  { w with files := fs }

def World.withKeyring (w : World) (kr : KeyringFile) : World :=
  { w with keyring := some kr }

-- ==== durable file steps

/-- `write_atomic` and its siblings: one atomic replace, then a
directory sync that can fail after the replace took effect. -/
def writeAtomic (f : World → World) : VaultM Unit := do
  Prog.modify f
  Prog.sync

def removeFileDurable (present : World → Bool) (unlink : World → World) : VaultM Unit := do
  let w ← Prog.get
  if present w then
    Prog.modify unlink
    Prog.sync
  else
    pure ()

def readRequired {α : Type} (select : World → Option α) (missing : CoreError) : VaultM α := do
  let w ← Prog.get
  match select w with
  | some a => pure a
  | none => throw missing

-- ==== rules for the steps

section Rules

open Prog

variable {F : Faults World CoreError} {I : World → Prop}

variable {Q : Except CoreError Unit → World → Prop} {w : World}
  {f : World → World} {P : Unit → World → Prop} {unlink : World → World} {present : World → Bool}

/-- An atomic write is a crash point before, after, and between the
replace and the sync; a failing sync reports an error that took
effect. -/
theorem wp_writeAtomic
    (hi : I w) (hf : I (f w)) (hq : Q (.ok ()) (f w)) (hfail : ∀ e, F w e → Q (.error e) w)
    (hsync : ∀ e, F (f w) e → Q (.error e) (f w)) : wp F I (writeAtomic f) Q w :=
  wp_modify_sync hi hf hq hfail hsync

theorem wp_writeAtomic_none (hi : I w) (hf : I (f w))
    (hq : Q (.ok ()) (f w)) : wp Faults.none I (writeAtomic f) Q w :=
  wp_writeAtomic hi hf hq (fun _ h => h.elim) fun _ h => h.elim

theorem wp_removeFileDurable_none (hi : I w)
    (hthere : present w → I (unlink w) ∧ Q (.ok ()) (unlink w))
    (habsent : present w = false → Q (.ok ()) w) :
    wp Faults.none I (removeFileDurable present unlink) Q w := by
  simp only [removeFileDurable, bind_eq, wp_bind]
  refine observes_get.wp_none hi ?_
  cases hp : present w with
  | true =>
    obtain ⟨hu, hq⟩ := hthere hp
    simp only [seqPost_ok, hp, if_true, wp_bind, wp_modify]
    exact ⟨hi, ⟨hu, (wp_sync _ _).2 ⟨hu, hq, fun _ h => h.elim⟩⟩, fun _ h => h.elim⟩
  | false => simpa [hp] using ⟨hi, habsent hp⟩

theorem observes_readRequired {α : Type} (select : World → Option α) (missing : CoreError) :
    Observes (readRequired select missing) fun w =>
      match select w with
      | some a => .ok a
      | none => .error missing := by
  have h := observes_bind (observes_get (σ := World) (ε := CoreError))
    (h := fun w _ => match select w with
      | some a => .ok a
      | none => .error missing)
    (k := fun w => match select w with
      | some a => pure a
      | none => throw missing)
    (by
      intro w
      cases select w with
      | some a => exact observes_ret _
      | none => exact observes_ret _)
  exact h.congr fun w => rfl

theorem succeeds_writeAtomic (hi : I w) (hf : I (f w)) (hp : P () (f w)) :
    Succeeds F I (writeAtomic f) P w :=
  wp_writeAtomic hi hf hp (fun e he => ⟨e, he⟩) fun e he => ⟨e, he⟩

theorem succeeds_removeFileDurable (hi : I w)
    (hthere : present w → I (unlink w) ∧ P () (unlink w)) (habsent : present w = false → P () w) :
    Succeeds F I (removeFileDurable present unlink) P w := by
  simp only [removeFileDurable, bind_eq, succeeds_bind]
  refine observes_get.succeeds hi rfl ?_
  by_cases hp : present w = true
  · obtain ⟨hu, hq⟩ := hthere hp
    rw [if_pos hp, succeeds_bind]
    exact succeeds_modify hi hu (succeeds_sync hu hq)
  · rw [if_neg hp]
    exact succeeds_ret hi (habsent (Bool.eq_false_iff.2 hp))

end Rules

end SovereignVault
