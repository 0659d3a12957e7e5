/-
What each function leaves alone.

What an open vault does beside its files (store a KEK in the keychain,
finish the audit log, install the handle) keeps a `Sessionless` condition.
And everything the vault does to its other files, the keychain and the
handle keeps `OnJournal J`, a condition on the journal alone;
`remove_lifecycle` keeps those that hold of no journal.
-/
import SovereignVault.Calls

namespace SovereignVault

open Crash Prog

def OnJournal (J : Option LifecycleJournal → Prop) (w : World) : Prop :=
  J w.journal

/-- A condition that does not look at the handle and the audit log, and
that storing a KEK in the keychain keeps. -/
class Sessionless (I : World → Prop) : Prop where
  handle : ∀ w h, I w → I { w with handle := h }
  audit : ∀ w a, I w → I { w with audit := a }
  stored : ∀ w k, I w → I { w with scopedKek := some (.key k) }

instance {J : Option LifecycleJournal → Prop} : Sessionless (OnJournal J) where
  handle _ _ h := h
  audit _ _ h := h
  stored _ _ h := h

class Clears (I : World → Prop) : Prop where
  gone : ∀ w, I w → I { w with journal := none }

variable {J : Option LifecycleJournal → Prop} {I : World → Prop}

theorem clears_of_none (hnone : J none) : Clears (OnJournal J) := ⟨fun _ _ => hnone⟩

-- ==== file steps

theorem keeps_writeAtomic {f : World → World} (hf : ∀ w, I w → I (f w)) : Keeps I (writeAtomic f) :=
  ⟨stable_bind (stable_modify hf) fun _ => stable_sync⟩

theorem keeps_removeFileDurable {present : World → Bool} {unlink : World → World}
    (hf : ∀ w, I w → I (unlink w)) : Keeps I (removeFileDurable present unlink) := by
  have : Keeps I (Prog.modify unlink : VaultM Unit) := ⟨stable_modify hf⟩
  unfold removeFileDurable
  infer_instance

instance {α : Type} (select : World → Option α) (missing : CoreError) :
    Keeps I (readRequired select missing) :=
  ⟨(observes_readRequired select missing).stable⟩

-- ==== the keyring

namespace Keyring

instance : Keeps I readKeyring := ⟨(observes_readKeyringFile _ _).stable⟩

instance (kek : MasterKey) : Keeps I (load kek) := ⟨(observes_load kek).stable⟩

instance (kek : MasterKey) : Keeps I (loadStaged kek) :=
  ⟨(observes_loadStaged kek).stable⟩

instance : Keeps I activeVersion := by
  unfold activeVersion
  infer_instance

instance (kr : KeyringFile) : Keeps (OnJournal J) (writeKeyring kr) :=
  keeps_writeAtomic fun _ h => h

instance (kr : KeyringFile) : Keeps (OnJournal J) (writeStagedKeyring kr) :=
  keeps_writeAtomic fun _ h => h

instance (oldKek newKek : MasterKey) :
    Keeps (OnJournal J) (stageRewrapUnderNewKek oldKek newKek) := by
  unfold stageRewrapUnderNewKek
  infer_instance

instance : Keeps (OnJournal J) commitStaged :=
  keeps_bind fun _ => keeps_writeAtomic fun _ h => h

instance : Keeps (OnJournal J) discardStaged :=
  keeps_removeFileDurable fun _ h => h

instance (kek newDek : MasterKey) : Keeps (OnJournal J) (addActiveDek kek newDek) := by
  unfold addActiveDek
  infer_instance

instance (version : Nat) : Keeps (OnJournal J) (setActiveVersion version) := by
  unfold setActiveVersion
  infer_instance

instance (version : Nat) : Keeps (OnJournal J) (removeVersion version) := by
  unfold removeVersion
  infer_instance

instance (kek dek : MasterKey) (activeVersion : Nat) : Keeps (OnJournal J)
    (replaceWithSingleActiveDek kek activeVersion dek) := by
  unfold replaceWithSingleActiveDek
  infer_instance

end Keyring

-- ==== the keychain

namespace Keychain

instance : Keeps I requireSession := by
  unfold requireSession
  infer_instance

instance : Keeps I ensureAvailable := by
  unfold ensureAvailable
  infer_instance

instance : Keeps I loadScoped := by
  unfold loadScoped
  infer_instance

instance : Keeps I loadLegacy := by
  unfold loadLegacy
  infer_instance

instance [Sessionless I] (kek : MasterKey) : Keeps I (storeScoped kek) :=
  keeps_bind fun _ => ⟨stable_modify fun w h => Sessionless.stored w kek h⟩

instance : Keeps (OnJournal J) deleteScoped :=
  keeps_bind fun _ => ⟨stable_modify fun _ h => h⟩

end Keychain

instance (passphrase : String) : Keeps I (derivePassphraseKek passphrase) :=
  ⟨(observes_derivePassphraseKek passphrase).stable⟩

instance (credential : Credential) : Keeps I (tryCredential credential) := by
  unfold tryCredential
  split
  · infer_instance
  · refine keeps_bind fun r => ?_
    split <;> infer_instance

instance [Sessionless I] (own : Option Credential)
    (decodeError : Option CoreError) : Keeps I (loadLegacyUnwrapped own decodeError) := by
  unfold loadLegacyUnwrapped
  refine keeps_bind fun legacy => ?_
  split
  · split <;> infer_instance
  · split
    · infer_instance
    · refine keeps_bind fun r => ?_
      split <;> infer_instance

instance [Sessionless I] : Keeps I loadKeychainUnwrapped := by
  unfold loadKeychainUnwrapped
  refine keeps_bind fun own => ?_
  split
  · infer_instance
  · refine keeps_bind fun r => ?_
    split <;> infer_instance

instance [Sessionless I] : Keeps I loadVerifiedKeychainKek := by
  unfold loadVerifiedKeychainKek
  infer_instance

instance : Keeps I loadKeychainKekCandidates := by
  unfold loadKeychainKekCandidates
  infer_instance

instance [Sessionless I] : Keeps I shouldRepairKeychainAfterRecovery := by
  unfold shouldRepairKeychainAfterRecovery
  refine keeps_bind fun w => ?_
  split
  · infer_instance
  refine keeps_bind fun r => ?_
  split
  · infer_instance
  · infer_instance
  · refine keeps_bind fun r => ?_
    split <;> infer_instance

-- ==== storage and material

namespace Storage

instance (keys : KeyMap) (activeVersion : Nat) (key : MasterKey) :
    Keeps I (openExisting keys activeVersion key) :=
  ⟨(observes_openExisting keys activeVersion key).stable⟩

instance (key : MasterKey) : Keeps I (readManifest key) :=
  ⟨(observes_readManifest key).stable⟩

instance (v : Vault) (path : BlobPath) : Keeps I (readFile v path) :=
  ⟨(observes_readFile v path).stable⟩

instance (body : ManifestBody) (key : MasterKey) : Keeps (OnJournal J) (writeManifest body key) :=
  keeps_writeAtomic fun _ h => h

instance (master key : MasterKey) : Keeps (OnJournal J) (openOrInit master key) := by
  unfold openOrInit
  infer_instance

instance (container : String) : Keeps I (ensureContainer container) := by
  unfold ensureContainer
  infer_instance

instance (v : Vault) : Keeps I (listContainers v) := by
  unfold listContainers
  infer_instance

instance (v : Vault) (container : String) : Keeps I (listFiles v container) := by
  unfold listFiles containerMode
  infer_instance

instance (v : Vault) (path : BlobPath) (b : Bytes) : Keeps (OnJournal J) (writeFile v path b) := by
  unfold writeFile
  refine keeps_bind fun _ => keeps_bind fun _ => ?_
  split
  · infer_instance
  · exact keeps_writeAtomic fun _ h => h

instance (path : BlobPath) : Keeps (OnJournal J) (deleteFile path) :=
  keeps_bind fun _ => keeps_bind fun _ => keeps_removeFileDurable fun _ h => h

instance (v : Vault) (path : BlobPath) : Keeps (OnJournal J) (rewrapFile v path) := by
  unfold rewrapFile
  infer_instance

instance (v : Vault) (name : String) (mode : SecurityMode) (description : Option String) :
    Keeps (OnJournal J) (createContainer v name mode description) := by
  unfold createContainer
  refine keeps_bind fun _ => keeps_bind fun w => ?_
  split
  · infer_instance
  · exact keeps_bind fun _ => keeps_bind fun _ => keeps_writeAtomic fun _ h => h

instance (name : String) : Keeps (OnJournal J) (removeDirAll name) := by
  refine keeps_bind fun w => ⟨stable_bind ?_ fun _ => ?_⟩
  · exact stable_forEach (fun file => stable_modify fun _ h => by exact h) _
  · exact stable_modify fun _ h => h

instance (v : Vault) (name : String) : Keeps (OnJournal J) (deleteContainer v name) := by
  unfold deleteContainer
  infer_instance

end Storage

namespace Transit

instance (wrapKey : MasterKey) : Keeps I (loadIdentity wrapKey) :=
  ⟨(observes_loadIdentity wrapKey).stable⟩

instance (wrapKey root : MasterKey) :
    Keeps (OnJournal J) (writeAuthenticatedIdentity wrapKey root) :=
  keeps_writeAtomic fun _ h => h

instance (wrapKey fresh : MasterKey) (legacyRoot : Option MasterKey) :
    Keeps (OnJournal J) (loadOrCreateIdentity wrapKey legacyRoot fresh) := by
  unfold loadOrCreateIdentity
  infer_instance

theorem keeps_rewrapStore {μ β : Type}
    {store : Store μ β} (hstore : ∀ file w, OnJournal J w → OnJournal J (store.write file w))
    (oldWrap newWrap : MasterKey) : Keeps (OnJournal J) (rewrapStore store oldWrap newWrap) := by
  unfold rewrapStore readJson
  refine keeps_bind fun file => ?_
  split
  · infer_instance
  · exact keeps_bind fun _ => keeps_writeAtomic (hstore _)

instance (oldWrap newWrap : MasterKey) :
    Keeps (OnJournal J) (rewrapAllMaterial oldWrap newWrap) := by
  have hidentity : Keeps (OnJournal J) (rewrapIdentity oldWrap newWrap) :=
    keeps_bind fun _ => keeps_bind fun _ => keeps_bind fun _ => keeps_writeAtomic fun _ h => h
  have htransit : Keeps (OnJournal J) (rewrapTransit oldWrap newWrap) :=
    keeps_rewrapStore (fun _ _ h => h) _ _
  have hsigning : Keeps (OnJournal J) (rewrapSigning oldWrap newWrap) :=
    keeps_rewrapStore (fun _ _ h => h) _ _
  have hbrokers : Keeps (OnJournal J) (rewrapBrokers oldWrap newWrap) :=
    keeps_rewrapStore (fun _ _ h => h) _ _
  unfold rewrapAllMaterial
  infer_instance

end Transit

instance (v : Vault) : Keeps (OnJournal J) (rewrapAllFiles v) := by
  unfold rewrapAllFiles
  infer_instance

-- ==== opening

instance : Keeps I acquireLock := ⟨observes_acquireLock.stable⟩

instance (u : Keyring.Unwrapped) : Keeps I (openUnwrapped u) :=
  ⟨(observes_openUnwrapped u).stable⟩

instance (dek : MasterKey) : Keeps I (loadAuthenticatedIdentity dek) :=
  ⟨(observes_loadAuthenticatedIdentity dek).stable⟩

instance {α : Type} : Keeps I (throwLegacyManifestMigration : VaultM α) :=
  ⟨observes_throwLegacyManifestMigration.stable⟩

instance [Sessionless I] (h : VaultHandle) : Keeps I (install h) :=
  ⟨stable_assigning fun w => Sessionless.handle w (some h)⟩

instance (v : Vault) : Keeps (OnJournal J) (setVault v) :=
  ⟨stable_assigning fun _ h => h⟩

instance [Sessionless I] (identityRoot : MasterKey) :
    Keeps I (ensureBootstrapAudit identityRoot) := by
  have hwrite (a : AuditDir) :
      Keeps I (writeAtomic fun w => { w with audit := a }) :=
    keeps_writeAtomic fun w => Sessionless.audit w _
  unfold ensureBootstrapAudit
  refine keeps_bind fun w => ?_
  split <;> infer_instance

-- ==== the journal itself

instance : Keeps I readLifecycle := ⟨observes_readLifecycle.stable⟩

instance [Clears I] : Keeps I removeLifecycle :=
  keeps_removeFileDurable Clears.gone

theorem keeps_writeLifecycle {j : LifecycleJournal} (hj : J (some j)) :
    Keeps (OnJournal J) (writeLifecycle j) :=
  keeps_writeAtomic fun _ _ => hj

instance [Sessionless I] [Clears I] (identityRoot : MasterKey) :
    Keeps I (finishPendingBootstrap identityRoot) := by
  unfold finishPendingBootstrap
  refine keeps_bind fun j => ?_
  split <;> infer_instance

theorem keeps_openAndInstall [Sessionless I] [∀ root, Keeps I (finishPendingBootstrap root)]
    (custody : CustodyMode) (u : Keyring.Unwrapped) : Keeps I (openAndInstall custody u) := by
  unfold openAndInstall
  infer_instance

instance [Sessionless I] [Clears I] (custody pending : CustodyMode)
    (pass : Option String) (salt : Option Salt) (wrapped : Sealed Mnemonic) :
    Keeps I (resumeBootstrap custody pending pass salt wrapped) := by
  have hkek : Keeps I (resumeKek custody pass salt) := by
    unfold resumeKek
    split
    · refine keeps_bind fun _ => ?_
      split <;> infer_instance
    · infer_instance
    · infer_instance
  unfold resumeBootstrap resumeWith
  split
  · infer_instance
  · exact keeps_bind fun _ => keeps_bind fun _ => keeps_bind fun ⟨_, _⟩ => inferInstance

end SovereignVault
