/-
The vault as a service: everything a process can call on one root, and
what its end clears.

`bootstrap`, `unlock` and `unlock_with_recovery` need no handle; the other
calls are methods of the live one, and the vault's lock sees to it that
there is at most one.
-/
import SovereignVault.Crash.Run
import SovereignVault.Lifecycle

namespace SovereignVault

open Crash

inductive Call where
  | bootstrap (custody : CustodyMode) (passphrase : Option String) (ent : Entropy)
  | unlock (custody : CustodyMode) (passphrase : Option String)
  | unlockWithRecovery (phrase : Option Mnemonic) (ent : Entropy)
  | drop
  | rotateKey (passphrase : Option String) (ent : Entropy)
  | changePassphrase (current new : String) (ent : Entropy)
  | moveToOsKeychain (currentPassphrase : String) (ent : Entropy)
  | createContainer (name : String) (mode : SecurityMode) (description : Option String)
  | deleteContainer (name : String)
  | writeFile (path : BlobPath) (plaintext : Bytes)
  | deleteFile (path : BlobPath)

def dropHandle : VaultM Unit :=
  Prog.assigning fun w => { w with handle := none }

def silently (p : VaultM Unit) : VaultM (Option Mnemonic) := do
  p
  pure none

def issuing (p : VaultM Mnemonic) : VaultM (Option Mnemonic) := do
  let phrase ← p
  pure (some phrase)

def methodOf (self : VaultHandle) : Call → Option (VaultM (Option Mnemonic))
  | .drop => some (silently dropHandle)
  | .rotateKey passphrase ent => some (issuing (rotateKey self passphrase ent))
  | .changePassphrase current new ent => some (silently (changePassphrase self current new ent))
  | .moveToOsKeychain current ent => some (silently (moveToOsKeychain self current ent))
  | .createContainer name mode description =>
    some (silently (Storage.createContainer self.vault name mode description))
  | .deleteContainer name => some (silently (Storage.deleteContainer self.vault name))
  | .writeFile path plaintext => some (silently (Storage.writeFile self.vault path plaintext))
  | .deleteFile path => some (silently (Storage.deleteFile path))
  | .bootstrap .. | .unlock .. | .unlockWithRecovery .. => none

def progOf (w : World) : Call → Option (VaultM (Option Mnemonic))
  | .bootstrap custody passphrase ent => some (issuing (bootstrap custody passphrase ent))
  | .unlock custody passphrase => some (silently (unlock custody passphrase))
  | .unlockWithRecovery phrase ent => some (silently (unlockWithRecovery phrase ent))
  | call => w.handle.bind fun self => methodOf self call

def vault : Service World CoreError Call (Option Mnemonic) where
  prog := progOf
  reset := World.crashed

end SovereignVault
