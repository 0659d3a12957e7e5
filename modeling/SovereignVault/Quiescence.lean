/-
The vault at rest, and what an unlock attempt does to it.

`Whole` is the well-formed disk: a tidy keyring that opens under its KEK,
the content of `Resealing` sealed under it, a manifest that verifies, a
recovery bundle for the active DEK. `Quiescent` adds that no journal is
pending and names the normal credential. An attempt with any credential
changes nothing on disk, but that a KEK found under the legacy keychain
account is stored under the scoped one.
-/
import SovereignVault.Resealing
import SovereignVault.Unlocking

namespace SovereignVault

open Crash Prog Keyring Storage Except Keychain

-- ==== definitions

/-- `custody` with `cred` is the vault's normal credential, and `kek` the
key it gives. -/
def Normal (w : World) (custody : CustodyMode) (cred : Option String) (kek : MasterKey) : Prop :=
  match custody with
  | .passphrase => ∃ p salt, cred = some p ∧ w.salt = some salt ∧ kek = .fromPassphrase p salt
  | .osKeychain => w.salt = none ∧ w.keychainAvailable = true ∧ Held w.scopedKek w.legacyKek kek
  | .recovery => False

/-- Some phrase restores the active DEK from the bundle, and the version
it is bound to, if any, is the active one. -/
def Recovers (bundle : RecoveryBundle) (u : Unwrapped) : Prop :=
  ∃ phrase version, Recovery.openBundle bundle phrase = .ok ⟨u.activeDek, version⟩
    ∧ version.getD u.activeVersion = u.activeVersion

/-- A well-formed vault: the keyring `kr` opens under `kek` to `u`, and
the content `c` is there, its files under versions `S` allows. -/
structure Whole (w : World) (kek : MasterKey) (kr : KeyringFile)
    (u : Unwrapped) (c : Content) (S : BlobPath → Nat → Prop) :
    Prop where
  keyring : w.keyring = some kr
  tidy : Keyring.Tidy kr
  loads : Keyring.unwrapKeyring kr kek = .ok u
  material : w.withMaterial c (.all (materialWrapForDek u.activeDek)) = w
  files : FilesIn u.keys S c.files w.files
  placed : Placed c.files w.containers
  manifest : ∃ m, verifiedManifest (deriveManifestAuthKey c.root) w.manifest = .ok m
  recovery : ∃ bundle, w.recovery = some bundle ∧ Recovers bundle u

/-- A well-formed vault at rest, with its normal credential. -/
structure Quiescent (w : World) (custody : CustodyMode)
    (cred : Option String) (kek : MasterKey) (kr : KeyringFile)
    (u : Unwrapped) (c : Content) (S : BlobPath → Nat → Prop) : Prop
    extends Whole w kek kr u c S where
  journal : w.journal = none
  normal : Normal w custody cred kek

def vaultOf (u : Unwrapped) (root : MasterKey) : Vault where
  keys := u.keys
  activeVersion := u.activeVersion
  manifestAuthKey := deriveManifestAuthKey root
  active_mem := by rw [u.active_mem]; rfl

def handleOf (u : Unwrapped) (root : MasterKey) (custody : CustodyMode) : VaultHandle :=
  ⟨vaultOf u root, custody, root⟩

-- ==== the whole vault

section Whole

variable {w : World} {custody : CustodyMode} {cred : Option String} {kek : MasterKey}
  {kr : KeyringFile} {u : Unwrapped} {c : Content} {S : BlobPath → Nat → Prop}

@[simp] theorem vaultOf_activeDek (u : Unwrapped)
    (root : MasterKey) : (vaultOf u root).activeDek = u.activeDek := by
  simp [Vault.activeDek, vaultOf, u.active_mem]

theorem Whole.identity (h : Whole w kek kr u c S) : w.identity = some (Transit.authenticatedIdentity
      (materialWrapForDek u.activeDek) c.root) := by
  rw [← h.material]
  rfl

theorem Whole.loadOf (h : Whole w kek kr u c S) (path : String) :
    Keyring.loadOf path kek w.keyring = .ok u := by
  rw [h.keyring, loadOf_some h.tidy.schema, h.loads]

theorem Whole.loadOf_unique (h : Whole w kek kr u c S) {path : String}
    {k : MasterKey} {u' : Unwrapped}
    (hk : Keyring.loadOf path k w.keyring = .ok u') : k = kek ∧ u' = u := by
  by_cases hne : kek = k
  · subst hne
    rw [h.loadOf path, ok.injEq] at hk
    exact ⟨rfl, hk.symm⟩
  · obtain ⟨e, he⟩ := loadOf_other (h.loadOf path) hne
    rw [he] at hk
    cases hk

theorem Whole.openedOf (h : Whole w kek kr u c S) :
    openedOf u w.identity w.manifest = .ok (vaultOf u c.root, c.root) := by
  obtain ⟨m, hm⟩ := h.manifest
  have hi := authenticatedIdentityOf_authenticated u.activeDek c.root w.manifest
  rw [← h.identity] at hi
  exact openedOf_ok hi hm

theorem Whole.readFile (h : Whole w kek kr u c S) {path : BlobPath}
    {b : Bytes} (hb : c.files path = some b) :
    (readFile (vaultOf u c.root) path).run w = (.ok b, w) := by
  obtain ⟨hvalid, hcont⟩ := h.placed path b hb
  obtain ⟨raw, hraw, hsealed⟩ := h.files.present path b hb
  rw [(observes_readFile _ path).run, readOf_ok hvalid hcont hraw
      (SealedIn.openFile (v := vaultOf u c.root) hsealed)]

theorem Whole.frame (h : Whole w kek kr u c S) (j : Option LifecycleJournal)
    (salt : Option Salt) (staged : Option KeyringFile) (audit : AuditDir)
    (own : Option Credential) (handle : Option VaultHandle) :
    Whole { w with journal := j, salt := salt, staged := staged,
                   audit := audit, scopedKek := own, handle := handle } kek kr u c S where
  keyring := h.keyring
  tidy := h.tidy
  loads := h.loads
  material := by
    conv_rhs => rw [← h.material]
    rfl
  files := h.files
  placed := h.placed
  manifest := h.manifest
  recovery := h.recovery

theorem Normal.withScoped (h : Normal w custody cred kek) :
    Normal (w.withScoped kek) custody cred kek := by
  cases custody with
  | passphrase | recovery => exact h
  | osKeychain => exact ⟨h.1, h.2.1, .inl rfl⟩

theorem Quiescent.withScoped (h : Quiescent w custody cred kek kr u c S) :
    Quiescent (w.withScoped kek) custody cred kek kr u c S where
  toWhole := h.toWhole.frame w.journal w.salt w.staged w.audit (some (.key kek)) w.handle
  journal := h.journal
  normal := h.normal.withScoped

theorem Quiescent.withHandle (h : Quiescent w custody cred kek kr u c S)
    (handle : Option VaultHandle) :
    Quiescent { w with handle := handle } custody cred kek kr u c S where
  toWhole := h.toWhole.frame w.journal w.salt w.staged w.audit w.scopedKek handle
  journal := h.journal
  normal := h.normal

theorem Quiescent.settled (h : Quiescent w custody cred kek kr u c S) : Settled w.journal := by
  rw [h.journal]
  trivial

end Whole

-- ==== unlocking

section Unlock

variable {w : World} {custody : CustodyMode}
  {cred : Option String} {kek : MasterKey} {kr : KeyringFile} {u : Unwrapped} {c : Content}
  {S : BlobPath → Nat → Prop} {P : MasterKey × Unwrapped → World → Prop} {ent : Entropy}

theorem Quiescent.wp_open (h : Quiescent w custody cred kek kr u c S) :
    wp Faults.none (fun w => Quiescent w custody cred kek kr u c S)
      (match custody with
        | .osKeychain => unlockWithKeychain
        | _ => unlockWithPassphrase cred)
      (fun r w' => r = .ok ()
        ∧ w'.handle = some (handleOf u c.root custody)) w := by
  have hn := h.normal
  cases custody with
  | recovery => exact hn.elim
  | passphrase =>
    obtain ⟨p, salt, rfl, hsalt, rfl⟩ := hn
    exact wp_unlockWithPassphrase_ok h.settled hsalt (h.loadOf _)
      h.openedOf h (h.withHandle _) ⟨rfl, rfl⟩
  | osKeychain =>
    obtain ⟨hsalt, hav, hheld⟩ := hn
    exact wp_unlockWithKeychain_ok h.settled hav hsalt (h.loadOf _) hheld
      h.openedOf h h.withScoped (h.withScoped.withHandle _) ⟨rfl, rfl⟩

/-- **The normal credential unlocks a quiescent vault.** -/
theorem Quiescent.unlock (h : Quiescent w custody cred kek kr u c S)
    (hh : w.handle = none) : wp Faults.none (fun w => Quiescent w custody cred kek kr u c S)
      (unlock custody cred) (fun r w' => r = .ok ()
        ∧ w'.handle = some (handleOf u c.root custody)) w := by
  have hopen := h.wp_open
  simp only [SovereignVault.unlock, bind_eq, wp_bind, recoverLifecycleForUnlock]
  refine observes_acquireLock.wp_none h ?_
  simp only [hh, Option.isSome_none, Bool.false_eq_true, if_false, seqPost_ok, wp_bind]
  refine observes_readLifecycle.wp_none h ?_
  simp only [h.journal, seqPost_ok, pure_eq, wp_ret]
  refine ⟨h, ?_⟩
  cases custody with
  | recovery => exact h.normal.elim
  | passphrase | osKeychain => exact hopen

variable {F : Faults World CoreError} {I : World → Prop}

def Loads (w : World) (k : MasterKey) (u : Unwrapped) : Prop :=
  Keyring.loadOf Keyring.KEYRING_FILE k w.keyring = .ok u

theorem Loads.intro {k : MasterKey} (hkr : w.keyring = some kr)
    (hv : kr.version = Keyring.KEYRING_SCHEMA)
    (hu : Keyring.unwrapKeyring kr k = .ok u) : Loads w k u := by
  rw [Loads, hkr, loadOf_some hv, hu]

theorem Loads.unique {k k' : MasterKey} {u u' : Unwrapped}
    (h : Loads w k u) (h' : Loads w k' u') : u = u' := by
  by_cases hk : k = k'
  · subst hk
    exact ok.inj (h.symm.trans h')
  · obtain ⟨e, he⟩ := loadOf_other h hk
    rw [Loads, he] at h'
    cases h'

theorem yields_requireSession {P : World → World → Prop} (hi : I w)
    (hp : P w w) : Yields F I requireSession P w := by
  simp only [requireSession, bind_eq, yields_bind]
  refine observes_get.yields hi fun w' hw' => ?_
  cases hw'
  split
  · exact yields_ret hi hp
  · exact yields_error hi

theorem yields_tryCredential {credential : Credential}
    {P : Except (Option CoreError) (MasterKey × Unwrapped) → World → Prop}
    (hi : I w) (hok : ∀ k u, Loads w k u → P (.ok (k, u)) w)
    (herr : ∀ e, P (.error e) w) : Yields F I (tryCredential credential) P w := by
  cases credential with
  | malformed text => exact yields_ret hi (herr _)
  | key k =>
    simp only [tryCredential, decodeKeychainKek, bind_eq, yields_bind]
    rw [Yields, wp_attempt]
    refine observes_load k F I _ w hi ?_ fun _ e => ?_
    · beta_reduce
      cases hl : Keyring.loadOf Keyring.KEYRING_FILE k w.keyring with
      | ok u => exact yields_ret hi (hok k u hl)
      | error e => exact yields_ret hi (herr _)
    · exact yields_ret hi (herr _)

theorem yields_loadLegacyUnwrapped {own : Option Credential}
    {e : Option CoreError} (hi : I w) (hi' : ∀ k u, Loads w k u → I (w.withScoped k))
    (hp : ∀ k u, Loads w k u → P (k, u) (w.withScoped k)) :
    Yields F I (loadLegacyUnwrapped own e) P w := by
  simp only [loadLegacyUnwrapped, loadLegacy, bind_eq, yields_bind]
  refine yields_requireSession hi (yields_ret hi ?_)
  split
  · split
    · exact yields_error hi
    · exact yields_error hi
  split
  · exact yields_error hi
  rw [yields_bind]
  refine yields_tryCredential hi (fun k u hl => ?_) fun e => yields_error hi
  simp only [yields_bind, storeScoped, bind_eq]
  refine yields_requireSession hi ?_
  have hi₁ := hi' k u hl
  exact (succeeds_modify hi hi₁ (yields_ret hi₁ (hp k u hl))).yields

theorem yields_loadKeychainUnwrapped (hi : I w) (hi' : ∀ k u, Loads w k u → I (w.withScoped k))
    (hp : ∀ k u, Loads w k u → P (k, u) w ∧ P (k, u) (w.withScoped k)) :
    Yields F I loadKeychainUnwrapped P w := by
  simp only [loadKeychainUnwrapped, loadScoped, bind_eq, yields_bind]
  refine yields_requireSession hi (yields_ret hi ?_)
  split
  · exact yields_loadLegacyUnwrapped hi hi' fun k u hl => (hp k u hl).2
  · rw [yields_bind]
    refine yields_tryCredential hi (fun k u hl => yields_ret hi (hp k u hl).1) fun e => ?_
    exact yields_loadLegacyUnwrapped hi hi' fun k u hl => (hp k u hl).2

variable {P : Unit → World → Prop}

theorem yields_openAndInstall (hs : Settled w.journal) (hi : I w)
    (hp : ∀ v root, openedOf u w.identity w.manifest = .ok (v, root) →
      I (w.withHandle ⟨v, custody, root⟩) ∧ P () (w.withHandle ⟨v, custody, root⟩)) :
    Yields F I (openAndInstall custody u) P w := by
  simp only [openAndInstall, finishPendingBootstrap, bind_eq, yields_bind]
  refine (observes_openUnwrapped u).yields hi fun a ha => ?_
  obtain ⟨hi', hp'⟩ := hp a.1 a.2 ha
  refine observes_readLifecycle.yields hi fun j hj => ?_
  obtain rfl := ok.inj hj
  split
  · next heq =>
    rw [heq] at hs
    exact hs.elim
  · exact yields_ret hi (succeeds_assigning hi hi' hp').yields

theorem yields_openNormal (hi : I w) (hi' : ∀ k u, Loads w k u → I (w.withScoped k))
    (hp : ∀ k u custody, Loads w k u → Yields F I (openAndInstall custody u) P w
        ∧ Yields F I (openAndInstall custody u) P (w.withScoped k))
    (recovered asked : CustodyMode) (pass : Option String) :
    Yields F I (openNormal recovered asked pass) P w := by
  have hkeychain : Yields F I unlockWithKeychain P w := by
    simp only [unlockWithKeychain, bind_eq, yields_bind]
    refine observes_get.yields hi fun w' hw' => ?_
    cases hw'
    split
    · exact yields_error hi
    split
    · refine observes_throwLegacyManifestMigration.yields hi fun a ha => ?_
      cases ha
    rw [yields_bind]
    exact yields_loadKeychainUnwrapped hi hi' fun k u hl => hp k u .osKeychain hl
  have hpass : Yields F I (unlockWithPassphrase pass) P w := by
    cases pass with
    | none => exact yields_error hi
    | some x =>
      simp only [unlockWithPassphrase, requirePassphrase, bind_eq, bind_ret_ok, yields_bind]
      refine (observes_derivePassphraseKek x).yields hi fun k hk => ?_
      refine observes_get.yields hi fun w' hw' => ?_
      cases hw'
      split
      · refine observes_throwLegacyManifestMigration.yields hi fun a ha => ?_
        cases ha
      rw [yields_bind]
      exact (observes_load k).yields hi fun u hl => (hp k u .passphrase hl).1
  cases recovered with
  | osKeychain => exact hkeychain
  | passphrase | recovery =>
    cases asked with
    | recovery => exact yields_error hi
    | osKeychain | passphrase => exact hpass

theorem yields_unlock_of_journal (hj : w.journal = none) (hi : I w) {asked : CustodyMode}
    {pass : Option String} (hopen : Yields F I (openNormal asked asked pass) P w) :
    Yields F I (SovereignVault.unlock asked pass) P w := by
  simp only [SovereignVault.unlock, bind_eq, yields_bind, recoverLifecycleForUnlock]
  refine observes_acquireLock.yields hi fun _ _ => ?_
  refine observes_readLifecycle.yields hi fun j hj' => ?_
  obtain rfl : none = j := by
    rw [hj] at hj'
    exact ok.inj hj'
  exact yields_ret hi hopen

theorem Quiescent.yields_open (h : Quiescent w custody cred kek kr u c S)
    (recovered asked : CustodyMode) (pass : Option String) :
    Yields F (fun w => Quiescent w custody cred kek kr u c S) (openNormal recovered asked pass)
      (fun _ w' => ∃ custody, w'.handle = some (handleOf u c.root custody)) w := by
  have hinstall {w : World} {as : CustodyMode} (h : Quiescent w custody cred kek kr u c S) :
      Yields F (fun w => Quiescent w custody cred kek kr u c S)
        (openAndInstall as u)
        (fun _ w' => ∃ custody, w'.handle = some (handleOf u c.root custody)) w := by
    refine yields_openAndInstall h.settled h fun v root hopen => ?_
    rw [h.openedOf, ok.injEq, Prod.mk.injEq] at hopen
    obtain ⟨rfl, rfl⟩ := hopen
    exact ⟨h.withHandle _, as, rfl⟩
  refine yields_openNormal h (fun k u' hl => ?_) (fun k u' as hl => ?_) recovered asked pass
  · obtain ⟨rfl, -⟩ := h.loadOf_unique hl
    exact h.withScoped
  · obtain ⟨rfl, rfl⟩ := h.loadOf_unique hl
    exact ⟨hinstall h, hinstall h.withScoped⟩

/-- **Any unlock attempt leaves a quiescent vault as it is**, under any
faults, and a handle it returns is a handle to it. -/
theorem Quiescent.attempt (h : Quiescent w custody cred kek kr u c S) (asked : CustodyMode)
    (pass : Option String) : Yields F (fun w => Quiescent w custody cred kek kr u c S)
      (SovereignVault.unlock asked pass)
      (fun _ w' => ∃ custody, w'.handle = some (handleOf u c.root custody)) w :=
  yields_unlock_of_journal h.journal h (h.yields_open asked asked pass)

-- ==== unlocking with the phrase

/-- Where a search of the keychain can leave the world. -/
def Searched (w w' : World) : Prop :=
  w' = w ∨ ∃ k u, Loads w k u ∧ w' = w.withScoped k

theorem yields_shouldRepair
    {P : Bool → World → Prop} (hi : I w) (hi' : ∀ k u, Loads w k u → I (w.withScoped k))
    (hp : ∀ b w', Searched w w' → P b w') : Yields F I shouldRepairKeychainAfterRecovery P w := by
  have hsearched : ∀ w', Searched w w' → I w' := by
    rintro w' (rfl | ⟨k, u, hl, rfl⟩)
    · exact hi
    · exact hi' k u hl
  simp only [shouldRepairKeychainAfterRecovery, bind_eq, yields_bind]
  refine observes_get.yields hi fun w' hw' => ?_
  cases hw'
  split
  · exact yields_ret hi (hp _ _ (.inl rfl))
  rw [yields_bind, Yields, wp_attempt]
  have hload : Yields F (Searched w) loadKeychainUnwrapped (fun _ _ => True) w :=
    yields_loadKeychainUnwrapped (.inl rfl)
      (fun k u hl => .inr ⟨k, u, hl, rfl⟩) fun _ _ _ => ⟨trivial, trivial⟩
  refine wp_mono hload hsearched fun res w' hs _ => ?_
  have hi₁ := hsearched w' hs
  cases res with
  | ok found => exact yields_ret hi₁ (hp _ _ hs)
  | error e =>
    have hrest {k : Except CoreError Unit → VaultM Bool} (hk : ∀ r, ∃ b, k r = pure b) :
        Yields F I (ensureAvailable.attempt.bind k) P w' := by
      rw [yields_bind, Yields, wp_attempt]
      have havail : Yields F (· = w') ensureAvailable (fun _ _ => True) w' := by
        simp only [ensureAvailable, bind_eq, yields_bind]
        exact yields_requireSession rfl (yields_ret rfl trivial)
      refine wp_mono havail (fun _ h => h ▸ hi₁) fun res _ h _ => ?_
      subst h
      obtain ⟨b, hb⟩ := hk res
      show Yields F I (k res) P _
      rw [hb]
      exact yields_ret hi₁ (hp _ _ hs)
    cases e with
    | keychain e =>
      cases e with
      | unavailable text => exact yields_ret hi₁ (hp _ _ hs)
      | _ => exact hrest (Except.rec (fun _ => ⟨_, rfl⟩) fun _ => ⟨_, rfl⟩)
    | _ => exact hrest (Except.rec (fun _ => ⟨_, rfl⟩) fun _ => ⟨_, rfl⟩)

theorem yields_openRecovered {dek : MasterKey} {active : Nat} (hs : Settled w.journal) (hi : I w)
    (hi' : ∀ k u, Loads w k u → I (w.withScoped k)) (hplain : ∀ w' v root, Searched w w' →
      openedOf (.single dek active) w.identity w.manifest = .ok (v, root) →
      I (w'.withHandle ⟨v, .recovery, root⟩) ∧ P () (w'.withHandle ⟨v, .recovery, root⟩))
    (hscoped : I (w.withScoped ent.kek))
    (hreplaced : I ((w.withScoped ent.kek).withKeyring (single ent.kek dek active)))
      (hrepair : ∀ v root, openedOf (.single dek active)
      w.identity w.manifest = .ok (v, root) → I (((w.withScoped ent.kek).withKeyring
          (single ent.kek dek active)).withHandle ⟨v, .osKeychain, root⟩)
        ∧ P () (((w.withScoped ent.kek).withKeyring (single ent.kek dek active)).withHandle
            ⟨v, .osKeychain, root⟩)) : Yields F I (openRecovered dek active ent) P w := by
  -- opening, finishing and installing, from either world
  have hinstall {w' : World} {custody : CustodyMode} {identity : Transit.IdentityState}
      (hi : I w') (hj : w'.journal = w.journal) (hm : w'.manifest = w.manifest)
      (hid : authenticatedIdentityOf dek w.identity w.manifest = .ok identity)
      (hp : ∀ v root, openedOf (.single dek active) w.identity w.manifest = .ok (v, root) →
        I (w'.withHandle ⟨v, custody, root⟩) ∧ P () (w'.withHandle ⟨v, custody, root⟩)) :
      Yields F I (do
        let vault ← openExisting (Function.update (fun _ => none) active (some dek))
          active (deriveManifestAuthKey identity.root)
        finishPendingBootstrap identity.root
        install ⟨vault, custody, identity.root⟩) P w' := by
    simp only [finishPendingBootstrap, bind_eq, yields_bind]
    refine (observes_openExisting _ _ _).yields hi fun v hv => ?_
    rw [hm] at hv
    have hopen : openedOf (.single dek active) w.identity w.manifest = .ok (v, identity.root) := by
      simp only [openedOf, Unwrapped.single, hid, Except.bind, hv]
    obtain ⟨hi₁, hp₁⟩ := hp v identity.root hopen
    refine observes_readLifecycle.yields hi fun j hj' => ?_
    obtain rfl := ok.inj hj'
    split
    · next heq =>
      rw [← hj, heq] at hs
      exact hs.elim
    · exact yields_ret hi (succeeds_assigning hi hi₁ hp₁).yields
  simp only [openRecovered, bind_eq, yields_bind]
  refine (observes_loadAuthenticatedIdentity dek).yields hi fun identity hid => ?_
  refine yields_shouldRepair hi hi' fun b w' hsearched => ?_
  have hw' : I w' ∧ w'.journal = w.journal ∧ w'.manifest = w.manifest
      ∧ w'.withScoped ent.kek = w.withScoped ent.kek := by
    obtain rfl | ⟨k, u, hl, rfl⟩ := hsearched
    · exact ⟨hi, rfl, rfl, rfl⟩
    · exact ⟨hi' k u hl, rfl, rfl, rfl⟩
  obtain ⟨hi₁, hj, hm, hsame⟩ := hw'
  cases b with
  | false => exact hinstall hi₁ hj hm hid fun v root => hplain w' v root hsearched
  | true =>
    simp only [if_true, yields_bind, ensureAvailable, storeScoped, bind_eq]
    refine yields_requireSession hi₁ (yields_ret hi₁ ?_)
    refine yields_requireSession hi₁ ?_
    have hscoped' : I (w'.withScoped ent.kek) := by
      rw [hsame]
      exact hscoped
    refine (succeeds_modify hi₁ hscoped' ?_).yields
    show Yields F I _ _ (w'.withScoped ent.kek)
    rw [hsame, Keyring.replaceWithSingleActiveDek]
    split
    · exact yields_error hscoped
    · refine (succeeds_writeAtomic hscoped hreplaced ?_).yields
      have hend := hinstall hreplaced rfl rfl hid hrepair
      simp only [bind_eq, yields_bind] at hend
      exact hend

theorem yields_unlockWithRecovery {phrase : Option Mnemonic} (hi : I w)
    (hopen : allowsRecovery w.journal = true →
      ∀ kr bundle phrase rec, w.keyring = some kr → w.recovery = some bundle →
        Recovery.openBundle bundle phrase = .ok rec → rec.dekVersion.getD kr.activeDekVersion
        = kr.activeDekVersion → Yields F I (openRecovered rec.masterKey kr.activeDekVersion ent)
          P w) : Yields F I (unlockWithRecovery phrase ent) P w := by
  simp only [unlockWithRecovery, bind_eq, yields_bind]
  refine observes_acquireLock.yields hi fun _ _ => ?_
  refine (observes_readRequired _ _).yields hi fun _ _ => ?_
  refine observes_readLifecycle.yields hi fun j hj => ?_
  obtain rfl := ok.inj hj
  split
  · next hallow =>
    cases phrase with
    | none => exact yields_error hi
    | some phrase =>
      simp only [Recovery.restoreMasterKeyWithVersion, bind_eq, yields_bind]
      refine (observes_readRequired _ _).yields hi fun bundle hb => ?_
      cases hrec : w.recovery with
      | none =>
        simp only [hrec] at hb
        cases hb
      | some bundle' =>
        simp only [hrec, ok.injEq] at hb
        subst hb
        refine (observes_ret _).yields hi fun rec hopened => ?_
        refine observes_get.yields hi fun w' hw' => ?_
        cases hw'
        cases hkr : w.keyring with
        | none =>
          refine observes_throwLegacyManifestMigration.yields hi fun a ha => ?_
          cases ha
        | some kr =>
          simp only [Keyring.activeVersion, bind_eq,
            yields_bind, Option.isNone_some, Bool.false_eq_true, if_false, Keyring.readKeyring]
          refine (observes_readKeyringFile _ _).yields hi fun kr' hkr' => ?_
          rw [hkr] at hkr'
          obtain rfl := eq_of_parsed hkr'
          refine yields_ret hi ?_
          split
          · exact yields_error hi
          · next hver =>
            exact hopen hallow kr bundle' phrase rec hkr hrec hopened (not_not.1 hver)
  · exact yields_error hi

end Unlock

end SovereignVault
