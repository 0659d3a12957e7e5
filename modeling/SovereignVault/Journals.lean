/-
Pending journals are exclusive: in every run of the vault, with any I/O
failures, a journal that is pending is changed only by its own operation
or by its own recovery.

`rotate_key` and `bootstrap` read the journal before they start and
refuse to overwrite another operation's. `change_passphrase` and
`move_to_os_keychain` do not: after a rotation whose rollback failed they
write over the journal and remove it. `Polite` is the check they lack, as
a condition on the state a call finds.
-/
import SovereignVault.JournalFrame
import SovereignVault.RotationCrash

namespace SovereignVault

open Crash Prog

-- ==== whose journal it is

inductive Operation where
  | bootstrap
  | rotate
  | changePassphrase
  | moveToKeychain
  deriving DecidableEq, Repr

def LifecycleJournal.operation : LifecycleJournal → Operation
  | .bootstrap .. => .bootstrap
  | .rotate .. => .rotate
  | .changePassphrase .. => .changePassphrase
  | .moveToKeychain => .moveToKeychain

def Call.operation : Call → Option Operation
  | .bootstrap .. => some .bootstrap
  | .rotateKey .. => some .rotate
  | .changePassphrase .. => some .changePassphrase
  | .moveToOsKeychain .. => some .moveToKeychain
  | _ => none

/-- A run of `p` from `w` to `w'` took the journal `j` away inside `q`. -/
def RemovedIn {α β : Type} (F : Faults World CoreError) (p : VaultM α)
    (w w' : World) (j : LifecycleJournal) (q : VaultM β) : Prop :=
  ∃ s₀ s₁, Through F q s₀ s₁ p w w' ∧ s₀.journal = some j ∧ s₁.journal = none

/-- A run of `p` took the journal `j` away by finishing a bootstrap. -/
def Finishes {α : Type} (F : Faults World CoreError) (p : VaultM α)
    (w w' : World) (j : LifecycleJournal) : Prop :=
  ∃ root, RemovedIn F p w w' j (finishPendingBootstrap root)

/-- The call took the journal `j` away by the recovery of `j`'s own
operation; a bootstrap with only its phrase to hand out is finished. -/
def RecoversJournal (F : Faults World CoreError) (w w' : World)
    (j : LifecycleJournal) : Call → Prop
  | .unlock custody pass =>
    match j with
    | .bootstrap .. => Finishes F (unlock custody pass) w w' j
    | _ => RemovedIn F (unlock custody pass) w w' j (recoverPending custody pass j)
  | .unlockWithRecovery phrase ent =>
    j.operation = .bootstrap ∧ Finishes F (unlockWithRecovery phrase ent) w w' j
  | _ => False

/-- What a call may do to the journal: write one of its own operation if
none is pending; otherwise leave the pending one, continue it if it is of
the same operation, or recover it. A crash comes after the call's last
step. -/
def JournalKept (F : Faults World CoreError) (w : World) (call : Call)
    (after : World) : Prop :=
  match w.journal with
  | none => ∀ j, after.journal = some j → call.operation = some j.operation
  | some j =>
    after.journal = some j
    ∨ call.operation = some j.operation
        ∧ (∀ j', after.journal = some j' → j'.operation = j.operation)
    ∨ after.journal = none
        ∧ ∃ w', (after = w' ∨ after = w'.crashed) ∧ RecoversJournal F w w' j call

/-- `change_passphrase` and `move_to_os_keychain` are not called while
the journal of another operation is pending. -/
def Polite (w : World) : Call → Prop
  | .changePassphrase .. => ∀ j, w.journal = some j → j.operation = .changePassphrase
  | .moveToOsKeychain .. => ∀ j, w.journal = some j → j.operation = .moveToKeychain
  | _ => True

-- ==== the four operations

section Operations

variable {J : Option LifecycleJournal → Prop} {I : World → Prop}
  {F : Faults World CoreError} {j : LifecycleJournal} (custody : CustodyMode) (pass : Option String)

instance (kek oldDek newDek : MasterKey) (old : Nat) :
    Keeps (OnJournal J) (resealUnderOld kek old oldDek newDek) := by
  have hidentity (k k' : MasterKey) : Keeps (OnJournal J) (loadIdentityOrElse k k') := by
    unfold loadIdentityOrElse
    refine keeps_bind fun r => ?_
    split <;> infer_instance
  unfold resealUnderOld
  dsimp only
  infer_instance

instance (bundle : RecoveryBundle) : Keeps (OnJournal J) (Recovery.writeBundle bundle) :=
  keeps_writeAtomic fun _ h => h

instance (dek : MasterKey) (version : Nat) (phrase : Mnemonic) (salt : Salt) : Keeps (OnJournal J)
      (Recovery.issueRecoveryPhraseForVersion dek version phrase salt) := by
  unfold Recovery.issueRecoveryPhraseForVersion
  infer_instance

instance [Clears (OnJournal J)] (kek : MasterKey) (old new : Nat)
    (backup : RecoveryBundle) : Keeps (OnJournal J) (rollbackRotation kek old new backup) := by
  unfold rollbackRotation
  refine keeps_bind fun u => ?_
  split <;> infer_instance

instance (custody : CustodyMode) (pass : Option String) :
    Keeps (OnJournal J) (rotateKek custody pass) := by
  unfold rotateKek
  split
  · infer_instance
  · split <;> infer_instance
  · infer_instance

instance [Clears (OnJournal J)] (self : VaultHandle) (kek newDek : MasterKey)
    (predicted : Nat) (ent : Entropy) : Keeps (OnJournal J)
      (rotateTransaction self kek newDek predicted ent) := by
  unfold rotateTransaction
  refine keeps_bind fun newVersion => ?_
  split
  · infer_instance
  · refine keeps_bind fun u => keeps_bind fun v => ?_
    refine keeps_bind fun _ => keeps_bind fun _ => ?_
    infer_instance

instance [Clears (OnJournal J)] (self : VaultHandle) (kek : MasterKey)
    (old new : Nat) (backup : RecoveryBundle) (e : CoreError) :
    Keeps (OnJournal J) (undoRotation self kek old new backup e) := by
  unfold undoRotation
  refine keeps_bind fun r => ?_
  split <;> infer_instance

theorem keeps_rotateKey_own [Clears (OnJournal J)]
    (hown : ∀ old new backup, J (some (.rotate old new backup))) (self : VaultHandle)
    (pass : Option String) (ent : Entropy) : Keeps (OnJournal J) (rotateKey self pass ent) := by
  have hwrite (old new backup) := keeps_writeLifecycle (hown old new backup)
  refine keeps_bind fun kek => keeps_bind fun j => ?_
  split
  · infer_instance
  refine keeps_bind fun old => keeps_bind fun backup => ?_
  split
  · infer_instance
  refine keeps_bind fun _ => keeps_bind fun r => ?_
  split <;> infer_instance

theorem keeps_readLifecycle {α : Type} {k : Option LifecycleJournal → VaultM α}
    (hk : Keeps (OnJournal (· = some j)) (k (some j))) :
    Keeps (OnJournal (· = some j)) (readLifecycle >>= k) := by
  refine ⟨observes_readLifecycle.stable_bind fun F w j' hw hj' => ?_⟩
  obtain rfl : some j = j' := by
    rw [← Except.ok.inj hj']
    exact hw.symm
  exact hk.stable F w hw

theorem keeps_rotateKey_pending (j : LifecycleJournal) (self : VaultHandle) (pass : Option String)
    (ent : Entropy) : Keeps (OnJournal (· = some j)) (rotateKey self pass ent) :=
  keeps_bind fun _ => keeps_readLifecycle inferInstance

theorem keeps_changePassphrase [Clears (OnJournal J)]
    (hown : ∀ old new, J (some (.changePassphrase old new)))
    (self : VaultHandle) (current new : String) (ent : Entropy) :
    Keeps (OnJournal J) (changePassphrase self current new ent) := by
  have hwrite (old new) := keeps_writeLifecycle (hown old new)
  have hsalt : Keeps (OnJournal J) (writeSalt ent.salt) := keeps_writeAtomic fun _ h => h
  unfold changePassphrase readSalt
  split
  · infer_instance
  · refine keeps_bind fun kek => keeps_bind fun _ => keeps_bind fun _ => ?_
    refine keeps_bind fun salt => keeps_bind fun _ => ?_
    infer_instance

instance : Keeps (OnJournal J) removeSalt :=
  keeps_removeFileDurable fun _ h => h

theorem keeps_moveToOsKeychain
    [Clears (OnJournal J)] (hown : J (some .moveToKeychain)) (self : VaultHandle) (current : String)
    (ent : Entropy) : Keeps (OnJournal J) (moveToOsKeychain self current ent) := by
  have hwrite := keeps_writeLifecycle hown
  have hcustody : Keeps (OnJournal J) (setCustody .osKeychain) := ⟨stable_assigning fun _ h => h⟩
  unfold moveToOsKeychain
  split
  · infer_instance
  · refine keeps_bind fun _ => keeps_bind fun kek => keeps_bind fun _ => ?_
    refine keeps_bind fun _ => keeps_bind fun _ => keeps_bind fun _ => ?_
    infer_instance

theorem keeps_bootstrap_own
    [Clears (OnJournal J)] (hown : ∀ c s f p, J (some (.bootstrap c s f p))) (custody : CustodyMode)
    (pass : Option String) (ent : Entropy) : Keeps (OnJournal J) (bootstrap custody pass ent) := by
  have hwrite (c s f p) := keeps_writeLifecycle (hown c s f p)
  have hcreate (c s f kek) (storeKek : VaultM Unit) [Keeps (OnJournal J) storeKek] :
      Keeps (OnJournal J) (createVault c s f kek storeKek ent) := by
    unfold createVault Keyring.create
    refine keeps_bind fun _ => keeps_bind fun _ => keeps_bind fun _ => ?_
    refine keeps_bind fun identity => keeps_bind fun v => keeps_bind fun _ => ?_
    infer_instance
  have hsalt (salt) : Keeps (OnJournal J) (writeSalt salt) := keeps_writeAtomic fun _ h => h
  have hfresh : Keeps (OnJournal J) (bootstrapFresh custody pass ent) := by
    refine keeps_bind fun w => ?_
    split
    · infer_instance
    split
    · refine keeps_bind fun _ => keeps_bind fun own => ?_
      split <;> infer_instance
    · infer_instance
    · infer_instance
  have hrollback (c f) : Keeps (OnJournal J) (rollbackIncompleteBootstrap c f) := by
    have hfile {present : World → Bool} {unlink : World → World}
        (h : ∀ w, (unlink w).journal = w.journal) :
        Stable (OnJournal J) (removeFileDurable present unlink) :=
      (keeps_removeFileDurable fun w hw => by
        rw [OnJournal, h w]
        exact hw).stable
    have hclean (expected) : Keeps (OnJournal J)
        (cleanupMatchingBootstrapKeychainKek expected) := by
      refine keeps_bind fun own => ?_
      split <;> infer_instance
    refine ⟨stable_bind (hfile fun _ => rfl) fun _ =>
      stable_bind (hfile fun _ => rfl) fun _ =>
        stable_bind (p := Keyring.discardStaged) Keeps.stable fun _ =>
          stable_bind (hfile fun _ => rfl) fun _ =>
            stable_bind (hfile fun _ => rfl) fun _ =>
              stable_bind (p := removeSalt) Keeps.stable fun _ => ?_⟩
    split <;> exact Keeps.stable
  refine keeps_bind fun _ => keeps_bind fun j => ?_
  unfold bootstrapOn
  split <;> infer_instance

theorem keeps_bootstrap_pending (hj : j.operation ≠ .bootstrap)
    (custody : CustodyMode) (pass : Option String) (ent : Entropy) :
    Keeps (OnJournal (· = some j)) (bootstrap custody pass ent) := by
  refine keeps_bind fun _ => keeps_readLifecycle ?_
  cases j with
  | bootstrap => exact absurd rfl hj
  | _ => exact ⟨stable_ret _⟩

-- ==== unlocking

instance [Clears (OnJournal J)] (kek : MasterKey) :
    Keeps (OnJournal J) (finishMoveToKeychain kek) := by
  unfold finishMoveToKeychain
  refine keeps_bind fun r => ?_
  split <;> infer_instance

instance (kek : MasterKey) : Keeps I (opensLiveOrStaged kek) := by
  unfold opensLiveOrStaged
  refine keeps_bind fun r => ?_
  split
  · infer_instance
  · refine keeps_bind fun r => ?_
    split <;> infer_instance

instance [Clears (OnJournal J)] (custody : CustodyMode) (pass : Option String)
    (l : List MasterKey) : Keeps (OnJournal J) (recoverMoveToKeychain custody pass l) := by
  induction l with
  | nil | cons kek l ih =>
    unfold recoverMoveToKeychain
    infer_instance

instance [Clears (OnJournal J)] (pass : String) (old new : Salt) :
    Keeps (OnJournal J) (recoverChangePassphrase pass old new) := by
  unfold recoverChangePassphrase readSalt
  refine keeps_bind fun current => ?_
  split
  · infer_instance
  split
  · refine keeps_bind fun r => ?_
    split <;> infer_instance
  · infer_instance

theorem keeps_recoverPending [Clears (OnJournal J)] (j : LifecycleJournal) :
    Keeps (OnJournal J) (recoverPending custody pass j) := by
  have hkek : Keeps (OnJournal J) (rollbackKek custody pass) := by
    unfold rollbackKek
    split <;> infer_instance
  unfold recoverPending
  split
  · infer_instance
  · infer_instance
  · infer_instance
  · refine keeps_bind fun r => ?_
    split <;> infer_instance
  · infer_instance

theorem keeps_openNormal [Sessionless I]
    [∀ c u, Keeps I (openAndInstall c u)] (recovered asked : CustodyMode)
    (pass : Option String) : Keeps I (openNormal recovered asked pass) := by
  have hkeychain : Keeps I unlockWithKeychain := by
    unfold unlockWithKeychain
    infer_instance
  have hpass : Keeps I (unlockWithPassphrase pass) := by
    unfold unlockWithPassphrase
    infer_instance
  unfold openNormal
  split
  · infer_instance
  · split <;> infer_instance

theorem keeps_unlock [Clears (OnJournal J)] : Keeps (OnJournal J) (unlock custody pass) := by
  refine keeps_bind fun _ => @keeps_bind _ _ _ _ _ _ ?_ _ fun recovered => ?_
  · refine keeps_bind fun j => ?_
    split
    · infer_instance
    · exact keeps_recoverPending _ _ _
  · have := @keeps_openAndInstall (OnJournal J)
    exact keeps_openNormal _ _ _

theorem keeps_openRecovered
    [∀ root, Keeps (OnJournal J) (finishPendingBootstrap root)] (dek : MasterKey)
    (active : Nat) (ent : Entropy) : Keeps (OnJournal J) (openRecovered dek active ent) := by
  refine keeps_bind fun identity => keeps_bind fun repair => ?_
  split
  · refine keeps_bind fun _ => keeps_bind fun _ => keeps_bind fun _ => ?_
    infer_instance
  · infer_instance

instance (phrase : Option Mnemonic) : Keeps I (Recovery.restoreMasterKeyWithVersion phrase) := by
  unfold Recovery.restoreMasterKeyWithVersion
  split <;> infer_instance

theorem keeps_unlockWithRecovery [Clears (OnJournal J)] (phrase : Option Mnemonic)
    (ent : Entropy) : Keeps (OnJournal J) (unlockWithRecovery phrase ent) := by
  have := @keeps_openRecovered J
  refine keeps_bind fun _ => keeps_bind fun _ => keeps_bind fun journal => ?_
  split
  · refine keeps_bind fun recovered => keeps_bind fun w => ?_
    split <;> infer_instance
  · infer_instance

end Operations

-- ==== who takes a journal away

section Removal

variable {F : Faults World CoreError} {w w' : World} {j : LifecycleJournal}
  {α β γ : Type} {p : VaultM α}

theorem RemovedIn.after {g : α → VaultM β} {q : VaultM γ} {a : α} {w₁ : World}
    (hr : Returns F p w (.ok a) w₁) (h : RemovedIn F (g a) w₁ w' j q) :
    RemovedIn F (p.bind g) w w' j q := by
  obtain ⟨s₀, s₁, hin, hrest⟩ := h
  exact ⟨s₀, s₁, hin.after hr, hrest⟩

theorem removedIn_here
    {q : VaultM α} {k : α → VaultM β} (hq : Keeps (OnJournal fun x => x = some j ∨ x = none) q)
    [hk : ∀ a, Keeps (OnJournal (· = some j)) (k a)] (hj : w.journal = some j)
    (hw' : w'.journal = none) (hr : Reaches F (q.bind k) w w') :
    RemovedIn F (q.bind k) w w' j q := by
  rcases hr.bind_inv with hr | ⟨a, w₁, hret, hr⟩
  · exact ⟨w, w', .inside k hr, hj, hw'⟩
  refine ⟨w, w₁, .past hret hr, hj, ?_⟩
  rcases hq.stable.returns (.inl hj) hret with hj₁ | hnone
  · have hkept : w'.journal = some j := (hk a).stable.reaches hj₁ hr
    rw [hw'] at hkept
    cases hkept
  · exact hnone

/-- `T` can be followed from the end of an unlock to its beginning: it
holds where the unlock finishes a bootstrap, and what comes before hands
it on. -/
class Traced (F : Faults World CoreError) (j : LifecycleJournal)
    (w' : World) (T : VaultM Unit → World → Prop) : Prop where
  gone : w'.journal = none
  finish : ∀ {w root h}, w.journal = some j →
    Reaches F ((finishPendingBootstrap root).bind fun _ => install h) w w' →
    T ((finishPendingBootstrap root).bind fun _ => install h) w
  after : ∀ {α : Type} {p : VaultM α} {g : α → VaultM Unit} {a w w₁},
    Returns F p w (.ok a) w₁ → T (g a) w₁ → T (p.bind g) w

variable {T : VaultM Unit → World → Prop}

class Comes (F : Faults World CoreError) (j : LifecycleJournal)
    (w' : World) (T : VaultM Unit → World → Prop) (p : VaultM Unit) :
    Prop where
  comes : ∀ {w}, w.journal = some j → Reaches F p w w' → T p w

theorem comes_bind [ht : Traced F j w' T] {g : α → VaultM Unit}
    [hp : Keeps (OnJournal (· = some j)) p] (hg : ∀ a, Comes F j w' T (g a)) :
    Comes F j w' T (p >>= g) where
  comes hj hr := by
    have hgone : ¬ OnJournal (· = some j) w' := by
      rw [OnJournal, ht.gone]
      exact nofun
    obtain ⟨a, w₁, hret, hj₁, hr₁⟩ := hp.stable.leaves hj hgone hr
    exact ht.after hret ((hg a).comes hj₁ hr₁)

instance [Traced F j w' T] {p : VaultM α} {g : α → VaultM Unit}
    [Keeps (OnJournal (· = some j)) p] [∀ a, Comes F j w' T (g a)] : Comes F j w' T (p >>= g) :=
  comes_bind inferInstance

instance {c : Prop} [Decidable c] {p q : VaultM Unit} [Comes F j w' T p] [Comes F j w' T q] :
    Comes F j w' T (if c then p else q) := by
  split <;> infer_instance

instance (priority := low) [ht : Traced F j w' T] {p : VaultM Unit}
    [hp : Keeps (OnJournal (· = some j)) p] : Comes F j w' T p where
  comes hj hr := by
    have hkept : w'.journal = some j := hp.stable.reaches hj hr
    rw [ht.gone] at hkept
    cases hkept

instance (priority := high) [Traced F j w' T] (root : MasterKey) (h : VaultHandle) : Comes F j w' T
      (finishPendingBootstrap root >>= fun _ => install h) :=
  ⟨Traced.finish⟩

variable {custody : CustodyMode} {pass : Option String}

instance [Traced F j w' T] (u : Keyring.Unwrapped) : Comes F j w' T (openAndInstall custody u) :=
  comes_bind fun ⟨_, _⟩ => inferInstance

instance [Traced F j w' T] (recovered asked : CustodyMode) :
    Comes F j w' T (openNormal recovered asked pass) := by
  have hkeychain : Comes F j w' T unlockWithKeychain := by
    unfold unlockWithKeychain
    infer_instance
  have hpass : Comes F j w' T (unlockWithPassphrase pass) := by
    unfold unlockWithPassphrase
    infer_instance
  unfold openNormal
  split
  · infer_instance
  · split <;> infer_instance

instance [Traced F j w' T] (dek : MasterKey) (active : Nat)
    (ent : Entropy) : Comes F j w' T (openRecovered dek active ent) := by
  refine comes_bind fun identity => comes_bind fun repair => ?_
  split
  · refine comes_bind fun _ => comes_bind fun _ => comes_bind fun _ => ?_
    infer_instance
  · infer_instance

theorem keeps_openAndInstall_pending (hop : j.operation ≠ .bootstrap) (custody : CustodyMode)
    (u : Keyring.Unwrapped) : Keeps (OnJournal (· = some j)) (openAndInstall custody u) := by
  have hfinish (root) : Keeps (OnJournal (· = some j)) (finishPendingBootstrap root) := by
    refine keeps_readLifecycle ?_
    cases j with
    | bootstrap => exact absurd rfl hop
    | _ => exact ⟨stable_ret _⟩
  exact keeps_openAndInstall custody u

theorem keeps_recover_bootstrap (hop : j.operation = .bootstrap)
    (custody : CustodyMode) (pass : Option String) : Keeps (OnJournal (· = some j))
      (recoverLifecycleForUnlock custody pass) := by
  refine keeps_readLifecycle ?_
  cases j with
  | bootstrap c s f p => cases p <;> exact ⟨stable_ret _⟩
  | _ => cases hop

theorem comes_unlock [Traced F j w' T] (hop : j.operation = .bootstrap) :
    Comes F j w' T (unlock custody pass) := by
  have := keeps_recover_bootstrap hop
  unfold unlock
  infer_instance

instance [Traced F j w' T] (phrase : Option Mnemonic) (ent : Entropy) :
    Comes F j w' T (unlockWithRecovery phrase ent) := by
  refine comes_bind fun _ => comes_bind fun _ => comes_bind fun journal => ?_
  split
  · refine comes_bind fun recovered => comes_bind fun w => ?_
    split <;> infer_instance
  · infer_instance

theorem traced_finishes (hw' : w'.journal = none) :
    Traced F j w' (fun p w => Finishes F p w w' j) where
  gone := hw'
  finish hj hr := by
    have := clears_of_none (J := fun x => x = some j ∨ x = none) (.inr rfl)
    exact ⟨_, removedIn_here inferInstance hj hw' hr⟩
  after hret h := by
    obtain ⟨root, hremoved⟩ := h
    exact ⟨root, hremoved.after hret⟩

theorem removedIn_unlock (hop : j.operation ≠ .bootstrap) (hj : w.journal = some j)
    (hw' : w'.journal = none) (hr : Reaches F (unlock custody pass) w w') :
    RemovedIn F (unlock custody pass) w w' j (recoverPending custody pass j) := by
  have hgone : ¬ OnJournal (· = some j) w' := by
    rw [OnJournal, hw']
    exact nofun
  unfold unlock recoverLifecycleForUnlock at hr ⊢
  obtain ⟨_, w₁, hlock, hj₁, hr⟩ := observes_acquireLock.stable.leaves hj hgone hr
  refine RemovedIn.after hlock ?_
  simp only [bind_eq, bind_assoc] at hr ⊢
  obtain ⟨j', w₂, hread, hj₂, hr⟩ := observes_readLifecycle.stable.leaves hj₁ hgone hr
  refine RemovedIn.after hread ?_
  -- what is read is the journal
  obtain ⟨rfl, hj'⟩ := observes_readLifecycle.returns hread
  obtain rfl : some j = j' := by
    rw [← Except.ok.inj hj']
    exact hj₁.symm
  have := clears_of_none (J := fun x => x = some j ∨ x = none) (.inr rfl)
  have := keeps_openAndInstall_pending hop
  have := @keeps_openNormal (OnJournal (· = some j))
  exact removedIn_here (keeps_recoverPending custody pass j) hj₁ hw' hr

theorem keeps_unlockWithRecovery_pending (hop : j.operation ≠ .bootstrap) (phrase : Option Mnemonic)
    (ent : Entropy) : Keeps (OnJournal (· = some j)) (unlockWithRecovery phrase ent) := by
  refine keeps_bind fun _ => keeps_bind fun _ => keeps_readLifecycle ?_
  cases j with
  | bootstrap => exact absurd rfl hop
  | _ => exact ⟨stable_ret _⟩

end Removal

-- ==== every call

section Calls

variable {J : Option LifecycleJournal → Prop} {F : Faults World CoreError}
  {w w' : World} {j : LifecycleJournal} {call : Call} {p : VaultM (Option Mnemonic)}

instance {q : VaultM Unit} [Keeps (OnJournal J) q] : Keeps (OnJournal J) (silently q) :=
  keeps_bind fun _ => inferInstance

instance {q : VaultM Mnemonic} [Keeps (OnJournal J) q] : Keeps (OnJournal J) (issuing q) :=
  keeps_bind fun _ => inferInstance

theorem reaches_silently {q : VaultM Unit}
    (hr : Reaches F (silently q) w w') : Reaches F q w w' := by
  obtain hr | ⟨_, w₁, hret, hr⟩ := hr.bind_inv
  · exact hr
  · cases hr
    exact hret.reaches

theorem keeps_neutral {self : VaultHandle} (hop : call.operation = none)
    (hp : methodOf self call = some p) : Keeps (OnJournal J) p := by
  cases call with
  | bootstrap | rotateKey | changePassphrase | moveToOsKeychain => cases hop
  | unlock | unlockWithRecovery => cases hp
  | drop =>
    cases hp
    exact ⟨stable_bind (stable_assigning fun _ h => h) fun _ => stable_ret _⟩
  | createContainer | deleteContainer | writeFile | deleteFile =>
    cases hp
    infer_instance

theorem keeps_call (hnone : J none) (hown : ∀ j, call.operation = some j.operation → J (some j))
    (hp : progOf w call = some p) : Keeps (OnJournal J) p := by
  have := clears_of_none hnone
  cases call with
  | bootstrap custody pass ent =>
    cases hp
    have := keeps_bootstrap_own (fun c s f x => hown (.bootstrap c s f x) rfl) custody pass ent
    infer_instance
  | unlock custody pass =>
    cases hp
    have := keeps_unlock (J := J) custody pass
    infer_instance
  | unlockWithRecovery phrase ent =>
    cases hp
    have := keeps_unlockWithRecovery (J := J) phrase ent
    infer_instance
  | rotateKey pass ent =>
    obtain ⟨self, -, hp⟩ := Option.bind_eq_some_iff.1 hp
    cases hp
    have := keeps_rotateKey_own (fun old new b => hown (.rotate old new b) rfl) self pass ent
    infer_instance
  | changePassphrase current new ent =>
    obtain ⟨self, -, hp⟩ := Option.bind_eq_some_iff.1 hp
    cases hp
    have := keeps_changePassphrase (fun old new =>
      hown (.changePassphrase old new) rfl) self current new ent
    infer_instance
  | moveToOsKeychain current ent =>
    obtain ⟨self, -, hp⟩ := Option.bind_eq_some_iff.1 hp
    cases hp
    have := keeps_moveToOsKeychain (hown .moveToKeychain rfl) self current ent
    infer_instance
  | drop | createContainer | deleteContainer | writeFile | deleteFile =>
    obtain ⟨self, -, hp⟩ := Option.bind_eq_some_iff.1 hp
    exact keeps_neutral rfl hp

theorem kept_or_recovered (hpolite : Polite w call) (hp : progOf w call = some p)
    (hr : Reaches F p w w') (hj : w.journal = some j) (hop : call.operation ≠ some j.operation) :
    w'.journal = some j ∨ w'.journal = none ∧ RecoversJournal F w w' j call := by
  have hleft {q : VaultM (Option Mnemonic)} (hq : Keeps (OnJournal (· = some j)) q)
      (hr : Reaches F q w w') : w'.journal = some j := hq.stable.reaches hj hr
  have heither {q : VaultM Unit} (hq : Keeps (OnJournal fun x => x = some j ∨ x = none) q)
      (hr : Reaches F q w w') : w'.journal = some j ∨ w'.journal = none :=
    hq.stable.reaches (.inl hj) hr
  have := clears_of_none (J := fun x => x = some j ∨ x = none) (.inr rfl)
  cases call with
  | bootstrap custody pass ent =>
    cases hp
    have hne : j.operation ≠ .bootstrap := fun h => hop (congrArg some h.symm)
    have := keeps_bootstrap_pending hne custody pass ent
    exact .inl (hleft inferInstance hr)
  | unlock custody pass =>
    cases hp
    have hr := reaches_silently hr
    obtain hkept | hgone := heither (keeps_unlock _ _) hr
    · exact .inl hkept
    have := traced_finishes (F := F) (j := j) hgone
    refine .inr ⟨hgone, ?_⟩
    cases j with
    | bootstrap => exact (comes_unlock (T := fun p w => Finishes F p w w' _) rfl).comes hj hr
    | changePassphrase | moveToKeychain | rotate => exact removedIn_unlock nofun hj hgone hr
  | unlockWithRecovery phrase ent =>
    cases hp
    have hr := reaches_silently hr
    by_cases hb : j.operation = .bootstrap
    · obtain hkept | hgone := heither (keeps_unlockWithRecovery _ _) hr
      · exact .inl hkept
      · have := traced_finishes (F := F) (j := j) hgone
        exact .inr ⟨hgone, hb, Comes.comes (T := fun p w => Finishes F p w w' j) hj hr⟩
    · have := keeps_unlockWithRecovery_pending hb phrase ent
      exact .inl (this.stable.reaches hj hr)
  | rotateKey pass ent =>
    obtain ⟨self, -, hp⟩ := Option.bind_eq_some_iff.1 hp
    cases hp
    have := keeps_rotateKey_pending j self pass ent
    exact .inl (hleft inferInstance hr)
  | changePassphrase current new ent | moveToOsKeychain current ent =>
    exact absurd (congrArg some (hpolite j hj).symm) hop
  | drop | createContainer | deleteContainer | writeFile | deleteFile =>
    obtain ⟨self, -, hp⟩ := Option.bind_eq_some_iff.1 hp
    exact .inl (hleft (keeps_neutral rfl hp) hr)

theorem journalKept_call {after : World} (hpolite : Polite w call)
    (hp : progOf w call = some p) (hr : Reaches F p w w')
    (hafter : after = w' ∨ after = w'.crashed) : JournalKept F w call after := by
  -- a crash leaves the journal
  have hjournal : after.journal = w'.journal := by
    rcases hafter with rfl | rfl <;> rfl
  unfold JournalKept
  rw [hjournal]
  split
  · next hj =>
    have hown : OnJournal (fun x => ∀ j, x = some j → call.operation = some j.operation) w' :=
      (keeps_call nofun (fun j h j' hj' => by
        rwa [← Option.some.inj hj']) hp).stable.reaches
        (by rw [OnJournal, hj]; exact fun _ h => by cases h) hr
    exact hown
  · next j hj =>
    by_cases hop : call.operation = some j.operation
    · have hsame : OnJournal
          (fun x => ∀ j', x = some j' → j'.operation = j.operation) w' :=
        (keeps_call nofun (fun j' h j'' hj'' => by
            rw [← Option.some.inj hj'']
            exact Option.some.inj (h.symm.trans hop)) hp).stable.reaches
          (by
            rw [OnJournal, hj]
            exact fun _ h => by rw [Option.some.inj h]) hr
      exact .inr (.inl ⟨hop, hsame⟩)
    · rcases kept_or_recovered hpolite hp hr hj hop with hkept | ⟨hgone, hrecovers⟩
      · exact .inl hkept
      · exact .inr (.inr ⟨hgone, w', hafter, hrecovers⟩)

/-- **Pending journals are exclusive**: in every run of polite calls, with
any I/O failures and crashes, a journal changes only by its own operation
or by its own recovery. -/
theorem journals_exclusive {w₀ : World}
    {history : List (Event World CoreError Call (Option Mnemonic))}
    (hrun : vault.Run Faults.any Polite w₀ history w) :
    ∀ e ∈ history, JournalKept Faults.any e.before e.call e.after := by
  refine hrun.events fun e hpolite hstep => ?_
  obtain ⟨p, w', hp, hr, hafter⟩ := hstep.reaches
  exact journalKept_call hpolite hp hr hafter

end Calls

namespace Sample

def draw : Entropy where
  kek := .generate 20
  dek := .generate 21
  identityRoot := .generate 22
  salt := Vector.replicate SALT_LEN 4
  phrase := phrase
  bundleSalt := Vector.replicate SALT_LEN 5

def created : VaultHandle := .fresh draw.dek draw.identityRoot .passphrase

def bootstrapped : World :=
  ((issuing (bootstrap .passphrase (some pass) draw)).run World.empty).2

def failedReads : List (Option CoreError) :=
  List.replicate 6 none ++ List.replicate 2 (some (.io "input/output error"))

def pending : World :=
  ((issuing (rotateKey created (some pass) entropy)).exec failedReads bootstrapped).2

def history : List (Event World CoreError Call (Option Mnemonic)) :=
  [⟨bootstrapped, .rotateKey (some pass) entropy, .returned (.error (.misuse
        "rotation failed; rollback also failed; unlock normal custody to resume recovery")),
      pending⟩,
    ⟨World.empty, .bootstrap .passphrase (some pass) draw,
      .returned (.ok (some draw.phrase)), bootstrapped⟩]

def recovery : Event World CoreError Call (Option Mnemonic) :=
  ⟨pending.crashed, .unlock .passphrase (some pass), .returned (.ok none),
    ((silently (unlock .passphrase (some pass))).run pending.crashed).2⟩

def released : Event World CoreError Call (Option Mnemonic) :=
  ⟨pending, .drop, .returned (.ok none), pending.crashed⟩

def overwriting : Event World CoreError Call (Option Mnemonic) :=
  ⟨pending, .changePassphrase pass "another passphrase" entropy,
    .returned (.ok none),
    ((silently (changePassphrase created pass "another passphrase"
      entropy)).run pending).2⟩

theorem run_history {allowed : World → Call → Prop}
    (hfirst : allowed World.empty (.bootstrap .passphrase (some pass) draw))
    (hsecond : allowed bootstrapped (.rotateKey (some pass) entropy)) :
    SovereignVault.vault.Run Faults.any allowed World.empty history pending := by
  have hbootstrap : Returns Faults.any (issuing (bootstrap .passphrase (some pass) draw))
      World.empty (.ok (some draw.phrase)) bootstrapped := run_returns Faults.any _ _
  have hrotate : Returns Faults.any (issuing (rotateKey created (some pass) entropy)) bootstrapped _
      pending := exec_returns _ failedReads _
  exact .step (.step .nil hfirst (.returned rfl hbootstrap)) hsecond (.returned rfl hrotate)

end Sample

open Sample

/-- A rotation left pending by two failures, recovered by the next
unlock. -/
theorem journals_exclusive_recovered : pending.journal.isSome ∧ recovery.after.journal = none
      ∧ ∀ e ∈ recovery :: released :: history, JournalKept Faults.any e.before e.call e.after := by
  have hdrop : Returns Faults.any (silently dropHandle) pending
      (.ok none) pending.crashed := run_returns Faults.any _ _
  have hunlock : Returns Faults.any (silently (unlock .passphrase (some pass)))
      pending.crashed (.ok none) _ := run_returns Faults.any _ _
  have hrun :
      vault.Run Faults.any Polite World.empty (recovery :: released :: history) recovery.after :=
    .step (.step (run_history trivial trivial) trivial
      (.returned rfl hdrop)) trivial (.returned rfl hunlock)
  exact ⟨rfl, rfl, journals_exclusive hrun⟩

/-- A passphrase change takes the journal of a pending rotation away:
nothing recovers the rotation any more. -/
theorem changePassphrase_removes_rotation : vault.Run Faults.any (fun _ _ => True) World.empty
        (overwriting :: history) overwriting.after
      ∧ (pending.journal.map LifecycleJournal.operation = some .rotate)
      ∧ overwriting.after.journal = none
      ∧ ¬ JournalKept Faults.any overwriting.before overwriting.call overwriting.after := by
  have hchange : Returns Faults.any (silently (changePassphrase created pass
        "another passphrase" entropy))
      pending (.ok none) _ := run_returns Faults.any _ _
  refine ⟨.step (run_history trivial trivial) trivial (.returned rfl hchange), rfl, rfl, ?_⟩
  rintro (h | ⟨h, -⟩ | ⟨-, _, _, h⟩)
  · cases h
  · cases h
  · exact h

end SovereignVault
