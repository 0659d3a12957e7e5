/-
`rotate_key` under crashes.

With the right KEK every crash of it, and every crash of a later unlock,
leaves a state of `InRotation`, and the normal credential unlocks each of
these to the whole old vault or the whole new one.

With a wrong passphrase it does not. `rotate_key` derives the KEK without
trying it on the keyring; `add_active_dek` then wraps the new DEK under
that foreign KEK, after which NO key opens the keyring (`Bricked`).
-/
import SovereignVault.Calls
import SovereignVault.Rotation

namespace SovereignVault

open Crash Prog Keyring

-- ==== the invariant

/-- The states crashes of a rotation and of later unlocks can leave. -/
inductive Rotation.InRotation (r : Rotation) : World → Prop
  | old {w : World} (h : Quiescent w r.custody r.cred r.kek r.kr r.u r.c
      r.oldVersions) : InRotation r w
  | pending {w : World} {h : Option VaultHandle}
      (hw : r.Pending (some r.journal) h w) : InRotation r w
  | new {w : World} (h : Quiescent w r.custody r.cred r.kek (r.both r.new)
      r.uNew r.c (AllAt r.new)) : InRotation r w

namespace Rotation

variable {r : Rotation} {F : Faults World CoreError} {I : World → Prop}
  {j : Option LifecycleJournal} {h : Option VaultHandle} {w : World}

section

variable (hw : r.Pending j h w)
include hw

theorem pending_journal : w.journal = j := by
  obtain ⟨_, _⟩ | ⟨_, _, _, _, _⟩ := hw
  · rfl
  · rfl

theorem pending_handle : w.handle = h := by
  obtain ⟨_, _⟩ | ⟨_, _, _, _, _⟩ := hw
  · rfl
  · rfl

theorem pending_loads : ∃ u, Loads w r.kek u := by
  obtain ⟨_, _⟩ | ⟨hactive, _, _, _, _⟩ := hw
  · exact ⟨r.u, .intro rfl r.quiet.tidy.schema r.quiet.loads⟩
  · obtain ⟨u, hu, -⟩ := both_load hactive
    exact ⟨u, .intro rfl r.quiet.tidy.schema hu⟩

theorem pending_unique {k : MasterKey} {u : Unwrapped} (hl : Loads w k u) : k = r.kek := by
  obtain ⟨u', hu'⟩ := pending_loads hw
  by_contra hne
  obtain ⟨e, he⟩ := loadOf_other hu' (Ne.symm hne)
  rw [Loads, he] at hl
  cases hl

theorem pending_normal : Normal w r.custody r.cred r.kek := by
  obtain ⟨_, hown⟩ | ⟨_, _, _, _, hown⟩ := hw
  · exact hown
  · exact hown

theorem pending_withScoped :
    r.Pending j h (w.withScoped r.kek) := by
  obtain ⟨hfs, hown⟩ | ⟨hactive, hbundle, hs, hfs, hown⟩ := hw
  · exact .inl ⟨hfs, hown.withScoped⟩
  · exact .inr ⟨hactive, hbundle, hs, hfs, hown.withScoped⟩

theorem pending_crashed : r.Pending j none w.crashed := by
  obtain ⟨hfs, hown⟩ | ⟨hactive, hbundle, hs, hfs, hown⟩ := hw
  · exact .inl ⟨hfs, hown⟩
  · exact .inr ⟨hactive, hbundle, hs, hfs, hown⟩

end

theorem InRotation.crashed (h : r.InRotation w) : r.InRotation w.crashed := by
  cases h with
  | old hq => exact .old (hq.withHandle none)
  | pending hw => exact .pending (pending_crashed hw)
  | new hq => exact .new (hq.withHandle none)

theorem inRotation_of (w : World)
    (hw : r.RollingBack (some r.journal) h w) : r.InRotation w := by
  obtain hr | hm | ho := hw
  · exact .pending (.inl hr)
  · exact .pending (.inr hm)
  · exact .old ho.quiescent

-- ==== recovery at an unlock

theorem yields_rollback (hI : ∀ w, r.RollingBack j h w → I w)
    (hw : r.Pending j h w)
    (k : MasterKey) : Yields F I (rollbackRotation k r.old r.new r.backup)
      (fun _ w => r.Rolled none h w) w := by
  by_cases hk : k = r.kek
  · subst hk
    exact (succeeds_rollback hI hw).yields
  · have hi : I w := hI w (hw.elim .inl fun hm => .inr (.inl hm))
    rw [rollbackRotation, bind_eq, yields_bind]
    refine (observes_load k).yields hi fun u hu => ?_
    exact absurd (pending_unique hw hu) hk

/-- The KEK a rollback is given: any key from a passphrase, or the
keychain's, which may have been stored again. -/
theorem yields_rollbackKek {P : MasterKey → World → Prop} (hi : I w) (hP : ∀ k, P k w)
    (hscoped : ∀ k u, Loads w k u → I (w.withScoped k) ∧ P k (w.withScoped k))
    {asked : CustodyMode} {pass : Option String} : Yields F I (rollbackKek asked pass) P w := by
  cases asked with
  | recovery => exact yields_error hi
  | passphrase =>
    cases pass with
    | none => exact yields_error hi
    | some x =>
      simp only [rollbackKek, requirePassphrase, bind_eq, bind_ret_ok]
      exact (observes_derivePassphraseKek x).yields hi fun k _ => hP k
  | osKeychain =>
    simp only [rollbackKek, loadVerifiedKeychainKek, bind_eq, yields_bind]
    refine yields_loadKeychainUnwrapped hi (fun k u hl => (hscoped k u hl).1) fun k u hl => ?_
    obtain ⟨hi', hP'⟩ := hscoped k u hl
    exact ⟨yields_ret hi (hP k), yields_ret hi' hP'⟩

theorem yields_recover (hI : ∀ w, r.RollingBack (some r.journal) h w → I w)
    (hw : r.Pending (some r.journal) h w)
    (asked : CustodyMode) (pass : Option String) : Yields F I (recoverLifecycleForUnlock asked pass)
      (fun custody w => custody = asked ∧ r.Rolled none h w) w := by
  have hIp : ∀ {w : World}, r.Pending (some r.journal) h w → I w :=
    fun hw => hI _ (hw.elim .inl fun hm => .inr (.inl hm))
  have hroll {w : World} (hw : r.Pending (some r.journal) h w) (k : MasterKey) :
      Yields F I (rollbackRotation k r.old r.new r.backup) (fun _ s => Yields F I (pure asked)
          (fun custody w => custody = asked ∧ r.Rolled none h w) s) w :=
    (yields_rollback hI hw k).mono fun _ _ hi ho => yields_ret hi ⟨rfl, ho⟩
  have hi := hIp hw
  simp only [recoverLifecycleForUnlock, bind_eq, yields_bind]
  refine observes_readLifecycle.yields hi fun j hj => ?_
  rw [pending_journal hw, Except.ok.injEq] at hj
  subst hj
  simp only [journal, recoverPending, bind_eq, yields_bind]
  refine yields_rollbackKek hi (hroll hw) fun k u hl => ?_
  obtain rfl := pending_unique hw hl
  exact ⟨hIp (pending_withScoped hw), hroll (pending_withScoped hw) _⟩

theorem InRotation.attempt (hw : r.InRotation w) (asked : CustodyMode)
    (pass : Option String) : Yields F r.InRotation (unlock asked pass) (fun _ _ => True) w := by
  cases hw with
  | old hq =>
    exact wp_mono (hq.attempt asked pass) (fun _ => .old)
      fun res _ _ _ => by cases res <;> exact trivial
  | new hq =>
    exact wp_mono (hq.attempt asked pass) (fun _ => .new)
      fun res _ _ _ => by cases res <;> exact trivial
  | pending hw =>
    simp only [unlock, bind_eq, yields_bind]
    refine observes_acquireLock.yields (.pending hw) fun _ _ => ?_
    refine (yields_recover inRotation_of hw asked pass).mono ?_
    rintro custody w' - ⟨rfl, ho⟩
    refine wp_mono (ho.quiescent.yields_open custody custody pass)
      (fun _ => .old) fun res _ _ _ => ?_
    cases res with
    | ok a | error e => exact trivial

theorem InRotation.later {w w' : World} (hw : r.InRotation w)
    (hl : Later w w') : r.InRotation w' := by
  induction hl with
  | refl => exact hw
  | attempt asked pass _ hr ih =>
    exact ((ih.attempt (F := Faults.none) asked pass).reaches hr).crashed

theorem wp_recover_normal (hw : r.Pending (some r.journal) h w) :
    wp Faults.none r.InRotation (recoverLifecycleForUnlock r.custody r.cred)
      (fun res w' => res = .ok r.custody ∧ r.Rolled none h w') w := by
  have hi : r.InRotation w := .pending hw
  have hroll {w : World} (hw : r.Pending (some r.journal) h w) :
      wp Faults.none r.InRotation
        ((rollbackRotation r.kek r.old r.new r.backup).bind fun _ => pure r.custody)
        (fun res w' => res = .ok r.custody ∧ r.Rolled none h w') w := by
    rw [wp_bind]
    exact (succeeds_rollback inRotation_of hw).wp_none fun _ _ hi ho => ⟨hi, rfl, ho⟩
  have hn := pending_normal hw
  obtain ⟨u, hu⟩ := pending_loads hw
  simp only [recoverLifecycleForUnlock, bind_eq, wp_bind]
  refine observes_readLifecycle.wp_none hi ?_
  simp only [pending_journal hw, seqPost_ok, journal, recoverPending, bind_eq, wp_bind]
  cases hc : r.custody with
  | recovery => rw [hc] at hn; exact hn.elim
  | passphrase =>
    rw [hc] at hn
    obtain ⟨p, salt, hcred, hsalt, hkek⟩ := hn
    simp only [rollbackKek, hcred, requirePassphrase, bind_eq, bind_ret_ok]
    refine (observes_derivePassphraseKek p).wp_none hi ?_
    simp only [hsalt, seqPost_ok]
    rw [← hkek, ← hc]
    exact hroll hw
  | osKeychain =>
    rw [hc] at hn
    obtain ⟨-, hav, hheld⟩ := hn
    have hw' := pending_withScoped hw
    simp only [rollbackKek, loadVerifiedKeychainKek, bind_eq, wp_bind]
    refine wp_loadKeychainUnwrapped hav hu hheld hi (.pending hw') ⟨.pending hw', ?_⟩
    rw [seqPost_ok, ← hc]
    exact hroll hw'

/-- The whole vault `u`, opened: what a completed unlock leaves. -/
def OpenedAt (r : Rotation) (kr : KeyringFile) (u : Unwrapped) (w : World) : Prop :=
  (∃ S, Quiescent w r.custody r.cred r.kek kr u r.c S)
    ∧ w.handle = some (handleOf u r.c.root r.custody)

/-- **The normal credential unlocks every state of the rotation**, to the
whole old vault or to the whole new one. -/
theorem InRotation.unlock (hw : r.InRotation w) (hh : w.handle = none) :
    wp Faults.none r.InRotation (SovereignVault.unlock r.custody r.cred)
      (fun res w' => res = .ok () ∧ (r.OpenedAt r.kr r.u w'
        ∨ r.OpenedAt (r.both r.new) r.uNew w')) w := by
  cases hw with
  | old hq =>
    refine wp_mono (hq.unlock hh) (fun _ => .old) ?_
    rintro res w' hq' ⟨rfl, hh'⟩
    exact ⟨rfl, .inl ⟨⟨_, hq'⟩, hh'⟩⟩
  | new hq =>
    refine wp_mono (hq.unlock hh) (fun _ => .new) ?_
    rintro res w' hq' ⟨rfl, hh'⟩
    exact ⟨rfl, .inr ⟨⟨_, hq'⟩, hh'⟩⟩
  | pending hw =>
    simp only [SovereignVault.unlock, bind_eq, wp_bind]
    refine observes_acquireLock.wp_none (.pending hw) ?_
    simp only [hh, Option.isSome_none, Bool.false_eq_true, if_false, seqPost_ok, wp_bind]
    refine (wp_recover_normal hw).post ?_
    rintro res w' - ⟨rfl, ho⟩
    have hopen := ho.quiescent.wp_open
    have hgoal : wp Faults.none r.InRotation _ (fun res w' => res = .ok ()
        ∧ (r.OpenedAt r.kr r.u w' ∨ r.OpenedAt (r.both r.new) r.uNew w')) w' :=
      wp_mono hopen (fun _ => .old) fun _ _ hq' hr => ⟨hr.1, .inl ⟨⟨_, hq'⟩, hr.2⟩⟩
    have hn := r.quiet.normal
    rw [seqPost_ok]
    cases hc : r.custody with
    | recovery => rw [hc] at hn; exact hn.elim
    | passphrase | osKeychain => rw [hc] at hgoal; exact hgoal

-- ==== the rotation

theorem Rolled.recovery (hw : r.Rolled j h w) : w.recovery = some r.backup := by
  obtain ⟨_, _⟩ := hw
  rfl

theorem Rolled.journalled (hw : r.Rolled none h w) :
    r.Rolled (some r.journal) h { w with journal := some r.journal } := by
  obtain ⟨hfs, hown⟩ := hw
  exact ⟨hfs, hown⟩

theorem wp_rotateWith (hw : r.Rolled none (some (handleOf r.u r.c.root r.custody)) w) :
    wp Faults.none r.InRotation (rotateWith (handleOf r.u r.c.root r.custody) r.kek r.ent)
      (fun res w' => res = .ok r.ent.phrase
        ∧ r.Rotated (some (handleOf r.uNew r.c.root r.custody)) w') w := by
  refine hw.quiescent.wp_rotateWith hw.recovery rfl (.old hw.quiescent)
    ?_ (fun _ => .pending (.inl hw.journalled)) (fun _ ⟨_, he⟩ => he.elim) fun _ => ?_
  · rintro (⟨_, he⟩ | hb)
    · exact he.elim
    · exact absurd r.bound (Nat.not_lt.2 hb)
  refine (succeeds_transaction ?_ hw.journalled).wp_none ?_
  · rintro h w - (hr | hm | hn)
    · exact .pending (.inl hr)
    · exact .pending (.inr hm)
    · exact .new hn.quiescent
  · rintro _ w' hi' ⟨rfl, hend⟩
    exact ⟨hi', rfl, hend⟩

end Rotation

-- ==== bricked vaults

/-- A rotation is pending and no key opens the keyring. -/
structure Bricked (w : World) : Prop where
  journal : ∃ old new backup, w.journal = some (.rotate old new backup)
  shut : ∀ k, ∃ e, loadOf KEYRING_FILE k w.keyring = .error e

section Bricked

variable {F : Faults World CoreError} {I : World → Prop} {w : World} {P : Unit → World → Prop}

theorem Bricked.yields_rollback (hb : Bricked w) (hi : I w) (k : MasterKey) (old new : Nat)
    (backup : RecoveryBundle) : Yields F I (rollbackRotation k old new backup) P w := by
  rw [rollbackRotation, bind_eq, yields_bind]
  refine (observes_load k).yields hi fun u hu => ?_
  obtain ⟨e, he⟩ := hb.shut k
  rw [he] at hu
  cases hu

theorem Bricked.attempt (hb : Bricked w) (hi : I w)
    (asked : CustodyMode) (pass : Option String) : Yields F I (unlock asked pass) P w := by
  obtain ⟨old, new, backup, hj⟩ := hb.journal
  have hnone : ∀ k u, ¬ Loads w k u := by
    intro k u hl
    obtain ⟨e, he⟩ := hb.shut k
    rw [Loads, he] at hl
    cases hl
  simp only [unlock, recoverLifecycleForUnlock, bind_eq, yields_bind]
  refine observes_acquireLock.yields hi fun _ _ => ?_
  refine observes_readLifecycle.yields hi fun j hj' => ?_
  rw [hj, Except.ok.injEq] at hj'
  subst hj'
  simp only [recoverPending, bind_eq, yields_bind]
  exact Rotation.yields_rollbackKek hi (fun k => hb.yields_rollback hi k old new backup)
    fun k u hl => absurd hl (hnone k u)

variable {custody : CustodyMode} {cred : Option String} {kek kek' : MasterKey}
  {kr : KeyringFile} {u : Unwrapped} {c : Content} {S : BlobPath → Nat → Prop}

theorem Quiescent.yields_rotateKek (hq : Quiescent w custody cred kek kr u c S)
    {pass : Option String} {P : MasterKey → World → Prop}
    (hi : I w) (hi' : I (w.withScoped kek)) (hp : ∀ x salt, custody = .passphrase → pass = some x →
      w.salt = some salt → P (.fromPassphrase x salt) w)
    (hp' : custody = .osKeychain → P kek w ∧ P kek (w.withScoped kek)) :
    Yields F I (rotateKek custody pass) P w := by
  cases custody with
  | recovery => exact yields_error hi
  | passphrase =>
    cases pass with
    | none => exact yields_error hi
    | some x =>
      refine (observes_derivePassphraseKek x).yields hi fun k hk => ?_
      cases hs : w.salt with
      | none =>
        simp only [hs] at hk
        cases hk
      | some salt =>
        simp only [hs, Except.ok.injEq] at hk
        subst hk
        exact hp x salt rfl rfl hs
  | osKeychain =>
    simp only [rotateKek, loadVerifiedKeychainKek, bind_eq, yields_bind]
    refine yields_loadKeychainUnwrapped hi (fun k u hl => ?_) fun k u hl => ?_
    · obtain ⟨rfl, -⟩ := hq.loadOf_unique hl
      exact hi'
    · obtain ⟨rfl, -⟩ := hq.loadOf_unique hl
      exact ⟨yields_ret hi (hp' rfl).1, yields_ret hi' (hp' rfl).2⟩

variable {Q : Except CoreError Mnemonic → World → Prop}

theorem wp_undoRotation_shut {k : MasterKey} {err : CoreError}
    (hshut : loadOf KEYRING_FILE k w.keyring = .error err) (hi : I w)
    (hfail : ∀ e, Q (.error e) w) (self : VaultHandle) (old new : Nat) (backup : RecoveryBundle)
    (e : CoreError) : wp F I (undoRotation self k old new backup e) Q w := by
  have hthrow : wp F I (throw (.misuse
      "rotation failed; rollback also failed; unlock normal custody to resume recovery"))
      Q w := ⟨hi, hfail _⟩
  simp only [undoRotation, rollbackRotation, bind_eq, wp_bind, wp_attempt]
  refine observes_load k _ _ _ w hi ?_ fun _ _ => hthrow
  beta_reduce
  rw [hshut]
  exact hthrow

theorem Quiescent.wp_rotateWith_foreign
    (hq : Quiescent w custody cred kek kr u c S) (hne : kek ≠ kek')
    {bundle : RecoveryBundle} (hbundle : w.recovery = some bundle)
    {self : VaultHandle} {ent : Entropy} {wj : World} (hwj : wj = { w with
      journal := some (.rotate kr.activeDekVersion (kr.activeDekVersion + 1) bundle) }) (hi : I w)
    (hrefused : (∃ e, F w e) ∨ 2 ^ 32 ≤ kr.activeDekVersion + 1 →
      ∀ e, Q (.error e) w) (hij : kr.activeDekVersion + 1 < 2 ^ 32 → I wj)
    (hfailed : kr.activeDekVersion + 1 < 2 ^ 32 → (∃ e, F wj e) → ∀ e, Q (.error e) wj)
    (hbricked : kr.activeDekVersion + 1 < 2 ^ 32 → ∀ wb, Bricked wb → (∃ kr',
      wb = wj.withKeyring kr' ∧ ∀ e ∈ kr.entries, e ∈ kr'.entries) → I wb ∧ ∀ e, Q (.error e) wb) :
    wp F I (rotateWith self kek' ent) Q w := by
  refine hq.wp_rotateWith hbundle hwj hi hrefused hij hfailed fun hb => ?_
  have hkr : wj.keyring = some kr := by
    rw [hwj]
    exact hq.keyring
  -- the new DEK is wrapped under the foreign KEK
  let wb := wj.withKeyring (extended kr kek' ent.dek (kr.activeDekVersion + 1))
  have hshut : ∀ k, ∃ e, loadOf KEYRING_FILE k wb.keyring = .error e := by
    intro k
    show ∃ e, loadOf _ k (some (extended _ _ _ _)) = _
    rw [loadOf_some (show (extended _ _ _ _).version = _ from hq.tidy.schema)]
    exact unwrapKeyring_extended_foreign hq.tidy hq.loads hne _ k
  have hjournal : wb.journal = some (.rotate kr.activeDekVersion
      (kr.activeDekVersion + 1) bundle) := by
    show wj.journal = _
    rw [hwj]
  obtain ⟨hib, hqb⟩ := hbricked hb wb ⟨⟨_, _, _, hjournal⟩, hshut⟩
    ⟨_, rfl, fun e he => List.mem_append_left _ he⟩
  obtain ⟨err, herr⟩ := hshut kek'
  obtain ⟨err', herr'⟩ := loadOf_other (hq.loadOf KEYRING_FILE) hne
  rw [hq.keyring, ← hkr] at herr'
  simp only [rotateTransaction, bind_eq, wp_bind]
  have hadd : Succeeds F (fun w' => w' = wj ∨ w' = wb)
      (addActiveDek kek' ent.dek) (fun n w' => n = kr.activeDekVersion + 1 ∧ w' = wb) wj :=
    succeeds_addActiveDek hq.tidy hb hkr (.inl rfl) (.inr rfl) ⟨rfl, rfl⟩
  refine wp_mono hadd ?_ fun res w' hw' hres => ?_
  · rintro w' (rfl | rfl)
    · exact hij hb
    · exact hib
  cases res with
  | ok n =>
    obtain ⟨rfl, rfl⟩ := hres
    have hundo (e : CoreError) := wp_undoRotation_shut (F := F) herr hib
      hqb self kr.activeDekVersion (kr.activeDekVersion + 1) bundle e
    rw [seqPost_ok, if_neg (by simp), wp_bind]
    refine observes_load kek' _ _ _ wb hib ?_ fun _ e => hundo e
    beta_reduce
    rw [herr]
    exact hundo err
  | error e =>
    obtain rfl | rfl := hw'
    · exact wp_undoRotation_shut herr' (hij hb) (hfailed hb hres) self _ _ bundle e
    · exact wp_undoRotation_shut herr hib hqb self _ _ bundle e

theorem Quiescent.wp_rotateWith_exhausted (hq : Quiescent w custody cred kek kr u c S)
    (hb : 2 ^ 32 ≤ kr.activeDekVersion + 1) (self : VaultHandle) (k : MasterKey) (ent : Entropy)
    (hi : I w) (hfail : ∀ e, Q (.error e) w) : wp Faults.none I (rotateWith self k ent) Q w := by
  obtain ⟨bundle, hbundle, -⟩ := hq.recovery
  refine hq.wp_rotateWith hbundle rfl hi (fun _ => hfail) ?_ ?_ ?_
  · exact fun hb' => absurd hb (Nat.not_le.2 hb')
  · exact fun _ ⟨_, he⟩ => he.elim
  · exact fun hb' => absurd hb (Nat.not_le.2 hb')

end Bricked

-- ==== the theorem

/-- A normal unlock of `w` runs to completion and leaves the whole vault
at `u`: no journal, the keyring `kr`, the content under the active DEK, a
recovery bundle for it, and a handle that reads every file. -/
def UnlocksTo (w : World) (custody : CustodyMode) (cred : Option String)
    (kek : MasterKey) (kr : KeyringFile) (u : Unwrapped) (c : Content) : Prop :=
  ((unlock custody cred).run w).1 = .ok ()
    ∧ (∃ S, Quiescent ((unlock custody cred).run w).2 custody cred kek kr u c S)
    ∧ ((unlock custody cred).run w).2.handle = some (handleOf u c.root custody)
    ∧ ∀ path b, c.files path = some b → ((Storage.readFile (vaultOf u c.root) path).run
        ((unlock custody cred).run w).2).1 = .ok b

section Theorem

variable {w w' : World} {custody : CustodyMode}
  {cred : Option String} {kek : MasterKey} {kr : KeyringFile} {u : Unwrapped}
  {c : Content} {S : BlobPath → Nat → Prop} {pass : Option String} {self : VaultHandle}

theorem Later.handle (hl : Later w w') (hh : w.handle = none) : w'.handle = none := by
  cases hl with
  | refl => exact hh
  | attempt _ _ _ _ => rfl

theorem Quiescent.later (hq : Quiescent w custody cred kek kr u c S)
    (hl : Later w w') : Quiescent w' custody cred kek kr u c S := by
  induction hl with
  | refl => exact hq
  | attempt asked pass _ hr ih =>
    exact ((ih.attempt (F := Faults.none) asked pass).reaches hr).withHandle none

theorem unlocksTo_of_opened (hrun : ((unlock custody cred).run w).1 = .ok ())
    (hq : ∃ S, Quiescent ((unlock custody cred).run w).2 custody cred kek kr u c S)
    (hh : ((unlock custody cred).run w).2.handle = some (handleOf u c.root custody)) :
    UnlocksTo w custody cred kek kr u c := by
  refine ⟨hrun, hq, hh, fun path b hb => ?_⟩
  obtain ⟨S, hq⟩ := hq
  rw [hq.toWhole.readFile hb]

theorem Quiescent.unlocksTo (hq : Quiescent w custody cred kek kr u c S)
    (hh : w.handle = none) : UnlocksTo w custody cred kek kr u c := by
  have hwp := hq.unlock hh
  obtain ⟨hrun, hhandle⟩ := hwp.run
  have hq' := hwp.reaches (run_returns Faults.none _ w).reaches
  exact unlocksTo_of_opened hrun ⟨S, hq'⟩ hhandle

theorem Rotation.InRotation.unlocksTo {r : Rotation}
    (hw : r.InRotation w) (hh : w.handle = none) : UnlocksTo w r.custody r.cred r.kek r.kr r.u r.c
      ∨ UnlocksTo w r.custody r.cred r.kek (r.both r.new) r.uNew r.c := by
  obtain ⟨hrun, ⟨hq, hhandle⟩ | ⟨hq, hhandle⟩⟩ := (hw.unlock hh).run
  · exact .inl (unlocksTo_of_opened hrun hq hhandle)
  · exact .inr (unlocksTo_of_opened hrun hq hhandle)

/-- The verdict on what a crash of `rotate_key` leaves: unlocked, it is
the whole old vault or the whole new one. -/
def RotatesAtomically (w₀ : World) (self : VaultHandle)
    (pass : Option String) (ent : Entropy) (custody : CustodyMode) (cred : Option String)
    (kek : MasterKey) (kr : KeyringFile) (u : Unwrapped) (c : Content) : Prop :=
  ∀ w, Reaches Faults.none (rotateKey self pass ent) w₀ w →
    ∀ w', Later w.crashed w' → UnlocksTo w' custody cred kek kr u c
        ∨ UnlocksTo w' custody cred kek (extended kr kek ent.dek (kr.activeDekVersion + 1))
          (u.addActive (kr.activeDekVersion + 1) ent.dek) c

variable {ent : Entropy}

theorem Quiescent.rotatesAtomically_of_stays (hstay : wp Faults.none
      (fun w => Quiescent w custody cred kek kr u c S)
      (rotateKey self pass ent) (fun _ _ => True) w) :
    RotatesAtomically w self pass ent custody cred kek kr u c := by
  intro w₁ hr w' hl
  have hq : Quiescent w' custody cred kek kr u c S := ((hstay.reaches hr).withHandle none).later hl
  exact .inl (hq.unlocksTo (hl.handle rfl))

theorem Quiescent.rotatesAtomically_handle
    (hq : Quiescent w custody cred kek kr u c S) (hh : w.handle = some (handleOf u c.root custody))
    (hpass : custody = .passphrase → ∀ x, pass = some x →
      cred = some x ∨ 2 ^ 32 ≤ kr.activeDekVersion + 1) :
    RotatesAtomically w (handleOf u c.root custody) pass ent custody cred kek kr u c := by
  by_cases hb : 2 ^ 32 ≤ kr.activeDekVersion + 1
  · -- refused before anything is written
    refine Quiescent.rotatesAtomically_of_stays (S := S) ?_
    have hrest {w : World} (hq : Quiescent w custody cred kek kr u c S)
        (k : MasterKey) : Yields Faults.none
          (fun w => Quiescent w custody cred kek kr u c S)
          (rotateWith (handleOf u c.root custody) k ent)
          (fun _ _ => True) w :=
      hq.wp_rotateWith_exhausted hb _ k ent hq fun _ => trivial
    have hall : Yields Faults.none (fun w => Quiescent w custody cred kek kr u c S)
        (rotateKey (handleOf u c.root custody) pass ent) (fun _ _ => True) w := by
      simp only [rotateKey, bind_eq, yields_bind]
      exact hq.yields_rotateKek hq
        hq.withScoped (fun x salt _ _ _ => hrest hq _) fun _ => ⟨hrest hq _, hrest hq.withScoped _⟩
    exact hall.post fun _ _ _ _ => trivial
  · obtain ⟨backup, hbackup, -⟩ := hq.recovery
    let r := hq.rotation hbackup (Nat.lt_of_not_le hb) ent
    have hbase := hq.rolled hbackup (Nat.lt_of_not_le hb) ent hh hq.normal
    have hscoped := hq.rolled hbackup (Nat.lt_of_not_le hb) ent hh hq.normal.withScoped
    have hwith {w' : World} (hw' : r.Rolled none (some (handleOf r.u r.c.root r.custody)) w') :
        Yields Faults.none r.InRotation (rotateWith (handleOf u c.root custody) kek ent)
          (fun _ _ => True) w' :=
      (Rotation.wp_rotateWith hw').post fun res _ _ _ => by cases res <;> exact trivial
    have hall : Yields Faults.none
        r.InRotation (rotateKey (handleOf u c.root custody) pass ent) (fun _ _ => True) w := by
      simp only [rotateKey, bind_eq, yields_bind]
      refine hq.yields_rotateKek (.old hbase.quiescent)
        (.old hscoped.quiescent) (fun x salt hc hx hs => ?_) fun _ => ⟨hwith hbase, hwith hscoped⟩
      -- the passphrase is the vault's own, so its KEK is
      have hx' := (hpass hc x hx).resolve_right hb
      have hn := hq.normal
      rw [hc] at hn
      obtain ⟨p, salt', hp, hs', rfl⟩ := hn
      obtain rfl : p = x := Option.some.inj (hp.symm.trans hx')
      obtain rfl : salt = salt' := Option.some.inj (hs.symm.trans hs')
      exact hwith hbase
    intro w₁ hr w' hl
    have hin : r.InRotation w' := (hall.reaches hr).crashed.later hl
    exact hin.unlocksTo (hl.handle rfl)

theorem Quiescent.not_rotatesAtomically
    (hq : Quiescent w .passphrase cred kek kr u c S) (hc : self.custody = .passphrase)
    {x : String} (hx : cred ≠ some x) (hb : kr.activeDekVersion + 1 < 2 ^ 32) :
    ¬ RotatesAtomically w self (some x) ent .passphrase cred kek kr u c := by
  obtain ⟨p, salt, rfl, hsalt, rfl⟩ := hq.normal
  have hne : MasterKey.fromPassphrase p salt ≠ .fromPassphrase x salt := by
    intro h
    injection h with hp
    exact hx (by rw [hp])
  have hbrick : wp Faults.none (fun _ => True)
      (rotateKey self (some x) ent) (fun _ w' => Bricked w') w := by
    simp only [rotateKey, rotateKek, hc, bind_eq, wp_bind]
    refine (observes_derivePassphraseKek x).wp_none trivial ?_
    simp only [hsalt, seqPost_ok]
    obtain ⟨bundle, hbundle, -⟩ := hq.recovery
    refine hq.wp_rotateWith_foreign hne hbundle rfl trivial
      ?_ (fun _ => trivial) (fun _ h => h.elim fun _ he => he.elim) fun _ wb hb _ => ⟨trivial, fun _ => hb⟩
    rintro (⟨_, he⟩ | hb')
    · exact he.elim
    · exact absurd hb (Nat.not_lt.2 hb')
  intro hall
  have hrun := run_returns Faults.none (rotateKey self (some x) ent) w
  have hb' := hbrick.returns hrun
  have hcrashed : Bricked ((rotateKey self (some x) ent).run w).2.crashed := ⟨hb'.journal, hb'.shut⟩
  have hno := (hcrashed.attempt (F := Faults.none) (I := fun _ => True)
    trivial .passphrase (some p) (P := fun _ _ => False)).run
  obtain h | h := hall _ hrun.reaches _ .refl
  · rw [h.1] at hno
    exact hno
  · rw [h.1] at hno
    exact hno

/-- **A rotation is crash-atomic exactly when it is not called with a
wrong passphrase.** Every crash of `rotate_key`, followed by any unlock
attempts stopped anywhere, leaves a vault that unlocks to the whole old
state or the whole new one, unless the custody is a passphrase, another
one was given and a version is left to rotate to. -/
theorem rotateKey_crash_atomic_iff {self : VaultHandle} {pass : Option String}
    {ent : Entropy} (hq : Quiescent w custody cred kek kr u c S) (hh : w.handle = some self)
    (hself : self = handleOf u c.root custody ∨ self.custody = .recovery) :
    RotatesAtomically w self pass ent custody cred kek kr u c ↔
      ¬ (self.custody = .passphrase ∧ kr.activeDekVersion + 1 < 2 ^ 32
        ∧ ∃ x, pass = some x ∧ cred ≠ some x) := by
  constructor
  · rintro hall ⟨hc, hb, x, rfl, hx⟩
    obtain rfl | hrec := hself
    · have hcustody : custody = .passphrase := hc
      subst hcustody
      exact hq.not_rotatesAtomically rfl hx hb hall
    · rw [hc] at hrec
      cases hrec
  · intro hcond
    obtain rfl | hrec := hself
    · refine hq.rotatesAtomically_handle hh fun hc x hx => ?_
      by_contra hno
      rw [not_or, Nat.not_le] at hno
      exact hcond ⟨hc, hno.2, x, hx, hno.1⟩
    · -- a recovery session cannot rotate
      refine Quiescent.rotatesAtomically_of_stays (S := S) ?_
      simp only [rotateKey, rotateKek, hrec]
      exact ⟨hq, trivial⟩

-- ==== unlock attempts

def Call.attempts : Call → Bool
  | .unlock _ _ | .drop => true
  | _ => false

/-- Unlock attempts do a vault at rest no harm: with any credentials, any
I/O failures and crashes anywhere, its normal credential still unlocks it,
with every key and every file. -/
theorem attempts_harmless {F : Faults World CoreError}
    {h : List (Event World CoreError Call (Option Mnemonic))}
    (hq : Quiescent w custody cred kek kr u c S)
    (hrun : vault.Run F (fun _ call => call.attempts = true) w h w') :
    UnlocksTo w'.crashed custody cred kek kr u c := by
  have hsilently : ∀ {p : VaultM Unit} {Q : Except CoreError Unit → World → Prop} {w : World},
      wp F (fun w => Quiescent w custody cred kek kr u c S) p Q w →
      wp F (fun w => Quiescent w custody cred kek kr u c S) (silently p)
        (fun _ w => Quiescent w custody cred kek kr u c S) w := by
    intro p Q w hp
    refine (wp_bind _ _ _ _).2 (wp_mono hp (fun _ hi => hi) fun r w₁ hi _ => ?_)
    cases r with
    | ok _ => exact ⟨hi, hi⟩
    | error e => exact hi
  have hq' : Quiescent w' custody cred kek kr u c S := by
    refine hrun.invariant (I := fun w => Quiescent w custody cred kek kr u c S) hq ?_
      fun w hw => hw.withHandle none
    intro w call p hw hcall hp
    cases call with
    | unlock asked pass =>
      cases hp
      exact hsilently (hw.attempt asked pass)
    | drop =>
      obtain ⟨self, -, hp⟩ := Option.bind_eq_some_iff.1 hp
      cases hp
      exact hsilently (Q := fun _ _ => True) ⟨hw, hw.withHandle none, trivial⟩
    | _ => cases hcall
  exact (hq'.withHandle none).unlocksTo rfl

end Theorem

namespace Sample

def path : BlobPath := ("docs", "note.txt")

def stored : World :=
  { vault with
    containers := ["docs"]
    files := (∅ : AList fun _ : BlobPath => RawFile).insert path
      (Storage.sealFile 1 dek path [1, 2, 3]) }

def content : Content where
  root := root
  files q := if q = path then some [1, 2, 3] else none
  transit := none
  signing := none
  brokers := none

def keyring : KeyringFile := single kek dek 1

def unwrapped : Unwrapped := .single dek 1

end Sample

open Sample

theorem sample_content
    {q : BlobPath} {b : Bytes} (h : content.files q = some b) : q = path ∧ b = [1, 2, 3] := by
  simp only [content] at h
  split at h
  · next hq => exact ⟨hq, (Option.some.inj h).symm⟩
  · cases h

theorem quiescent_stored : Quiescent stored .passphrase (some pass) kek
      keyring unwrapped content (AllAt 1) where
  keyring := rfl
  tidy := .single ..
  loads := unwrapKeyring_single ..
  material := rfl
  files := by
    constructor
    · intro q b hb
      obtain ⟨rfl, rfl⟩ := sample_content hb
      exact ⟨_, AList.lookup_insert _, 1, dek, rfl, rfl, rfl⟩
    intro q hq
    have hne : q ≠ path := by
      rintro rfl
      simp [content] at hq
    exact (AList.lookup_insert_ne hne).trans rfl
  placed := by
    intro q b hb
    obtain ⟨rfl, -⟩ := sample_content hb
    exact ⟨by decide +kernel, by decide⟩
  manifest := ⟨_, Storage.verifiedManifest_authenticated _ rfl⟩
  recovery := ⟨_, rfl, phrase, some 1, by
    simp [Recovery.openBundle, Recovery.bundleFor, unwrapped, Unwrapped.single], rfl⟩
  journal := rfl
  normal := ⟨pass, salt, rfl, rfl, rfl⟩

theorem attempts_harmless_wrong : UnlocksTo
      ((silently (unlock .passphrase (some "wrong passphrase"))).run stored.crashed).2.crashed
      .passphrase (some pass) kek keyring unwrapped content :=
  attempts_harmless (F := Faults.none) quiescent_stored
    (.step (e := ⟨_, .unlock .passphrase (some "wrong passphrase"), _, _⟩)
      (.step (e := ⟨_, .drop, _, _⟩) .nil rfl (.returned rfl (returns_none_iff.2 rfl)))
      rfl (.returned rfl (returns_none_iff.2 rfl)))

theorem rotateKey_crash_atomic_stored : RotatesAtomically
      stored handle (some pass) entropy .passphrase (some pass) kek keyring unwrapped content :=
  (rotateKey_crash_atomic_iff quiescent_stored rfl (.inl rfl)).2 (by simp)

/-- The sample vault, rotated with another passphrase: the call is not
even stopped, and afterwards neither passphrase unlocks. -/
theorem rotateKey_wrong_passphrase_bricks : Quiescent stored .passphrase (some pass) kek
        keyring unwrapped content (AllAt 1)
      ∧ stored.handle = some handle
      ∧ Reaches Faults.none (rotateKey handle (some "wrong passphrase") entropy) stored
          ((rotateKey handle (some "wrong passphrase") entropy).run stored).2
      ∧ ((unlock .passphrase (some pass)).run ((rotateKey handle (some "wrong passphrase")
            entropy).run stored).2.crashed).1
        = .error (.crypto (.aead "aead::Error"))
      ∧ ((unlock .passphrase (some "wrong passphrase")).run
          ((rotateKey handle (some "wrong passphrase") entropy).run stored).2.crashed).1
        = .error (.crypto (.aead "aead::Error")) :=
  ⟨quiescent_stored, rfl, (run_returns Faults.none _ _).reaches, rfl, rfl⟩

end SovereignVault
