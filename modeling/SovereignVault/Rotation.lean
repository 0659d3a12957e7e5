/-
`rotate_key` and `rollback_rotation`, one specification each.

A rotation moves the keyring, every file, the identity, three stores and
the recovery bundle, one atomic step each. Stopped, it leaves a mixture,
and a rollback that is stopped leaves another: in `Midway` each artefact
is on the old or the new side INDEPENDENTLY, the keyring holding both
DEKs, and that is closed under every step of both directions. Around it
stand the uniform states, `Rolled` and `Rotated`.

`succeeds_rollback` leads from `Rolled` or `Midway` to `Rolled` without a
journal, `succeeds_transaction` from `Rolled` to `Rotated`. Both hold under
every fault model and are generic in the crash invariant.
-/
import SovereignVault.Quiescence

namespace SovereignVault

open Crash Prog Keyring Transit

variable {S : BlobPath → Nat → Prop} {u : Unwrapped}
  {custody : CustodyMode} {cred : Option String} {kr : KeyringFile} {kek : MasterKey} {c : Content}

theorem Quiescent.wp_rotateWith {w : World}
    (hq : Quiescent w custody cred kek kr u c S) {bundle : RecoveryBundle}
    (hbundle : w.recovery = some bundle) {F : Faults World CoreError}
    {I : World → Prop} {Q : Except CoreError Mnemonic → World → Prop}
    {self : VaultHandle} {k : MasterKey} {ent : Entropy} {wj : World} (hwj : wj = { w with
      journal := some (.rotate kr.activeDekVersion (kr.activeDekVersion + 1) bundle) }) (hi : I w)
    (hrefused : (∃ e, F w e) ∨ 2 ^ 32 ≤ kr.activeDekVersion + 1 →
      ∀ e, Q (.error e) w) (hij : kr.activeDekVersion + 1 < 2 ^ 32 → I wj)
    (hfailed : kr.activeDekVersion + 1 < 2 ^ 32 → (∃ e, F wj e) →
      ∀ e, Q (.error e) wj) (htrans : kr.activeDekVersion + 1 < 2 ^ 32 →
      wp F I (rotateTransaction self k ent.dek (kr.activeDekVersion + 1) ent)
        (fun res w' => match res with
          | .ok phrase => I w' ∧ Q (.ok phrase) w'
          | .error e => wp F I (undoRotation self k kr.activeDekVersion
              (kr.activeDekVersion + 1) bundle e) Q w') wj) :
    wp F I (rotateWith self k ent) Q w := by
  have hfail : (∃ e, F w e) → ∀ e, Q (.error e) w := fun h => hrefused (.inl h)
  have hparsed : parsed KEYRING_FILE w.keyring = .ok kr := by
    rw [hq.keyring]
    exact parsed_of_schema hq.tidy.schema
  simp only [rotateWith, bind_eq, wp_bind]
  refine observes_readLifecycle _ _ _ w hi ?_ hfail
  simp only [hq.journal, seqPost_ok, wp_bind, activeVersion, readKeyring, bind_eq]
  refine observes_readKeyringFile _ _ _ _ _ w hi ?_ hfail
  simp only [hparsed, seqPost_ok, pure_eq, wp_ret]
  refine ⟨hi, ?_⟩
  rw [wp_bind]
  refine observes_readRequired _ _ _ _ _ w hi ?_ hfail
  simp only [hbundle, seqPost_ok]
  split
  · next hb => exact ⟨hi, hrefused (.inr hb) _⟩
  next hb =>
  have hb' := Nat.lt_of_not_le hb
  simp only [wp_bind]
  subst hwj
  refine wp_writeAtomic hi (hij hb') ?_
    (fun e he => hrefused (.inl ⟨e, he⟩) e) fun e he => hfailed hb' ⟨e, he⟩ e
  rw [seqPost_ok, wp_bind, wp_attempt]
  refine (htrans hb').post fun res w' _ hres => ?_
  rw [seqPost_ok]
  cases res with
  | ok phrase | error e => exact hres

structure Rotation where
  base : World
  custody : CustodyMode
  cred : Option String
  kek : MasterKey
  kr : KeyringFile
  u : Unwrapped
  c : Content
  S : BlobPath → Nat → Prop
  backup : RecoveryBundle
  ent : Entropy
  quiet : Quiescent base custody cred kek kr u c S
  backup_eq : base.recovery = some backup
  bound : kr.activeDekVersion + 1 < 2 ^ 32

namespace Rotation

variable (r : Rotation) {h : Option VaultHandle} {own : Option Credential}

-- ==== names of the parts

def old : Nat := r.kr.activeDekVersion

def new : Nat := r.kr.activeDekVersion + 1

def oldWrap : MasterKey := materialWrapForDek r.u.activeDek

def newWrap : MasterKey := materialWrapForDek r.ent.dek

def journal : LifecycleJournal := .rotate r.old r.new r.backup

def both (active : Nat) : KeyringFile :=
  extended r.kr r.kek r.ent.dek active

def keys : KeyMap := Function.update r.u.keys r.new (some r.ent.dek)

def uMid : Unwrapped :=
  r.u.add r.new r.ent.dek (Unwrapped.active_ne r.quiet.loads)

def uNew : Unwrapped := r.u.addActive r.new r.ent.dek

def newBundle : RecoveryBundle :=
  Recovery.bundleFor r.ent.phrase r.ent.bundleSalt r.ent.dek (some r.new)

def oldVersions (path : BlobPath) (n : Nat) : Prop :=
  r.S path n ∨ n = r.old

def versions (path : BlobPath) (n : Nat) : Prop :=
  r.oldVersions path n ∨ n = r.new

/-- The scoped credential, if the vault has keychain custody, still gives
the KEK. -/
def Own (own : Option Credential) : Prop :=
  Normal { r.base with scopedKek := own } r.custody r.cred r.kek

/-- The handle of the caller, before or after it moves to the new DEK. -/
def Attached (h : Option VaultHandle) : Prop :=
  h = some (handleOf r.u r.c.root r.custody) ∨ h = some (handleOf r.uNew r.c.root r.custody)

def disk (j : Option LifecycleJournal) (kr : KeyringFile)
    (bundle : RecoveryBundle) (s : Sides) (fs : AList fun _ : BlobPath => RawFile)
    (own : Option Credential) (h : Option VaultHandle) : World :=
  { r.base with
    journal := j, keyring := some kr, recovery := some bundle, files := fs,
    scopedKek := own, handle := h : World }.withMaterial r.c s

/-- Everything under the old DEK, the new one not in the keyring. -/
inductive Rolled (j : Option LifecycleJournal) (h : Option VaultHandle) : World → Prop
  | mk {fs : AList fun _ : BlobPath => RawFile}
      {own : Option Credential} (hfs : FilesIn r.u.keys r.oldVersions r.c.files fs)
      (hown : r.Own own) : Rolled j h (r.disk j r.kr r.backup (.all r.oldWrap) fs own h)

/-- Both DEKs in the keyring; each artefact under one of them. -/
inductive Midway (j : Option LifecycleJournal) (h : Option VaultHandle) : World → Prop
  | mk {active : Nat} {bundle : RecoveryBundle} {s : Sides} {fs : AList fun _ : BlobPath => RawFile}
      {own : Option Credential} (hactive : active = r.old ∨ active = r.new)
      (hbundle : bundle = r.backup ∨ bundle = r.newBundle)
      (hs : s.Among r.oldWrap r.newWrap) (hfs : FilesIn r.keys r.versions r.c.files fs)
      (hown : r.Own own) : Midway j h (r.disk j (r.both active) bundle s fs own h)

/-- A rotation whose rollback is still to come. -/
abbrev Pending (j : Option LifecycleJournal) (h : Option VaultHandle) (w : World) : Prop :=
  r.Rolled j h w ∨ r.Midway j h w

/-- The states of a rollback. -/
abbrev RollingBack (j : Option LifecycleJournal) (h : Option VaultHandle) (w : World) : Prop :=
  r.Rolled j h w ∨ r.Midway j h w ∨ r.Rolled none h w

inductive Rotated (h : Option VaultHandle) : World → Prop
  | mk {fs : AList fun _ : BlobPath => RawFile}
      {own : Option Credential} (hfs : FilesIn r.keys (AllAt r.new) r.c.files fs)
      (hown : r.Own own) : Rotated h (r.disk none (r.both r.new) r.newBundle (.all r.newWrap)
        fs own h)

-- ==== small facts

variable {r}

theorem new_ne_old : r.new ≠ r.old := Nat.succ_ne_self _

theorem activeVersion_eq : r.u.activeVersion = r.old := (unwrapKeyring_ok_iff.1 r.quiet.loads).2

@[simp] theorem keys_new : r.keys r.new = some r.ent.dek := Function.update_self ..

@[simp] theorem keys_old : r.keys r.old = some r.u.activeDek := by
  rw [keys, Function.update_of_ne new_ne_old.symm, ← activeVersion_eq]
  exact r.u.active_mem

theorem u_keys_old : r.u.keys r.old = some r.u.activeDek := by
  rw [← activeVersion_eq]
  exact r.u.active_mem

theorem u_keys_new : r.u.keys r.new = none := r.quiet.tidy.keys_next r.quiet.loads

variable {fs : AList fun _ : BlobPath => RawFile}

theorem filesIn_both (h : FilesIn r.u.keys r.oldVersions r.c.files fs) :
    FilesIn r.keys r.versions r.c.files fs := by
  refine h.mono fun path n key hn hkey => ⟨.inl hn, ?_⟩
  have hne : n ≠ r.new := by
    rintro rfl
    rw [u_keys_new] at hkey
    cases hkey
  rw [keys, Function.update_of_ne hne, hkey]

theorem filesIn_old (h : FilesIn r.keys (AllAt r.old) r.c.files fs) :
    FilesIn r.u.keys r.oldVersions r.c.files fs := by
  refine h.mono fun path n key hn hkey => ⟨.inr hn, ?_⟩
  rw [AllAt] at hn
  rw [hn] at hkey ⊢
  rw [u_keys_old, ← keys_old, hkey]

theorem both_load_new : unwrapKeyring (r.both r.new) r.kek = .ok r.uNew :=
  unwrapKeyring_extended_new r.quiet.tidy r.quiet.loads

theorem both_load_old : unwrapKeyring (r.both r.old) r.kek = .ok r.uMid :=
  unwrapKeyring_extended_old r.quiet.tidy r.quiet.loads

theorem both_load {active : Nat} (h : active = r.old ∨ active = r.new) :
    ∃ u, unwrapKeyring (r.both active) r.kek = .ok u
      ∧ u.keys = r.keys := by
  obtain rfl | rfl := h
  · exact ⟨r.uMid, both_load_old, rfl⟩
  · exact ⟨r.uNew, both_load_new, rfl⟩

theorem Own.withScoped (h : r.Own own) : r.Own (some (.key r.kek)) :=
  Normal.withScoped (w := { r.base with scopedKek := own }) h

theorem Rolled.quiescent {w : World} (hw : r.Rolled none h w) :
    Quiescent w r.custody r.cred r.kek r.kr r.u r.c r.oldVersions := by
  obtain ⟨hfs, hown⟩ := hw
  obtain ⟨bundle, hb, hrec⟩ := r.quiet.recovery
  obtain rfl : r.backup = bundle := Option.some.inj (r.backup_eq.symm.trans hb)
  exact
    { keyring := rfl, tidy := r.quiet.tidy, loads := r.quiet.loads
      material := rfl, files := hfs, placed := r.quiet.placed
      manifest := r.quiet.manifest, recovery := ⟨r.backup, rfl, hrec⟩
      journal := rfl, normal := hown }

theorem Rotated.quiescent {w : World} (hw : r.Rotated h w) :
    Quiescent w r.custody r.cred r.kek (r.both r.new) r.uNew r.c (AllAt r.new) := by
  obtain ⟨hfs, hown⟩ := hw
  refine
    { keyring := rfl, tidy := r.quiet.tidy.extended, loads := both_load_new
      material := rfl, files := hfs, placed := r.quiet.placed
      manifest := r.quiet.manifest
      recovery := ⟨r.newBundle, rfl, r.ent.phrase, some r.new, ?_, rfl⟩
      journal := rfl, normal := hown }
  simp [Recovery.openBundle, newBundle, Recovery.bundleFor, uNew, Unwrapped.addActive]

theorem openedWith_both (u : Unwrapped) : Storage.openedWith u.keys u.activeVersion
        (Storage.deriveManifestAuthKey r.c.root) r.base.manifest
      = .ok (vaultOf u r.c.root) := by
  obtain ⟨m, hm⟩ := r.quiet.manifest
  exact Storage.openedWith_ok (by rw [u.active_mem]; rfl) hm

theorem succeeds_rewrapMaterial {F : Faults World CoreError} {I : World → Prop}
    {j : Option LifecycleJournal} {kr : KeyringFile} {bundle : RecoveryBundle}
    {s : Sides} {a b : MasterKey} (hs : s.Among a b)
    (hinv : ∀ s : Sides, s.Among a b → I (r.disk j kr bundle s fs own h)) :
    Succeeds F I (rewrapAllMaterial a b)
      (fun _ w => w = r.disk j kr bundle (.all b) fs own h) (r.disk j kr bundle s fs own h) :=
  succeeds_rewrapAllMaterial hs hinv

-- ==== rollback

section Rollback

variable {F : Faults World CoreError}
  {I : World → Prop} {j : Option LifecycleJournal} {h : Option VaultHandle}
  {fs : AList fun _ : BlobPath => RawFile} {own : Option Credential} {bundle : RecoveryBundle}

theorem succeeds_rollbackTail (hI : ∀ w, r.RollingBack j h w → I w)
    {kr : KeyringFile} (hkr : (kr = r.kr ∧ bundle = r.backup) ∨ kr = r.both r.old)
    (hbundle : bundle = r.backup ∨ bundle = r.newBundle)
    (hfs : FilesIn r.u.keys r.oldVersions r.c.files fs) (hown : r.Own own) : Succeeds F I (do
        Recovery.writeBundle r.backup
        let active ← activeVersion
        if active ≠ r.old then
          setActiveVersion r.old
        removeVersion r.new
        removeLifecycle)
      (fun _ w => r.Rolled none h w)
      (r.disk j kr bundle (.all r.oldWrap) fs own h) := by
  have hsides := Sides.among_left r.oldWrap r.newWrap
  have hstate {bundle' : RecoveryBundle}
      (hb : bundle' = r.backup ∨ bundle' = r.newBundle) (hk : kr = r.kr → bundle' = r.backup) :
      I (r.disk j kr bundle' (.all r.oldWrap) fs own h) := by
    obtain ⟨rfl, -⟩ | rfl := hkr
    · obtain rfl := hk rfl
      exact hI _ (.inl ⟨hfs, hown⟩)
    · exact hI _ (.inr (.inl ⟨.inl rfl, hb, hsides, filesIn_both hfs, hown⟩))
  have hi : I (r.disk j kr bundle (.all r.oldWrap) fs own h) := by
    refine hstate hbundle fun hk => ?_
    obtain ⟨-, hb⟩ | hb := hkr
    · exact hb
    · have hlen := congrArg (fun k => k.entries.length) (hk.symm.trans hb)
      simp [both, extended] at hlen
  have hi₁ : I (r.disk j kr r.backup (.all r.oldWrap) fs own h) := hstate (.inl rfl) fun _ => rfl
  have hschema : kr.version = KEYRING_SCHEMA := by
    obtain ⟨rfl, -⟩ | rfl := hkr
    · exact r.quiet.tidy.schema
    · exact r.quiet.tidy.schema
  have hactive : kr.activeDekVersion = r.old := by
    obtain ⟨rfl, -⟩ | rfl := hkr
    · rfl
    · rfl
  have hwithout : withoutVersion kr r.new = r.kr := by
    obtain ⟨rfl, -⟩ | rfl := hkr
    · exact r.quiet.tidy.withoutVersion_next
    · exact r.quiet.tidy.withoutVersion_extended
  have hi₂ : I (r.disk j r.kr r.backup (.all r.oldWrap) fs own h) := hI _ (.inl ⟨hfs, hown⟩)
  have hi₃ : I (r.disk none r.kr r.backup (.all r.oldWrap) fs own h) :=
    hI _ (.inr (.inr ⟨hfs, hown⟩))
  simp only [bind_eq, succeeds_bind]
  refine succeeds_writeAtomic hi hi₁ ?_
  refine succeeds_activeVersion kr rfl hschema hi₁ ?_
  rw [if_neg (by simp [hactive]), succeeds_bind]
  refine succeeds_removeVersion kr hschema (by rw [hactive]; exact new_ne_old.symm) rfl hi₁ ?_ ?_
  · rw [hwithout]
    exact hi₂
  rw [hwithout]
  refine succeeds_removeFileDurable hi₂ (fun _ => ⟨hi₃, ⟨hfs, hown⟩⟩) ?_
  intro hnone
  cases j with
  | none => exact ⟨hfs, hown⟩
  | some j => cases hnone

theorem succeeds_loadIdentityOrElse {w : World} {root a b k : MasterKey}
    (hk : k = a ∨ k = b) (hid : w.identity = some (authenticatedIdentity k root))
    (hi : I w) : Succeeds F I (loadIdentityOrElse b a)
      (fun identity w' => identity = ⟨root, true⟩ ∧ w' = w) w := by
  have hown : identityOf k w.identity = .ok ⟨root, true⟩ := by
    rw [hid]
    exact openIdentity_authenticated k root
  have hother (k' : MasterKey) (i : IdentityState)
      (h : identityOf k' w.identity = .ok i) : i = ⟨root, true⟩ := by
    rw [hid] at h
    exact openIdentity_authenticated_ok h
  have hfallback (hk' : k = a ∨ ∃ e, F w e) : Succeeds F I (loadIdentity a)
        (fun identity w' => identity = ⟨root, true⟩ ∧ w' = w) w := by
    refine observes_loadIdentity a F I _ w hi ?_ fun hex _ => hex
    beta_reduce
    cases hl : identityOf a w.identity with
    | ok i => exact ⟨hother a i hl, rfl⟩
    | error e =>
      obtain rfl | hex := hk'
      · rw [hown] at hl
        cases hl
      · exact hex
  rw [Succeeds, loadIdentityOrElse, bind_eq, wp_bind, wp_attempt]
  refine observes_loadIdentity b F I _ w hi ?_ fun hex e => ?_
  · beta_reduce
    cases hl : identityOf b w.identity with
    | ok i => exact ⟨hi, hother b i hl, rfl⟩
    | error e =>
      refine hfallback (.inl (hk.resolve_right ?_))
      rintro rfl
      rw [hown] at hl
      cases hl
  · exact hfallback (.inr hex)

theorem succeeds_resealUnderOld (hI : ∀ w, r.Midway j h w → I w) {active : Nat} {s : Sides}
    (hactive : active = r.old ∨ active = r.new) (hbundle : bundle = r.backup ∨ bundle = r.newBundle)
    (hs : s.Among r.oldWrap r.newWrap) (hfs : FilesIn r.keys r.versions r.c.files fs)
    (hown : r.Own own) : Succeeds F I (resealUnderOld r.kek r.old r.u.activeDek r.ent.dek)
      (fun _ w => ∃ fs', FilesIn r.u.keys r.oldVersions r.c.files fs'
        ∧ w = r.disk j (r.both r.old) bundle (.all r.oldWrap) fs' own h)
      (r.disk j (r.both active) bundle s fs own h) := by
  have hmid {active : Nat} {s : Sides}
      {fs : AList fun _ : BlobPath => RawFile} (hactive : active = r.old ∨ active = r.new)
      (hs : s.Among r.oldWrap r.newWrap) (hfs : FilesIn r.keys r.versions r.c.files fs) :
      I (r.disk j (r.both active) bundle s fs own h) :=
    hI _ ⟨hactive, hbundle, hs, hfs, hown⟩
  have hi := hmid hactive hs hfs
  have hi₁ := hmid (.inl rfl) hs hfs
  have hmem : r.old ∈ (r.both active).entries.map WrappedDek.dekVersion := by
    rw [both, extended, List.map_append]
    exact List.mem_append_left _ r.quiet.tidy.active_mem
  obtain ⟨m, hm⟩ := r.quiet.manifest
  rw [resealUnderOld]
  refine (succeeds_loadIdentityOrElse hs.identity rfl hi).bind ?_
  rintro _ _ - ⟨rfl, rfl⟩
  simp only [if_true, bind_eq, succeeds_bind]
  refine succeeds_setActiveVersion (r.both active) r.quiet.tidy.schema hmem rfl hi hi₁ ?_
  refine succeeds_load (r.both r.old) rfl r.quiet.tidy.schema both_load_old hi₁ ?_
  refine (Storage.observes_openExisting _ _ _).succeeds hi₁ (openedWith_both r.uMid) ?_
  -- every file to the old version, from whatever mixture
  refine (succeeds_rewrapAllFiles (v := vaultOf r.uMid r.c.root)
    (w := r.disk j (r.both r.old) bundle s fs own h) (S := r.versions) r.quiet.placed hm
    (fun _ => .inl (.inr activeVersion_eq)) (fun fs' hfs' => hmid (.inl rfl) hs hfs') hfs).mono ?_
  rintro _ _ - ⟨fs', rfl, hfs'⟩
  have hold : FilesIn r.u.keys r.oldVersions r.c.files fs' := by
    refine filesIn_old (hfs'.mono fun path n key hn hkey => ⟨?_, hkey⟩)
    rw [AllAt] at hn ⊢
    rw [hn]
    exact activeVersion_eq
  -- and all material
  show Succeeds F I (rewrapAllMaterial r.newWrap r.oldWrap) _
    (r.disk j (r.both r.old) bundle s fs' own h)
  refine (succeeds_rewrapMaterial hs.symm ?_).mono ?_
  · exact fun s' hs' => hmid (.inl rfl) hs'.symm (filesIn_both hold)
  · rintro _ _ - rfl
    exact ⟨fs', hold, rfl⟩

/-- **The rollback restores the old state**, from any mixture. -/
theorem succeeds_rollback (hI : ∀ w, r.RollingBack j h w → I w)
    {w : World} (hw : r.Pending j h w) :
    Succeeds F I (rollbackRotation r.kek r.old r.new r.backup)
      (fun _ w => r.Rolled none h w) w := by
  have hi : I w := hI w (hw.elim .inl fun hm => .inr (.inl hm))
  rw [rollbackRotation, bind_eq, succeeds_bind]
  obtain ⟨hfs, hown⟩ | ⟨hactive, hbundle, hs, hfs, hown⟩ := hw
  · -- the keyring does not know the new DEK: nothing was re-sealed
    refine succeeds_load _ rfl r.quiet.tidy.schema r.quiet.loads hi ?_
    rw [u_keys_new]
    exact succeeds_rollbackTail hI (.inl ⟨rfl, rfl⟩) (.inl rfl) hfs hown
  obtain ⟨u, hu, hkeys⟩ := both_load hactive
  refine succeeds_load _ rfl r.quiet.tidy.schema hu hi ?_
  rw [hkeys, keys_new, keys_old]
  refine (succeeds_resealUnderOld (fun w hm => hI w (.inr (.inl hm)))
    hactive hbundle hs hfs hown).bind ?_
  rintro _ _ - ⟨fs', hfs', rfl⟩
  exact succeeds_rollbackTail hI (.inr rfl) hbundle hfs' hown

end Rollback

-- ==== the transaction

section Transaction

variable {F : Faults World CoreError} {I : World → Prop}

/-- **The transaction ends in the new state**, its handle with it. -/
theorem succeeds_transaction (hI : ∀ h w, r.Attached h → r.Rolled (some r.journal) h w
      ∨ r.Midway (some r.journal) h w ∨ r.Rotated h w → I w) {w : World}
    (hw : r.Rolled (some r.journal) (some (handleOf r.u r.c.root r.custody)) w) :
    Succeeds F I (rotateTransaction (handleOf r.u r.c.root r.custody) r.kek r.ent.dek r.new r.ent)
      (fun phrase w' => phrase = r.ent.phrase
        ∧ r.Rotated (some (handleOf r.uNew r.c.root r.custody)) w') w := by
  have hi : I w := hI _ w (.inl rfl) (.inl hw)
  obtain @⟨fs, own, hfs, hown⟩ := hw
  have hmid {bundle : RecoveryBundle}
      {s : Sides} {fs : AList fun _ : BlobPath => RawFile} {h : Option VaultHandle}
      (hh : r.Attached h) (hbundle : bundle = r.backup ∨ bundle = r.newBundle)
      (hs : s.Among r.oldWrap r.newWrap) (hfs : FilesIn r.keys r.versions r.c.files fs) :
      I (r.disk (some r.journal) (r.both r.new) bundle s fs own h) :=
    hI h _ hh (.inr (.inl ⟨.inr rfl, hbundle, hs, hfs, hown⟩))
  have hsides := Sides.among_left r.oldWrap r.newWrap
  have hnewSides : (Sides.all r.newWrap).Among r.oldWrap r.newWrap :=
    (Sides.among_left r.newWrap r.oldWrap).symm
  obtain ⟨m, hm⟩ := r.quiet.manifest
  have hi₁ := hmid (.inl rfl) (.inl rfl) hsides (filesIn_both hfs)
  rw [rotateTransaction]
  simp only [bind_eq, succeeds_bind]
  refine succeeds_addActiveDek r.quiet.tidy r.bound rfl hi hi₁ ?_
  rw [if_neg (by simp [new])]
  simp only [succeeds_bind]
  refine succeeds_load (r.both r.new) rfl r.quiet.tidy.schema both_load_new hi₁ ?_
  refine (Storage.observes_openExisting _ _ _).succeeds hi₁ (openedWith_both r.uNew) ?_
  refine (succeeds_rewrapAllFiles (v := vaultOf r.uNew r.c.root)
    (w := r.disk (some r.journal) (r.both r.new) r.backup (.all r.oldWrap)
      fs own (some (handleOf r.u r.c.root r.custody))) (S := r.versions)
    r.quiet.placed hm (fun _ => .inr rfl)
    (fun fs' hfs' => hmid (.inl rfl) (.inl rfl) hsides hfs')
    (filesIn_both hfs)).mono ?_
  rintro _ _ hi₂ ⟨fs', rfl, hfs'⟩
  have hnew : FilesIn r.keys r.versions r.c.files fs' :=
    hfs'.mono fun path n key hn hkey => ⟨.inr hn, hkey⟩
  -- the handle moves to the new DEK before the material does
  have hi₃ := hmid (.inr rfl) (.inl rfl) hsides hnew
  refine succeeds_assigning hi₂ hi₃ ?_
  have hold : materialWrapKey (handleOf r.u r.c.root r.custody).vault = r.oldWrap := by
    simp [materialWrapKey, handleOf, oldWrap]
  have hnewWrap : materialWrapKey (vaultOf r.uNew r.c.root) = r.newWrap := by
    simp [materialWrapKey, newWrap, uNew, Unwrapped.addActive]
  rw [hold, hnewWrap]
  show Succeeds F I (rewrapAllMaterial r.oldWrap r.newWrap) _
    (r.disk (some r.journal) (r.both r.new) r.backup (.all r.oldWrap) fs'
      own (some (handleOf r.uNew r.c.root r.custody)))
  refine (succeeds_rewrapMaterial hsides ?_).mono ?_
  · exact fun s' hs' => hmid (.inr rfl) (.inl rfl) hs' hnew
  rintro _ _ hi₄ rfl
  have hi₅ := hmid (.inr rfl) (.inr rfl) hnewSides hnew
  have hend : r.Rotated (some (handleOf r.uNew r.c.root r.custody))
      (r.disk none (r.both r.new) r.newBundle (.all r.newWrap) fs' own
        (some (handleOf r.uNew r.c.root r.custody))) := ⟨hfs', hown⟩
  have hi₆ := hI _ _ (.inr rfl) (.inr (.inr hend))
  simp only [Recovery.issueRecoveryPhraseForVersion]
  rw [if_neg (Nat.succ_ne_zero _), bind_eq, succeeds_bind]
  refine succeeds_writeAtomic hi₄ hi₅ (succeeds_ret hi₅ ?_)
  refine succeeds_removeFileDurable hi₅ (fun _ => ⟨hi₆, succeeds_ret hi₆ ⟨rfl, hend⟩⟩) ?_
  intro hnone
  cases hnone

end Transaction

end Rotation

def Quiescent.rotation {w : World} {custody : CustodyMode}
    {cred : Option String} {kek : MasterKey} {kr : KeyringFile}
    {u : Unwrapped} {c : Content} {S : BlobPath → Nat → Prop}
    (hq : Quiescent w custody cred kek kr u c S) {backup : RecoveryBundle}
    (hbackup : w.recovery = some backup)
    (hb : kr.activeDekVersion + 1 < 2 ^ 32) (ent : Entropy) : Rotation where
  base := w
  custody := custody
  cred := cred
  kek := kek
  kr := kr
  u := u
  c := c
  S := S
  backup := backup
  ent := ent
  quiet := hq
  backup_eq := hbackup
  bound := hb

theorem Quiescent.rolled {w : World}
    (hq : Quiescent w custody cred kek kr u c S) {backup : RecoveryBundle}
    (hbackup : w.recovery = some backup) (hb : kr.activeDekVersion + 1 < 2 ^ 32)
    (ent : Entropy) {h : Option VaultHandle} (hh : w.handle = h) {own : Option Credential}
    (hown : Normal { w with scopedKek := own } custody cred kek) :
    (hq.rotation hbackup hb ent).Rolled none h { w with scopedKek := own } := by
  have hdisk : { w with scopedKek := own }
      = (hq.rotation hbackup hb ent).disk none kr backup
        (.all (materialWrapForDek u.activeDek)) w.files own h := by
    rw [Rotation.disk, World.withMaterial]
    conv_lhs => rw [← hq.material]
    simp only [World.withMaterial, rotation, hq.journal, hq.keyring, hbackup, hh]
  rw [hdisk]
  exact ⟨hq.files.mono fun path n key hn hkey => ⟨.inl hn, hkey⟩, hown⟩

end SovereignVault
