/-
`rotate_key` under I/O failures: what its caller may write afterwards.

The handle survives a failed rotation, so whatever version it is at when
`rotate_key` returns has to be one that later unlocks can open. `Keeps`
says so: the disk is `Durable` for the handle's DEK, or a rotation journal
is pending whose rollback will move the files, or the vault cannot be
unlocked at all.

The rollback edits the keyring before the handle is put back under the
old DEK; an I/O failure in between leaves the handle at a version that the
keyring no longer has. `Backed` is the fault model that leaves this out.
-/
import SovereignVault.RotationCrash

namespace SovereignVault

open Crash Prog Function Storage Rotation Keyring

-- ==== the obligation

def HasVersion (w : World) (version : Nat) : Prop :=
  ∃ kr, w.keyring = some kr ∧ version ∈ kr.entries.map WrappedDek.dekVersion

/-- What `unlock_with_recovery` opens, if it opens the vault, is `dek` at
`version`. -/
def RecoversOnly (w : World) (version : Nat) (dek : MasterKey) : Prop :=
  ∀ kr bundle phrase rec, w.keyring = some kr → w.recovery = some bundle → Recovery.openBundle
    bundle phrase = .ok rec → rec.dekVersion.getD kr.activeDekVersion = kr.activeDekVersion →
      kr.activeDekVersion = version ∧ rec.masterKey = dek

/-- The active DEK of a handle is held on disk: in the keyring and, with
no journal pending, in the recovery bundle. -/
structure HandleBacked (w : World) (h : VaultHandle) : Prop where
  keyring : HasVersion w h.vault.activeVersion
  recovery : w.journal = none → RecoversOnly w h.vault.activeVersion h.vault.activeDek

/-- Any operation may fail, except while the live handle's DEK is not
held on disk. -/
def Backed : Faults World CoreError :=
  fun w _ => ∀ h, w.handle = some h → HandleBacked w h

/-- The writes of a caller through one handle, under any faults: a write
that failed leaves its path unknown. -/
inductive Writes (v : Vault) (w : World) : (BlobPath → Option Bytes) → World → Prop
  | nil : Writes v w (fun _ => none) w
  | wrote {m : BlobPath → Option Bytes} {w' w'' : World} {path : BlobPath}
      {b : Bytes} : Writes v w m w' → Returns Faults.any (writeFile v path b)
      w' (.ok ()) w'' → Writes v w (update m path (some b)) w''
  | failed {m : BlobPath → Option Bytes} {w' w'' : World}
      {path : BlobPath} {b : Bytes} {e : CoreError} : Writes v w m w' → Returns Faults.any
      (writeFile v path b) w' (.error e) w'' → Writes v w (update m path none) w''

inductive UnlockCall where
  | normal (custody : CustodyMode) (pass : Option String)
  | recovery (phrase : Option Mnemonic) (ent : Entropy)

def UnlockCall.prog : UnlockCall → VaultM Unit
  | .normal custody pass => unlock custody pass
  | .recovery phrase ent => unlockWithRecovery phrase ent

/-- What a series of unlock attempts of either kind can leave, under any
faults. -/
inductive Attempts (w : World) : World → Prop
  | refl : Attempts w w
  | attempt {w' w'' : World} (call : UnlockCall) : Attempts w w' →
      Reaches Faults.any call.prog w' w'' → Attempts w w''.crashed

def Serves (m : BlobPath → Option Bytes) (w : World) : Prop :=
  ∃ h, w.handle = some h ∧ ∀ path b, m path = some b →
    (Storage.readFile h.vault path).run w = (.ok b, w)

-- ==== durable DEKs

/-- No journal is pending, every way of opening the vault gives `dek` at
`version`, and the files `m` are sealed under it. -/
structure Durable (version : Nat) (dek : MasterKey)
    (m : BlobPath → Option Bytes) (w : World) : Prop where
  journal : w.journal = none
  loads : ∃ kek u, Loads w kek u ∧ u.keys version = some dek
  recovery : RecoversOnly w version dek
  files : ∀ path b, m path = some b →
    w.files.lookup path = some (sealFile version dek path b)
  placed : Placed m w.containers

section Durable

variable {w w' : World}
  {custody : CustodyMode} {cred : Option String} {kek : MasterKey} {kr : KeyringFile}
  {u : Unwrapped} {c : Content} {S : BlobPath → Nat → Prop} {version : Nat}
  {dek : MasterKey} {m : BlobPath → Option Bytes} {F : Faults World CoreError} {I : World → Prop}

theorem Quiescent.recoversOnly (hq : Quiescent w custody cred kek kr u c S) :
    RecoversOnly w u.activeVersion u.activeDek := by
  intro kr' bundle' phrase' rec' hkr' hbundle' hopen' _
  obtain ⟨bundle, hbundle, phrase, v, hopen, -⟩ := hq.recovery
  obtain rfl : kr = kr' := Option.some.inj (hq.keyring.symm.trans hkr')
  obtain rfl : bundle = bundle' := Option.some.inj (hbundle.symm.trans hbundle')
  obtain rfl := Recovery.openBundle_unique hopen hopen'
  exact ⟨(unwrapKeyring_ok_iff.1 hq.loads).2.symm, rfl⟩

theorem Quiescent.durable (hq : Quiescent w custody cred kek kr u c S)
    (hm : ∀ path b, m path = some b → c.files path = some b ∧ ∀ n, S path n → n = u.activeVersion) :
    Durable u.activeVersion u.activeDek m w where
  journal := hq.journal
  loads := ⟨kek, u, hq.loadOf _, u.active_mem⟩
  recovery := hq.recoversOnly
  files := by
    intro path b hb
    obtain ⟨hfile, hver⟩ := hm path b hb
    obtain ⟨raw, hraw, n, key, hn, hkey, rfl⟩ := hq.files.present path b hfile
    obtain rfl := hver n hn
    obtain rfl : u.activeDek = key := Option.some.inj (u.active_mem.symm.trans hkey)
    exact hraw
  placed := fun path b hb => hq.placed path b (hm path b hb).1

theorem Durable.frame (h : Durable version dek m w)
    (own : Option Credential) (handle : Option VaultHandle) :
    Durable version dek m { w with scopedKek := own, handle := handle } :=
  ⟨h.journal, h.loads, h.recovery, h.files, h.placed⟩

theorem Durable.single (h : Durable version dek m w) (hkr : w.keyring = some kr)
    (hact : kr.activeDekVersion = version) (kek : MasterKey) : Durable version dek m
      ((w.withScoped kek).withKeyring (single kek dek version)) where
  journal := h.journal
  loads := ⟨kek, .single dek version,
    .intro rfl rfl (unwrapKeyring_single ..),
    (Unwrapped.single dek version).active_mem⟩
  recovery := by
    intro kr' bundle phrase rec hkr' hbundle hopen hver
    obtain rfl := Option.some.inj hkr'
    rw [← hact] at hver
    exact ⟨rfl, (h.recovery kr bundle phrase rec hkr hbundle hopen hver).2⟩
  files := h.files
  placed := h.placed

theorem Durable.serves (h : Durable version dek m w) {hd : VaultHandle}
    (hh : w.handle = some hd) (hkey : hd.vault.keys version = some dek) : Serves m w := by
  refine ⟨hd, hh, fun path b hb => ?_⟩
  obtain ⟨hvalid, hc⟩ := h.placed path b hb
  rw [(observes_readFile _ path).run, readOf_ok hvalid hc (h.files path b hb)
      (openFile_sealFile hkey path b)]

theorem Durable.yields_open (h : Durable version dek m w) (recovered asked : CustodyMode)
    (pass : Option String) : Yields F (Durable version dek m) (openNormal recovered asked pass)
      (fun _ w' => Serves m w') w := by
  obtain ⟨kek, u, hl, hkey⟩ := h.loads
  have hinstall {w : World} {as : CustodyMode} (h : Durable version dek m w) :
      Yields F (Durable version dek m) (openAndInstall as u)
        (fun _ w' => Serves m w') w := by
    refine yields_openAndInstall (by rw [h.journal]; trivial) h
      fun v root hopen => ?_
    have h' := h.frame w.scopedKek (some ⟨v, as, root⟩)
    refine ⟨h', h'.serves rfl ?_⟩
    rw [(openedOf_keys hopen).1]
    exact hkey
  refine yields_openNormal h (fun k _ _ => h.frame (some (.key k)) w.handle)
    (fun k u' as hl' => ?_) recovered asked pass
  obtain rfl : u = u' := hl.unique hl'
  exact ⟨hinstall h, hinstall (h.frame (some (.key k)) w.handle)⟩

/-- **Every unlock that succeeds on a durable vault reads the files**, by
the normal credential or by the phrase. -/
theorem Durable.attempt (h : Durable version dek m w) (call : UnlockCall) :
    Yields F (Durable version dek m) call.prog (fun _ w' => Serves m w') w := by
  cases call with
  | normal custody pass =>
    exact yields_unlock_of_journal h.journal h (h.yields_open custody custody pass)
  | recovery phrase ent =>
    refine yields_unlockWithRecovery h ?_
    intro _ kr bundle phrase rec hkr hbundle hopen hver
    obtain ⟨hact, rfl⟩ := h.recovery kr bundle phrase rec hkr hbundle hopen hver
    have hsingle := h.single hkr hact ent.kek
    rw [hact]
    refine yields_openRecovered (by rw [h.journal]; trivial) h
      (fun k _ _ => h.frame (some (.key k)) w.handle) ?_
      (h.frame (some (.key ent.kek)) w.handle) hsingle ?_
    · rintro w' v root hs hopened
      have h' : Durable version rec.masterKey m (w'.withHandle ⟨v, .recovery, root⟩) := by
        obtain rfl | ⟨k, u, -, rfl⟩ := hs
        · exact h.frame _ _
        · exact h.frame _ _
      refine ⟨h', h'.serves rfl ?_⟩
      rw [(openedOf_keys hopened).1]
      exact (Unwrapped.single _ _).active_mem
    · rintro v root hopened
      have h' := hsingle.frame (some (.key ent.kek)) (some ⟨v, .osKeychain, root⟩)
      refine ⟨h', h'.serves rfl ?_⟩
      rw [(openedOf_keys hopened).1]
      exact (Unwrapped.single _ _).active_mem

end Durable

-- ==== kept writes

def Rotation.Carries (r : Rotation) (m : BlobPath → Option Bytes) : Prop :=
  ∀ path b, m path = some b → r.c.files path = some b ∧ ∀ n, r.S path n → n = r.old

/-- What is sealed under `dek` at `version`, the files `m` included, will
be read by every unlock that succeeds. -/
inductive Keeps (version : Nat) (dek : MasterKey) (m : BlobPath → Option Bytes) (w : World) : Prop
  | durable (h : Durable version dek m w)
  | rolled {r : Rotation} {h : Option VaultHandle} (hw : r.Rolled (some r.journal) h w)
      (hversion : version = r.old) (hdek : dek = r.u.activeDek) (hm : r.Carries m)
  | midway {r : Rotation} {h : Option VaultHandle}
      (hw : r.Midway (some r.journal) h w) (hversion : version = r.old ∨ version = r.new)
      (hdek : r.keys version = some dek) (hm : r.Carries m)
  | bricked (h : Bricked w)

namespace Rotation

variable {r : Rotation} {j : Option LifecycleJournal}
  {h : Option VaultHandle} {w : World} {m : BlobPath → Option Bytes} {path : BlobPath} {b : Bytes}

def withFile (r : Rotation) (path : BlobPath) (b : Bytes)
    (hvalid : validatePath path = .ok ()) (hc : path.1 ∈ r.base.containers) : Rotation :=
  { r with
    base := r.base.withFiles (r.base.files.insert path
      (sealFile r.old r.u.activeDek path b))
    c := { r.c with files := update r.c.files path (some b) }
    S := update r.S path (· = r.old)
    quiet :=
      { r.quiet with
        material := by
          conv_rhs => rw [← r.quiet.material]
          rfl
        files := r.quiet.files.write u_keys_old (by rw [update_self])
          fun q n hq hn => by rwa [update_of_ne hq]
        placed := r.quiet.placed.write hvalid hc } }

theorem Carries.forget (hm : r.Carries m) : r.Carries (update m path none) := by
  intro q b' hq
  rw [update_apply] at hq
  split_ifs at hq
  exact hm q b' hq

theorem Carries.withFile (hm : r.Carries m) (hvalid : validatePath path = .ok ())
    (hc : path.1 ∈ r.base.containers) : (r.withFile path b hvalid hc).Carries
      (update m path (some b)) := by
  intro q b' hq
  show update r.c.files path (some b) q = some b'
    ∧ ∀ n, update r.S path (· = r.old) q n → n = r.old
  rw [update_apply] at hq ⊢
  rw [update_apply]
  split_ifs at hq ⊢ with hqp
  · exact ⟨hq, fun n hn => hn⟩
  · exact hm q b' hq

theorem Rolled.write (hw : r.Rolled j h w) (hvalid : validatePath path = .ok ())
    (hc : path.1 ∈ r.base.containers) : (r.withFile path b hvalid hc).Rolled j h (w.withFiles
      (w.files.insert path (sealFile r.old r.u.activeDek path b))) := by
  obtain ⟨hfs, hown⟩ := hw
  refine ⟨hfs.write u_keys_old (.inr rfl) ?_, hown⟩
  rintro q n hq (hn | hn)
  · refine .inl ?_
    show update r.S path (· = r.old) q n
    rwa [update_of_ne hq]
  · exact .inr hn

theorem Midway.write (hw : r.Midway j h w)
    {version : Nat} {dek : MasterKey} (hversion : version = r.old ∨ version = r.new)
    (hdek : r.keys version = some dek) (hvalid : validatePath path = .ok ())
    (hc : path.1 ∈ r.base.containers) : (r.withFile path b hvalid hc).Midway j h (w.withFiles
      (w.files.insert path (sealFile version dek path b))) := by
  obtain ⟨hactive, hbundle, hs, hfs, hown⟩ := hw
  refine ⟨hactive, hbundle, hs, hfs.write hdek ?_ ?_, hown⟩
  · obtain hv | hv := hversion
    · exact .inl (.inr hv)
    · exact .inr hv
  rintro q n hq ((hn | hn) | hn)
  · refine .inl (.inl ?_)
    show update r.S path (· = r.old) q n
    rwa [update_of_ne hq]
  · exact .inl (.inr hn)
  · exact .inr hn

theorem pending_containers (hw : r.Pending j h w) :
    w.containers = r.base.containers := by
  obtain ⟨_, _⟩ | ⟨_, _, _, _, _⟩ := hw
  · rfl
  · rfl

theorem Rolled.durable (hw : r.Rolled none h w) (hm : r.Carries m) :
    Durable r.old r.u.activeDek m w := by
  rw [← activeVersion_eq]
  refine hw.quiescent.durable fun path b hb => ?_
  obtain ⟨hfile, hver⟩ := hm path b hb
  refine ⟨hfile, fun n hn => ?_⟩
  rw [activeVersion_eq]
  obtain hn | hn := hn
  · exact hver n hn
  · exact hn

end Rotation

section Keeps

variable {w w' : World} {version : Nat} {dek : MasterKey} {m : BlobPath → Option Bytes}
  {path : BlobPath} {b : Bytes} {F : Faults World CoreError} {h : Option VaultHandle} {r : Rotation}

theorem Durable.forget (h : Durable version dek m w) :
    Durable version dek (update m path none) w where
  journal := h.journal
  loads := h.loads
  recovery := h.recovery
  files := by
    intro q b' hq
    rw [update_apply] at hq
    split_ifs at hq
    exact h.files q b' hq
  placed := by
    intro q b' hq
    rw [update_apply] at hq
    split_ifs at hq
    exact h.placed q b' hq

theorem Durable.write (h : Durable version dek m w) (hvalid : validatePath path = .ok ())
    (hc : path.1 ∈ w.containers) : Durable version dek (update m path (some b))
      (w.withFiles (w.files.insert path (sealFile version dek path b))) where
  journal := h.journal
  loads := h.loads
  recovery := h.recovery
  files := by
    intro q b' hq
    rw [update_apply] at hq
    split_ifs at hq with hqp
    · subst hqp
      cases hq
      exact AList.lookup_insert _
    · exact (AList.lookup_insert_ne hqp).trans (h.files q b' hq)
  placed := h.placed.write hvalid hc

theorem Keeps.forget (h : Keeps version dek m w) :
    Keeps version dek (update m path none) w := by
  cases h with
  | durable h => exact .durable h.forget
  | rolled hw hv hd hm => exact .rolled hw hv hd hm.forget
  | midway hw hv hd hm => exact .midway hw hv hd hm.forget
  | bricked h => exact .bricked h

theorem Keeps.write (h : Keeps version dek m w) (hvalid : validatePath path = .ok ())
    (hc : path.1 ∈ w.containers) : Keeps version dek (update m path (some b))
      (w.withFiles (w.files.insert path (sealFile version dek path b))) := by
  cases h with
  | durable h => exact .durable (h.write hvalid hc)
  | rolled hw hv hd hm =>
    rw [pending_containers (.inl hw)] at hc
    subst hv
    subst hd
    exact .rolled (hw.write hvalid hc) rfl rfl (hm.withFile hvalid hc)
  | midway hw hv hd hm =>
    rw [pending_containers (.inr hw)] at hc
    exact .midway (hw.write hv hd hvalid hc) hv hd (hm.withFile hvalid hc)
  | bricked h => exact .bricked ⟨h.journal, h.shut⟩

theorem Keeps.wp_writeFile {v : Vault}
    (h : Keeps v.activeVersion v.activeDek m w) : wp F (fun _ => True) (writeFile v path b)
      (fun res w' => match res with
        | .ok () => Keeps v.activeVersion v.activeDek (update m path (some b)) w'
        | .error _ => Keeps v.activeVersion v.activeDek
            (update m path none) w') w := by
  refine Storage.wp_writeFile trivial (fun e => h.forget) fun hvalid hc => ⟨trivial, fun res => ?_⟩
  have hw := h.write (b := b) hvalid hc
  cases res with
  | ok u => exact hw
  | error e =>
    have hf : Keeps v.activeVersion v.activeDek
        (update (update m path (some b)) path none) _ :=
      hw.forget
    rw [update_idem] at hf
    exact hf

theorem Keeps.writes {v : Vault} (h : Keeps v.activeVersion v.activeDek (fun _ => none) w)
    (hw : Writes v w m w') : Keeps v.activeVersion v.activeDek m w' := by
  induction hw with
  | nil => exact h
  | wrote _ hr ih | failed _ hr ih => exact ih.wp_writeFile.returns hr

def Safe (m : BlobPath → Option Bytes) (w : World) : Prop :=
  ∃ version dek, Keeps version dek m w

theorem Safe.crashed (h : Safe m w) : Safe m w.crashed := by
  obtain ⟨version, dek, hk⟩ := h
  refine ⟨version, dek, ?_⟩
  cases hk with
  | durable h => exact .durable (h.frame w.scopedKek none)
  | rolled hw hv hd hm =>
    obtain ⟨hfs, hown⟩ := hw
    exact .rolled ⟨hfs, hown⟩ hv hd hm
  | midway hw hv hd hm =>
    obtain ⟨hactive, hbundle, hs, hfs, hown⟩ := hw
    exact .midway ⟨hactive, hbundle, hs, hfs, hown⟩ hv hd hm
  | bricked h => exact .bricked ⟨h.journal, h.shut⟩

theorem Rotation.safe_of (hm : r.Carries m) (w : World)
    (hw : r.RollingBack (some r.journal) h w) : Safe m w := by
  obtain hr | hmid | ho := hw
  · exact ⟨_, _, .rolled hr rfl rfl hm⟩
  · exact ⟨_, _, .midway hmid (.inl rfl) keys_old hm⟩
  · exact ⟨_, _, .durable (ho.durable hm)⟩

theorem Rotation.yields_pending
    (hw : r.Pending (some r.journal) h w) (hm : r.Carries m)
    (call : UnlockCall) : Yields F (Safe m) call.prog (fun _ w' => Serves m w') w := by
  have hi : Safe m w := safe_of hm w (hw.elim .inl fun h => .inr (.inl h))
  cases call with
  | normal custody pass =>
    simp only [UnlockCall.prog, unlock, bind_eq, yields_bind]
    refine observes_acquireLock.yields hi fun _ _ => ?_
    refine (yields_recover (safe_of hm) hw custody pass).mono ?_
    rintro custody' w' - ⟨rfl, ho⟩
    exact wp_mono ((ho.durable hm).yields_open custody' custody' pass)
      (fun _ h => ⟨_, _, .durable h⟩) fun _ _ _ h => h
  | recovery phrase ent =>
    refine yields_unlockWithRecovery hi fun hallow => ?_
    rw [pending_journal hw] at hallow
    cases hallow

theorem Safe.attempt (h : Safe m w) (call : UnlockCall) :
    Yields F (Safe m) call.prog (fun _ w' => Serves m w') w := by
  obtain ⟨version, dek, hk⟩ := h
  cases hk with
  | durable h => exact wp_mono (h.attempt call) (fun _ h => ⟨_, _, .durable h⟩) fun _ _ _ h => h
  | rolled hw _ _ hm => exact yields_pending (.inl hw) hm call
  | midway hw _ _ hm => exact yields_pending (.inr hw) hm call
  | bricked hb =>
    have hi : Safe m w := ⟨0, dek, .bricked hb⟩
    cases call with
    | normal custody pass => exact hb.attempt hi custody pass
    | recovery phrase ent =>
      refine yields_unlockWithRecovery hi fun hallow => ?_
      obtain ⟨old, new, backup, hj⟩ := hb.journal
      rw [hj] at hallow
      cases hallow

theorem Safe.attempts (h : Safe m w) (ha : Attempts w w') : Safe m w' := by
  induction ha with
  | refl => exact h
  | attempt call _ hr ih => exact ((ih.attempt (F := Faults.any) call).reaches hr).crashed

end Keeps

-- ==== the rotation

/-- What the caller is left with: a handle whose DEK is in the keyring,
and whose writes will be kept. -/
def Sound (w : World) : Prop :=
  ∃ h, w.handle = some h ∧ HasVersion w h.vault.activeVersion
    ∧ Keeps h.vault.activeVersion h.vault.activeDek (fun _ => none) w

namespace Rotation

variable {r : Rotation} {j : Option LifecycleJournal} {h : Option VaultHandle} {w : World}

theorem carries_nothing : r.Carries fun _ => none := by
  intro path b hb
  cases hb

theorem Rolled.hasVersion (hw : r.Rolled j h w) : HasVersion w r.old := by
  obtain ⟨_, _⟩ := hw
  exact ⟨r.kr, rfl, r.quiet.tidy.active_mem⟩

theorem Rolled.not_hasVersion (hw : r.Rolled j h w) : ¬ HasVersion w r.new := by
  obtain ⟨_, _⟩ := hw
  rintro ⟨kr, hkr, hmem⟩
  obtain rfl : r.kr = kr := Option.some.inj hkr
  obtain ⟨e, he, hv⟩ := List.mem_map.1 hmem
  have hle := r.quiet.tidy.le_active e he
  rw [hv, new] at hle
  omega

theorem Midway.hasVersion (hw : r.Midway j h w) : HasVersion w r.old ∧ HasVersion w r.new := by
  obtain ⟨_, _, _, _, _⟩ := hw
  constructor
  · refine ⟨r.both _, rfl, ?_⟩
    rw [both, extended, List.map_append]
    exact List.mem_append_left _ r.quiet.tidy.active_mem
  · refine ⟨r.both _, rfl, ?_⟩
    rw [both, extended, List.map_append]
    exact List.mem_append_right _ (List.mem_singleton.2 rfl)

theorem Rotated.midway (hw : r.Rotated h w) : r.Midway none h w := by
  obtain ⟨hfs, hown⟩ := hw
  refine ⟨.inr rfl, .inr rfl, (Sides.among_left _ _).symm, ?_, hown⟩
  exact hfs.mono fun path n key hn hkey => ⟨.inr hn, hkey⟩

theorem Rolled.sound (hw : r.Rolled j h w) (hj : j = none ∨ j = some r.journal)
    (hh : h = some (handleOf r.u r.c.root r.custody)) : Sound w := by
  have hhandle := pending_handle (.inl hw)
  rw [hh] at hhandle
  refine ⟨_, hhandle, ?_⟩
  simp only [handleOf, vaultOf_activeDek]
  show HasVersion w r.u.activeVersion ∧ Keeps r.u.activeVersion r.u.activeDek _ w
  rw [activeVersion_eq]
  refine ⟨hw.hasVersion, ?_⟩
  obtain rfl | rfl := hj
  · exact .durable (hw.durable carries_nothing)
  · exact .rolled hw rfl rfl carries_nothing

theorem Attached.vault (hh : r.Attached h) :
    ∃ hd, h = some hd ∧ r.keys hd.vault.activeVersion = some hd.vault.activeDek
      ∧ (hd.vault.activeVersion = r.old ∨ hd.vault.activeVersion = r.new) := by
  obtain rfl | rfl := hh
  · refine ⟨_, rfl, ?_, .inl activeVersion_eq⟩
    simp only [handleOf, vaultOf_activeDek]
    show r.keys r.u.activeVersion = some r.u.activeDek
    rw [activeVersion_eq]
    exact keys_old
  · refine ⟨_, rfl, ?_, .inr rfl⟩
    simp only [handleOf, vaultOf_activeDek]
    exact keys_new

theorem Midway.sound (hw : r.Midway j h w) (hj : j = none ∨ j = some r.journal)
    (hh : r.Attached h) (hback : ∀ hd, w.handle = some hd → HandleBacked w hd) : Sound w := by
  obtain ⟨hd, rfl, hdek, hversion⟩ := hh.vault
  have hhandle := pending_handle (.inr hw)
  refine ⟨hd, hhandle, (hback hd hhandle).keyring, ?_⟩
  obtain rfl | rfl := hj
  · have hjournal := pending_journal (.inr hw)
    obtain ⟨hactive, _, _, _, _⟩ := hw
    obtain ⟨u, hu, hkeys⟩ := both_load hactive
    refine .durable
      { journal := hjournal
        loads := ⟨r.kek, u, .intro rfl r.quiet.tidy.schema hu, ?_⟩
        recovery := (hback hd hhandle).recovery hjournal
        files := nofun
        placed := fun _ _ hb => by cases hb }
    rw [hkeys]
    exact hdek
  · exact .midway hw hversion hdek carries_nothing

theorem Rotated.sound (hw : r.Rotated (some (handleOf r.uNew r.c.root r.custody)) w) : Sound w := by
  have hq := hw.quiescent
  refine ⟨_, pending_handle (.inr hw.midway), hw.midway.hasVersion.2, ?_⟩
  have hdurable := hq.durable (m := fun _ => none) nofun
  simp only [handleOf, vaultOf_activeDek]
  exact .durable hdurable

/-- **Where a failure strikes, the caller's handle is sound**, if it is
backed there. -/
theorem sound_of_backed (hj : j = none ∨ j = some r.journal) (hh : r.Attached h)
    (hw : r.RollingBack j h w)
    (hback : ∀ hd, w.handle = some hd → HandleBacked w hd) : Sound w := by
  have hrolled {j : Option LifecycleJournal}
      (hj : j = none ∨ j = some r.journal) (hw : r.Rolled j h w) : Sound w := by
    obtain hold | hnew := hh
    · exact hw.sound hj hold
    · -- the keyring does not have the new version
      have hhandle := pending_handle (.inl hw)
      rw [hnew] at hhandle
      exact absurd (hback _ hhandle).keyring hw.not_hasVersion
  obtain hw | hw | hw := hw
  · exact hrolled hj hw
  · exact hw.sound hj hh hback
  · exact hrolled (.inl rfl) hw

theorem wp_undoRotation (hj : j = none ∨ j = some r.journal) (hh : r.Attached h)
    (hw : r.Pending j h w) (e : CoreError) : wp Backed (fun _ => True)
      (undoRotation (handleOf r.u r.c.root r.custody) r.kek r.old r.new
        r.backup e) (fun _ w' => Sound w') w := by
  simp only [undoRotation, bind_eq, wp_bind, wp_attempt]
  refine wp_mono (succeeds_rollback (fun _ h => h) hw) (fun _ _ => trivial) fun res w' hi hres => ?_
  cases res with
  | error e' =>
    obtain ⟨e', hback⟩ := hres
    exact ⟨trivial, sound_of_backed hj hh hi hback⟩
  | ok a =>
    have ho : r.Rolled none h w' := hres
    have hfail : (∃ e, Backed w' e) → ∀ e : CoreError, Sound w' :=
      fun h _ => h.elim fun _ hback => sound_of_backed hj hh (.inr (.inr ho)) hback
    have hq := ho.quiescent
    simp only [seqPost_ok, wp_bind]
    refine observes_load r.kek _ _ _ w' trivial ?_ hfail
    beta_reduce
    rw [hq.loadOf, seqPost_ok, wp_bind]
    refine observes_openExisting _ _ _ _ _ _ w' trivial ?_ hfail
    obtain ⟨m, hm⟩ := hq.manifest
    have hopen : Storage.openedWith r.u.keys r.u.activeVersion (Storage.deriveManifestAuthKey
          (handleOf r.u r.c.root r.custody).identityRoot) w'.manifest
        = .ok (vaultOf r.u r.c.root) :=
      openedWith_ok (by rw [r.u.active_mem]; rfl) hm
    beta_reduce
    rw [hopen, seqPost_ok, wp_bind]
    simp only [setVault, wp_assigning]
    refine ⟨trivial, trivial, trivial, ?_⟩
    have hback : r.Rolled none (some (handleOf r.u r.c.root r.custody))
        { w' with handle := w'.handle.map fun h =>
          { h with vault := vaultOf r.u r.c.root } } := by
      obtain ⟨hfs, hown⟩ := ho
      obtain rfl | rfl := hh
      · exact ⟨hfs, hown⟩
      · exact ⟨hfs, hown⟩
    exact hback.sound (.inl rfl) rfl

theorem wp_rotateWith_backed (hw : r.Rolled none (some (handleOf r.u r.c.root r.custody)) w) :
    wp Backed (fun _ => True)
      (rotateWith (handleOf r.u r.c.root r.custody) r.kek r.ent) (fun _ w' => Sound w') w := by
  have hsound := hw.sound (.inl rfl) rfl
  have hpend := hw.journalled.sound (.inr rfl) rfl
  refine hw.quiescent.wp_rotateWith hw.recovery rfl trivial
    (fun _ _ => hsound) (fun _ => trivial) (fun _ _ _ => hpend) fun _ => ?_
  have htrans := succeeds_transaction (r := r) (F := Backed)
    (I := fun w => ∃ h, r.Attached h ∧ (r.Rolled (some r.journal) h w
      ∨ r.Midway (some r.journal) h w ∨ r.Rotated h w))
    (fun h w hh hw => ⟨h, hh, hw⟩) hw.journalled
  refine wp_mono htrans (fun _ _ => trivial) fun res w' hi hres => ?_
  cases res with
  | ok phrase => exact ⟨trivial, hres.2.sound⟩
  | error e =>
    obtain ⟨h, hh, hw | hw | hw⟩ := hi
    · exact wp_undoRotation (.inr rfl) hh (.inl hw) e
    · exact wp_undoRotation (.inr rfl) hh (.inr hw) e
    · -- the journal is gone, but its removal was not synced
      exact wp_undoRotation (.inl rfl) hh (.inr hw.midway) e

end Rotation

-- ==== the theorem

section Theorem

variable {w w₁ w₂ w₃ w₄ : World}
  {custody : CustodyMode} {cred : Option String} {kek : MasterKey} {kr : KeyringFile}
  {u : Unwrapped} {c : Content} {S : BlobPath → Nat → Prop} {m : BlobPath → Option Bytes}

theorem Quiescent.sound (hq : Quiescent w custody cred kek kr u c S) {self : VaultHandle}
    (hh : w.handle = some self) (hversion : self.vault.activeVersion = u.activeVersion)
    (hdek : self.vault.activeDek = u.activeDek) : Sound w := by
  refine ⟨self, hh, ?_⟩
  rw [hversion, hdek]
  refine ⟨⟨kr, hq.keyring, ?_⟩, .durable (hq.durable fun _ _ hb => ?_)⟩
  · rw [(unwrapKeyring_ok_iff.1 hq.loads).2]
    exact hq.tidy.active_mem
  · cases hb

theorem Quiescent.wp_rotateWith_foreign_backed {kek' : MasterKey}
    (hq : Quiescent w custody cred kek kr u c S) (hne : kek ≠ kek')
    (hh : w.handle = some (handleOf u c.root custody)) (ent : Entropy) :
    wp Backed (fun _ => True) (rotateWith (handleOf u c.root custody) kek' ent)
      (fun _ w' => Sound w') w := by
  obtain ⟨bundle, hbundle, -⟩ := hq.recovery
  have hsound := hq.sound hh rfl (vaultOf_activeDek u c.root)
  refine hq.wp_rotateWith_foreign hne hbundle rfl trivial
    (fun _ _ => hsound) (fun _ => trivial) (fun hb _ _ => ?_) ?_
  · have hrolled := hq.rolled hbundle hb ent hh hq.normal
    exact hrolled.journalled.sound (.inr rfl) rfl
  rintro - wb hbricked ⟨kr', rfl, hmem⟩
  refine ⟨trivial, fun _ => ⟨_, hh, ⟨kr', rfl, ?_⟩, .bricked hbricked⟩⟩
  obtain ⟨e, he, hv⟩ := List.mem_map.1 hq.tidy.active_mem
  refine List.mem_map.2 ⟨e, hmem e he, hv.trans ?_⟩
  exact (unwrapKeyring_ok_iff.1 hq.loads).2.symm

theorem Quiescent.wp_rotateWith_own_backed (hq : Quiescent w custody cred kek kr u c S)
    (hh : w.handle = some (handleOf u c.root custody)) (ent : Entropy) {own : Option Credential}
    (hown : Normal { w with scopedKek := own } custody cred kek) :
    wp Backed (fun _ => True) (rotateWith (handleOf u c.root custody) kek ent)
      (fun _ w' => Sound w') { w with scopedKek := own } := by
  obtain ⟨bundle, hbundle, -⟩ := hq.recovery
  by_cases hb : kr.activeDekVersion + 1 < 2 ^ 32
  · exact wp_rotateWith_backed (r := hq.rotation hbundle hb ent) (hq.rolled hbundle hb ent hh hown)
  have hq' : Quiescent { w with scopedKek := own } custody cred kek kr u c
      S :=
    { hq.toWhole.frame w.journal w.salt w.staged w.audit own w.handle with
      journal := hq.journal, normal := hown }
  have hsound := hq'.sound hh rfl (vaultOf_activeDek u c.root)
  exact hq'.wp_rotateWith hbundle rfl trivial (fun _ _ => hsound)
    (fun h => absurd h hb) (fun h => absurd h hb) fun h => absurd h hb

/-- **`rotate_key` leaves a sound handle behind**, whether it returns a
phrase or an error, if no operation failed while the handle's DEK was not
held on disk. -/
theorem Quiescent.wp_rotateKey_backed (hq : Quiescent w custody cred kek kr u c S)
    (hh : w.handle = some (handleOf u c.root custody)) (pass : Option String)
    (ent : Entropy) : wp Backed (fun _ => True) (rotateKey (handleOf u c.root custody) pass ent)
      (fun _ w' => Sound w') w := by
  have hsound := hq.sound hh rfl (vaultOf_activeDek u c.root)
  have hscoped := hq.withScoped.sound hh rfl (vaultOf_activeDek u c.root)
  simp only [rotateKey, bind_eq, wp_bind]
  have hkek : Yields Backed Sound (rotateKek custody pass) (fun k w' => wp Backed (fun _ => True)
        (rotateWith (handleOf u c.root custody) k ent) (fun _ w' => Sound w') w') w := by
    refine hq.yields_rotateKek hsound hscoped ?_ ?_
    · intro x salt hc _ hsalt
      by_cases hk : kek = .fromPassphrase x salt
      · rw [← hk]
        exact hq.wp_rotateWith_own_backed hh ent hq.normal
      · exact hq.wp_rotateWith_foreign_backed hk hh ent
    · intro _
      exact ⟨hq.wp_rotateWith_own_backed hh ent hq.normal,
        hq.wp_rotateWith_own_backed hh ent hq.normal.withScoped⟩
  refine wp_mono hkek (fun _ _ => trivial) fun res w' hs hres => ?_
  cases res with
  | ok k => exact hres
  | error e => exact hs

/-- **After `rotate_key`, what the caller writes is not lost**, if no
operation of `rotate_key` fails while the live handle's DEK is not held on
disk: however it returns, the handle's DEK version is in the keyring, and
what is then written is read back after any later unlock that succeeds,
failed and interrupted attempts in between included. -/
theorem rotateKey_then_writes_survive
    {self h : VaultHandle} {pass : Option String} {ent : Entropy} {res : Except CoreError Mnemonic}
    {call : UnlockCall} (hq : Quiescent w custody cred kek kr u c S)
    (hh : w.handle = some self) (hself : self = handleOf u c.root custody ∨ self.custody = .recovery
        ∧ self.vault.activeVersion = u.activeVersion
        ∧ self.vault.activeDek = u.activeDek)
    (hrotate : Returns Backed (rotateKey self pass ent) w res w₁) (hh₁ : w₁.handle = some h) :
    HasVersion w₁ h.vault.activeVersion ∧ (Writes h.vault w₁ m w₂ → Attempts w₂.crashed w₃ →
        Returns Faults.any call.prog w₃ (.ok ()) w₄ → Serves m w₄) := by
  have hsound : Sound w₁ := by
    obtain rfl | ⟨hrec, hversion, hdek⟩ := hself
    · exact (hq.wp_rotateKey_backed hh pass ent).returns hrotate
    -- a recovery session cannot rotate
    have hwp : wp Backed (fun _ => True) (rotateKey self pass ent) (fun _ w' => Sound w') w := by
      simp only [rotateKey, rotateKek, hrec]
      exact ⟨trivial, hq.sound hh hversion hdek⟩
    exact hwp.returns hrotate
  obtain ⟨h', hh', hstored, hkeeps⟩ := hsound
  obtain rfl : h = h' := Option.some.inj (hh₁.symm.trans hh')
  refine ⟨hstored, fun hwrites hattempts hunlock => ?_⟩
  have hsafe : Safe m w₃ := Safe.attempts (Safe.crashed ⟨_, _, hkeeps.writes hwrites⟩) hattempts
  exact (hsafe.attempt call).returns hunlock

end Theorem

namespace Sample

def late : BlobPath := ("docs", "late.txt")

def rotatedHandle : VaultHandle :=
  handleOf (unwrapped.addActive 2 entropy.dek) root .passphrase

def rotated : World :=
  ((rotateKey handle (some pass) entropy).run Sample.stored).2

def written (w : World) : World :=
  ((writeFile rotatedHandle.vault late [9]).run w).2.crashed

def reopened (w : World) : World :=
  ((unlock .passphrase (some pass)).run (written w)).2

/-- Two I/O failures: of the read of the identity, after the handle has
moved to the new DEK, and of the journal's removal at the end of the
rollback. -/
def faults : List (Option CoreError) :=
  (List.range 60).map fun n =>
    if n = 24 ∨ n = 59 then some (.io "input/output error") else none

def torn : World :=
  ((rotateKey handle (some pass) entropy).exec faults Sample.stored).2

end Sample

open Sample

theorem rotateKey_then_writes_survive_stored : HasVersion rotated 2
      ∧ Serves (update (fun _ => none) late (some [9])) (reopened rotated) := by
  have hrotate := run_returns Backed (rotateKey handle (some pass) entropy) Sample.stored
  have hwrite : Returns Faults.any (writeFile rotatedHandle.vault late [9])
      rotated (.ok ()) _ := run_returns Faults.any _ _
  have hunlock : Returns Faults.any (UnlockCall.normal .passphrase (some pass)).prog
      (written rotated) (.ok ()) _ := run_returns Faults.any _ _
  obtain ⟨hstored, hserves⟩ := rotateKey_then_writes_survive
    quiescent_stored rfl (.inl rfl) hrotate (show rotated.handle = some rotatedHandle from rfl)
  exact ⟨hstored, hserves (.wrote .nil hwrite) .refl hunlock⟩

/-- Two failures lose a file: they leave the handle at a version the
keyring does not have; the write through it and the next unlock succeed,
and the file cannot be read. -/
theorem rotateKey_two_failures_lose_write :
        Returns Faults.any (rotateKey handle (some pass) entropy) Sample.stored (.error (.misuse
          "rotation failed; rollback also failed; unlock normal custody to resume recovery")) torn
      ∧ torn.handle = some rotatedHandle
      ∧ ¬ HasVersion torn 2
      ∧ ((writeFile rotatedHandle.vault late [9]).run torn).1 = .ok ()
      ∧ ((unlock .passphrase (some pass)).run (written torn)).1 = .ok ()
      ∧ ∃ h, (reopened torn).handle = some h
        ∧ ((Storage.readFile h.vault late).run (reopened torn)).1 = .error (.storage (.state
              "no key available for key_version 2")) := by
  have hrun := exec_returns (rotateKey handle (some pass) entropy) faults Sample.stored
  refine ⟨hrun, rfl, ?_, rfl, rfl, _, rfl, rfl⟩
  rintro ⟨kr, hkr, hmem⟩
  obtain rfl : keyring = kr := Option.some.inj hkr
  simp [keyring, single] at hmem

end SovereignVault
