/-
`sv-core/src/keyring.rs`: the root-key/data-key hierarchy.

A custody method yields a KEK; the KEK wraps the versioned DEKs held in
`keyring.svault`. Loading unwraps EVERY entry at or above the minimum
decryption version and fails on the first that does not open, so a
keyring with one foreign entry opens under no key at all.
-/
import Mathlib.Algebra.Ring.Nat
import SovereignVault.State

namespace SovereignVault

open Crash List Function Prog

namespace Keyring

variable {path : String} {kr : KeyringFile} {kek : MasterKey}

def KEYRING_FILE : String := "keyring.svault"

def STAGED_KEYRING_FILE : String := ".keyring.svault.next"

def KEYRING_AAD : String := "sv-keyring-v1"

def KEYRING_SCHEMA : Nat := 1

/-- The unwrapped contents of a keyring. The active version is one of
the keys. -/
structure Unwrapped where
  keys : KeyMap
  activeVersion : Nat
  activeDek : MasterKey
  active_mem : keys activeVersion = some activeDek

def wrap (kek dek : MasterKey) : Sealed MasterKey :=
  aeadSeal kek dek KEYRING_AAD

def unwrap (kek : MasterKey) (wrapped : Sealed MasterKey) : Except CoreError MasterKey :=
  (aeadOpen kek wrapped KEYRING_AAD).mapError .crypto

def readKeyringFile (select : World → Option KeyringFile) (path : String) : VaultM KeyringFile := do
  let kr ← readRequired select (.misuse s!"keyring does not exist: {path}")
  if kr.version ≠ KEYRING_SCHEMA then
    throw (.misuse s!"unsupported keyring schema: {kr.version}")
  else
    pure kr

def readKeyring : VaultM KeyringFile :=
  readKeyringFile World.keyring KEYRING_FILE

def writeKeyring (kr : KeyringFile) : VaultM Unit :=
  writeAtomic fun w => { w with keyring := some kr }

def writeStagedKeyring (kr : KeyringFile) : VaultM Unit :=
  writeAtomic fun w => { w with staged := some kr }

def single (kek dek : MasterKey) (version : Nat) : KeyringFile where
  version := KEYRING_SCHEMA
  activeDekVersion := version
  minDecryptionVersion := version
  entries := [⟨version, wrap kek dek⟩]

def create (kek dek : MasterKey) : VaultM Unit :=
  writeKeyring (single kek dek 1)

def replaceWithSingleActiveDek (kek : MasterKey) (activeVersion : Nat)
    (dek : MasterKey) : VaultM Unit :=
  if activeVersion = 0 then
    throw (.misuse "keyring active version must be greater than zero")
  else
    writeKeyring (single kek dek activeVersion)

/-- The loop of `unwrap_keyring`: entries below the minimum are
skipped, a later entry of a version replaces an earlier one. -/
def unwrapEntries (kek : MasterKey) (min : Nat) : List WrappedDek → KeyMap → Except CoreError KeyMap
  | [], keys => .ok keys
  | e :: es, keys =>
    if e.dekVersion < min then
      unwrapEntries kek min es keys
    else
      match unwrap kek e.wrapped with
      | .ok dek => unwrapEntries kek min es (update keys e.dekVersion (some dek))
      | .error err => .error err

def unwrapKeyring (kr : KeyringFile) (kek : MasterKey) : Except CoreError Unwrapped :=
  match unwrapEntries kek kr.minDecryptionVersion kr.entries
      (fun _ => none) with
  | .error err => .error err
  | .ok keys =>
    match h : keys kr.activeDekVersion with
    | some dek => .ok ⟨keys, kr.activeDekVersion, dek, h⟩
    | none => .error
        (.misuse "keyring active version is not decryptable with this key")

def load (kek : MasterKey) : VaultM Unwrapped := do
  let kr ← readKeyring
  .ret (unwrapKeyring kr kek)

def loadStaged (kek : MasterKey) : VaultM Unwrapped := do
  let kr ← readKeyringFile World.staged STAGED_KEYRING_FILE
  .ret (unwrapKeyring kr kek)

def activeVersion : VaultM Nat := do
  let kr ← readKeyring
  pure kr.activeDekVersion

/-- The loop of `stage_rewrap_under_new_kek`: every entry, whatever its
version, moves from one KEK to the other. -/
def rewrapEntries (oldKek newKek : MasterKey) : List WrappedDek → Except CoreError (List WrappedDek)
  | [] => .ok []
  | e :: es =>
    match unwrap oldKek e.wrapped with
    | .error err => .error err
    | .ok dek =>
      match rewrapEntries oldKek newKek es with
      | .error err => .error err
      | .ok es' => .ok (⟨e.dekVersion, wrap newKek dek⟩ :: es')

def stageRewrapUnderNewKek (oldKek newKek : MasterKey) : VaultM Unit := do
  let kr ← readKeyring
  let entries ← ret (rewrapEntries oldKek newKek kr.entries)
  writeStagedKeyring { kr with entries := entries }

def commitStaged : VaultM Unit := do
  let _ ← readRequired World.staged
    (.misuse s!"staged keyring does not exist: {STAGED_KEYRING_FILE}")
  writeAtomic fun w => { w with keyring := w.staged, staged := none }

def discardStaged : VaultM Unit :=
  removeFileDurable (fun w => w.staged.isSome) fun w => { w with staged := none }

/-- `add_active_dek`'s version: one above the highest entry, in `u32`. -/
def nextVersion (kr : KeyringFile) : Nat :=
  ((kr.entries.map WrappedDek.dekVersion).max?.getD 0 + 1) % 2 ^ 32

def withActiveDek (kr : KeyringFile) (kek newDek : MasterKey) : KeyringFile :=
  { kr with
    activeDekVersion := nextVersion kr
    entries := kr.entries ++ [⟨nextVersion kr, wrap kek newDek⟩] }

/-- `add_active_dek`: append `newDek` and make it active. The KEK is
not checked against the entries already there. -/
def addActiveDek (kek newDek : MasterKey) : VaultM Nat := do
  let kr ← readKeyring
  writeKeyring (withActiveDek kr kek newDek)
  pure (nextVersion kr)

def setActiveVersion (version : Nat) : VaultM Unit := do
  let kr ← readKeyring
  if kr.entries.any fun e => e.dekVersion = version then
    writeKeyring { kr with activeDekVersion := version }
  else
    throw (.misuse s!"keyring has no DEK version {version}")

def withoutVersion (kr : KeyringFile) (version : Nat) : KeyringFile :=
  let entries := kr.entries.filter fun e => e.dekVersion ≠ version
  { kr with
    entries := entries
    minDecryptionVersion := (entries.map WrappedDek.dekVersion).min?.getD 1 }

def removeVersion (version : Nat) : VaultM Unit := do
  let kr ← readKeyring
  if kr.activeDekVersion = version then
    throw (.misuse "cannot remove the active DEK version")
  else
    writeKeyring (withoutVersion kr version)

-- ==== what loads

section Unwrapping

variable {kek kek' : MasterKey} {min : Nat} {es : List WrappedDek}
  {keys m : KeyMap} {kr : KeyringFile} {u : Unwrapped} {dek : MasterKey} {es' : List WrappedDek}

@[simp] theorem unwrap_wrap (kek dek : MasterKey) : unwrap kek (wrap kek dek) = .ok dek := by
  simp [unwrap, wrap, Except.mapError]

theorem unwrap_ok_iff {wrapped : Sealed MasterKey} :
    unwrap kek wrapped = .ok dek ↔ wrapped = wrap kek dek := by
  rw [unwrap, wrap, ← aeadOpen_ok_iff]
  cases aeadOpen kek wrapped KEYRING_AAD <;> simp [Except.mapError]

theorem unwrap_wrap_ne (hne : kek ≠ kek') (dek : MasterKey) :
    ∃ e, unwrap kek' (wrap kek dek) = .error e := by
  rw [unwrap, wrap, aeadOpen_seal_ne hne]
  exact ⟨_, rfl⟩

theorem unwrapEntries_some (h : unwrapEntries kek min es keys = .ok m)
    {v : Nat} (hv : m v = some dek) : keys v = some dek ∨ ∃ e ∈ es, e.dekVersion = v ∧ min ≤ v
      ∧ e.wrapped = wrap kek dek := by
  induction es generalizing keys with
  | nil =>
    simp only [unwrapEntries, Except.ok.injEq] at h
    exact .inl (h ▸ hv)
  | cons e es ih =>
    rw [unwrapEntries] at h
    split at h
    · obtain hk | ⟨e', he', hrest⟩ := ih h
      · exact .inl hk
      · exact .inr ⟨e', mem_cons_of_mem _ he', hrest⟩
    next hmin =>
    split at h
    · next d hd =>
      obtain hk | ⟨e', he', hrest⟩ := ih h
      · by_cases hev : v = e.dekVersion
        · subst hev
          rw [update_self, Option.some.injEq] at hk
          refine .inr ⟨e, mem_cons_self, rfl, by omega, ?_⟩
          exact unwrap_ok_iff.1 (hk ▸ hd)
        · exact .inl (by rwa [update_of_ne hev] at hk)
      · exact .inr ⟨e', mem_cons_of_mem _ he', hrest⟩
    · cases h

theorem unwrapEntries_foreign
    {e : WrappedDek} (he : e ∈ es) (hmin : min ≤ e.dekVersion) (hw : e.wrapped = wrap kek dek)
    (hne : kek ≠ kek') : ∃ err, unwrapEntries kek' min es keys = .error err := by
  induction es generalizing keys with
  | nil => cases he
  | cons a es ih =>
    rw [unwrapEntries]
    obtain rfl | he := mem_cons.1 he
    · obtain ⟨err, herr⟩ := unwrap_wrap_ne hne dek
      rw [if_neg (by omega), hw, herr]
      exact ⟨err, rfl⟩
    split
    · exact ih he
    · split
      · exact ih he
      · exact ⟨_, rfl⟩

theorem unwrapKeyring_ok_iff : unwrapKeyring kr kek = .ok u ↔
      unwrapEntries kek kr.minDecryptionVersion kr.entries (fun _ => none) = .ok u.keys
        ∧ u.activeVersion = kr.activeDekVersion := by
  obtain ⟨ks, av, dek, hmem⟩ := u
  rw [unwrapKeyring]
  cases unwrapEntries kek kr.minDecryptionVersion kr.entries
      (fun _ => none) with
  | error err => simp
  | ok m =>
    simp only [Except.ok.injEq]
    split
    · next d hd =>
      simp only [Except.ok.injEq, Unwrapped.mk.injEq]
      constructor
      · rintro ⟨rfl, rfl, -⟩
        exact ⟨rfl, rfl⟩
      · rintro ⟨rfl, rfl⟩
        exact ⟨rfl, rfl, Option.some.inj (hd.symm.trans hmem)⟩
    · next hnone =>
      constructor
      · intro h
        cases h
      · rintro ⟨rfl, rfl⟩
        exact absurd hmem (by rw [hnone]; simp)

theorem unwrapKeyring_active (h : unwrapKeyring kr kek = .ok u) :
    ∃ e ∈ kr.entries, e.dekVersion = kr.activeDekVersion ∧ kr.minDecryptionVersion ≤ e.dekVersion
      ∧ e.wrapped = wrap kek u.activeDek := by
  obtain ⟨hu, hact⟩ := unwrapKeyring_ok_iff.1 h
  obtain hk | ⟨e, he, hv, hmin, hw⟩ := unwrapEntries_some hu u.active_mem
  · cases hk
  · exact ⟨e, he, hv.trans hact, hv ▸ hmin, hw⟩

theorem unwrapKeyring_other (h : unwrapKeyring kr kek = .ok u)
    (hne : kek ≠ kek') : ∃ err, unwrapKeyring kr kek' = .error err := by
  obtain ⟨e, he, -, hmin, hw⟩ := unwrapKeyring_active h
  obtain ⟨err, herr⟩ := unwrapEntries_foreign he hmin hw hne
  exact ⟨err, by rw [unwrapKeyring, herr]⟩

theorem unwrapEntries_rewrap (h : rewrapEntries kek kek' es = .ok es') :
    unwrapEntries kek' min es' keys = unwrapEntries kek min es keys := by
  induction es generalizing es' keys with
  | nil =>
    simp only [rewrapEntries, Except.ok.injEq] at h
    subst h
    rfl
  | cons e es ih =>
    rw [rewrapEntries] at h
    split at h
    · cases h
    next dek hdek =>
    split at h
    · cases h
    · next rest hrest =>
      simp only [Except.ok.injEq] at h
      subst h
      simp only [unwrapEntries, unwrap_wrap, hdek, ih hrest]

theorem unwrapKeyring_rewrap (h : unwrapKeyring kr kek = .ok u)
    (hes : rewrapEntries kek kek' kr.entries = .ok es') :
    unwrapKeyring { kr with entries := es' } kek' = .ok u := by
  obtain ⟨hu, hact⟩ := unwrapKeyring_ok_iff.1 h
  exact unwrapKeyring_ok_iff.2 ⟨(unwrapEntries_rewrap hes).trans hu, hact⟩

def Unwrapped.single (dek : MasterKey) (version : Nat) : Unwrapped where
  keys := update (fun _ => none) version (some dek)
  activeVersion := version
  activeDek := dek
  active_mem := update_self ..

@[simp] theorem unwrapKeyring_single (kek dek : MasterKey) (version : Nat) :
    unwrapKeyring (single kek dek version) kek
      = .ok (Unwrapped.single dek version) :=
  unwrapKeyring_ok_iff.2 ⟨by simp [single, unwrapEntries, Unwrapped.single], rfl⟩

end Unwrapping

-- ==== what loading reads

def parsed (path : String) : Option KeyringFile → Except CoreError KeyringFile
  | none => .error (.misuse s!"keyring does not exist: {path}")
  | some kr =>
    if kr.version ≠ KEYRING_SCHEMA then
      .error (.misuse s!"unsupported keyring schema: {kr.version}")
    else
      .ok kr

theorem eq_of_parsed {kr' : KeyringFile} (h : parsed path (some kr) = .ok kr') : kr = kr' := by
  rw [parsed] at h
  split at h
  · cases h
  · exact Except.ok.inj h

def loadOf (path : String) (kek : MasterKey) (file : Option KeyringFile) :
    Except CoreError Unwrapped :=
  (parsed path file).bind fun kr => unwrapKeyring kr kek

theorem observes_readKeyringFile (select : World → Option KeyringFile)
    (path : String) : Observes (readKeyringFile select path)
      fun w => parsed path (select w) := by
  have h := observes_bind
    (observes_readRequired select (.misuse s!"keyring does not exist: {path}"))
    (h := fun kr _ => if kr.version ≠ KEYRING_SCHEMA then
        .error (.misuse s!"unsupported keyring schema: {kr.version}")
      else .ok kr)
    (k := fun kr => if kr.version ≠ KEYRING_SCHEMA then
        throw (.misuse s!"unsupported keyring schema: {kr.version}")
      else pure kr)
    (by
      intro kr
      split
      · exact observes_ret _
      · exact observes_ret _)
  refine h.congr fun w => ?_
  cases hs : select w with
  | none | some kr => simp [parsed, Except.bind]

theorem observes_load (kek : MasterKey) :
    Observes (load kek) fun w => loadOf KEYRING_FILE kek w.keyring :=
  observes_bind (observes_readKeyringFile _ _) fun _ => observes_ret _

theorem observes_loadStaged (kek : MasterKey) : Observes (loadStaged kek)
      fun w => loadOf STAGED_KEYRING_FILE kek w.staged :=
  observes_bind (observes_readKeyringFile _ _) fun _ => observes_ret _

theorem loadOf_some (hv : kr.version = KEYRING_SCHEMA) :
    loadOf path kek (some kr) = unwrapKeyring kr kek := by
  simp [loadOf, parsed, hv, Except.bind]

variable {u : Unwrapped}

theorem loadOf_other {kek' : MasterKey} {file : Option KeyringFile}
    (h : loadOf path kek file = .ok u) (hne : kek ≠ kek') :
    ∃ err, loadOf path kek' file = .error err := by
  rw [loadOf] at h ⊢
  cases hp : parsed path file with
  | error e => exact ⟨e, rfl⟩
  | ok kr =>
    rw [hp] at h
    exact unwrapKeyring_other h hne

theorem parsed_of_loadOf (h : loadOf path kek (some kr) = .ok u) :
    parsed path (some kr) = .ok kr := by
  simp only [loadOf, parsed] at h ⊢
  split at h
  · cases h
  · next hv => rw [if_neg hv]

theorem loadOf_rewrap {path' : String} {kek' : MasterKey}
    {es' : List WrappedDek} (h : loadOf path kek (some kr) = .ok u)
    (hes : rewrapEntries kek kek' kr.entries = .ok es') :
    loadOf path' kek' (some { kr with entries := es' }) = .ok u := by
  simp only [loadOf, parsed] at h ⊢
  split at h
  · cases h
  · next hv =>
    rw [if_neg hv]
    exact unwrapKeyring_rewrap h hes

-- ==== editing a keyring

/-- A keyring as the operations leave it. -/
structure Tidy (kr : KeyringFile) : Prop where
  schema : kr.version = KEYRING_SCHEMA
  nodup : (kr.entries.map WrappedDek.dekVersion).Nodup
  active_mem : kr.activeDekVersion ∈ kr.entries.map WrappedDek.dekVersion
  le_active : ∀ e ∈ kr.entries, e.dekVersion ≤ kr.activeDekVersion
  min_eq : kr.minDecryptionVersion = (kr.entries.map WrappedDek.dekVersion).min?.getD 1

section Editing

variable {kr : KeyringFile} {kek kek' dek : MasterKey} {u : Unwrapped}

theorem Tidy.single (kek dek : MasterKey) (version : Nat) : Tidy (single kek dek version) where
  schema := rfl
  nodup := by simp [Keyring.single]
  active_mem := by simp [Keyring.single]
  le_active := by simp [Keyring.single]
  min_eq := by simp [Keyring.single]

theorem Tidy.min_le (h : Tidy kr) {e : WrappedDek} (he : e ∈ kr.entries) :
    kr.minDecryptionVersion ≤ e.dekVersion := by
  have hmem : e.dekVersion ∈ kr.entries.map WrappedDek.dekVersion := mem_map_of_mem he
  rw [h.min_eq]
  cases hmin : (kr.entries.map WrappedDek.dekVersion).min? with
  | none =>
    rw [min?_eq_none_iff.1 hmin] at hmem
    cases hmem
  | some a => exact (min?_eq_some_iff.1 hmin).2 _ hmem

theorem Tidy.min_le_active (h : Tidy kr) : kr.minDecryptionVersion ≤ kr.activeDekVersion := by
  obtain ⟨e, he, hev⟩ := mem_map.1 h.active_mem
  exact hev ▸ h.min_le he

theorem Tidy.nextVersion (h : Tidy kr) (hb : kr.activeDekVersion + 1 < 2 ^ 32) :
    nextVersion kr = kr.activeDekVersion + 1 := by
  have hmax : (kr.entries.map WrappedDek.dekVersion).max? = some kr.activeDekVersion := by
    rw [max?_eq_some_iff]
    refine ⟨h.active_mem, fun n hn => ?_⟩
    obtain ⟨e, he, rfl⟩ := mem_map.1 hn
    exact h.le_active e he
  rw [Keyring.nextVersion, hmax, Option.getD_some, Nat.mod_eq_of_lt hb]

theorem unwrapEntries_append
    {min : Nat} (es es' : List WrappedDek) (keys : KeyMap) : unwrapEntries kek min (es ++ es') keys
      = (unwrapEntries kek min es keys).bind fun m => unwrapEntries kek min es' m := by
  induction es generalizing keys with
  | nil => rfl
  | cons e es ih =>
    rw [cons_append, unwrapEntries, unwrapEntries]
    split
    · exact ih keys
    · cases unwrap kek e.wrapped with
      | ok d => exact ih _
      | error err => rfl

theorem Tidy.keys_next (h : Tidy kr) (hu : unwrapKeyring kr kek = .ok u) :
    u.keys (kr.activeDekVersion + 1) = none := by
  cases hk : u.keys (kr.activeDekVersion + 1) with
  | none => rfl
  | some d =>
    obtain hn | ⟨e, he, hev, -⟩ := unwrapEntries_some (unwrapKeyring_ok_iff.1 hu).1 hk
    · cases hn
    · have := h.le_active e he
      omega

def Unwrapped.add (u : Unwrapped) (version : Nat) (dek : MasterKey)
    (hne : u.activeVersion ≠ version) : Unwrapped where
  keys := update u.keys version (some dek)
  activeVersion := u.activeVersion
  activeDek := u.activeDek
  active_mem := by rw [update_of_ne hne, u.active_mem]

def Unwrapped.addActive (u : Unwrapped) (version : Nat) (dek : MasterKey) : Unwrapped where
  keys := update u.keys version (some dek)
  activeVersion := version
  activeDek := dek
  active_mem := update_self ..

def extended (kr : KeyringFile) (kek dek : MasterKey) (version : Nat) : KeyringFile :=
  { kr with
    activeDekVersion := version
    entries := kr.entries ++ [⟨kr.activeDekVersion + 1, wrap kek dek⟩] }

theorem Tidy.withActiveDek
    (h : Tidy kr) (hb : kr.activeDekVersion + 1 < 2 ^ 32) : withActiveDek kr kek dek
      = extended kr kek dek (kr.activeDekVersion + 1) := by
  rw [Keyring.withActiveDek, h.nextVersion hb, extended]

theorem Tidy.extended (h : Tidy kr) : Tidy (extended kr kek dek (kr.activeDekVersion + 1)) := by
  have hle : ∀ n ∈ kr.entries.map WrappedDek.dekVersion, n ≤ kr.activeDekVersion := by
    intro n hn
    obtain ⟨e, he, rfl⟩ := mem_map.1 hn
    exact h.le_active e he
  constructor
  · exact h.schema
  · simp only [Keyring.extended, map_append, map_cons, map_nil]
    refine nodup_append.2 ⟨h.nodup, by simp, ?_⟩
    intro n hn k hk hnk
    have := hle n hn
    rw [mem_singleton] at hk
    omega
  · simp [Keyring.extended]
  · intro e he
    obtain he | he := mem_append.1 he
    · exact Nat.le_succ_of_le (h.le_active e he)
    · rw [mem_singleton] at he
      simp [he, Keyring.extended]
  · have hmin := h.min_eq
    simp only [Keyring.extended, map_append, map_cons, map_nil]
    cases hm : (kr.entries.map WrappedDek.dekVersion).min? with
    | none =>
      rw [min?_eq_none_iff.1 hm] at hle
      have hact := h.active_mem
      rw [min?_eq_none_iff.1 hm] at hact
      cases hact
    | some a =>
      have ha := min?_eq_some_iff.1 hm
      have hnew : (kr.entries.map WrappedDek.dekVersion
          ++ [kr.activeDekVersion + 1]).min? = some a := by
        rw [min?_eq_some_iff]
        refine ⟨mem_append_left _ ha.1, fun n hn => ?_⟩
        obtain hn | hn := mem_append.1 hn
        · exact ha.2 n hn
        · have := hle a ha.1
          rw [mem_singleton] at hn
          omega
      rw [hnew, hmin, hm]

theorem unwrapEntries_extended (h : Tidy kr) (hu : unwrapKeyring kr kek = .ok u)
    (version : Nat) : unwrapEntries kek (extended kr kek dek version).minDecryptionVersion
        (extended kr kek dek version).entries (fun _ => none)
      = .ok (update u.keys (kr.activeDekVersion + 1) (some dek)) := by
  have hmin := h.min_le_active
  simp only [extended, unwrapEntries_append,
    (unwrapKeyring_ok_iff.1 hu).1, Except.bind, unwrapEntries, unwrap_wrap]
  rw [if_neg (by omega)]

theorem unwrapKeyring_extended_new (h : Tidy kr) (hu : unwrapKeyring kr kek = .ok u) :
    unwrapKeyring (extended kr kek dek (kr.activeDekVersion + 1)) kek
      = .ok (u.addActive (kr.activeDekVersion + 1) dek) :=
  unwrapKeyring_ok_iff.2 ⟨unwrapEntries_extended h hu _, rfl⟩

theorem Unwrapped.active_ne (hu : unwrapKeyring kr kek = .ok u) :
    u.activeVersion ≠ kr.activeDekVersion + 1 := by
  rw [(unwrapKeyring_ok_iff.1 hu).2]
  omega

theorem unwrapKeyring_extended_old (h : Tidy kr) (hu : unwrapKeyring kr kek = .ok u) :
    unwrapKeyring (extended kr kek dek kr.activeDekVersion) kek
      = .ok (u.add (kr.activeDekVersion + 1) dek (Unwrapped.active_ne hu)) :=
  unwrapKeyring_ok_iff.2 ⟨unwrapEntries_extended h hu _, (unwrapKeyring_ok_iff.1 hu).2⟩

/-- A DEK added under another KEK: from then on no key opens the
keyring. -/
theorem unwrapKeyring_extended_foreign
    (h : Tidy kr) (hu : unwrapKeyring kr kek = .ok u) (hne : kek ≠ kek') (version : Nat)
    (k : MasterKey) : ∃ err, unwrapKeyring (extended kr kek' dek version) k = .error err := by
  have hmin := h.min_le_active
  have hstop : ∃ err, unwrapEntries k kr.minDecryptionVersion
      (extended kr kek' dek version).entries (fun _ => none) = .error err := by
    by_cases hk : kek = k
    · -- the right KEK stops at the new entry
      subst hk
      exact unwrapEntries_foreign
        (e := ⟨kr.activeDekVersion + 1, wrap kek' dek⟩)
        (by simp [extended]) (by simp only; omega) rfl hne.symm
    · -- every other one at the active entry
      obtain ⟨e, he, -, hmine, hw⟩ := unwrapKeyring_active hu
      exact unwrapEntries_foreign (mem_append_left _ he) hmine hw hk
  obtain ⟨err, herr⟩ := hstop
  refine ⟨err, ?_⟩
  rw [unwrapKeyring]
  show (match unwrapEntries k kr.minDecryptionVersion
    (extended kr kek' dek version).entries (fun _ => none) with
      | .error err => _ | .ok keys => _) = _
  rw [herr]

theorem Tidy.withoutVersion_next (h : Tidy kr) :
    withoutVersion kr (kr.activeDekVersion + 1) = kr := by
  have hfilter : (kr.entries.filter fun e =>
      decide (e.dekVersion ≠ kr.activeDekVersion + 1)) = kr.entries := by
    rw [filter_eq_self]
    intro e he
    have := h.le_active e he
    simp only [ne_eq, decide_eq_true_eq]
    omega
  simp only [withoutVersion, hfilter, ← h.min_eq]

theorem Tidy.withoutVersion_extended (h : Tidy kr) :
    withoutVersion (Keyring.extended kr kek dek kr.activeDekVersion)
      (kr.activeDekVersion + 1) = kr := by
  have hprev := h.withoutVersion_next
  simp only [withoutVersion] at hprev
  simp only [withoutVersion, Keyring.extended, filter_append]
  simpa using hprev

end Editing

section EditingSpecs

open Prog

variable {F : Faults World CoreError} {I : World → Prop} {w : World}
  {kr : KeyringFile} {P : Unit → World → Prop} {version : Nat}

theorem parsed_of_schema {path : String} (h : kr.version = KEYRING_SCHEMA) :
    parsed path (some kr) = .ok kr := by
  simp [parsed, h]

theorem succeeds_readKeyring {P : KeyringFile → World → Prop} (hkr : w.keyring = some kr)
    (hv : kr.version = KEYRING_SCHEMA) (hi : I w) (hp : P kr w) : Succeeds F I readKeyring P w :=
  (observes_readKeyringFile _ _).succeeds hi (by rw [hkr, parsed_of_schema hv]) hp

variable (kr) in
theorem succeeds_load {P : Unwrapped → World → Prop}
    {kek : MasterKey} {u : Unwrapped} (hkr : w.keyring = some kr) (hv : kr.version = KEYRING_SCHEMA)
    (hu : unwrapKeyring kr kek = .ok u) (hi : I w) (hp : P u w) : Succeeds F I (load kek) P w :=
  (observes_load kek).succeeds hi (by rw [hkr, loadOf_some hv, hu]) hp

variable (kr) in
theorem succeeds_activeVersion
    {P : Nat → World → Prop} (hkr : w.keyring = some kr) (hv : kr.version = KEYRING_SCHEMA)
    (hi : I w) (hp : P kr.activeDekVersion w) : Succeeds F I activeVersion P w := by
  rw [activeVersion, bind_eq, succeeds_bind]
  exact succeeds_readKeyring hkr hv hi (succeeds_ret hi hp)

theorem succeeds_addActiveDek {P : Nat → World → Prop} {kek dek : MasterKey}
    (h : Tidy kr) (hb : kr.activeDekVersion + 1 < 2 ^ 32) (hkr : w.keyring = some kr)
    (hi : I w) (hi' : I (w.withKeyring (extended kr kek dek (kr.activeDekVersion + 1))))
    (hp : P (kr.activeDekVersion + 1) (w.withKeyring
      (extended kr kek dek (kr.activeDekVersion + 1)))) :
    Succeeds F I (addActiveDek kek dek) P w := by
  simp only [addActiveDek, bind_eq, succeeds_bind]
  refine succeeds_readKeyring hkr h.schema hi ?_
  rw [h.withActiveDek hb, h.nextVersion hb]
  exact succeeds_writeAtomic hi hi' (succeeds_ret hi' hp)

variable (kr) in
theorem succeeds_setActiveVersion (hv : kr.version = KEYRING_SCHEMA)
    (hmem : version ∈ kr.entries.map WrappedDek.dekVersion) (hkr : w.keyring = some kr) (hi : I w)
    (hi' : I (w.withKeyring { kr with activeDekVersion := version }))
    (hp : P () (w.withKeyring { kr with activeDekVersion := version })) :
    Succeeds F I (setActiveVersion version) P w := by
  have hany : (kr.entries.any fun e =>
      decide (e.dekVersion = version)) = true := by
    obtain ⟨e, he, hev⟩ := mem_map.1 hmem
    exact any_eq_true.2 ⟨e, he, by simp [hev]⟩
  simp only [setActiveVersion, bind_eq, succeeds_bind]
  refine succeeds_readKeyring hkr hv hi ?_
  rw [if_pos hany]
  exact succeeds_writeAtomic hi hi' hp

variable (kr) in
theorem succeeds_removeVersion (hv : kr.version = KEYRING_SCHEMA)
    (hne : kr.activeDekVersion ≠ version) (hkr : w.keyring = some kr) (hi : I w)
    (hi' : I (w.withKeyring (withoutVersion kr version)))
    (hp : P () (w.withKeyring (withoutVersion kr version))) :
    Succeeds F I (removeVersion version) P w := by
  simp only [removeVersion, bind_eq, succeeds_bind]
  refine succeeds_readKeyring hkr hv hi ?_
  rw [if_neg hne]
  exact succeeds_writeAtomic hi hi' hp

end EditingSpecs

end Keyring

end SovereignVault
