/-
Moving a vault's secrets from one DEK to another, and what stays the
same while it happens.

`Content` is what a vault is for: the plaintext of every file, the
identity root, the material of the three stores. `FilesIn` and
`Material.sealedUnder` say under which keys; the re-sealing loops change
the keys and never the content.

A loop that was stopped leaves files under different versions, and may be
resumed in either direction. So no loop here assumes a uniform start:
`FilesIn K S` allows each file any version in `S`, and a store may be
under either of the two wrap keys.
-/
import SovereignVault.Lifecycle

namespace SovereignVault

open Crash Prog List AList Storage Transit Function Option

structure Material (μ β : Type) where
  schema : Nat
  entries : List (μ × β)

structure Content where
  root : MasterKey
  files : BlobPath → Option Bytes
  transit : Option (Material TransitKeyInfo Bytes)
  signing : Option (Material SigningKeyInfo Bytes)
  brokers : Option (Material BrokerSecretInfo String)

-- ==== files

/-- The plaintext of one file, sealed under some version of `S` that `K`
has a key for. -/
def SealedIn (K : KeyMap) (S : Nat → Prop) (path : BlobPath)
    (plaintext : Bytes) (raw : RawFile) : Prop :=
  ∃ version key, S version ∧ K version = some key
    ∧ raw = sealFile version key path plaintext

def AllAt (version : Nat) : BlobPath → Nat → Prop :=
  fun _ n => n = version

/-- The blobs on disk are exactly `files`, each sealed under some version
`S` allows it. -/
structure FilesIn (K : KeyMap) (S : BlobPath → Nat → Prop) (files : BlobPath → Option Bytes)
    (fs : AList fun _ : BlobPath => RawFile) : Prop where
  present : ∀ path plaintext, files path = some plaintext →
    ∃ raw, fs.lookup path = some raw ∧ SealedIn K (S path) path plaintext raw
  absent : ∀ path, files path = none → fs.lookup path = none

/-- Every file has valid names and lies in a container that exists. -/
def Placed (files : BlobPath → Option Bytes) (containers : List String) : Prop :=
  ∀ path plaintext, files path = some plaintext →
    validatePath path = .ok () ∧ path.1 ∈ containers

section Files

variable {K K' : KeyMap} {S S' : BlobPath → Nat → Prop}
  {files : BlobPath → Option Bytes} {fs : AList fun _ : BlobPath => RawFile}
  {v : Vault} {path : BlobPath} {plaintext : Bytes} {raw : RawFile} {key : MasterKey}

theorem FilesIn.mono (h : FilesIn K S files fs) (hS : ∀ path n key, S path n → K n = some key →
      S' path n ∧ K' n = some key) : FilesIn K' S' files fs := by
  constructor
  · intro path plaintext hfile
    obtain ⟨raw, hraw, n, key, hn, hkey, rfl⟩ := h.present _ _ hfile
    obtain ⟨hn', hkey'⟩ := hS path n key hn hkey
    exact ⟨_, hraw, n, key, hn', hkey', rfl⟩
  · exact h.absent

theorem SealedIn.openFile {T : Nat → Prop}
    (h : SealedIn v.keys T path plaintext raw) : openFile v path raw = .ok plaintext := by
  obtain ⟨n, key, -, hkey, rfl⟩ := h
  exact openFile_sealFile hkey path plaintext

theorem FilesIn.isSome (h : FilesIn K S files fs)
    (hl : (fs.lookup path).isSome) : ∃ b, files path = some b := by
  cases hf : files path with
  | none =>
    rw [h.absent path hf] at hl
    cases hl
  | some b => exact ⟨b, rfl⟩

theorem FilesIn.write (h : FilesIn K S files fs)
    {n : Nat} (hkey : K n = some key) (hn : S' path n) (hS : ∀ q k, q ≠ path → S q k → S' q k) :
    FilesIn K S' (update files path (some plaintext))
      (fs.insert path (sealFile n key path plaintext)) := by
  constructor
  · intro q b hq
    rw [update_apply] at hq
    split_ifs at hq with hqp
    · subst hqp
      cases hq
      exact ⟨_, lookup_insert _, n, key, hn, hkey, rfl⟩
    · obtain ⟨raw, hraw, k, key', hk, hkey', rfl⟩ := h.present q b hq
      rw [lookup_insert_ne hqp]
      exact ⟨_, hraw, k, key', hS q k hqp hk, hkey', rfl⟩
  · intro q hq
    rw [update_apply] at hq
    split_ifs at hq with hqp
    rw [lookup_insert_ne hqp]
    exact h.absent q hq

theorem FilesIn.insert (h : FilesIn K S files fs) (hf : files path = some plaintext)
    {n : Nat} (hn : S path n) (hkey : K n = some key) : FilesIn K S files
      (fs.insert path (sealFile n key path plaintext)) := by
  have hsame : update files path (some plaintext) = files :=
    update_eq_self_iff.2 hf.symm
  exact hsame ▸ h.write hkey hn fun _ _ _ hS => hS

theorem Placed.write {containers : List String} (h : Placed files containers)
    (hvalid : validatePath path = .ok ()) (hc : path.1 ∈ containers) :
    Placed (update files path (some plaintext)) containers := by
  intro q b hq
  by_cases hqp : q = path
  · subst hqp
    exact ⟨hvalid, hc⟩
  · rw [update_of_ne hqp] at hq
    exact h q b hq

end Files

section RewrapFiles

variable {F : Faults World CoreError} {I : World → Prop} {v : Vault}
  {S : BlobPath → Nat → Prop} {files : BlobPath → Option Bytes} {w : World}
  {m : Manifest} {fs : AList fun _ : BlobPath => RawFile}

def AtActive (v : Vault) (files : BlobPath → Option Bytes)
    (fs : AList fun _ : BlobPath => RawFile) (path : BlobPath) : Prop :=
  ∀ plaintext, files path = some plaintext → fs.lookup path
    = some (sealFile v.activeVersion v.activeDek path plaintext)

theorem activeDek_mem (v : Vault) : v.keys v.activeVersion = some v.activeDek := by
  simp [Vault.activeDek]

theorem filesIn_of_atActive (h : FilesIn v.keys S files fs)
    (hall : ∀ path, AtActive v files fs path) :
    FilesIn v.keys (AllAt v.activeVersion) files fs := by
  constructor
  · intro path plaintext hf
    exact ⟨_, hall path plaintext hf, _, _, rfl, activeDek_mem v, rfl⟩
  · exact h.absent

theorem succeeds_rewrapFile
    (hplaced : Placed files w.containers) (hact : ∀ path, S path v.activeVersion)
    (hinv : ∀ fs, FilesIn v.keys S files fs → I (w.withFiles fs))
    (hfs : FilesIn v.keys S files fs) {path : BlobPath}
    {b : Bytes} (hb : files path = some b) : Succeeds F I (rewrapFile v path)
      (fun _ w' => ∃ fs', w' = w.withFiles fs'
        ∧ FilesIn v.keys S files fs' ∧ AtActive v files fs' path
        ∧ ∀ q, AtActive v files fs q → AtActive v files fs' q) (w.withFiles fs) := by
  obtain ⟨hvalid, hcont⟩ := hplaced path b hb
  obtain ⟨raw, hraw, n, key, hn, hkey, rfl⟩ := hfs.present path b hb
  have hi := hinv fs hfs
  simp only [rewrapFile, hvalid, bind_eq, bind_ret_ok, succeeds_bind]
  refine (observes_readRequired _ _).succeeds hi
    (a := sealFile n key path b)
    (by simp only [World.withFiles, hraw]) ?_
  by_cases hver : n = v.activeVersion
  · -- already under the active DEK: nothing is written
    subst hver
    obtain rfl : key = v.activeDek := some.inj (hkey.symm.trans (activeDek_mem v))
    have hat : atVersion v.activeVersion
        (sealFile v.activeVersion v.activeDek path b) = true := by
      simp [atVersion, sealFile]
    rw [if_pos hat]
    refine succeeds_ret hi ⟨fs, rfl, hfs, ?_, fun q hq => hq⟩
    intro b' hb'
    obtain rfl : b = b' := some.inj (hb.symm.trans hb')
    exact hraw
  · have hat : ¬ atVersion v.activeVersion
        (sealFile n key path b) = true := by
      simpa [atVersion, sealFile] using hver
    have hfs' := hfs.insert hb (hact path) (activeDek_mem v)
    rw [if_neg hat, succeeds_bind]
    refine (observes_readFile v path).succeeds hi (readOf_ok hvalid hcont hraw
        (openFile_sealFile hkey path b)) ?_
    rw [succeeds_bind]
    refine succeeds_writeFile hvalid hcont hi (hinv _ hfs')
      (succeeds_ret (hinv _ hfs') ⟨_, rfl, hfs', ?_, ?_⟩)
    · intro b' hb'
      obtain rfl : b = b' := some.inj (hb.symm.trans hb')
      exact lookup_insert _
    intro q hq b' hb'
    by_cases hqp : q = path
    · subst hqp
      obtain rfl : b = b' := some.inj (hb.symm.trans hb')
      exact lookup_insert _
    · simp only [World.withFiles, lookup_insert_ne hqp]
      exact hq b' hb'

theorem succeeds_rewrapContainer (hplaced : Placed files w.containers)
    (hact : ∀ path, S path v.activeVersion)
    (hinv : ∀ fs, FilesIn v.keys S files fs → I (w.withFiles fs)) {c : String}
    {l : List FileInfo} (hfs : FilesIn v.keys S files fs)
    (hl : ∀ f ∈ l, ∃ b, files (c, f.name) = some b) :
    Succeeds F I (forEach (fun f : FileInfo => do
        let _ ← rewrapFile v (c, f.name)
        pure ()) l)
      (fun _ w' => ∃ fs', w' = w.withFiles fs' ∧ FilesIn v.keys S files fs'
        ∧ (∀ name ∈ l.map FileInfo.name, AtActive v files fs' (c, name))
        ∧ ∀ q, AtActive v files fs q → AtActive v files fs' q)
      (w.withFiles fs) := by
  induction l generalizing fs with
  | nil => exact succeeds_ret (hinv fs hfs) ⟨fs, rfl, hfs, by simp, fun q hq => hq⟩
  | cons f l ih =>
    obtain ⟨b, hb⟩ := hl f mem_cons_self
    rw [forEach, bind_eq, bind_eq, succeeds_bind, succeeds_bind]
    refine (succeeds_rewrapFile hplaced hact hinv hfs hb).mono ?_
    rintro _ _ hi ⟨fs₁, rfl, hfs₁, hat, hkeep⟩
    refine succeeds_ret hi ?_
    refine (ih hfs₁ fun g hg => hl g (mem_cons_of_mem _ hg)).mono ?_
    rintro _ _ - ⟨fs₂, rfl, hfs₂, hall, hkeep₂⟩
    refine ⟨fs₂, rfl, hfs₂, ?_, fun q hq => hkeep₂ q (hkeep q hq)⟩
    intro name hname
    obtain rfl | hname := mem_cons.1 hname
    · exact hkeep₂ _ hat
    · exact hall name hname

theorem succeeds_rewrapContainers (hplaced : Placed files w.containers)
    (hm : verifiedManifest v.manifestAuthKey w.manifest = .ok m)
    (hact : ∀ path, S path v.activeVersion)
    (hinv : ∀ fs, FilesIn v.keys S files fs → I (w.withFiles fs)) {l : List ContainerInfo}
    (hfs : FilesIn v.keys S files fs) (hl : ∀ c ∈ l, validateContainerName c.name = .ok ()
      ∧ c.name ∈ w.containers) : Succeeds F I (forEach (fun c : ContainerInfo => do
        let infos ← listFiles v c.name
        forEach (fun f : FileInfo => do
          let _ ← rewrapFile v (c.name, f.name)
          pure ()) infos) l)
      (fun _ w' => ∃ fs', w' = w.withFiles fs' ∧ FilesIn v.keys S files fs'
        ∧ (∀ path, path.1 ∈ l.map ContainerInfo.name → AtActive v files fs' path)
        ∧ ∀ q, AtActive v files fs q → AtActive v files fs' q)
      (w.withFiles fs) := by
  induction l generalizing fs with
  | nil => exact succeeds_ret (hinv fs hfs) ⟨fs, rfl, hfs, by simp, fun q hq => hq⟩
  | cons c l ih =>
    obtain ⟨hvalid, hcont⟩ := hl c mem_cons_self
    rw [forEach, bind_eq, bind_eq, succeeds_bind, succeeds_bind]
    refine succeeds_listFiles hvalid hcont hm (hinv fs hfs) ?_
    intro infos hinfos
    have hmem : ∀ f ∈ infos, ∃ b, files (c.name, f.name) = some b :=
      fun f hf => hfs.isSome ((hinfos f.name).1 (mem_map_of_mem hf))
    refine (succeeds_rewrapContainer hplaced hact hinv hfs hmem).mono ?_
    rintro _ _ - ⟨fs₁, rfl, hfs₁, hall₁, hkeep₁⟩
    refine (ih hfs₁ fun d hd => hl d (mem_cons_of_mem _ hd)).mono ?_
    rintro _ _ - ⟨fs₂, rfl, hfs₂, hall₂, hkeep₂⟩
    refine ⟨fs₂, rfl, hfs₂, ?_, fun q hq => hkeep₂ q (hkeep₁ q hq)⟩
    rintro ⟨cname, name⟩ hpath
    obtain rfl | hpath := mem_cons.1 hpath
    · refine hkeep₂ _ ?_
      -- a file the listing does not name is not there at all
      intro b hb
      obtain ⟨raw, hraw, -⟩ := hfs.present _ _ hb
      refine hall₁ name ((hinfos name).2 ?_) b hb
      show (fs.lookup (c.name, name)).isSome
      rw [hraw]
      rfl
    · exact hall₂ _ hpath

/-- **`rewrap_all_files` ends with every file under the active DEK.** It
may start from any mixture of versions the handle has keys for. -/
theorem succeeds_rewrapAllFiles (hplaced : Placed files w.containers)
    (hm : verifiedManifest v.manifestAuthKey w.manifest = .ok m)
    (hact : ∀ path, S path v.activeVersion)
    (hinv : ∀ fs, FilesIn v.keys S files fs → I (w.withFiles fs)) (hfs : FilesIn v.keys S files fs)
    : Succeeds F I (rewrapAllFiles v) (fun _ w' => ∃ fs', w' = w.withFiles fs'
        ∧ FilesIn v.keys (AllAt v.activeVersion) files fs') (w.withFiles fs) := by
  rw [rewrapAllFiles, bind_eq, succeeds_bind]
  refine succeeds_listContainers hm (hinv fs hfs) ?_
  intro infos hinfos
  have hl : ∀ c ∈ infos, validateContainerName c.name = .ok ()
      ∧ c.name ∈ w.containers := by
    intro c hc
    obtain ⟨hcont, hvalid⟩ := (hinfos c.name).1 (mem_map_of_mem hc)
    exact ⟨validateContainerName_ok.2 hvalid, hcont⟩
  refine (succeeds_rewrapContainers hplaced hm hact hinv hfs hl).mono ?_
  rintro _ _ - ⟨fs', rfl, hfs', hall, -⟩
  refine ⟨fs', rfl, filesIn_of_atActive hfs' ?_⟩
  intro path b hb
  obtain ⟨hvalid, hcont⟩ := hplaced path b hb
  refine hall path ((hinfos path.1).2 ⟨hcont, ?_⟩) b hb
  exact validateContainerName_ok.1 (validateContainerName_of_path hvalid)

end RewrapFiles

-- ==== identity, stores

def Material.sealedUnder {μ β : Type} (m : Material μ β)
    (wrap : MasterKey) (aad : String) : MaterialFile μ β where
  schema := m.schema
  entries := m.entries.map fun e => ⟨e.1, aeadSeal wrap e.2 aad⟩

structure Sides where
  identity : MasterKey
  transit : MasterKey
  signing : MasterKey
  brokers : MasterKey

def Sides.all (k : MasterKey) : Sides := ⟨k, k, k, k⟩

structure Sides.Among (s : Sides) (a b : MasterKey) : Prop where
  identity : s.identity = a ∨ s.identity = b
  transit : s.transit = a ∨ s.transit = b
  signing : s.signing = a ∨ s.signing = b
  brokers : s.brokers = a ∨ s.brokers = b

theorem Sides.among_left (a b : MasterKey) : (Sides.all a).Among a b :=
  ⟨.inl rfl, .inl rfl, .inl rfl, .inl rfl⟩

theorem Sides.Among.symm {s : Sides} {a b : MasterKey} (h : s.Among a b) : s.Among b a :=
  ⟨h.identity.symm, h.transit.symm, h.signing.symm, h.brokers.symm⟩

def World.withMaterial (w : World) (c : Content) (s : Sides) : World :=
  { w with
    identity := some (authenticatedIdentity s.identity c.root)
    transit := c.transit.map fun m => m.sealedUnder s.transit TRANSIT_AAD
    signing := c.signing.map fun m => m.sealedUnder s.signing SIGNING_AAD
    brokers := c.brokers.map fun m => m.sealedUnder s.brokers BROKER_AAD }

section RewrapMaterial

variable {F : Faults World CoreError} {I : World → Prop}
  {P : Unit → World → Prop} {μ β : Type} {k old new : MasterKey} {payload : IdentityPayload}
  {schema : Nat} {aad : String} {w : World} {c : Content} {K : MasterKey → Prop}

theorem reseal_seal (hk : k = old ∨ k = new) (aad : String) (b : β) :
    reseal old new aad (aeadSeal k b aad)
      = .ok (aeadSeal new b aad) := by
  obtain rfl | rfl := hk
  · simp [reseal]
  · by_cases hne : k = old
    · subst hne
      simp [reseal]
    · simp [reseal, aeadOpen_seal_ne hne]

def Opens (K : MasterKey → Prop) (aad : String) (e : μ × β) (entry : MaterialEntry μ β) : Prop :=
  entry.info = e.1 ∧ ∃ k, K k ∧ aeadOpen k entry.wrapped aad = .ok e.2

structure Material.In (m : Material μ β) (K : MasterKey → Prop)
    (aad : String) (file : MaterialFile μ β) : Prop where
  schema : file.schema = m.schema
  entries : List.Forall₂ (Opens K aad) m.entries file.entries

theorem Material.sealedUnder_in (m : Material μ β) (hk : K k) (aad : String) :
    m.In K aad (m.sealedUnder k aad) where
  schema := rfl
  entries := by
    refine forall₂_map_right_iff.2 (forall₂_same.2 fun e _ => ?_)
    exact ⟨rfl, k, hk, aeadOpen_seal _ _ _⟩

theorem rel_sealedUnder (hk : K k) (aad : String) (c : Option (Material μ β)) :
    Rel (fun m => m.In K aad) c (c.map fun m => m.sealedUnder k aad) := by
  cases c with
  | none => exact .none
  | some m => exact .some (m.sealedUnder_in hk aad)

theorem resealEntries_opens {es : List (μ × β)} {entries : List (MaterialEntry μ β)}
    (h : List.Forall₂ (Opens (fun k => k = old ∨ k = new) aad) es entries) :
    resealEntries old new aad entries
      = .ok (es.map fun e => ⟨e.1, aeadSeal new e.2 aad⟩) := by
  induction h with
  | nil => rfl
  | @cons e entry es entries hopens _ ih =>
    obtain ⟨hinfo, k, hk, hopen⟩ := hopens
    have hreseal : reseal old new aad entry.wrapped = .ok (aeadSeal new e.2 aad) := by
      rw [aeadOpen_ok_iff.1 hopen]
      exact reseal_seal hk aad e.2
    simp only [resealEntries, hreseal, ih, hinfo, map_cons]

theorem succeeds_rewrapStore {store : Store μ β} {c : Option (Material μ β)}
    {w' : World} (hsel : Rel (fun m => m.In (fun k => k = old ∨ k = new) store.aad)
      c (store.select w))
    (hput : ∀ m, c = some m → store.write (m.sealedUnder new store.aad) w = w')
    (hsame : (store.select w = c.map fun m => m.sealedUnder new store.aad) →
      w = w') (hi : I w) (hi' : I w') (hp : P () w') :
    Succeeds F I (rewrapStore store old new) P w := by
  simp only [rewrapStore, readJson, bind_eq, succeeds_bind]
  refine observes_get.succeeds hi rfl (succeeds_ret hi ?_)
  generalize hfile : store.select w = found at hsel hsame
  cases hsel with
  | none =>
    obtain rfl := hsame rfl
    simp only [getD_none, isEmpty_nil, if_true]
    exact succeeds_ret hi hp
  | @some m file hin =>
    obtain ⟨schema, entries⟩ := file
    obtain rfl : schema = m.schema := hin.schema
    simp only [getD_some]
    by_cases hempty : entries.isEmpty = true
    · obtain rfl := isEmpty_iff.1 hempty
      have hm : m.entries = [] := forall₂_nil_right_iff.1 hin.entries
      obtain rfl := hsame (by simp [Material.sealedUnder, hm])
      rw [if_pos hempty]
      exact succeeds_ret hi hp
    · have hw := hput m rfl
      rw [if_neg hempty, resealEntries_opens hin.entries, bind_ret_ok]
      refine succeeds_writeAtomic hi ?_ ?_
      · exact hw ▸ hi'
      · exact hw ▸ hp

theorem succeeds_rewrapIdentity {w' : World} {wrapped : Sealed IdentityPayload}
    (haad : identityAad schema = .ok aad) (hk : k = old ∨ k = new)
    (hsel : w.identity = some ⟨schema, wrapped⟩)
    (hopen : aeadOpen k wrapped aad = .ok payload) (hput : { w with
      identity := some ⟨schema, aeadSeal new payload aad⟩ } = w') (hi : I w)
    (hi' : I w') (hp : P () w') :
    Succeeds F I (rewrapIdentity old new) P w := by
  subst hput
  simp only [rewrapIdentity, bind_eq, succeeds_bind]
  refine (observes_readRequired _ _).succeeds hi (a := ⟨schema, wrapped⟩) (by rw [hsel]) ?_
  rw [haad]
  refine succeeds_ret hi ?_
  rw [aeadOpen_ok_iff.1 hopen, reseal_seal hk]
  exact succeeds_ret hi (succeeds_writeAtomic hi hi' hp)

/-- The identity and the material of a world open under the keys, to what
the content says. -/
structure World.Holds (w : World) (K : MasterKey → Prop) (schema : Nat)
    (payload : IdentityPayload) (c : Content) : Prop where
  identity : ∃ aad wrapped k, identityAad schema = .ok aad
    ∧ w.identity = some ⟨schema, wrapped⟩ ∧ K k
    ∧ aeadOpen k wrapped aad = .ok payload
  transit : Rel (fun m => m.In K TRANSIT_AAD) c.transit w.transit
  signing : Rel (fun m => m.In K SIGNING_AAD) c.signing w.signing
  brokers : Rel (fun m => m.In K BROKER_AAD) c.brokers w.brokers

/-- The world with the first `n` of the four under one key. -/
def World.moved (w : World) (new : MasterKey) (identity : IdentityFile)
    (c : Content) (n : Nat) : World :=
  { w with
    identity := if 0 < n then some identity else w.identity
    transit := if 1 < n then c.transit.map fun m =>
      m.sealedUnder new TRANSIT_AAD else w.transit
    signing := if 2 < n then c.signing.map fun m =>
      m.sealedUnder new SIGNING_AAD else w.signing
    brokers := if 3 < n then c.brokers.map fun m =>
      m.sealedUnder new BROKER_AAD else w.brokers }

/-- **`rewrap_all_material` ends with all material under the new wrap
key.** Every entry may start under either of the two. -/
theorem World.Holds.succeeds_rewrap (h : w.Holds (fun k => k = old ∨ k = new) schema payload c)
    (haad : identityAad schema = .ok aad)
    (hinv : ∀ n ≤ 4, I (w.moved new ⟨schema, aeadSeal new payload aad⟩ c n)) :
    Succeeds F I (rewrapAllMaterial old new) (fun _ w' =>
      w' = w.moved new ⟨schema, aeadSeal new payload aad⟩ c 4) w := by
  obtain ⟨_, wrapped, k, haad', hsel, hk, hopen⟩ := h.identity
  cases haad.symm.trans haad'
  simp only [rewrapAllMaterial, bind_eq, succeeds_bind]
  refine succeeds_rewrapIdentity haad hk hsel hopen rfl (hinv 0 (by omega))
    (hinv 1 (by omega)) ?_
  refine succeeds_rewrapStore (c := c.transit) h.transit ?_ ?_
    (hinv 1 (by omega)) (hinv 2 (by omega)) ?_
  · intro m hm
    simp [transitStore, World.moved, hm]
  · intro hsame
    simpa [transitStore, World.moved] using hsame
  refine succeeds_rewrapStore (c := c.signing) h.signing ?_ ?_
    (hinv 2 (by omega)) (hinv 3 (by omega)) ?_
  · intro m hm
    simp [signingStore, World.moved, hm]
  · intro hsame
    simpa [signingStore, World.moved] using hsame
  refine succeeds_rewrapStore (c := c.brokers) h.brokers ?_ ?_
    (hinv 3 (by omega)) (hinv 4 (by omega)) rfl
  · intro m hm
    simp [brokerStore, World.moved, hm]
  · intro hsame
    simpa [brokerStore, World.moved] using hsame

theorem succeeds_rewrapAllMaterial {s : Sides} (hs : s.Among old new)
    (hinv : ∀ s : Sides, s.Among old new → I (w.withMaterial c s)) :
    Succeeds F I (rewrapAllMaterial old new) (fun _ w' => w' = w.withMaterial c (.all new))
      (w.withMaterial c s) := by
  have hnew : new = old ∨ new = new := .inr rfl
  have hholds : (w.withMaterial c s).Holds (fun k => k = old ∨ k = new)
      IDENTITY_SCHEMA_V2 (.v2 c.root true) c :=
    ⟨⟨_, _, _, rfl, rfl, hs.identity, aeadOpen_seal _ _ _⟩, rel_sealedUnder
      hs.transit _ _, rel_sealedUnder hs.signing _ _, rel_sealedUnder hs.brokers _ _⟩
  refine hholds.succeeds_rewrap rfl fun n hn => ?_
  match n, hn with
  | 0, _ => exact hinv s hs
  | 1, _ => exact hinv { s with identity := new } ⟨hnew, hs.transit, hs.signing, hs.brokers⟩
  | 2, _ =>
    exact hinv { s with identity := new, transit := new } ⟨hnew, hnew, hs.signing, hs.brokers⟩
  | 3, _ =>
    exact hinv { s with identity := new, transit := new, signing := new }
      ⟨hnew, hnew, hnew, hs.brokers⟩
  | 4, _ => exact hinv (.all new) ⟨hnew, hnew, hnew, hnew⟩

theorem World.Holds.rewrapped (h : w.Holds (fun k => k = old ∨ k = new) schema payload c) :
    ∃ w', (rewrapAllMaterial old new).run w = (.ok (), w')
      ∧ ∀ K : MasterKey → Prop, K new → w'.Holds K schema payload c := by
  obtain ⟨aad, -, -, haad, -⟩ := h.identity
  have hsucceeds := h.succeeds_rewrap (F := .none) (I := fun _ => True) haad fun _ _ => trivial
  obtain ⟨hok, hmoved⟩ := (hsucceeds.wp_none (Q := fun r w' =>
    r = .ok () ∧ w' = w.moved new _ c 4) fun _ _ _ heq => ⟨rfl, heq⟩).run
  refine ⟨_, Prod.ext hok hmoved, fun K hnew => ?_⟩
  exact ⟨⟨_, _, _, haad, rfl, hnew, aeadOpen_seal _ _ _⟩,
    rel_sealedUnder hnew _ _, rel_sealedUnder hnew _ _, rel_sealedUnder hnew _ _⟩

/-- **Moving the material can be resumed, in both directions.** -/
theorem rewrap_resumable {w : World} {schema : Nat} {payload : IdentityPayload}
    {c : Content} (h : w.Holds (fun k => k = old ∨ k = new) schema payload c) :
    ∃ w₁, (rewrapAllMaterial old new).run w = (.ok (), w₁)
      ∧ w₁.Holds (· = new) schema payload c
      ∧ (∃ w₂, (rewrapAllMaterial old new).run w₁ = (.ok (), w₂)
        ∧ w₂.Holds (· = new) schema payload c)
      ∧ ∃ w₃, (rewrapAllMaterial new old).run w₁ = (.ok (), w₃)
        ∧ w₃.Holds (· = old) schema payload c := by
  obtain ⟨w₁, hrun, hnew⟩ := h.rewrapped
  obtain ⟨w₂, hagain, hnew₂⟩ := (hnew (fun k => k = old ∨ k = new) (.inr rfl)).rewrapped
  obtain ⟨w₃, hback, hold⟩ := (hnew (fun k => k = new ∨ k = old) (.inl rfl)).rewrapped
  exact ⟨w₁, hrun, hnew _ rfl, ⟨w₂, hagain, hnew₂ _ rfl⟩, w₃, hback, hold _ rfl⟩

end RewrapMaterial

def twoKeys : Content where
  root := .generate 2
  files _ := none
  transit := some ⟨SCHEMA, [(⟨"mail", 1⟩, [1]), (⟨"disk", 1⟩, [2])]⟩
  signing := none
  brokers := none

def midway (old new : MasterKey) : World :=
  { World.empty with
    identity := some (authenticatedIdentity new twoKeys.root)
    transit := some ⟨SCHEMA,
      [⟨⟨"mail", 1⟩, aeadSeal new [1] TRANSIT_AAD⟩,
        ⟨⟨"disk", 1⟩, aeadSeal old [2] TRANSIT_AAD⟩]⟩ }

theorem rewrap_resumable_midway : ∃ w₁, (rewrapAllMaterial (.generate 0) (.generate 1)).run
        (midway (.generate 0) (.generate 1)) = (.ok (), w₁)
      ∧ w₁.Holds (· = .generate 1) IDENTITY_SCHEMA_V2 (.v2 twoKeys.root true) twoKeys := by
  have hmixed : (midway (.generate 0) (.generate 1)).Holds
      (fun k => k = .generate 0 ∨ k = .generate 1)
      IDENTITY_SCHEMA_V2 (.v2 twoKeys.root true) twoKeys :=
    ⟨⟨_, _, _, rfl, rfl, .inr rfl, aeadOpen_seal _ _ _⟩,
      .some ⟨rfl, .cons ⟨rfl, _, .inr rfl, aeadOpen_seal _ _ _⟩
        (.cons ⟨rfl, _, .inl rfl, aeadOpen_seal _ _ _⟩ .nil)⟩, .none, .none⟩
  obtain ⟨w₁, hrun, hholds, -⟩ := rewrap_resumable hmixed
  exact ⟨w₁, hrun, hholds⟩

end SovereignVault
