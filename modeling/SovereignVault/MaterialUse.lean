/-
`sv-core/src/transit.rs`, the material in use: transit keys, signing seeds
and brokered secrets, from their creation on.

To the key of the handle, a store of the vault answers as the table of the
content does (`run_openEntry`), and no key is in that table. A creation
appends to it or leaves it, a rotation leaves it, wherever they stop. So
what could be used once is used in the same way ever after.
-/
import SovereignVault.RotationCrash

namespace SovereignVault

open Crash Prog List

namespace Transit

def TRANSIT_KEY_LEN : Nat := 32

def validateName (name : String) : Except CoreError Unit :=
  if name.isEmpty || name.utf8ByteSize > 64 then .error (.misuse "name must be 1..=64 chars")
  else if !name.toList.all fun c => c.isAlphanum || c = '-' || c = '_' then
    .error (.misuse "name must be alphanumeric, hyphen, or underscore")
  else .ok ()

/-- `str::parse::<u32>`. -/
def parseU32 (text : List Char) : Option Nat :=
  let digits := if text.head? = some '+' then text.tail else text
  let value := digits.foldl (fun n d => 10 * n + (d.toNat - '0'.toNat)) 0
  if digits.isEmpty || !digits.all Char.isDigit || 2 ^ 32 ≤ value then none else some value

def parseKeyRef (keyRef : String) : String × Option Nat :=
  match keyRef.toList.reverse.span (· ≠ ':') with
  | (ver, _ :: name) =>
    match parseU32 (ver.reverse.dropWhile (· = 'v')) with
    | some v => (.ofList name.reverse, some v)
    | none => (keyRef, none)
  | _ => (keyRef, none)

def refersTo (keyRef name : String) (version : Nat) : Bool :=
  name = (parseKeyRef keyRef).1 && (parseKeyRef keyRef).2.all (· = version)

section

variable {μ β : Type}

/-- The common body of the three creations. -/
def createEntry (store : Store μ β) (nameOf : μ → String) (kind : String) (wrapKey : MasterKey)
    (info : μ) (secret : β) : VaultM μ := do
  Prog.ret (validateName (nameOf info))
  let file ← readJson store
  if file.entries.any fun e => nameOf e.info = nameOf info then
    throw (.misuse s!"{kind} already exists: {nameOf info}")
  else do
    writeAtomic (store.write
      { file with entries := file.entries ++ [⟨info, aeadSeal wrapKey secret store.aad⟩] })
    pure info

def transitCreateKey (wrapKey : MasterKey) (name : String) (raw : Bytes) : VaultM TransitKeyInfo :=
  createEntry transitStore (·.name) "transit key" wrapKey ⟨name, 1⟩ raw

def signingCreateKey (wrapKey : MasterKey) (name : String) (secret publicKey : Bytes) :
    VaultM SigningKeyInfo :=
  createEntry signingStore (·.name) "signing key" wrapKey ⟨name, 1, publicKey⟩ secret

def brokerCreate (wrapKey : MasterKey) (info : BrokerSecretInfo) (secret : String) :
    VaultM BrokerSecretInfo :=
  createEntry brokerStore (·.name) "brokered secret" wrapKey info secret

/-- The first entry that is meant, opened. -/
def entryOf (aad : String) (wrapKey : MasterKey) (meant : μ → Bool) (unknown : String)
    (file : MaterialFile μ β) : Except CoreError (μ × β) :=
  match file.entries.find? (meant ·.info) with
  | none => .error (.misuse unknown)
  | some e =>
    match aeadOpen wrapKey e.wrapped aad with
    | .ok secret => .ok (e.info, secret)
    | .error err => .error (.crypto err)

def openEntry (store : Store μ β) (wrapKey : MasterKey) (meant : μ → Bool) (unknown : String) :
    VaultM (μ × β) := do
  let file ← readJson store
  Prog.ret (entryOf store.aad wrapKey meant unknown file)

end

def keyBytes (entry : TransitKeyInfo × Bytes) : Except CoreError Bytes :=
  if entry.2.length ≠ TRANSIT_KEY_LEN then .error (.misuse "transit key wrong length")
  else .ok entry.2

def transitKeyBytes (wrapKey : MasterKey) (keyRef : String) : VaultM Bytes := do
  let entry ← openEntry transitStore wrapKey (fun i => refersTo keyRef i.name i.version)
    s!"unknown transit key_ref: {keyRef}"
  Prog.ret (keyBytes entry)

/-- An AEAD ciphertext under the raw bytes of a transit key. -/
structure Ciphertext where
  key : Bytes
  plaintext : Bytes
  aad : String

def transitEncrypt (wrapKey : MasterKey) (keyRef : String) (plaintext : Bytes) :
    VaultM Ciphertext := do
  let key ← transitKeyBytes wrapKey keyRef
  Prog.ret (.ok ⟨key, plaintext, (parseKeyRef keyRef).1⟩)

def transitDecrypt (wrapKey : MasterKey) (keyRef : String) (ciphertext : Ciphertext) :
    VaultM Bytes := do
  let key ← transitKeyBytes wrapKey keyRef
  Prog.ret (if ciphertext.key = key ∧ ciphertext.aad = (parseKeyRef keyRef).1 then
      .ok ciphertext.plaintext
    else .error (.crypto (.aead "aead::Error")))

def signingSign (ed25519Sign : Bytes → Bytes → Except CryptoError Bytes) (wrapKey : MasterKey)
    (keyRef : String) (payload : Bytes) : VaultM Bytes := do
  let entry ← openEntry signingStore wrapKey (fun i => refersTo keyRef i.name i.version)
    s!"unknown signing key_ref: {keyRef}"
  Prog.ret ((ed25519Sign entry.2 payload).mapError .crypto)

structure ResolvedBrokerSecret where
  secret : String
  allow : List BrokerAllow
  injection : BrokerInjection

def brokerResolve (wrapKey : MasterKey) (secretRef : String) : VaultM ResolvedBrokerSecret := do
  let entry ← openEntry brokerStore wrapKey (·.name = secretRef)
    s!"unknown brokered secret: {secretRef}"
  pure ⟨entry.2, entry.1.allow, entry.1.injection⟩

-- ==== the stores as tables

section

variable {μ β : Type} {store : Store μ β} {m m' : Option (Material μ β)} {k k' : MasterKey}
  {meant : μ → Bool} {unknown aad : String} {w w' : World}

def tableOf (m : Option (Material μ β)) : List (μ × β) := m.elim [] (·.entries)

def lookup (meant : μ → Bool) (unknown : String) (m : Option (Material μ β)) :
    Except CoreError (μ × β) :=
  ((tableOf m).find? (meant ·.1)).elim (.error (.misuse unknown)) .ok

theorem entryOf_sealed : entryOf aad k meant unknown
    ((m.map fun m => m.sealedUnder k aad).getD ⟨SCHEMA, []⟩) = lookup meant unknown m := by
  cases m with
  | none => rfl
  | some m =>
    have hfind : (m.sealedUnder k aad).entries.find? (meant ·.info)
        = (m.entries.find? (meant ·.1)).map fun e => ⟨e.1, aeadSeal k e.2 aad⟩ := find?_map ..
    simp only [entryOf, lookup, tableOf, Option.map_some, Option.getD_some, hfind, Option.elim_some]
    cases m.entries.find? (meant ·.1) with
    | none => rfl
    | some e => simp

theorem observes_readJson : Observes (readJson store)
    fun w => .ok ((store.select w).getD ⟨SCHEMA, []⟩) :=
  observes_bind observes_get fun _ => observes_ret _

theorem observes_openEntry : Observes (openEntry store k meant unknown)
    fun w => entryOf store.aad k meant unknown ((store.select w).getD ⟨SCHEMA, []⟩) :=
  observes_bind observes_readJson fun _ => observes_ret _

theorem run_openEntry (meant : μ → Bool) (unknown : String)
    (hsel : store.select w = m.map fun m => m.sealedUnder k store.aad) :
    (openEntry store k meant unknown).run w = (lookup meant unknown m, w) := by
  rw [observes_openEntry.run, hsel, entryOf_sealed]

theorem outlives_of_found {γ γ' : Type} {f : μ × β → VaultM γ} {g : μ × β → VaultM γ'} {a : γ}
    {b : γ'} (hsel : store.select w = m.map fun m => m.sealedUnder k store.aad)
    (hsel' : store.select w' = m'.map fun m => m.sealedUnder k' store.aad)
    (hm : tableOf m <+: tableOf m')
    (hfg : ∀ entry, ((f entry).run w).1 = .ok a → ((g entry).run w').1 = .ok b)
    (h : (((openEntry store k meant unknown).bind f).run w).1 = .ok a) :
    (((openEntry store k' meant unknown).bind g).run w').1 = .ok b := by
  have hrun := run_openEntry meant unknown hsel
  have hrun' := run_openEntry meant unknown hsel'
  unfold lookup at hrun hrun'
  cases hfind : (tableOf m).find? (meant ·.1) with
  | none =>
    rw [hfind] at hrun
    rw [run_bind_error hrun] at h
    cases h
  | some entry =>
    rw [hfind] at hrun
    rw [hm.find?_eq_some hfind] at hrun'
    rw [run_bind_ok hrun] at h
    rw [run_bind_ok hrun']
    exact hfg entry h

theorem wp_createEntry {F : Faults World CoreError} {I : World → Prop} {nameOf : μ → String}
    {kind : String} {info : μ} {secret : β}
    (hsel : store.select w = m.map fun m => m.sealedUnder k store.aad) (hw : I w)
    (hnew : ∀ m' : Material μ β, tableOf m <+: m'.entries →
      I (store.write (m'.sealedUnder k store.aad) w)) :
    wp F I (createEntry store nameOf kind k info secret) (fun _ _ => True) w := by
  refine (observes_ret _).wp_seq hw (fun _ => trivial) fun _ _ => ?_
  refine observes_readJson.wp_seq hw (fun _ => trivial) fun file hfile => ?_
  split
  · exact ⟨hw, trivial⟩
  -- what is written is again a table, sealed
  have hnext : { file with entries := file.entries ++ [⟨info, aeadSeal k secret store.aad⟩] }
      = Material.sealedUnder ⟨file.schema, tableOf m ++ [(info, secret)]⟩ k store.aad := by
    rw [hsel] at hfile
    cases hfile
    cases m with
    | none => rfl
    | some m => simp [Material.sealedUnder, tableOf]
  rw [hnext]
  have hafter := hnew ⟨file.schema, tableOf m ++ [(info, secret)]⟩ (prefix_append ..)
  refine (wp_bind _ _ _ _).2 (wp_writeAtomic hw hafter ⟨hafter, trivial⟩ ?_ ?_)
  · exact fun _ _ => trivial
  · exact fun _ _ => trivial

end

end Transit

-- ==== ageing

open Transit

structure Content.Grows (c c' : Content) : Prop where
  root : c'.root = c.root
  transit : tableOf c.transit <+: tableOf c'.transit
  signing : tableOf c.signing <+: tableOf c'.signing
  brokers : tableOf c.brokers <+: tableOf c'.brokers

inductive Creates (wrapKey : MasterKey) : {α : Type} → VaultM α → Prop
  | transit (name : String) (raw : Bytes) : Creates wrapKey (transitCreateKey wrapKey name raw)
  | signing (name : String) (secret publicKey : Bytes) :
      Creates wrapKey (signingCreateKey wrapKey name secret publicKey)
  | broker (info : BrokerSecretInfo) (secret : String) :
      Creates wrapKey (brokerCreate wrapKey info secret)

/-- Rotations and creations through the handle that is open, each of them
stopped anywhere, then attempts to unlock, then the normal unlock. A
rotation is given the passphrase of the vault, if one, and no I/O fails. -/
inductive Ages (custody : CustodyMode) (cred : Option String) (w : World) : World → Prop
  | start : Ages custody cred w w
  | rotate {w' w₁ w₂ : World} {self : VaultHandle} {pass : Option String} {ent : Entropy} :
      Ages custody cred w w' → w'.handle = some self →
      (custody = .passphrase → ∀ x, pass = some x → cred = some x) →
      Reaches Faults.none (rotateKey self pass ent) w' w₁ → Later w₁.crashed w₂ →
      Ages custody cred w ((unlock custody cred).run w₂).2
  | create {w' w₁ w₂ : World} {self : VaultHandle} {F : Faults World CoreError} {α : Type}
      {p : VaultM α} : Ages custody cred w w' → w'.handle = some self →
      Creates (materialWrapKey self.vault) p → Reaches F p w' w₁ → Later w₁.crashed w₂ →
      Ages custody cred w ((unlock custody cred).run w₂).2

section

variable {w w' : World} {custody : CustodyMode} {cred : Option String} {kek : MasterKey}
  {kr : KeyringFile} {u : Keyring.Unwrapped} {c c' : Content} {S : BlobPath → Nat → Prop}

theorem Content.Grows.refl : c.Grows c := ⟨rfl, prefix_rfl, prefix_rfl, prefix_rfl⟩

theorem Content.Grows.trans {c'' : Content} (h : c.Grows c') (h' : c'.Grows c'') : c.Grows c'' :=
  ⟨h'.root.trans h.root, h.transit.trans h'.transit, h.signing.trans h'.signing,
    h.brokers.trans h'.brokers⟩

theorem Quiescent.withMaterial (hq : Quiescent w custody cred kek kr u c S)
    (hroot : c'.root = c.root) (hfiles : c'.files = c.files) :
    Quiescent (w.withMaterial c' (.all (materialWrapForDek u.activeDek))) custody cred kek kr u c'
      S where
  keyring := hq.keyring
  tidy := hq.tidy
  loads := hq.loads
  material := rfl
  files := hfiles ▸ hq.files
  placed := hfiles ▸ hq.placed
  manifest := hroot ▸ hq.manifest
  recovery := hq.recovery
  journal := hq.journal
  normal := hq.normal

theorem Quiescent.creates {F : Faults World CoreError} {α : Type} {p : VaultM α}
    (hq : Quiescent w custody cred kek kr u c S) (hp : Creates (materialWrapForDek u.activeDek) p)
    (hr : Reaches F p w w') : ∃ c', c.Grows c' ∧ Quiescent w' custody cred kek kr u c' S := by
  let I : World → Prop := fun w => ∃ c', c.Grows c' ∧ Quiescent w custody cred kek kr u c' S
  have hnow : I w := ⟨c, .refl, hq⟩
  have hgrown : ∀ c', c.Grows c' → c'.files = c.files →
      I (w.withMaterial c' (.all (materialWrapForDek u.activeDek))) :=
    fun c' hc hfiles => ⟨c', hc, hq.withMaterial hc.root hfiles⟩
  have hwp : wp F I p (fun _ _ => True) w := by
    cases hp with
    | transit name raw =>
      refine wp_createEntry (m := c.transit) (congrArg World.transit hq.material).symm hnow ?_
      intro m hm
      refine Eq.subst (motive := I) (congrArg (transitStore.write _) hq.material) ?_
      exact hgrown { c with transit := some m } ⟨rfl, hm, prefix_rfl, prefix_rfl⟩ rfl
    | signing name secret publicKey =>
      refine wp_createEntry (m := c.signing) (congrArg World.signing hq.material).symm hnow ?_
      intro m hm
      refine Eq.subst (motive := I) (congrArg (signingStore.write _) hq.material) ?_
      exact hgrown { c with signing := some m } ⟨rfl, prefix_rfl, hm, prefix_rfl⟩ rfl
    | broker info secret =>
      refine wp_createEntry (m := c.brokers) (congrArg World.brokers hq.material).symm hnow ?_
      intro m hm
      refine Eq.subst (motive := I) (congrArg (brokerStore.write _) hq.material) ?_
      exact hgrown { c with brokers := some m } ⟨rfl, prefix_rfl, prefix_rfl, hm⟩ rfl
  exact hwp.reaches hr

theorem materialWrapKey_handleOf {root : MasterKey} :
    materialWrapKey (handleOf u root custody).vault = materialWrapForDek u.activeDek := by
  simp [materialWrapKey, handleOf]

theorem Ages.quiescent (hq : Quiescent w custody cred kek kr u c S)
    (hh : w.handle = some (handleOf u c.root custody)) (h : Ages custody cred w w') :
    ∃ kr' u' c' S', c.Grows c' ∧ Quiescent w' custody cred kek kr' u' c' S'
      ∧ w'.handle = some (handleOf u' c'.root custody) := by
  induction h with
  | start => exact ⟨kr, u, c, S, .refl, hq, hh⟩
  | rotate _ hself hpass hr hl ih =>
    obtain ⟨kr', u', c', S', hgrows, hq', hh'⟩ := ih
    rw [hh'] at hself
    cases hself
    -- the old vault or the new one: the DEK differs, the content does not
    rcases hq'.rotatesAtomically_handle hh' (fun hc x hx => .inl (hpass hc x hx)) _ hr _ hl
      with h | h
    · obtain ⟨-, ⟨S, hq⟩, hh, -⟩ := h
      exact ⟨_, _, c', S, hgrows, hq, hh⟩
    · obtain ⟨-, ⟨S, hq⟩, hh, -⟩ := h
      exact ⟨_, _, c', S, hgrows, hq, hh⟩
  | create _ hself hp hr hl ih =>
    obtain ⟨kr', u', c', S', hgrows, hq', hh'⟩ := ih
    rw [hh'] at hself
    cases hself
    rw [materialWrapKey_handleOf] at hp
    obtain ⟨c'', hgrows', hq''⟩ := hq'.creates hp hr
    obtain ⟨-, ⟨S, hq⟩, hh, -⟩ :=
      ((hq''.withHandle none).later hl).unlocksTo (hl.handle rfl)
    exact ⟨_, _, c'', S, hgrows.trans hgrows', hq, hh⟩

/-- What is encrypted in `w` is decrypted in `w'`, and what signs or is
resolved in `w` does so in `w'`. -/
structure Outlives (wrapKey : MasterKey) (w : World) (wrapKey' : MasterKey) (w' : World) :
    Prop where
  decrypts : ∀ keyRef plaintext ciphertext,
    ((transitEncrypt wrapKey keyRef plaintext).run w).1 = .ok ciphertext →
    ((transitDecrypt wrapKey' keyRef ciphertext).run w').1 = .ok plaintext
  signs : ∀ ed25519Sign keyRef payload signature,
    ((signingSign ed25519Sign wrapKey keyRef payload).run w).1 = .ok signature →
    ((signingSign ed25519Sign wrapKey' keyRef payload).run w').1 = .ok signature
  resolves : ∀ secretRef secret,
    ((brokerResolve wrapKey secretRef).run w).1 = .ok secret →
    ((brokerResolve wrapKey' secretRef).run w').1 = .ok secret

theorem Content.Grows.outlives {k k' : MasterKey} (h : c.Grows c')
    (hw : w.withMaterial c (.all k) = w) (hw' : w'.withMaterial c' (.all k') = w') :
    Outlives k w k' w' := by
  constructor
  · intro keyRef plaintext ciphertext henc
    unfold transitEncrypt transitKeyBytes at henc
    unfold transitDecrypt transitKeyBytes
    simp only [bind_eq, bind_assoc] at henc ⊢
    refine outlives_of_found (congrArg World.transit hw).symm (congrArg World.transit hw').symm
      h.transit ?_ henc
    intro entry hentry
    cases hkey : keyBytes entry with
    | error e =>
      -- a key of another length does not encrypt either
      rw [hkey] at hentry
      cases hentry
    | ok key =>
      rw [hkey] at hentry
      cases hentry
      show (if key = key ∧ (parseKeyRef keyRef).1 = (parseKeyRef keyRef).1 then
          Except.ok plaintext else _) = _
      exact if_pos ⟨rfl, rfl⟩
  · intro ed25519Sign keyRef payload signature
    exact outlives_of_found (congrArg World.signing hw).symm (congrArg World.signing hw').symm
      h.signing fun _ => id
  · intro secretRef secret
    exact outlives_of_found (congrArg World.brokers hw).symm (congrArg World.brokers hw').symm
      h.brokers fun _ => id

/-- Whatever is rotated and created in between, and wherever that stops,
what worked with the material still does. -/
theorem material_outlives (hq : Quiescent w custody cred kek kr u c S)
    (hh : w.handle = some (handleOf u c.root custody)) (h : Ages custody cred w w') :
    ∃ self, w'.handle = some self ∧
      Outlives (materialWrapKey (handleOf u c.root custody).vault) w (materialWrapKey self.vault)
        w' := by
  obtain ⟨kr', u', c', S', hgrows, hq', hh'⟩ := h.quiescent hq hh
  refine ⟨_, hh', ?_⟩
  rw [materialWrapKey_handleOf, materialWrapKey_handleOf]
  exact hgrows.outlives hq.material hq'.material

end

namespace Sample

def keyed : Content :=
  { content with transit := some ⟨SCHEMA, [(⟨"k", 1⟩, replicate 32 7)]⟩ }

def inUse : World := stored.withMaterial keyed (.all (materialWrapForDek dek))

def aged : World := ((unlock .passphrase (some pass)).run
  ((rotateKey handle (some pass) entropy).run inUse).2.crashed).2

end Sample

open Sample

theorem material_outlives_rotated : ∃ self, aged.handle = some self ∧
    ((transitDecrypt (materialWrapKey self.vault) "k:v1"
        ⟨replicate 32 7, [1, 2], "k"⟩).run aged).1 = .ok [1, 2] := by
  have hq : Quiescent inUse .passphrase (some pass) kek keyring unwrapped keyed (AllAt 1) :=
    quiescent_stored.withMaterial rfl rfl
  have hrotated := (run_returns Faults.none (rotateKey handle (some pass) entropy) inUse).reaches
  obtain ⟨self, hself, huse⟩ :=
    material_outlives hq rfl (.rotate .start rfl (fun _ _ => id) hrotated .refl)
  exact ⟨self, hself, huse.decrypts _ _ _ rfl⟩

end SovereignVault
