/-
`sv-core/src/transit.rs`: the identity root and the three material
stores (transit keys, signing seeds, brokered secrets).

Everything here is sealed under a subkey of the ACTIVE DEK, so a
rotation has to move all of it. The three stores are one `Store`, and each
rewrap of the source is `rewrapStore` at its own. `reseal` accepts an
entry that is already under the destination key: a rewrap that was
interrupted can be repeated, in either direction.
-/
import SovereignVault.State

namespace SovereignVault

open Crash Prog

namespace Transit

def IDENTITY_FILE : String := "identity.svault"

def TRANSIT_AAD : String := "sv-transit-key-v1"
def SIGNING_AAD : String := "sv-signing-key-v1"
def BROKER_AAD : String := "sv-broker-secret-v1"
def IDENTITY_AAD_V1 : String := "sv-identity-root-v1"
def IDENTITY_AAD_V2 : String := "sv-identity-root-v2"

def IDENTITY_SCHEMA_V1 : Nat := 1
def IDENTITY_SCHEMA_V2 : Nat := 2

def SCHEMA : Nat := 1

-- ==== the identity

structure IdentityState where
  root : MasterKey
  manifestAuthRequired : Bool

/-- The decryption half of `load_identity`, by schema. A payload of the
other schema fails where the source parses it. -/
def openIdentity (identity : IdentityFile) (wrapKey : MasterKey) : Except CoreError IdentityState :=
  if identity.schema = IDENTITY_SCHEMA_V1 then
    match aeadOpen wrapKey identity.wrappedRoot IDENTITY_AAD_V1 with
    | .error e => .error (.crypto e)
    | .ok (.v1 root) => .ok ⟨root, false⟩
    | .ok (.v2 _ _) => .error (.misuse "identity root has wrong length")
  else if identity.schema = IDENTITY_SCHEMA_V2 then
    match aeadOpen wrapKey identity.wrappedRoot IDENTITY_AAD_V2 with
    | .error e => .error (.crypto e)
    | .ok (.v1 _) => .error (.misuse s!"{IDENTITY_FILE} protected payload")
    | .ok (.v2 root required) =>
      if required then
        .ok ⟨root, true⟩
      else
        .error (.misuse "identity v2 does not require manifest authentication")
  else
    .error (.misuse s!"unsupported identity schema: {identity.schema}")

def loadIdentity (wrapKey : MasterKey) : VaultM IdentityState := do
  let identity ← readRequired World.identity
    (.misuse s!"vault identity does not exist: {IDENTITY_FILE}")
  .ret (openIdentity identity wrapKey)

def loadIdentityIfPresent (wrapKey : MasterKey) : VaultM (Option IdentityState) := do
  let w ← get
  if w.identity.isSome then
    let identity ← loadIdentity wrapKey
    pure (some identity)
  else
    pure none

def authenticatedIdentity (wrapKey identityRoot : MasterKey) : IdentityFile where
  schema := IDENTITY_SCHEMA_V2
  wrappedRoot := aeadSeal wrapKey (.v2 identityRoot true) IDENTITY_AAD_V2

def writeAuthenticatedIdentity (wrapKey identityRoot : MasterKey) : VaultM Unit :=
  writeAtomic fun w => { w with identity := some (authenticatedIdentity wrapKey identityRoot) }

def loadOrCreateIdentity (wrapKey : MasterKey) (legacyRoot : Option MasterKey) (fresh : MasterKey) :
    VaultM IdentityState := do
  let w ← get
  if w.identity.isSome then
    loadIdentity wrapKey
  else
    writeAuthenticatedIdentity wrapKey (legacyRoot.getD fresh)
    loadIdentity wrapKey

-- ==== rewrapping

/-- `reseal`: a value already under `newWrap` is complete; anything else
keeps the error of the first attempt. -/
def reseal {β : Type} (oldWrap newWrap : MasterKey) (aad : String)
    (wrapped : Sealed β) : Except CoreError (Sealed β) :=
  match aeadOpen oldWrap wrapped aad with
  | .ok raw => .ok (aeadSeal newWrap raw aad)
  | .error oldError =>
    match aeadOpen newWrap wrapped aad with
    | .ok _ => .ok wrapped
    | .error _ => .error (.crypto oldError)

def resealEntries {μ β : Type} (oldWrap newWrap : MasterKey) (aad : String) :
    List (MaterialEntry μ β) → Except CoreError (List (MaterialEntry μ β))
  | [] => .ok []
  | e :: es =>
    match reseal oldWrap newWrap aad e.wrapped with
    | .error err => .error err
    | .ok wrapped =>
      match resealEntries oldWrap newWrap aad es with
      | .error err => .error err
      | .ok es' => .ok ({ e with wrapped := wrapped } :: es')

/-- A material store: where it lies and the label bound into its
seals. -/
structure Store (μ β : Type) where
  select : World → Option (MaterialFile μ β)
  write : MaterialFile μ β → World → World
  aad : String

def transitStore : Store TransitKeyInfo Bytes where
  select := World.transit
  write file w := { w with transit := some file }
  aad := TRANSIT_AAD

def signingStore : Store SigningKeyInfo Bytes where
  select := World.signing
  write file w := { w with signing := some file }
  aad := SIGNING_AAD

def brokerStore : Store BrokerSecretInfo String where
  select := World.brokers
  write file w := { w with brokers := some file }
  aad := BROKER_AAD

def readJson {μ β : Type} (store : Store μ β) : VaultM (MaterialFile μ β) := do
  let w ← get
  pure ((store.select w).getD ⟨SCHEMA, []⟩)

/-- The common body of the three store rewraps: an empty store is not
written. -/
def rewrapStore {μ β : Type} (store : Store μ β) (oldWrap newWrap : MasterKey) : VaultM Unit := do
  let file ← readJson store
  if file.entries.isEmpty then
    pure ()
  else
    let entries ← ret (resealEntries oldWrap newWrap store.aad file.entries)
    writeAtomic (store.write { file with entries := entries })

def rewrapTransit : MasterKey → MasterKey → VaultM Unit :=
  rewrapStore transitStore

def rewrapSigning : MasterKey → MasterKey → VaultM Unit :=
  rewrapStore signingStore

def rewrapBrokers : MasterKey → MasterKey → VaultM Unit :=
  rewrapStore brokerStore

def identityAad (schema : Nat) : Except CoreError String :=
  if schema = IDENTITY_SCHEMA_V1 then
    .ok IDENTITY_AAD_V1
  else if schema = IDENTITY_SCHEMA_V2 then
    .ok IDENTITY_AAD_V2
  else
    .error (.misuse s!"unsupported identity schema: {schema}")

/-- `rewrap_identity`: unlike the stores, the file is required. -/
def rewrapIdentity (oldWrap newWrap : MasterKey) : VaultM Unit := do
  let identity ← readRequired World.identity
    (.misuse s!"{IDENTITY_FILE} does not exist: {IDENTITY_FILE}")
  let aad ← ret (identityAad identity.schema)
  let wrappedRoot ← ret (reseal oldWrap newWrap aad identity.wrappedRoot)
  writeAtomic fun w => { w with identity := some { identity with wrappedRoot := wrappedRoot } }

def rewrapAllMaterial (oldWrap newWrap : MasterKey) : VaultM Unit := do
  rewrapIdentity oldWrap newWrap
  rewrapTransit oldWrap newWrap
  rewrapSigning oldWrap newWrap
  rewrapBrokers oldWrap newWrap

-- ==== what loading reads

def identityOf (wrapKey : MasterKey) : Option IdentityFile → Except CoreError IdentityState
  | none => .error (.misuse s!"vault identity does not exist: {IDENTITY_FILE}")
  | some identity => openIdentity identity wrapKey

theorem observes_loadIdentity (wrapKey : MasterKey) : Observes (loadIdentity wrapKey)
      fun w => identityOf wrapKey w.identity := by
  refine (observes_bind (observes_readRequired World.identity _)
    fun _ => observes_ret _).congr fun w => ?_
  cases w.identity with
  | none | some identity => rfl

theorem observes_loadIdentityIfPresent (wrapKey : MasterKey) :
    Observes (loadIdentityIfPresent wrapKey) fun w =>
      if w.identity.isSome then
        (identityOf wrapKey w.identity).bind fun i => .ok (some i)
      else .ok none := by
  have hrest : ∀ w₀ : World, Observes (if w₀.identity.isSome then do
          let identity ← loadIdentity wrapKey
          pure (some identity)
        else pure none : VaultM (Option IdentityState))
      fun w => if w₀.identity.isSome then
          (identityOf wrapKey w.identity).bind fun i => .ok (some i)
        else .ok none := by
    intro w₀
    by_cases h : w₀.identity.isSome
    · simp only [h, if_true]
      exact observes_bind (observes_loadIdentity wrapKey) fun _ => observes_ret _
    · simp only [h]
      exact observes_ret _
  exact observes_bind observes_get hrest

@[simp] theorem openIdentity_authenticated (wrapKey root : MasterKey) :
    openIdentity (authenticatedIdentity wrapKey root) wrapKey
      = .ok ⟨root, true⟩ := by
  simp [openIdentity, authenticatedIdentity, IDENTITY_SCHEMA_V1, IDENTITY_SCHEMA_V2]

theorem openIdentity_authenticated_ok {wrapKey wrapKey' root : MasterKey}
    {i : IdentityState} (h : openIdentity (authenticatedIdentity wrapKey root) wrapKey'
      = .ok i) : i = ⟨root, true⟩ := by
  by_cases hk : wrapKey = wrapKey'
  · subst hk
    rw [openIdentity_authenticated, Except.ok.injEq] at h
    exact h.symm
  · simp [openIdentity, authenticatedIdentity, IDENTITY_SCHEMA_V1,
      IDENTITY_SCHEMA_V2, aeadOpen_seal_ne hk] at h

end Transit

end SovereignVault
