/-
`references::registry`: handles with a limited number of uses.

A use is counted under the lock that authorizes it, and given back if its
lease ends as consumed and not executed. Leases can be neither copied nor
forged: the state lists the leases that are still held. Tokens are stored
by their keyed hash, of which nothing is assumed. Every operation takes
the lock once (`Dialogue.Service`).
-/
import SovereignVault.Runtime.Types
import SovereignVault.Dialogue.Service
import Mathlib.Algebra.Ring.Nat

namespace SovereignVault.Runtime

open Dialogue List

-- ==== the types

structure ReferenceToken where
  bytes : Bytes
  deriving DecidableEq

structure RegistryKey where
  bytes : Bytes

/-- A keyed hash of a token. -/
abbrev IdHash := Bytes

abbrev InternalResourceId := String

structure DestinationSelector where
  transport : Option String
  host : Option String
  path : Option String
  label : Option String
  deriving DecidableEq

structure SafeMetadata where
  kind : String
  allowedActions : List OperationKind
  destination : List DestinationSelector
  expiresAt : Int

structure ReferenceEntry where
  idHash : IdHash
  resource : InternalResourceId
  class_ : ExposureClass
  ownerPrincipal : Option String
  audience : List DestinationSelector
  allowedOperations : List OperationKind
  createdAt : Int
  expiresAt : Int
  sessionId : Option String
  maxUses : Option Nat
  useCount : Nat
  metadataProjection : SafeMetadata
  policyVersion : PolicyVersion
  revoked : Bool

structure ResolutionContext where
  principal : Option String
  session : Option String
  operation : OperationKind
  destination : DestinationSelector
  now : Int

structure ResolvedReferenceMetadata where
  metadata : SafeMetadata
  class_ : ExposureClass
  policyVersion : PolicyVersion

structure MaterialUseGrant where
  context : ResolutionContext
  operationDigest : Bytes

inductive LeaseOutcome where
  | consumedNotExecuted | executedUnknown | completed
  deriving DecidableEq

structure MaterialLease where
  resource : InternalResourceId
  operationDigest : Bytes
  idHash : IdHash
  deriving DecidableEq

structure ReferenceRegistry where
  entries : IdHash → Option ReferenceEntry
  key : RegistryKey

-- ==== the operations

def ReferenceRegistry.new (key : RegistryKey) (durable : Bool) :
    Except RuntimeError ReferenceRegistry :=
  if durable then .error .invalidStructure else .ok ⟨fun _ => none, key⟩

namespace ReferenceRegistry

def put (registry : ReferenceRegistry) (id : IdHash) (entry : ReferenceEntry) : ReferenceRegistry :=
  { registry with
    entries := Function.update registry.entries id (some entry) }

def lookup (registry : ReferenceRegistry) (id : IdHash) : Except RuntimeError ReferenceEntry :=
  match registry.entries id with
  | none => .error .referenceInvalid
  | some entry =>
    if entry.idHash = id then .ok entry else .error .referenceInvalid

def check (entry : ReferenceEntry) (context : ResolutionContext) : Except RuntimeError Unit :=
  if entry.revoked then .error .referenceInvalid
  else if context.now ≥ entry.expiresAt then .error .referenceExpired
  else if entry.ownerPrincipal.any (context.principal ≠ some ·) then
    .error .referenceAudienceDenied
  else if entry.sessionId.any (context.session ≠ some ·) then
    .error .referenceAudienceDenied
  else if context.operation ∉ entry.allowedOperations then
    .error .referenceAudienceDenied
  else if entry.audience ≠ [] ∧ context.destination ∉ entry.audience then
    .error .referenceAudienceDenied
  else if entry.maxUses.any (· ≤ entry.useCount) then
    .error .referenceExpired
  else .ok ()

section

variable (hmac : RegistryKey → ReferenceToken → IdHash) (registry : ReferenceRegistry)

def create (generated : Option ReferenceToken) (entry : ReferenceEntry) :
    Except RuntimeError ReferenceToken × ReferenceRegistry :=
  match generated with
  | none => (.error .invalidStructure, registry)
  | some token =>
    let id := hmac registry.key token
    if (registry.entries id).isSome then
      (.error .referenceInvalid, registry)
    else
      (.ok token, registry.put id { entry with
        idHash := id, useCount := 0 })

def metadata (token : ReferenceToken) (context : ResolutionContext) :
    Except RuntimeError ResolvedReferenceMetadata :=
  match registry.lookup (hmac registry.key token) with
  | .error e => .error e
  | .ok entry =>
    match check entry context with
    | .error e => .error e
    | .ok () => .ok ⟨entry.metadataProjection, entry.class_, entry.policyVersion⟩

def authorizeMaterialUse (token : ReferenceToken) (grant : MaterialUseGrant) :
    Except RuntimeError MaterialLease × ReferenceRegistry :=
  let id := hmac registry.key token
  match registry.lookup id with
  | .error e => (.error e, registry)
  | .ok entry =>
    match check entry grant.context with
    | .error e => (.error e, registry)
    | .ok () =>
      if entry.useCount + 1 < 2 ^ 32 then
        (.ok ⟨entry.resource, grant.operationDigest, id⟩,
          registry.put id { entry with
            useCount := entry.useCount + 1 })
      else (.error .referenceExpired, registry)

def settle (lease : MaterialLease) (outcome : LeaseOutcome) : ReferenceRegistry :=
  if outcome = .consumedNotExecuted then
    match registry.entries lease.idHash with
    | some entry => registry.put lease.idHash { entry with
        useCount := entry.useCount - 1 }
    | none => registry
  else registry

def revoke (token : ReferenceToken) : Except RuntimeError Unit × ReferenceRegistry :=
  let id := hmac registry.key token
  match registry.entries id with
  | none => (.error .referenceInvalid, registry)
  | some entry => (.ok (), registry.put id { entry with revoked := true })

end

end ReferenceRegistry

-- ==== the service

inductive RegistryOp where
  | create (generated : Option ReferenceToken) (entry : ReferenceEntry)
  | metadata (token : ReferenceToken) (context : ResolutionContext)
  | authorizeMaterialUse (token : ReferenceToken) (grant : MaterialUseGrant)
  | settle (lease : MaterialLease) (outcome : LeaseOutcome)
  | revoke (token : ReferenceToken)

def RegistryOp.Ans : RegistryOp → Type
  | .create _ _ => Except RuntimeError ReferenceToken
  | .metadata _ _ => Except RuntimeError ResolvedReferenceMetadata
  | .authorizeMaterialUse _ _ => Except RuntimeError MaterialLease
  | .settle _ _ => Except RuntimeError Unit
  | .revoke _ => Except RuntimeError Unit

abbrev registryInterface : Interface := ⟨RegistryOp, RegistryOp.Ans⟩

structure Holding where
  registry : ReferenceRegistry
  leases : List MaterialLease

section

variable (hmac : RegistryKey → ReferenceToken → IdHash)

def Holding.act : (o : RegistryOp) → Holding → o.Ans × Holding
  | .create generated entry, s =>
    let (r, registry) := s.registry.create hmac generated entry
    (r, { s with registry := registry })
  | .metadata token context, s => (s.registry.metadata hmac token context, s)
  | .authorizeMaterialUse token grant, s =>
    match s.registry.authorizeMaterialUse hmac token grant with
    | (.ok lease, registry) => (.ok lease, ⟨registry, lease :: s.leases⟩)
    | (.error e, registry) => (.error e, { s with registry := registry })
  | .settle lease outcome, s => (.ok (), ⟨s.registry.settle lease outcome, s.leases.erase lease⟩)
  | .revoke token, s =>
    let (r, registry) := s.registry.revoke hmac token
    (r, { s with registry := registry })

/-- A lease is settled by whoever holds it. -/
def RegistryOp.allowed : RegistryOp → Holding → Prop
  | .settle lease _, s => lease ∈ s.leases
  | _, _ => True

instance (o : RegistryOp) (s : Holding) : Decidable (o.allowed s) :=
  match o with
  | .settle lease _ => inferInstanceAs (Decidable (lease ∈ s.leases))
  | .create _ _ | .metadata _ _ | .authorizeMaterialUse _ _ | .revoke _ => .isTrue trivial

def registryService : Service registryInterface Holding where
  act := Holding.act hmac
  allowed := RegistryOp.allowed

end

-- ==== the history

abbrev RegistryHistory := List (Exchange registryInterface)

def grants (id : IdHash) : Exchange registryInterface → Bool
  | ⟨.authorizeMaterialUse _ _, .ok lease⟩ => lease.idHash = id
  | _ => false

def returns (id : IdHash) : Exchange registryInterface → Bool
  | ⟨.settle lease .consumedNotExecuted, _⟩ => lease.idHash = id
  | _ => false

def granted (id : IdHash) (h : RegistryHistory) : Nat := h.countP (grants id)

def returned (id : IdHash) (h : RegistryHistory) : Nat :=
  h.countP (returns id)

section

variable (hmac : RegistryKey → ReferenceToken → IdHash) (key : RegistryKey) {id : IdHash}

def creates (id : IdHash) (e₀ : ReferenceEntry) : Exchange registryInterface → Prop
  | ⟨.create _ entry, .ok token⟩ => hmac key token = id ∧ entry = e₀
  | _ => False

def revokes (id : IdHash) : Exchange registryInterface → Prop
  | ⟨.revoke token, .ok _⟩ => hmac key token = id
  | _ => False

def RegistryOp.subject : RegistryOp → Option IdHash
  | .create generated _ => generated.map (hmac key)
  | .metadata token _ => some (hmac key token)
  | .authorizeMaterialUse token _ => some (hmac key token)
  | .settle lease _ => some lease.idHash
  | .revoke token => some (hmac key token)

/-- An entry is as it was created, but for the count and the
revocation. -/
def ReferenceEntry.AsCreated (e e₀ : ReferenceEntry) (id : IdHash) : Prop :=
  { e with useCount := 0, revoked := false }
    = { e₀ with idHash := id, useCount := 0, revoked := false }

theorem ReferenceEntry.AsCreated.maxUses {e e₀ : ReferenceEntry}
    (h : e.AsCreated e₀ id) : e.maxUses = e₀.maxUses :=
  (congrArg ReferenceEntry.maxUses h :)

theorem ReferenceEntry.AsCreated.expiresAt {e e₀ : ReferenceEntry}
    (h : e.AsCreated e₀ id) : e.expiresAt = e₀.expiresAt :=
  (congrArg ReferenceEntry.expiresAt h :)

/-- The uses of one reference, with `held` leases out. -/
structure EntrySound (id : IdHash) (h : RegistryHistory) (held : Nat)
    (e : ReferenceEntry) : Prop where
  idHash : e.idHash = id
  asCreated : ∀ x ∈ h, ∀ e₀, creates hmac key id e₀ x → e.AsCreated e₀ id
  counted : e.useCount + returned id h = granted id h
  held : held ≤ e.useCount
  capped : ∀ max, e.maxUses = some max → e.useCount ≤ max
  revoked : ∀ x ∈ h, revokes hmac key id x → e.revoked = true

structure Untouched (id : IdHash) (h : RegistryHistory) (held : Nat) :
    Prop where
  granted : granted id h = 0
  returned : returned id h = 0
  held : held = 0
  created : ∀ x ∈ h, ∀ e₀, ¬ creates hmac key id e₀ x
  revoked : ∀ x ∈ h, ¬ revokes hmac key id x

def Holding.held (s : Holding) (id : IdHash) : Nat :=
  s.leases.countP (·.idHash = id)

def Sound (id : IdHash) (h : RegistryHistory) (s : Holding) : Prop :=
  match s.registry.entries id with
  | none => Untouched hmac key id h (s.held id)
  | some e => EntrySound hmac key id h (s.held id) e

end

-- ==== what a step does

section

variable (hmac : RegistryKey → ReferenceToken → IdHash)

variable {entry : ReferenceEntry} {e : ReferenceEntry} {lease : MaterialLease}
  {token : ReferenceToken} {x : Exchange registryInterface}
  {ans : Except RuntimeError Unit} {id : IdHash}

theorem ReferenceRegistry.lookup_ok {registry : ReferenceRegistry}
    (h : registry.lookup id = .ok entry) : registry.entries id = some entry := by
  unfold lookup at h
  split at h
  · cases h
  next heq =>
  split at h
  · cases h
    exact heq
  · cases h

theorem ReferenceRegistry.check_ok {context : ResolutionContext}
    (h : check entry context = .ok ()) : entry.revoked = false ∧ context.now < entry.expiresAt
    ∧ ∀ max, entry.maxUses = some max → entry.useCount < max := by
  unfold check at h
  split_ifs at h with hrevoked hexpired howner hsession hop haudience hmax
  refine ⟨by simpa using hrevoked, not_le.1 hexpired, fun max heq => ?_⟩
  simpa [heq] using hmax

@[simp] theorem ReferenceRegistry.put_same (registry : ReferenceRegistry) (id : IdHash)
    (e : ReferenceEntry) : (registry.put id e).entries id = some e := Function.update_self _ _ _

theorem ReferenceRegistry.put_other (registry : ReferenceRegistry)
    {id' : IdHash} (e : ReferenceEntry) (hne : id' ≠ id) :
    (registry.put id e).entries id' = registry.entries id' :=
  Function.update_of_ne hne _ _

open ReferenceRegistry (check_ok lookup_ok put_same put_other)

theorem held_erase {s : Holding} (hmem : lease ∈ s.leases) :
    (s.leases.erase lease).countP (·.idHash = lease.idHash) + 1
      = s.held lease.idHash := by
  rw [Holding.held, (perm_cons_erase hmem).countP_eq, countP_cons_of_pos (by simp)]

theorem held_erase_other {leases : List MaterialLease} (hne : lease.idHash ≠ id) :
    (leases.erase lease).countP (·.idHash = id)
      = leases.countP (·.idHash = id) := by
  by_cases hmem : lease ∈ leases
  · rw [(perm_cons_erase hmem).countP_eq (p := (·.idHash = id)), countP_cons_of_neg (by simp [hne])]
  · rw [erase_of_not_mem hmem]

/-- The exchange does nothing that counts for a reference. -/
structure Quiet (hmac : RegistryKey → ReferenceToken → IdHash)
    (key : RegistryKey) (id : IdHash) (x : Exchange registryInterface) :
    Prop where
  grants : grants id x = false
  returns : returns id x = false
  creates : ∀ e₀, ¬ creates hmac key id e₀ x
  revokes : ¬ revokes hmac key id x

inductive Holding.Acts (s : Holding) : Exchange registryInterface → Holding → Prop where
  | nothing {x : Exchange registryInterface}
      (hquiet : ∀ id, Quiet hmac s.registry.key id x) : Acts s x s
  | created {generated : Option ReferenceToken} {entry : ReferenceEntry}
      {token : ReferenceToken} (hgenerated : generated = some token)
      (hnone : s.registry.entries (hmac s.registry.key token) = none) :
      Acts s ⟨.create generated entry, .ok token⟩
        ⟨s.registry.put (hmac s.registry.key token) { entry with
          idHash := hmac s.registry.key token, useCount := 0 }, s.leases⟩
  | authorized {token : ReferenceToken} {grant : MaterialUseGrant} {entry : ReferenceEntry}
      {lease : MaterialLease} (hentry : s.registry.entries (hmac s.registry.key token) = some entry)
      (hcheck : ReferenceRegistry.check entry grant.context = .ok ())
      (hlease : lease.idHash = hmac s.registry.key token) :
      Acts s ⟨.authorizeMaterialUse token grant, .ok lease⟩
        ⟨s.registry.put (hmac s.registry.key token)
          { entry with useCount := entry.useCount + 1 }, lease :: s.leases⟩
  | settled {lease : MaterialLease} {outcome : LeaseOutcome} (hkept : outcome ≠ .consumedNotExecuted
        ∨ s.registry.entries lease.idHash = none) :
      Acts s ⟨.settle lease outcome, .ok ()⟩ { s with leases := s.leases.erase lease }
  | returned {lease : MaterialLease} {entry : ReferenceEntry}
      (hentry : s.registry.entries lease.idHash = some entry) :
      Acts s ⟨.settle lease .consumedNotExecuted, .ok ()⟩ ⟨s.registry.put lease.idHash
          { entry with useCount := entry.useCount - 1 },
          s.leases.erase lease⟩
  | revoked {token : ReferenceToken} {entry : ReferenceEntry}
      (hentry : s.registry.entries (hmac s.registry.key token) = some entry) :
      Acts s ⟨.revoke token, .ok ()⟩ ⟨s.registry.put (hmac s.registry.key token)
          { entry with revoked := true }, s.leases⟩

theorem Holding.acts (o : RegistryOp) (s : Holding) :
    s.Acts hmac ⟨o, (Holding.act hmac o s).1⟩ (Holding.act hmac o s).2 := by
  unfold Holding.act
  cases o with
  | create generated entry =>
    unfold ReferenceRegistry.create
    cases generated with
    | none => exact .nothing fun _ => ⟨rfl, rfl, fun _ => id, id⟩
    | some token =>
      dsimp only
      split
      · exact .nothing fun _ => ⟨rfl, rfl, fun _ => id, id⟩
      · next hnone => exact .created rfl (by simpa using hnone)
  | metadata token context => exact .nothing fun _ => ⟨rfl, rfl, fun _ => id, id⟩
  | authorizeMaterialUse token grant =>
    unfold ReferenceRegistry.authorizeMaterialUse
    cases hlookup : s.registry.lookup (hmac s.registry.key token) with
    | error e =>
      simp only [hlookup]
      exact .nothing fun _ => ⟨rfl, rfl, fun _ => id, id⟩
    | ok entry =>
      cases hcheck : ReferenceRegistry.check entry grant.context with
      | error e =>
        simp only [hlookup, hcheck]
        exact .nothing fun _ => ⟨rfl, rfl, fun _ => id, id⟩
      | ok u =>
        simp only [hlookup, hcheck]
        by_cases hroom : entry.useCount + 1 < 2 ^ 32
        · rw [if_pos hroom]
          exact .authorized (lookup_ok hlookup) hcheck rfl
        · rw [if_neg hroom]
          exact .nothing fun _ => ⟨rfl, rfl, fun _ => id, id⟩
  | settle lease outcome =>
    unfold ReferenceRegistry.settle
    dsimp only
    split
    · next houtcome =>
      subst houtcome
      split
      · next hentry => exact .returned hentry
      · next hnone => exact .settled (.inr hnone)
    · next houtcome => exact .settled (.inl houtcome)
  | revoke token =>
    unfold ReferenceRegistry.revoke
    dsimp only
    split
    · exact .nothing fun _ => ⟨rfl, rfl, fun _ => id, id⟩
    · next hentry => exact .revoked hentry

variable {hmac}

theorem Holding.Acts.key {s s' : Holding} (h : s.Acts hmac x s') :
    s'.registry.key = s.registry.key := by
  cases h with
  | _ => rfl

theorem Holding.Acts.frame {s s' : Holding} (h : s.Acts hmac x s')
    (hne : x.op.subject hmac s.registry.key ≠ some id) :
    s'.registry.entries id = s.registry.entries id
    ∧ s'.held id = s.held id ∧ Quiet hmac s.registry.key id x := by
  cases h with
  | nothing hquiet => exact ⟨rfl, rfl, hquiet id⟩
  | @created _ entry token hgenerated hnone =>
    subst hgenerated
    have hid : hmac s.registry.key token ≠ id := fun h => hne (congrArg some h)
    exact ⟨put_other _ _ hid.symm, rfl, rfl, rfl, fun _ h => hid h.1, fun h => h⟩
  | @authorized token _ _ _ _ _ hlease =>
    have hid : hmac s.registry.key token ≠ id := fun h => hne (congrArg some h)
    refine ⟨put_other _ _ hid.symm, ?_, ?_, rfl, fun _ h => h, fun h => h⟩
    · exact countP_cons_of_neg (by simp [hlease, hid])
    · simp [Runtime.grants, hlease, hid]
  | @settled lease outcome hkept =>
    have hid : lease.idHash ≠ id := fun h => hne (congrArg some h)
    refine ⟨rfl, held_erase_other hid, rfl, ?_, fun _ h => h, fun h => h⟩
    cases outcome <;> simp [Runtime.returns, hid]
  | @returned lease entry hentry =>
    have hid : lease.idHash ≠ id := fun h => hne (congrArg some h)
    exact ⟨put_other _ _ hid.symm, held_erase_other hid,
      rfl, by simp [Runtime.returns, hid], fun _ h => h, fun h => h⟩
  | @revoked token entry hentry =>
    have hid : hmac s.registry.key token ≠ id := fun h => hne (congrArg some h)
    exact ⟨put_other _ _ hid.symm, rfl, rfl, rfl, fun _ h => h, fun h => hid h⟩

-- ==== what every run keeps

variable {key : RegistryKey} {id : IdHash} {h : RegistryHistory}
  {s s' : Holding} {x : Exchange registryInterface}

theorem granted_cons : granted id (x :: h)
    = granted id h + if grants id x then 1 else 0 := countP_cons

theorem returned_cons : returned id (x :: h)
    = returned id h + if returns id x then 1 else 0 := countP_cons

theorem Sound.of_some (hsound : Sound hmac key id h s)
    (he : s.registry.entries id = some e) : EntrySound hmac key id h (s.held id) e := by
  unfold Sound at hsound
  rwa [he] at hsound

theorem Sound.of_none (hsound : Sound hmac key id h s)
    (he : s.registry.entries id = none) : Untouched hmac key id h (s.held id) := by
  unfold Sound at hsound
  rwa [he] at hsound

theorem EntrySound.sound (hsound : EntrySound hmac key id h (s.held id) e)
    (he : s.registry.entries id = some e) : Sound hmac key id h s := by
  unfold Sound
  rwa [he]

theorem Sound.quiet (hsound : Sound hmac key id h s)
    (hquiet : Quiet hmac key id x) (hentries : s'.registry.entries id = s.registry.entries id)
    (hheld : s'.held id = s.held id) : Sound hmac key id (x :: h) s' := by
  unfold Sound at hsound ⊢
  rw [hentries, hheld]
  split at hsound
  · refine ⟨?_, ?_, hsound.held, ?_, ?_⟩
    · rw [granted_cons, hquiet.grants, hsound.granted]
      rfl
    · rw [returned_cons, hquiet.returns, hsound.returned]
      rfl
    · exact forall_mem_cons.2 ⟨hquiet.creates, hsound.created⟩
    · exact forall_mem_cons.2 ⟨hquiet.revokes, hsound.revoked⟩
  · refine ⟨hsound.idHash, ?_, ?_, hsound.held, hsound.capped, ?_⟩
    · exact forall_mem_cons.2 ⟨fun e₀ hc => absurd hc (hquiet.creates e₀), hsound.asCreated⟩
    · rw [granted_cons, returned_cons, hquiet.grants, hquiet.returns]
      exact hsound.counted
    · exact forall_mem_cons.2 ⟨fun hr => absurd hr hquiet.revokes, hsound.revoked⟩

theorem EntrySound.next {held held' : Nat} {e e' : ReferenceEntry}
    (hentry : EntrySound hmac key id h held e)
    (hstatic : { e' with useCount := 0, revoked := false }
      = { e with useCount := 0, revoked := false }) (hcreates : ∀ e₀, ¬ creates hmac key id e₀ x)
    (hrevokes : e.revoked = true ∨ revokes hmac key id x → e'.revoked = true)
    (hcounted : e'.useCount + returned id (x :: h) = granted id (x :: h))
    (hheld : held' ≤ e'.useCount) (hcapped : ∀ max, e'.maxUses = some max → e'.useCount ≤ max) :
    EntrySound hmac key id (x :: h) held' e' where
  idHash := (congrArg ReferenceEntry.idHash hstatic).trans hentry.idHash
  asCreated := forall_mem_cons.2 ⟨fun e₀ hc => absurd hc (hcreates e₀),
      fun x hx e₀ hc => hstatic.trans (hentry.asCreated x hx e₀ hc)⟩
  counted := hcounted
  held := hheld
  capped := hcapped
  revoked := forall_mem_cons.2 ⟨fun hr => hrevokes (.inr hr),
    fun x hx hr => hrevokes (.inl (hentry.revoked x hx hr))⟩

theorem Sound.create {generated : Option ReferenceToken}
    (hsound : Sound hmac key (hmac key token) h s)
    (hnone : s.registry.entries (hmac key token) = none) :
    Sound hmac key (hmac key token) (⟨.create generated entry, .ok token⟩ :: h)
      ⟨s.registry.put (hmac key token) { entry with idHash := hmac key token, useCount := 0 },
        s.leases⟩ := by
  have huntouched := hsound.of_none hnone
  refine EntrySound.sound ?_ (put_same _ _ _)
  refine ⟨rfl, ?_, ?_, huntouched.held.le, fun _ _ => Nat.zero_le _, ?_⟩
  · refine forall_mem_cons.2 ⟨?_, fun x hx e₀ hc => absurd hc (huntouched.created x hx e₀)⟩
    rintro e₀ ⟨-, rfl⟩
    rfl
  · rw [granted_cons, returned_cons, huntouched.granted, huntouched.returned]
    rfl
  · exact forall_mem_cons.2 ⟨fun hr => hr.elim, fun x hx hr => absurd hr (huntouched.revoked x hx)⟩

theorem Sound.authorize (hsound : Sound hmac key id h s)
    {grant : MaterialUseGrant} (he : s.registry.entries id = some e)
    (hcheck : ReferenceRegistry.check e grant.context = .ok ()) (hlease : lease.idHash = id) :
    Sound hmac key id (⟨.authorizeMaterialUse token grant, .ok lease⟩ :: h)
      ⟨s.registry.put id { e with useCount := e.useCount + 1 }, lease :: s.leases⟩ := by
  have hentry := hsound.of_some he
  obtain ⟨-, -, hroom⟩ := check_ok hcheck
  have hheld : Holding.held ⟨s.registry.put id
      { e with useCount := e.useCount + 1 }, lease :: s.leases⟩ id
      = s.held id + 1 := countP_cons_of_pos (by simp [hlease])
  refine EntrySound.sound ?_ (put_same _ _ _)
  refine hentry.next rfl (fun _ hc => hc) ?_ ?_ ?_ hroom
  · rintro (hr | hr)
    · exact hr
    · exact hr.elim
  · have hcounted := hentry.counted
    rw [granted_cons, returned_cons]
    simp only [grants, returns, hlease, decide_true, if_true]
    simp only [Bool.false_eq_true, if_false]
    omega
  · rw [hheld]
    exact Nat.succ_le_succ hentry.held

theorem Sound.of_lease (hsound : Sound hmac key lease.idHash h s)
    (hmem : lease ∈ s.leases) : ∃ e, s.registry.entries lease.idHash = some e
      ∧ EntrySound hmac key lease.idHash h (s.held lease.idHash) e := by
  cases he : s.registry.entries lease.idHash with
  | some e => exact ⟨e, rfl, hsound.of_some he⟩
  | none =>
    have hnone := (hsound.of_none he).held
    have hheld := held_erase hmem
    omega

theorem Sound.settle {outcome : LeaseOutcome} (hsound : Sound hmac key lease.idHash h s)
    (hmem : lease ∈ s.leases) (hkept : outcome ≠ .consumedNotExecuted
      ∨ s.registry.entries lease.idHash = none) :
    Sound hmac key lease.idHash (⟨.settle lease outcome, ans⟩ :: h)
      { s with leases := s.leases.erase lease } := by
  obtain ⟨e, he, hentry⟩ := hsound.of_lease hmem
  refine EntrySound.sound ?_ he
  refine hentry.next rfl (fun _ hc => hc) (·.resolve_right id) ?_ ?_ hentry.capped
  · rw [granted_cons, returned_cons]
    cases outcome with
    | executedUnknown | completed => exact hentry.counted
    | consumedNotExecuted =>
      rcases hkept with hne | hnone
      · exact absurd rfl hne
      · cases hnone.symm.trans he
  · have hheld := held_erase hmem
    have hsome := hentry.held
    change (s.leases.erase lease).countP _ ≤ _
    omega

theorem Sound.giveBack (hsound : Sound hmac key lease.idHash h s) (hmem : lease ∈ s.leases)
    (he : s.registry.entries lease.idHash = some e) : Sound hmac key lease.idHash
      (⟨.settle lease .consumedNotExecuted, ans⟩ :: h)
      ⟨s.registry.put lease.idHash { e with useCount := e.useCount - 1 },
        s.leases.erase lease⟩ := by
  have hentry := hsound.of_some he
  have hheld := held_erase hmem
  have hsome := hentry.held
  have hcounted := hentry.counted
  refine EntrySound.sound ?_ (put_same _ _ _)
  refine hentry.next rfl (fun _ hc => hc) (·.resolve_right id) ?_ ?_
    fun max hmax => (Nat.sub_le _ _).trans (hentry.capped max hmax)
  · rw [granted_cons, returned_cons]
    simp only [grants, returns, decide_true, if_true]
    simp only [Bool.false_eq_true, if_false]
    omega
  · change (s.leases.erase lease).countP _ ≤ e.useCount - 1
    omega

theorem Sound.revoke (hsound : Sound hmac key id h s)
    (he : s.registry.entries id = some e) : Sound hmac key id (⟨.revoke token, .ok ()⟩ :: h)
      ⟨s.registry.put id { e with revoked := true }, s.leases⟩ := by
  have hentry := hsound.of_some he
  refine EntrySound.sound ?_ (put_same _ _ _)
  refine hentry.next rfl (fun _ hc => hc) (fun _ => rfl) ?_ hentry.held hentry.capped
  rw [granted_cons, returned_cons]
  exact hentry.counted

theorem Sound.step (hsound : Sound hmac s.registry.key id h s)
    (hstep : (registryService hmac).Step s x s') : Sound hmac s.registry.key id (x :: h) s' := by
  obtain ⟨o, s, hallowed⟩ := hstep
  change Sound hmac s.registry.key id (⟨o, (Holding.act hmac o s).1⟩ :: h) (Holding.act hmac o s).2
  have hacts := s.acts hmac o
  by_cases hsubject : o.subject hmac s.registry.key = some id
  swap
  · obtain ⟨hentries, hheld, hquiet⟩ := hacts.frame hsubject
    exact hsound.quiet hquiet hentries hheld
  generalize (Holding.act hmac o s).1 = ans, (Holding.act hmac o s).2 = s' at hacts
  cases hacts with
  | nothing hquiet => exact hsound.quiet (hquiet id) rfl rfl
  | created hgenerated hnone =>
    subst hgenerated
    obtain rfl := Option.some.inj hsubject
    exact hsound.create hnone
  | authorized hentry hcheck hlease =>
    obtain rfl := Option.some.inj hsubject
    exact hsound.authorize hentry hcheck hlease
  | settled hkept =>
    obtain rfl := Option.some.inj hsubject
    exact hsound.settle hallowed hkept
  | returned hentry =>
    obtain rfl := Option.some.inj hsubject
    exact hsound.giveBack hallowed hentry
  | revoked hentry =>
    obtain rfl := Option.some.inj hsubject
    exact hsound.revoke hentry

end

/-- What holds of the references in every state a registry comes to. -/
structure UseLimits (hmac : RegistryKey → ReferenceToken → IdHash)
    (key : RegistryKey) (h : RegistryHistory) (s : Holding) : Prop where
  /-- The count is that of the uses granted and not given back. -/
  counted : ∀ id e, s.registry.entries id = some e → e.useCount + returned id h = granted id h
  /-- It does not exceed the limit the reference was created with. -/
  capped : ∀ id e₀, (∃ x ∈ h, creates hmac key id e₀ x) → ∃ e, s.registry.entries id = some e
      ∧ ∀ max, e₀.maxUses = some max → e.useCount ≤ max
  /-- A lease that is held has a use to give back. -/
  unsaturated : ∀ lease ∈ s.leases, ∃ e, s.registry.entries lease.idHash = some e ∧ 1 ≤ e.useCount
  /-- A use is granted before the expiry the reference was created with,
  and if it was not revoked. -/
  granted : ∀ token grant lease, (Holding.act hmac (.authorizeMaterialUse token grant) s).1
    = .ok lease → (∀ e₀, (∃ x ∈ h, creates hmac key (hmac key token) e₀ x) →
      grant.context.now < e₀.expiresAt)
    ∧ ¬ ∃ x ∈ h, revokes hmac key (hmac key token) x
  metadata : ∀ token context, (Holding.act hmac (.metadata token context) s).2 = s
  /-- An operation on one reference leaves every other as it is. -/
  frame : ∀ o id, o.subject hmac key ≠ some id →
    (Holding.act hmac o s).2.registry.entries id = s.registry.entries id

/-- Whatever any number of callers do, in any order and at any times, the
uses of every reference are counted exactly. -/
theorem use_limits_exact {hmac : RegistryKey → ReferenceToken → IdHash}
    {key : RegistryKey} {registry : ReferenceRegistry}
    {durable : Bool} (hnew : ReferenceRegistry.new key durable = .ok registry) {h : RegistryHistory}
    {s : Holding} (hrun : (registryService hmac).Run (fun _ _ => True) ⟨registry, []⟩ h
      s) : UseLimits hmac key h s := by
  have hregistry : registry = ⟨fun _ => none, key⟩ := by
    unfold ReferenceRegistry.new at hnew
    split at hnew
    · cases hnew
    · exact (Except.ok.inj hnew).symm
  subst hregistry
  obtain ⟨hkey, hsound⟩ : s.registry.key = key
      ∧ ∀ id, Sound hmac key id h s := by
    refine hrun.invariant (P := fun h s => s.registry.key = key
      ∧ ∀ id, Sound hmac key id h s) ⟨rfl, fun id => ?_⟩ ?_
    · exact ⟨rfl, rfl, rfl, fun _ hx => absurd hx not_mem_nil, fun _ hx => absurd hx not_mem_nil⟩
    · rintro h s x s' ⟨rfl, hsound⟩ - hstep
      refine ⟨?_, fun id => (hsound id).step hstep⟩
      cases hstep with
      | ask o s hallowed => exact (s.acts hmac o).key
  constructor
  case counted => exact fun id e he => ((hsound id).of_some he).counted
  case capped =>
    rintro id e₀ ⟨x, hx, hcreates⟩
    cases he : s.registry.entries id with
    | none => exact absurd hcreates (((hsound id).of_none he).created x hx _)
    | some e =>
      have hentry := (hsound id).of_some he
      have hsame := hentry.asCreated x hx e₀ hcreates
      exact ⟨e, rfl, fun max hmax => hentry.capped max (hsame.maxUses.trans hmax)⟩
  case unsaturated =>
    intro lease hmem
    obtain ⟨e, he, hentry⟩ := (hsound _).of_lease hmem
    have hpos : 0 < s.held lease.idHash := countP_pos_iff.2 ⟨lease, hmem, by simp⟩
    exact ⟨e, he, hpos.trans_le hentry.held⟩
  case granted =>
    intro token grant lease hok
    subst hkey
    have hacts := s.acts hmac (.authorizeMaterialUse token grant)
    rw [hok] at hacts
    generalize (Holding.act hmac _ s).2 = s' at hacts
    cases hacts with
    | nothing hquiet =>
      have hgrants := (hquiet lease.idHash).grants
      simp [grants] at hgrants
    | authorized he hcheck =>
      have hentry := (hsound _).of_some he
      obtain ⟨hrevoked, hexpiry, -⟩ := ReferenceRegistry.check_ok hcheck
      constructor
      · rintro e₀ ⟨x, hx, hcreates⟩
        exact (hentry.asCreated x hx e₀ hcreates).expiresAt ▸ hexpiry
      · rintro ⟨x, hx, hrevokes⟩
        cases (hentry.revoked x hx hrevokes).symm.trans hrevoked
  case metadata => exact fun _ _ => rfl
  case frame =>
    subst hkey
    exact fun o id hne => ((s.acts hmac o).frame hne).1

-- ==== a sample

namespace Sample

def hmac (_ : RegistryKey) (token : ReferenceToken) : IdHash := token.bytes

def key : RegistryKey := ⟨[]⟩

def token : ReferenceToken := ⟨[7]⟩

def anywhere : DestinationSelector := ⟨none, none, none, none⟩

def single : ReferenceEntry where
  idHash := []
  resource := "provider-key"
  class_ := .executeOnly
  ownerPrincipal := none
  audience := []
  allowedOperations := [.execute]
  createdAt := 0
  expiresAt := 10
  sessionId := none
  maxUses := some 1
  useCount := 0
  metadataProjection := ⟨"provider_credential", [.execute], [], 10⟩
  policyVersion := ⟨1⟩
  revoked := false

def grant (now : Int) : MaterialUseGrant :=
  ⟨⟨none, none, .execute, anywhere, now⟩, []⟩

def lease : MaterialLease := ⟨"provider-key", [], [7]⟩

def unused : Holding := ⟨⟨fun _ => none, key⟩, []⟩

def ops : List RegistryOp :=
  [.create (some token)
    single, .authorizeMaterialUse token (grant 1), .settle lease .consumedNotExecuted,
    .authorizeMaterialUse token (grant 2), .authorizeMaterialUse token (grant 3), .revoke token]

instance (o : RegistryOp) (s : Holding) : Decidable ((registryService hmac).allowed o s) :=
  inferInstanceAs (Decidable (o.allowed s))

end Sample

theorem use_limits_single :
    let r := (registryService Sample.hmac).played Sample.unused Sample.ops (by decide)
    UseLimits Sample.hmac Sample.key r.1 r.2
    ∧ granted [7] r.1 = 2 ∧ returned [7] r.1 = 1
    ∧ (r.2.registry.entries [7]).map (·.useCount) = some 1
    ∧ r.2.leases = [Sample.lease] :=
  have hnew : ReferenceRegistry.new Sample.key false = .ok Sample.unused.registry := rfl
  ⟨use_limits_exact hnew (Service.played_run _), by decide, by decide,
    by decide, by decide⟩

end SovereignVault.Runtime
