/-
`references::locator`: the ledger behind public locators.

A locator names a resource, and is exchanged for a token. Revocation and
the cap on exchanges belong to the resource. The use is consumed before
the token is drawn, and not given back if drawing fails.

A resource the ledger has not seen has no state, and `revoke_resource`
passes over it: a locator mapped to it later finds a state that is not
revoked (`revoked_before_mapping`).
-/
import SovereignVault.Runtime.Registry

namespace SovereignVault.Runtime

open Dialogue Function

-- ==== the ledger

structure PublicLocator where
  id : Bytes

inductive LocatorExchangeError where
  | unknown | entryRevoked | resourceRevoked | exhausted | internal
  deriving DecidableEq

structure LocatorRecord where
  resource : InternalResourceId
  revoked : Bool

def LocatorRecord.new (resource : InternalResourceId) : LocatorRecord :=
  ⟨resource, false⟩

structure ResourceState where
  revoked : Bool
  maxUses : Option Nat
  useCount : Nat

def ResourceState.new (maxUses : Option Nat) : ResourceState :=
  ⟨false, maxUses, 0⟩

def ResourceState.consume (state : ResourceState) : Except LocatorExchangeError ResourceState :=
  if state.maxUses.any (· ≤ state.useCount) then .error .exhausted
  else if state.useCount + 1 < 2 ^ 32 then
    .ok { state with useCount := state.useCount + 1 }
  else .error .exhausted

structure LocatorLedger where
  records : Bytes → Option LocatorRecord
  resources : InternalResourceId → Option ResourceState

namespace LocatorLedger

def new : LocatorLedger := ⟨fun _ => none, fun _ => none⟩

variable (ledger : LocatorLedger)

def withState (r : InternalResourceId) (state : ResourceState) : LocatorLedger :=
  { ledger with
    resources := update ledger.resources r (some state) }

def withRecord (id : Bytes) (record : LocatorRecord) : LocatorLedger :=
  { ledger with
    records := update ledger.records id (some record) }

def map (locator : PublicLocator) (resource : InternalResourceId) :
    Except RuntimeError Unit × LocatorLedger :=
  if (ledger.records locator.id).isSome then
    (.error .invalidStructure, ledger)
  else
    let state := (ledger.resources resource).getD (.new none)
    (.ok (), (ledger.withState resource state).withRecord locator.id (.new resource))

def revokeEntry (locator : PublicLocator) : LocatorLedger :=
  match ledger.records locator.id with
  | some record => ledger.withRecord locator.id { record with revoked := true }
  | none => ledger

def revokeResource (resource : InternalResourceId) : LocatorLedger :=
  match ledger.resources resource with
  | some state => ledger.withState resource { state with revoked := true }
  | none => ledger

def exchange (locator : PublicLocator) (generated : Option ReferenceToken) :
    Except LocatorExchangeError ReferenceToken × LocatorLedger :=
  match ledger.records locator.id with
  | none => (.error .unknown, ledger)
  | some record =>
    if record.revoked then (.error .entryRevoked, ledger)
    else
      match ledger.resources record.resource with
      | none => (.error .unknown, ledger)
      | some state =>
        if state.revoked then (.error .resourceRevoked, ledger)
        else
          match state.consume with
          | .error e => (.error e, ledger)
          | .ok state =>
            (match generated with
              | some token => .ok token
              | none => .error .internal,
              ledger.withState record.resource state)

def resourceOf (locator : PublicLocator) : Option InternalResourceId :=
  (ledger.records locator.id).map (·.resource)

def useCount (resource : InternalResourceId) : Option Nat :=
  (ledger.resources resource).map (·.useCount)

end LocatorLedger

-- ==== the service

inductive LedgerOp where
  | map (locator : PublicLocator) (resource : InternalResourceId)
  | exchange (locator : PublicLocator) (generated : Option ReferenceToken)
  | revokeEntry (locator : PublicLocator)
  | revokeResource (resource : InternalResourceId)

def LedgerOp.Ans : LedgerOp → Type
  | .map _ _ => Except RuntimeError Unit
  | .exchange _ _ => Except LocatorExchangeError ReferenceToken
  | .revokeEntry _ | .revokeResource _ => Unit

abbrev ledgerInterface : Interface := ⟨LedgerOp, LedgerOp.Ans⟩

def LocatorLedger.act : (o : LedgerOp) → LocatorLedger → o.Ans × LocatorLedger
  | .map locator resource, ledger => ledger.map locator resource
  | .exchange locator generated, ledger => ledger.exchange locator generated
  | .revokeEntry locator, ledger => ((), ledger.revokeEntry locator)
  | .revokeResource resource, ledger => ((), ledger.revokeResource resource)

def ledgerService : Service ledgerInterface LocatorLedger where
  act := LocatorLedger.act
  allowed _ _ := True

abbrev LedgerHistory := List (Exchange ledgerInterface)

-- ==== what a step does

theorem ResourceState.consume_cases (state : ResourceState) : state.consume = .error .exhausted
    ∨ (state.consume = .ok { state with useCount := state.useCount + 1 }
      ∧ ∀ max, state.maxUses = some max → state.useCount < max) := by
  unfold consume
  split_ifs with hcap hroom
  · exact .inl rfl
  · refine .inr ⟨rfl, fun max hmax => ?_⟩
    simpa [hmax] using hcap
  · exact .inl rfl

def drawn (generated : Option ReferenceToken) : Except LocatorExchangeError ReferenceToken :=
  match generated with
  | some token => .ok token
  | none => .error .internal

namespace LocatorLedger

variable (ledger : LocatorLedger)

theorem exchange_cases
    (locator : PublicLocator) (generated : Option ReferenceToken) : (∃ e, e ≠ .internal
      ∧ ledger.exchange locator generated = (.error e, ledger))
    ∨ ∃ record state, ledger.records locator.id = some record
      ∧ ledger.resources record.resource = some state
      ∧ state.revoked = false
      ∧ (∀ max, state.maxUses = some max → state.useCount < max)
      ∧ ledger.exchange locator generated = (drawn generated, ledger.withState record.resource
          { state with useCount := state.useCount + 1 }) := by
  unfold exchange
  cases hrecord : ledger.records locator.id with
  | none => exact .inl ⟨.unknown, by decide, rfl⟩
  | some record =>
    dsimp only
    split
    · exact .inl ⟨.entryRevoked, by decide, rfl⟩
    cases hstate : ledger.resources record.resource with
    | none => exact .inl ⟨.unknown, by decide, rfl⟩
    | some state =>
      dsimp only
      split
      · exact .inl ⟨.resourceRevoked, by decide, rfl⟩
      next hrevoked =>
      rcases state.consume_cases with hconsume | ⟨hconsume, hroom⟩
      · rw [hconsume]
        exact .inl ⟨.exhausted, by decide, rfl⟩
      · rw [hconsume]
        exact .inr ⟨record, state, rfl, hstate, Bool.eq_false_iff.2 hrevoked, hroom, rfl⟩

theorem exchange_of_live {locator : PublicLocator}
    (generated : Option ReferenceToken) {record : LocatorRecord} {state state' : ResourceState}
    (hrecord : ledger.records locator.id = some record) (hlive : record.revoked = false)
    (hstate : ledger.resources record.resource = some state) (hopen : state.revoked = false)
    (hconsume : state.consume = .ok state') : ledger.exchange locator generated
      = (drawn generated, ledger.withState record.resource state') := by
  unfold exchange
  simp only [hrecord, hlive, hstate, hopen, hconsume]
  rfl

@[simp] theorem resources_withState (r : InternalResourceId)
    (state : ResourceState) : (ledger.withState r state).resources r = some state :=
  update_self _ _ _

theorem resources_withState_of_ne {r r' : InternalResourceId} (state : ResourceState)
    (hne : r' ≠ r) : (ledger.withState r state).resources r' = ledger.resources r' :=
  update_of_ne hne _ _

@[simp] theorem records_withRecord (id : Bytes) (record : LocatorRecord) :
    (ledger.withRecord id record).records id = some record :=
  update_self _ _ _

theorem records_withRecord_of_ne {id id' : Bytes} (record : LocatorRecord)
    (hne : id' ≠ id) : (ledger.withRecord id record).records id' = ledger.records id' :=
  update_of_ne hne _ _

end LocatorLedger

/-- The locator of an exchange that consumed a use: it succeeded, or failed
when the token was drawn. -/
def spends : Exchange ledgerInterface → Option PublicLocator
  | ⟨.exchange locator _, .ok _⟩ => some locator
  | ⟨.exchange locator _, .error .internal⟩ => some locator
  | _ => none

variable (locator : PublicLocator) (generated : Option ReferenceToken)

theorem spends_drawn : spends ⟨.exchange locator generated, drawn generated⟩ = some locator := by
  cases generated <;> rfl

theorem spends_error {e : LocatorExchangeError} (hne : e ≠ .internal) :
    spends ⟨.exchange locator generated, .error e⟩ = none := by
  cases e with
  | internal => exact absurd rfl hne
  | unknown | entryRevoked | resourceRevoked | exhausted => rfl

/-- The exchange consumed a use of a resource, by what the ledger says its
locator names. -/
def consumesOf (ledger : LocatorLedger) (r : InternalResourceId)
    (x : Exchange ledgerInterface) : Bool :=
  (spends x).any (ledger.resourceOf · = some r)

/-- What one operation can do to the state of one resource, and whether it
consumed a use of it. -/
inductive Moves : Bool → Option ResourceState → Option ResourceState →
    Prop where
  | keep (state : Option ResourceState) : Moves false state state
  | create : Moves false none (some (.new none))
  | revoke (state : ResourceState) : Moves false (some state) (some { state with revoked := true })
  | spend (state : ResourceState) (hopen : state.revoked = false)
      (hroom : ∀ max, state.maxUses = some max → state.useCount < max) : Moves true (some state)
        (some { state with useCount := state.useCount + 1 })

inductive LocatorLedger.Acts (ledger : LocatorLedger) :
    Exchange ledgerInterface → LocatorLedger → Prop where
  | nothing {x : Exchange ledgerInterface} (hspends : spends x = none) : Acts ledger x ledger
  | mapped {locator : PublicLocator} {resource : InternalResourceId}
      (hnew : ledger.records locator.id = none) : Acts ledger ⟨.map locator resource, .ok ()⟩
        ((ledger.withState resource ((ledger.resources resource).getD (.new none))).withRecord
            locator.id (.new resource))
  | spent {locator : PublicLocator} {generated : Option ReferenceToken} {record : LocatorRecord}
      {state : ResourceState} (hrecord : ledger.records locator.id = some record)
      (hstate : ledger.resources record.resource = some state) (hopen : state.revoked = false)
      (hroom : ∀ max, state.maxUses = some max → state.useCount < max) :
      Acts ledger ⟨.exchange locator generated, drawn generated⟩ (ledger.withState record.resource
          { state with useCount := state.useCount + 1 })
  | entryRevoked {locator : PublicLocator} {record : LocatorRecord}
      (hrecord : ledger.records locator.id = some record) : Acts ledger ⟨.revokeEntry locator, ()⟩
        (ledger.withRecord locator.id { record with revoked := true })
  | resourceRevoked {resource : InternalResourceId} {state : ResourceState}
      (hstate : ledger.resources resource = some state) : Acts ledger ⟨.revokeResource resource, ()⟩
        (ledger.withState resource { state with revoked := true })

theorem LocatorLedger.acts (o : LedgerOp) (ledger : LocatorLedger) :
    ledger.Acts ⟨o, (ledger.act o).1⟩ (ledger.act o).2 := by
  unfold LocatorLedger.act
  cases o with
  | map locator resource =>
    unfold LocatorLedger.map
    dsimp only
    split
    · exact .nothing rfl
    · next hnew => exact .mapped (by simpa using hnew)
  | exchange locator generated =>
    dsimp only
    rcases ledger.exchange_cases locator generated with ⟨e, hne, hexchange⟩
      | ⟨record, state, hrecord, hstate, hopen, hroom, hexchange⟩
    · rw [hexchange]
      exact .nothing (spends_error locator generated hne)
    · rw [hexchange]
      exact .spent hrecord hstate hopen hroom
  | revokeEntry locator =>
    unfold LocatorLedger.revokeEntry
    dsimp only
    split
    · next hrecord => exact .entryRevoked hrecord
    · exact .nothing rfl
  | revokeResource resource =>
    unfold LocatorLedger.revokeResource
    dsimp only
    split
    · next hstate => exact .resourceRevoked hstate
    · exact .nothing rfl

variable {r : InternalResourceId} {locator : PublicLocator} {spent : Bool}
  {state state' : Option ResourceState} {h : LedgerHistory}
  {ledger ledger' : LocatorLedger} {x : Exchange ledgerInterface}

theorem LocatorLedger.Acts.names (hacts : ledger.Acts x ledger')
    (hnames : ledger.resourceOf locator = some r) : ledger'.resourceOf locator = some r := by
  obtain ⟨record, hrecord, rfl⟩ := Option.map_eq_some_iff.1 hnames
  unfold LocatorLedger.resourceOf
  cases hacts with
  | nothing | spent | resourceRevoked => exact hnames
  | @mapped other resource hnew =>
    have hne : locator.id ≠ other.id := by
      intro heq
      rw [heq, hnew] at hrecord
      cases hrecord
    rw [LocatorLedger.records_withRecord_of_ne _ _ hne]
    exact hnames
  | @entryRevoked other record' hrecord' =>
    by_cases heq : locator.id = other.id
    · rw [heq] at hrecord
      cases hrecord.symm.trans hrecord'
      rw [heq, LocatorLedger.records_withRecord]
      rfl
    · rw [LocatorLedger.records_withRecord_of_ne _ _ heq]
      exact hnames

theorem LocatorLedger.Acts.moves (hacts : ledger.Acts x ledger')
    (r : InternalResourceId) : Moves (consumesOf ledger' r x) (ledger.resources r)
      (ledger'.resources r) := by
  cases hacts with
  | nothing hspends =>
    rw [consumesOf, hspends]
    exact .keep _
  | @mapped locator resource hnew =>
    change Moves false _ ((ledger.withState resource _).resources r)
    by_cases heq : r = resource
    · subst heq
      rw [LocatorLedger.resources_withState]
      cases ledger.resources r with
      | none => exact .create
      | some state => exact .keep _
    · rw [LocatorLedger.resources_withState_of_ne _ _ heq]
      exact .keep _
  | @spent locator generated record state hrecord hstate hopen hroom =>
    have hnames : (ledger.withState record.resource
        { state with useCount := state.useCount + 1 }).resourceOf locator
        = some record.resource := by
      exact congrArg (Option.map LocatorRecord.resource) hrecord
    rw [consumesOf, spends_drawn, Option.any_some, hnames]
    by_cases heq : r = record.resource
    · subst heq
      rw [LocatorLedger.resources_withState, hstate, decide_eq_true rfl]
      exact .spend state hopen hroom
    · rw [LocatorLedger.resources_withState_of_ne _ _ heq,
        decide_eq_false (fun h => heq (Option.some.inj h).symm)]
      exact .keep _
  | entryRevoked => exact .keep _
  | @resourceRevoked resource state hstate =>
    by_cases heq : r = resource
    · subst heq
      rw [LocatorLedger.resources_withState, hstate]
      exact .revoke state
    · rw [LocatorLedger.resources_withState_of_ne _ _ heq]
      exact .keep _

-- ==== what every run keeps

def LocatorLedger.uses (ledger : LocatorLedger) (r : InternalResourceId) : Nat :=
  (ledger.useCount r).getD 0

def LocatorLedger.Bounded (ledger : LocatorLedger) : Prop :=
  ∀ r state, ledger.resources r = some state →
    ∀ max, state.maxUses = some max → state.useCount ≤ max

theorem Moves.uses (hmoves : Moves spent (ledger.resources r) (ledger'.resources r)) :
    ledger'.uses r = ledger.uses r + if spent then 1 else 0 := by
  unfold LocatorLedger.uses LocatorLedger.useCount
  generalize ledger.resources r = state at hmoves
  generalize ledger'.resources r = state' at hmoves
  cases hmoves <;> rfl

theorem Moves.bounded (hmoves : Moves spent state state') (hbounded : ∀ x, state = some x →
      ∀ max, x.maxUses = some max → x.useCount ≤ max) :
    ∀ x, state' = some x → ∀ max, x.maxUses = some max → x.useCount ≤ max := by
  rintro x rfl max hmax
  cases hmoves with
  | keep => exact hbounded x rfl max hmax
  | create => cases hmax
  | revoke state => exact hbounded state rfl max hmax
  | spend state _ hroom => exact hroom max hmax

theorem Moves.cap (hmoves : Moves spent state state') {x : ResourceState}
    (hx : state = some x) : ∃ x', state' = some x' ∧ x'.maxUses = x.maxUses := by
  subst hx
  cases hmoves with
  | keep => exact ⟨x, rfl, rfl⟩
  | revoke | spend => exact ⟨_, rfl, rfl⟩

theorem Moves.revoked (hmoves : Moves spent state state') {x : ResourceState} (hx : state = some x)
    (hrevoked : x.revoked = true) : ∃ x', state' = some x' ∧ x'.revoked = true := by
  subst hx
  cases hmoves with
  | keep => exact ⟨x, rfl, hrevoked⟩
  | revoke => exact ⟨_, rfl, rfl⟩
  | spend _ hopen =>
    rw [hopen] at hrevoked
    cases hrevoked

theorem LocatorLedger.Acts.named (hacts : ledger.Acts x ledger')
    (hspends : spends x = some locator) : ∃ r, ledger'.resourceOf locator = some r := by
  cases hacts with
  | nothing hnone => cases hnone.symm.trans hspends
  | mapped | entryRevoked | resourceRevoked => cases hspends
  | spent hrecord =>
    rw [spends_drawn] at hspends
    obtain rfl := Option.some.inj hspends
    exact ⟨_, congrArg (Option.map LocatorRecord.resource) hrecord⟩

-- ==== the use counts

/-- What holds between a ledger and every one it comes to. -/
structure CapsExact (start : LocatorLedger) (h : LedgerHistory)
    (ledger : LocatorLedger) : Prop where
  /-- A count grows by the exchanges of the locators that name the
  resource, as far as they came to consume a use. -/
  counted : ∀ r, ledger.uses r = start.uses r + h.countP (consumesOf ledger r)
  capped : start.Bounded → ledger.Bounded
  caps : ∀ r state, start.resources r = some state →
    ∃ state', ledger.resources r = some state' ∧ state'.maxUses = state.maxUses
  /-- An exchange that fails before it consumes moves nothing. -/
  failed : ∀ locator generated e, (ledger.exchange locator generated).1
    = .error e → e ≠ .internal → (ledger.exchange locator generated).2 = ledger
  names : ∀ locator r, start.resourceOf locator = some r → ledger.resourceOf locator = some r

theorem exchange_failed
    (ledger : LocatorLedger) (locator : PublicLocator) (generated : Option ReferenceToken)
    (e : LocatorExchangeError) (herror : (ledger.exchange locator generated).1 = .error e)
    (hne : e ≠ .internal) : (ledger.exchange locator generated).2 = ledger := by
  rcases ledger.exchange_cases locator generated with ⟨e', -, hexchange⟩
    | ⟨record, state, -, -, -, -, hexchange⟩
  · rw [hexchange]
  · rw [hexchange] at herror
    cases generated with
    | some token => cases herror
    | none => exact absurd (Except.error.inj herror).symm hne

/-- The locators of all exchanges that consumed are mapped. -/
def Named (h : LedgerHistory) (ledger : LocatorLedger) : Prop :=
  ∀ x ∈ h, ∀ locator, spends x = some locator → ∃ r, ledger.resourceOf locator = some r

theorem Named.step (hnamed : Named h ledger)
    (hacts : ledger.Acts x ledger') : Named (x :: h) ledger' := by
  refine List.forall_mem_cons.2 ⟨fun locator hspends => ?_, fun x hx locator hspends => ?_⟩
  · exact hacts.named hspends
  · obtain ⟨r, hr⟩ := hnamed x hx locator hspends
    exact ⟨r, hacts.names hr⟩

theorem Named.countP_consumesOf (hnamed : Named h ledger)
    (hacts : ledger.Acts x ledger') (r : InternalResourceId) :
    h.countP (consumesOf ledger' r) = h.countP (consumesOf ledger r) := by
  refine List.countP_congr fun x hx => ?_
  unfold consumesOf
  cases hspends : spends x with
  | none => rfl
  | some locator =>
    obtain ⟨r', hr'⟩ := hnamed x hx locator hspends
    rw [Option.any_some, Option.any_some, hacts.names hr', hr']

theorem CapsExact.step {start : LocatorLedger}
    (hexact : CapsExact start h ledger) (hnamed : Named h ledger)
    (hacts : ledger.Acts x ledger') : CapsExact start (x :: h) ledger' where
  counted r := by
    rw [(hacts.moves r).uses, hexact.counted r, List.countP_cons,
      hnamed.countP_consumesOf hacts r, Nat.add_assoc]
  capped hbounded r := (hacts.moves r).bounded (hexact.capped hbounded r)
  caps r state hstate := by
    obtain ⟨state', hstate', hcap⟩ := hexact.caps r state hstate
    obtain ⟨state'', hstate'', hcap'⟩ := (hacts.moves r).cap hstate'
    exact ⟨state'', hstate'', hcap'.trans hcap⟩
  failed := exchange_failed _
  names locator r hn := hacts.names (hexact.names locator r hn)

/-- In every sequence of operations on a ledger with any caps, the uses of
each resource are counted over all its locators. -/
theorem caps_exact {start ledger : LocatorLedger} {h : LedgerHistory}
    (hrun : ledgerService.Run (fun _ _ => True) start h ledger) : CapsExact start h ledger := by
  have hkept : Named h ledger ∧ CapsExact start h ledger := by
    refine hrun.invariant (P := fun h ledger => Named h ledger ∧ CapsExact start h ledger) ?_ ?_
    · exact ⟨fun _ hx => absurd hx List.not_mem_nil, fun _ => rfl, fun hb => hb,
        fun _ state hstate => ⟨state, hstate, rfl⟩, exchange_failed _, fun _ _ hn => hn⟩
    · rintro h ledger x ledger' ⟨hnamed, hexact⟩ - ⟨o, _, -⟩
      exact ⟨hnamed.step (ledger.acts o), hexact.step hnamed (ledger.acts o)⟩
  exact hkept.2

-- ==== the revocation

/-- Once revoked, no locator of a resource is exchanged again. -/
def RevokedForGood (r : InternalResourceId) (ledger : LocatorLedger) : Prop :=
  ∀ h ledger', ledgerService.Run (fun _ _ => True) (ledger.revokeResource r) h ledger' →
    ∀ locator generated token, ledger'.resourceOf locator = some r →
      (ledger'.exchange locator generated).1 ≠ .ok token

def Closed (r : InternalResourceId) (ledger : LocatorLedger) : Prop :=
  ∃ state, ledger.resources r = some state ∧ state.revoked = true

theorem Closed.not_exchanged (hclosed : Closed r ledger)
    (hnames : ledger.resourceOf locator = some r) (generated : Option ReferenceToken)
    (token : ReferenceToken) : (ledger.exchange locator generated).1 ≠ .ok token := by
  obtain ⟨state, hstate, hrevoked⟩ := hclosed
  obtain ⟨record, hrecord, rfl⟩ := Option.map_eq_some_iff.1 hnames
  rcases ledger.exchange_cases locator generated with ⟨e, -, hexchange⟩
    | ⟨record', state', hrecord', hstate', hopen, -, -⟩
  · rw [hexchange]
    exact nofun
  · cases hrecord.symm.trans hrecord'
    cases hstate.symm.trans hstate'
    cases hrevoked.symm.trans hopen

theorem Closed.run (hclosed : Closed r ledger)
    (hrun : ledgerService.Run (fun _ _ => True) ledger h ledger') : Closed r ledger' := by
  refine hrun.invariant (P := fun _ ledger => Closed r ledger) hclosed ?_
  rintro h ledger x ledger' ⟨state, hstate, hrevoked⟩ - ⟨o, _, -⟩
  exact ((ledger.acts o).moves r).revoked hstate hrevoked

/-- Revocation is for good exactly if the ledger has seen the resource. -/
theorem revoked_for_good_iff {r : InternalResourceId}
    {ledger : LocatorLedger} (hroom : ∃ locator : PublicLocator, ledger.records locator.id = none) :
    RevokedForGood r ledger ↔ (ledger.resources r).isSome = true := by
  constructor
  · intro hfinal
    by_contra hunseen
    have hnone : ledger.resources r = none := by simpa using hunseen
    obtain ⟨locator, hfree⟩ := hroom
    have hrevoke : ledger.revokeResource r = ledger := by
      unfold LocatorLedger.revokeResource
      rw [hnone]
    have hmap : (ledger.map locator r).2
        = (ledger.withState r (.new none)).withRecord locator.id (.new r) := by
      unfold LocatorLedger.map
      rw [hfree, hnone]
      rfl
    have hrun : ledgerService.Run (fun _ _ => True) (ledger.revokeResource r)
        [⟨.map locator r, (ledger.map locator r).1⟩] (ledger.map locator r).2 := by
      rw [hrevoke]
      have hstep := Service.Step.ask (S := ledgerService) (LedgerOp.map locator r) ledger trivial
      exact .step .start trivial hstep
    refine hfinal _ _ hrun locator (some ⟨[]⟩) ⟨[]⟩ ?_ ?_
    · rw [hmap]
      unfold LocatorLedger.resourceOf
      rw [LocatorLedger.records_withRecord]
      rfl
    have hlive := ((ledger.withState r (.new none)).withRecord locator.id
      (.new r)).exchange_of_live (some ⟨[]⟩)
      (LocatorLedger.records_withRecord _ _ _) rfl
      (ledger.resources_withState r (.new none)) rfl rfl
    rw [hmap, hlive]
    rfl
  · intro hseen h ledger' hrun locator generated token hnames
    obtain ⟨state, hstate⟩ := Option.isSome_iff_exists.1 hseen
    have hclosed : Closed r (ledger.revokeResource r) := by
      unfold LocatorLedger.revokeResource
      rw [hstate]
      exact ⟨_, LocatorLedger.resources_withState _ _ _, rfl⟩
    exact (hclosed.run hrun).not_exchanged hnames generated token

namespace Sample

def marker : PublicLocator := ⟨[1]⟩

def copy : PublicLocator := ⟨[2]⟩

def capped : LocatorLedger where
  records _ := none
  resources r := if r = "vault-key" then some ⟨false, some 1, 0⟩ else none

instance (o : LedgerOp) (ledger : LocatorLedger) :
    Decidable (ledgerService.allowed o ledger) := .isTrue trivial

def exchanges : List LedgerOp :=
  [.map marker "vault-key", .map copy "vault-key", .exchange marker none,
    .exchange copy (some token)]

end Sample

open Sample

theorem caps_exact_shared :
    let r := ledgerService.played capped exchanges (by decide)
    CapsExact capped r.1 r.2 ∧ capped.Bounded
    ∧ r.2.uses "vault-key" = 1
    ∧ r.1.countP (consumesOf r.2 "vault-key") = 1 := by
  refine ⟨caps_exact (Service.played_run _), ?_, by decide, by decide⟩
  intro r state hstate max hmax
  unfold capped at hstate
  dsimp only at hstate
  split at hstate
  · cases hstate
    exact Nat.zero_le _
  · cases hstate

/-- A resource is revoked, mapped for the first time, and exchanged. -/
theorem revoked_before_mapping :
    let ops := [.revokeResource "vault-key", .map marker "vault-key"]
    let r := ledgerService.played LocatorLedger.new ops (by decide)
    r.2.resourceOf marker = some "vault-key"
    ∧ (r.2.exchange marker (some token)).1 = .ok token
    ∧ ¬ RevokedForGood "vault-key" LocatorLedger.new := by
  refine ⟨by decide, by decide, fun hfinal => ?_⟩
  have hplayed : (ledgerService.play
      (LocatorLedger.new.revokeResource "vault-key")
      [.map marker "vault-key"]).isSome := by decide
  exact hfinal _ _ (Service.played_run hplayed) marker (some token) token rfl rfl

theorem revoked_for_good_capped : RevokedForGood "vault-key" capped :=
  (revoked_for_good_iff ⟨marker, rfl⟩).2 rfl

end SovereignVault.Runtime
