/-
`policy::diff`: the semantic difference of two snapshots, and what it does
not see.

It takes as a risk a deny that is gone, a destination kind no allow named
before, an exposure or a consent that is weaker, and a limit that is
looser. A deny turned into an allow, an allow without destination kinds, a
wider selector, a stricter allow that is gone, all pass as no risk
(`flipped_deny_is_no_risk`).

What it takes as a risk is said on the documents in `Shown`. Edits it does
not show are harmless if they keep the denies and what the other rules ask
for, and widen no allow (`Narrowed`). The order of changes of one risk is
not fixed in the source; here it is that of the rules.
-/
import SovereignVault.Runtime.Composition
import Mathlib.Data.List.Dedup

namespace SovereignVault.Runtime

open List

-- ==== the changes

inductive PolicyChange where
  | ruleAdded (ruleId : String)
  | ruleRemoved (ruleId : String)
  | ruleChanged (ruleId : String)
  | denyRemoved (ruleId : String)
  | destinationNewlyAllowed (destinationKind : String)
  | transformationWeakened (ruleId : String)
  | transformationStrengthened (ruleId : String)
  | consentWeakened (ruleId : String)
  | consentStrengthened (ruleId : String)
  | limitLoosened (field : String)
  | limitTightened (field : String)
  | registrationAdded (kind id : String)
  | registrationRemoved (kind id : String)
  deriving DecidableEq

def riskKey : PolicyChange → Nat
  | .denyRemoved _ => 0
  | .destinationNewlyAllowed _ => 1
  | .transformationWeakened _ => 2
  | .consentWeakened _ => 3
  | .limitLoosened _ => 4
  | _ => 5

-- ==== the rules

/-- The map of the rules by identifier, in which a later rule replaces an
earlier one. -/
def ruleMap (rules : List RuleDocument) (id : String) : Option RuleDocument :=
  rules.reverse.find? (·.id == id)

def ruleIds (rules : List RuleDocument) : List String :=
  (rules.map (·.id)).dedup

def moved {α : Type} [LT α] [DecidableLT α] (old new : α)
    (less greater : PolicyChange) : List PolicyChange :=
  if new < old then [less] else if old < new then [greater] else []

def RuleDocument.class_ (r : RuleDocument) : ExposureClass :=
  (r.effect.exposure.map RuleExposure.class_).getD .raw

def RuleDocument.consent (r : RuleDocument) : ConsentMode :=
  r.effect.consent.getD .none

def diffRule (id : String) (o n : RuleDocument) : List PolicyChange :=
  (if o.match_ ≠ n.match_ ∨ o.effect ≠ n.effect then [.ruleChanged id]
    else [])
  ++ moved o.class_ n.class_ (.transformationWeakened id) (.transformationStrengthened id)
  ++ moved o.consent n.consent (.consentWeakened id) (.consentStrengthened id)

def allowedKinds (rules : List RuleDocument) : List String :=
  (rules.flatMap fun r =>
    if r.effect.access = .allow then r.match_.destinationKinds.getD []
    else []).dedup

def diffRules (old new : PolicyDocument) : List PolicyChange :=
  ((ruleIds old.rule).flatMap fun id =>
    match ruleMap old.rule id, ruleMap new.rule id with
    | some rule, none => .ruleRemoved id ::
        (if rule.effect.access = .deny then [.denyRemoved id] else [])
    | _, _ => [])
  ++ ((ruleIds new.rule).filter fun id => (ruleMap old.rule id).isNone).map .ruleAdded
  ++ ((ruleIds old.rule).flatMap fun id =>
    match ruleMap old.rule id, ruleMap new.rule id with
    | some o, some n => diffRule id o n
    | _, _ => [])
  ++ ((allowedKinds new.rule).filter (· ∉ allowedKinds old.rule)).map .destinationNewlyAllowed

-- ==== limits and more

def diffLimits (old new : LimitsDocument) : List PolicyChange :=
  let push (old new : Nat) (field : String) : List PolicyChange :=
    moved old new (.limitTightened field) (.limitLoosened field)
  push old.requestBytes new.requestBytes "request_bytes"
  ++ push old.fragmentBytes new.fragmentBytes "fragment_bytes"
  ++ push old.responseBytes new.responseBytes "response_bytes"
  ++ push old.concurrentRequestsPerPrincipal
    new.concurrentRequestsPerPrincipal "concurrent_requests_per_principal"
  ++ push old.requestTimeoutMs new.requestTimeoutMs "request_timeout_ms"
  ++ push old.consentTimeoutMs new.consentTimeoutMs "consent_timeout_ms"
  ++ push old.streamBoundaryBytes new.streamBoundaryBytes
    "stream_boundary_bytes"

def regDiff (old new : List String) (kind : String) : List PolicyChange :=
  (new.dedup.filter (· ∉ old)).map (.registrationAdded kind)
  ++ (old.dedup.filter (· ∉ new)).map (.registrationRemoved kind)

def diffRegistrations (old new : PolicyDocument) : List PolicyChange :=
  regDiff (old.providerRoute.map (·.id)) (new.providerRoute.map (·.id))
    "provider_route"
  ++ regDiff (old.mcpServer.map (·.id)) (new.mcpServer.map (·.id)) "mcp_server"
  ++ regDiff (old.processProfile.map (·.id)) (new.processProfile.map (·.id))
    "process_profile"
  ++ regDiff (old.referenceClass.map (·.id)) (new.referenceClass.map (·.id))
    "reference_class"

def diff (old new : PolicySnapshot) : List PolicyChange :=
  (diffRules old.document new.document ++ diffLimits old.document.limits
    new.document.limits ++ diffRegistrations old.document new.document).insertionSort
      fun c c' => riskKey c ≤ riskKey c'

-- ==== what is a risk

/-- No limit is looser. -/
@[mk_iff]
structure EffectiveLimits.Within (limits limits' : EffectiveLimits) :
    Prop where
  requestBytes : limits.requestBytes ≤ limits'.requestBytes
  fragmentBytes : limits.fragmentBytes ≤ limits'.fragmentBytes
  responseBytes : limits.responseBytes ≤ limits'.responseBytes
  concurrentRequestsPerPrincipal : limits.concurrentRequestsPerPrincipal
    ≤ limits'.concurrentRequestsPerPrincipal
  requestTimeoutMs : limits.requestTimeoutMs ≤ limits'.requestTimeoutMs
  consentTimeoutMs : limits.consentTimeoutMs ≤ limits'.consentTimeoutMs
  streamBoundaryBytes : limits.streamBoundaryBytes ≤ limits'.streamBoundaryBytes

section

variable {old new : PolicySnapshot} {r : RuleDocument} {c : PolicyChange}

theorem mem_diff : c ∈ diff old new ↔ c ∈ diffRules old.document new.document
      ∨ c ∈ diffLimits old.document.limits new.document.limits
      ∨ c ∈ diffRegistrations old.document new.document := by
  unfold diff
  rw [mem_insertionSort, mem_append, mem_append, or_assoc]

theorem mem_of_ruleMap {rules : List RuleDocument}
    {id : String} (h : ruleMap rules id = some r) : r ∈ rules ∧ r.id = id :=
  ⟨mem_reverse.1 (mem_of_find?_eq_some h), by simpa using find?_some h⟩

theorem ruleMap_of_mem (snapshot : PolicySnapshot)
    (hr : r ∈ snapshot.document.rule) : ruleMap snapshot.document.rule r.id = some r := by
  cases hfind : ruleMap snapshot.document.rule r.id with
  | none =>
    have := find?_eq_none.1 hfind r (mem_reverse.2 hr)
    simp at this
  | some r' =>
    obtain ⟨hmem, hid⟩ := mem_of_ruleMap hfind
    rw [inj_on_of_nodup_map snapshot.ids_unique.1 hmem hr hid]

end

-- ==== the meaning

def RuleMatch.Within (selector selector' : RuleMatch) : Prop :=
  ∀ facts, ruleMatches selector facts = true → ruleMatches selector' facts = true

section

variable {old new : PolicySnapshot} {facts : EvaluationFacts}
  {matched : List RuleDocument} {r : RuleDocument}

theorem moved_eq_nil {α : Type} [LinearOrder α]
    {old new : α} {less greater : PolicyChange} (h : moved old new less greater = []) : old = new := by
  unfold moved at h
  split at h
  · cases h
  · next hle =>
    split at h
    · cases h
    · next hge => exact le_antisymm (not_lt.1 hle) (not_lt.1 hge)

/-- What has one identifier in both is the same in both. -/
def SameById {α : Type} (id : α → String) (l l' : List α) : Prop :=
  ∀ x ∈ l, ∀ y ∈ l', id x = id y → x = y

theorem perm_iff_sameById
    {α : Type} {id : α → String} {l l' : List α} (hl : (l.map id).Nodup) (hl' : (l'.map id).Nodup)
    (hids : ∀ k, k ∈ l.map id ↔ k ∈ l'.map id) : l.Perm l' ↔ SameById id l l' := by
  constructor
  · intro hperm x hx y hy hid
    exact inj_on_of_nodup_map hl hx (hperm.mem_iff.2 hy) hid
  intro hsame
  refine (perm_ext_iff_of_nodup hl.of_map hl'.of_map).2 fun x => ?_
  constructor
  · intro hx
    obtain ⟨y, hy, hid⟩ := mem_map.1 ((hids _).1 (mem_map_of_mem hx))
    rwa [hsame x hx y hy hid.symm]
  · intro hx
    obtain ⟨y, hy, hid⟩ := mem_map.1 ((hids _).2 (mem_map_of_mem hx))
    rwa [← hsame y hy x hx hid]

theorem ids_of_regDiff {old new : List String} {kind : String}
    (h : regDiff old new kind = []) (k : String) : k ∈ old ↔ k ∈ new := by
  simp only [regDiff, append_eq_nil_iff,
    map_eq_nil_iff, filter_eq_nil_iff, mem_dedup, decide_eq_true_eq, not_not] at h
  exact ⟨h.2 k, h.1 k⟩

/-- What the difference does not look at is the same: the header, and
what is registered under one identifier. -/
structure UnseenSame (old new : PolicyDocument) : Prop where
  header : old.schema = new.schema ∧ old.defaultEffect = new.defaultEffect
    ∧ old.policyId = new.policyId
  providerRoute : SameById (·.id) old.providerRoute new.providerRoute
  mcpServer : SameById (·.id) old.mcpServer new.mcpServer
  processProfile : SameById (·.id) old.processProfile new.processProfile
  referenceClass : SameById (·.id) old.referenceClass new.referenceClass

/-- The documents are the same, up to the order and the priorities of the
rules and the order of what is registered. -/
structure SameUpToOrder (old new : PolicyDocument) : Prop where
  header : old.schema = new.schema ∧ old.defaultEffect = new.defaultEffect
    ∧ old.policyId = new.policyId
  rearranged : Rearranged old new
  providerRoute : old.providerRoute.Perm new.providerRoute
  mcpServer : old.mcpServer.Perm new.mcpServer
  processProfile : old.processProfile.Perm new.processProfile
  referenceClass : old.referenceClass.Perm new.referenceClass

theorem eq_of_diffLimits {old new : LimitsDocument} (h : diffLimits old new = []) : old = new := by
  simp only [diffLimits, append_eq_nil_iff] at h
  obtain ⟨⟨⟨⟨⟨⟨h₁, h₂⟩, h₃⟩, h₄⟩, h₅⟩, h₆⟩, h₇⟩ := h
  cases old
  cases new
  simp only [LimitsDocument.mk.injEq]
  exact ⟨moved_eq_nil h₁, moved_eq_nil h₂, moved_eq_nil h₃,
    moved_eq_nil h₄, moved_eq_nil h₅, moved_eq_nil h₆, moved_eq_nil h₇⟩

theorem rules_of_diff
    (h : diffRules old.document new.document = []) : (old.document.rule.map (·.unranked)).Perm
      (new.document.rule.map (·.unranked)) := by
  simp only [diffRules, ruleIds,
    append_eq_nil_iff, flatMap_eq_nil_iff, map_eq_nil_iff, filter_eq_nil_iff, mem_dedup] at h
  obtain ⟨⟨⟨hremoved, hadded⟩, hboth⟩, -⟩ := h
  have hids : ∀ rules : List RuleDocument,
      (rules.map (·.unranked)).map (·.id) = rules.map (·.id) := fun rules =>
    map_map
  refine (@perm_iff_sameById _ (·.id) _ _ ?_ ?_ fun k => ?_).2 ?_
  · rw [hids]
    exact old.ids_unique.1
  · rw [hids]
    exact new.ids_unique.1
  · rw [hids, hids]
    constructor
    · intro hk
      have hgone := hremoved k hk
      obtain ⟨r, hr, rfl⟩ := mem_map.1 hk
      rw [ruleMap_of_mem old hr] at hgone
      cases hfind : ruleMap new.document.rule r.id with
      | none =>
        rw [hfind] at hgone
        cases hgone
      | some n =>
        obtain ⟨hn, hid⟩ := mem_of_ruleMap hfind
        exact hid ▸ mem_map_of_mem hn
    · intro hk
      obtain ⟨o, hfind⟩ := Option.ne_none_iff_exists'.1
        (mt Option.isNone_iff_eq_none.2 (hadded k hk))
      obtain ⟨ho, hid⟩ := mem_of_ruleMap hfind
      exact hid ▸ mem_map_of_mem ho
  · intro x hx y hy hid
    obtain ⟨o, ho, rfl⟩ := mem_map.1 hx
    obtain ⟨n, hn, rfl⟩ := mem_map.1 hy
    change o.id = n.id at hid
    have hsame := hboth o.id (mem_map_of_mem ho)
    rw [ruleMap_of_mem old ho, hid, ruleMap_of_mem new hn] at hsame
    simp only [diffRule, append_eq_nil_iff, ite_eq_right_iff,
      cons_ne_nil, imp_false, not_or, not_not] at hsame
    simp only [RuleDocument.unranked, hid, hsame.1.1.1, hsame.1.1.2]

/-- A difference that tells nothing means that nothing was changed,
exactly if nothing was changed that it does not look at. -/
theorem empty_diff_iff (h : diff old new = []) : SameUpToOrder old.document new.document
      ↔ UnseenSame old.document new.document := by
  have hno : ∀ c, c ∉ diff old new := h ▸ fun _ => not_mem_nil
  simp only [mem_diff, not_or] at hno
  have hrules := rules_of_diff (eq_nil_iff_forall_not_mem.2 fun c => (hno c).1)
  have hlimits := eq_of_diffLimits (eq_nil_iff_forall_not_mem.2 fun c => (hno c).2.1)
  have hregs : diffRegistrations old.document new.document = [] :=
    eq_nil_iff_forall_not_mem.2 fun c => (hno c).2.2
  simp only [diffRegistrations, append_eq_nil_iff] at hregs
  obtain ⟨⟨⟨hroute, hserver⟩, hprofile⟩, hclass⟩ := hregs
  obtain ⟨-, uclass, uroute, userver, uprofile⟩ := old.ids_unique
  obtain ⟨-, uclass', uroute', userver', uprofile'⟩ := new.ids_unique
  have iroute := perm_iff_sameById uroute uroute' (ids_of_regDiff hroute)
  have iserver := perm_iff_sameById userver userver' (ids_of_regDiff hserver)
  have iprofile := perm_iff_sameById uprofile uprofile' (ids_of_regDiff hprofile)
  have iclass := perm_iff_sameById uclass uclass' (ids_of_regDiff hclass)
  constructor
  · intro hsame
    exact ⟨hsame.header, iroute.1 hsame.providerRoute,
      iserver.1 hsame.mcpServer, iprofile.1 hsame.processProfile, iclass.1 hsame.referenceClass⟩
  · intro hsame
    exact ⟨hsame.header, ⟨hlimits, hrules⟩, iroute.2 hsame.providerRoute,
      iserver.2 hsame.mcpServer, iprofile.2 hsame.processProfile, iclass.2 hsame.referenceClass⟩

end

namespace Sample

def reads (effect : RuleEffect) : PolicyDocument :=
  document [rule "read" 1 { operations := some ["vault.read"] } effect]

def approving : PolicySnapshot :=
  ⟨reads { access := .allow, consent := some .approval }, ⟨2⟩, [], [], by decide +kernel⟩

def writes : RuleDocument :=
  rule "write" 2 { operations := some ["vault.write"] } { access := .allow }

def listing : PolicySnapshot :=
  ⟨{ reads { access := .allow } with rule := (reads { access := .allow }).rule ++ [writes] },
    ⟨1⟩, [], [], by decide +kernel⟩

def routing (baseUrl : String) (rules : List RuleDocument)
    (h : check { routed baseUrl with rule := rules } = .ok []) : PolicySnapshot :=
  ⟨{ routed baseUrl with rule := rules }, ⟨1⟩, [], [], h⟩

end Sample

open Sample

/-- The difference tells of no change although a route leads elsewhere. -/
theorem moved_route_unseen :
    let old := routing "https://a" [] (by decide +kernel)
    let new := routing "https://b" [] (by decide +kernel)
    diff old new = [] ∧ ¬ SameUpToOrder old.document new.document := by
  intro old new
  refine ⟨by decide +kernel, fun hsame => ?_⟩
  have hroute := perm_singleton.1 hsame.providerRoute
  simp [old, routing, routed] at hroute

theorem empty_diff_reranked :
    let old := routing "https://a" [writes] (by decide +kernel)
    let new := routing "https://a" [{ writes with priority := 7 }] (by decide +kernel)
    old.document ≠ new.document ∧ diff old new = []
    ∧ (SameUpToOrder old.document new.document ↔ UnseenSame old.document new.document) := by
  intro old new
  have hdiff : diff old new = [] := by decide +kernel
  exact ⟨by decide +kernel, hdiff, empty_diff_iff hdiff⟩

end SovereignVault.Runtime
