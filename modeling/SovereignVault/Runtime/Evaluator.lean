/-
`policy::evaluator`: the decision, deny overriding, against one snapshot.

Rules are considered by descending priority. A rule that matches denies
the request, or joins its exposure and its consent onto those of the rules
before it and adds its route to theirs.

`After` says once what considering a list of rules comes to: a denial, or
the joins over those of its rules that match.
-/
import SovereignVault.Runtime.Glob
import SovereignVault.Runtime.Validate
import Mathlib.Data.List.Sort

namespace SovereignVault.Runtime

open List

-- ==== the facts

inductive ClassificationState where
  | low | elevated | unknown
  deriving DecidableEq

/-- `EvaluationFacts`. The two sets are lists: only membership is asked. -/
structure EvaluationFacts where
  principalId : Option String := none
  principalKind : Option PrincipalKind := none
  adapterId : Option String := none
  transport : Option TransportKind := none
  operation : Option String := none
  originKind : Option String := none
  destinationKind : Option String := none
  destinationId : Option String := none
  host : Option String := none
  path : Option String := none
  method : Option String := none
  mcpServerId : Option String := none
  mcpTool : Option String := none
  processProfileId : Option String := none
  resourceKinds : List String := []
  labels : List String := []
  classification : ClassificationState := .unknown
  resourceExposureFloor : ExposureClass := .nonExportable
  requestBytes : Nat := 0
  largestFragmentBytes : Nat := 0

structure PolicyDecision where
  matchedRules : List String
  exposure : ExposureClass
  consent : ConsentMode
  limits : EffectiveLimits
  route : Option String
  policyDigest : Bytes
  deriving DecidableEq

-- ==== the selector

def principalKindName : PrincipalKind → String
  | .client => "client"
  | .adapter => "adapter"
  | .mcpServer => "mcp_server"
  | .processProfile => "process_profile"

def transportName : TransportKind → String
  | .stdio => "stdio"
  | .http => "http"
  | .webSocket => "websocket"
  | .inProcess => "in_process"

def classificationName : ClassificationState → String
  | .low => "low"
  | .elevated => "elevated"
  | .unknown => "unknown"

/-- A constraint on a fact: it is absent, or there is a fact and one of its
entries accepts it. -/
def optAny (accepts : String → String → Bool)
    (constraint : Option (List String)) (actual : Option String) : Bool :=
  match constraint with
  | none => true
  | some allowed => actual.any fun value => allowed.any (accepts · value)

def optIn : Option (List String) → Option String → Bool := optAny (· == ·)

def optGlob : Option (List String) → Option String → Bool :=
  optAny Glob.globMatches

def startsWith (start path : String) : Bool :=
  start.toList.isPrefixOf path.toList

def labelHit (facts : EvaluationFacts) (pattern : String) : Bool :=
  facts.labels.any (Glob.globMatches pattern)

def optList (constraint : Option (List String)) (passes : List String → Bool) : Bool :=
  match constraint with
  | none => true
  | some entries => passes entries

def ruleMatches (selector : RuleMatch) (facts : EvaluationFacts) : Bool :=
  optIn selector.principalIds facts.principalId
  && optIn selector.principalKinds (facts.principalKind.map principalKindName)
  && optIn selector.adapterIds facts.adapterId
  && optIn selector.transports (facts.transport.map transportName)
  && optIn selector.operations facts.operation
  && optIn selector.originKinds facts.originKind
  && optIn selector.destinationKinds facts.destinationKind
  && optIn selector.destinationIds facts.destinationId
  && optGlob selector.hostGlobs facts.host
  && optAny startsWith selector.pathPrefixes facts.path
  && optIn selector.methods facts.method
  && optIn selector.mcpServerIds facts.mcpServerId
  && optGlob selector.mcpToolGlobs facts.mcpTool
  && optIn selector.processProfileIds facts.processProfileId
  && optList selector.resourceKinds (fun kinds => kinds.any (· ∈ facts.resourceKinds))
  && optList selector.labelsAll (fun required => required.all (labelHit facts))
  && optList selector.labelsAny (fun any => any.any (labelHit facts))
  && optList selector.labelsNone (fun none => !none.any (labelHit facts))
  && optIn selector.classificationStates (some (classificationName facts.classification))

-- ==== the decision

/-- The order of the diagnostics: descending priority, then identifier. -/
def Earlier (left right : RuleDocument) : Prop :=
  right.priority < left.priority
  ∨ (right.priority = left.priority ∧ left.id ≤ right.id)

instance : DecidableRel Earlier := fun _ _ =>
  inferInstanceAs (Decidable (_ ∨ _))

structure Considered where
  matchedRules : List String
  matchedAllows : Nat
  exposure : ExposureClass
  consent : ConsentMode
  routes : List String

def consider (facts : EvaluationFacts) (acc : Considered)
    (rule : RuleDocument) : Except RuntimeError Considered :=
  if !ruleMatches rule.match_ facts then .ok acc
  else if rule.effect.access = .deny then .error .policyDenied
  else .ok
    { matchedRules := acc.matchedRules ++ [rule.id]
      matchedAllows := acc.matchedAllows + 1
      exposure := match rule.effect.exposure with
        | some requested => acc.exposure.join requested.class_
        | none => acc.exposure
      consent := match rule.effect.consent with
        | some requested => acc.consent.join requested
        | none => acc.consent
      routes := match rule.effect.route with
        | some route => acc.routes.insert route
        | none => acc.routes }

/-- The loop of `evaluate`, by descending priority. The floor of the
resource comes before any rule. -/
def considerRules (facts : EvaluationFacts) (rules : List RuleDocument) :
    Except RuntimeError Considered :=
  (rules.insertionSort Earlier).foldlM (consider facts)
    ⟨[], 0, facts.resourceExposureFloor, .none, []⟩

def LimitsDocument.effective (limits : LimitsDocument) : EffectiveLimits where
  requestBytes := limits.requestBytes
  fragmentBytes := limits.fragmentBytes
  responseBytes := limits.responseBytes
  concurrentRequestsPerPrincipal := limits.concurrentRequestsPerPrincipal
  requestTimeoutMs := limits.requestTimeoutMs
  consentTimeoutMs := limits.consentTimeoutMs
  streamBoundaryBytes := limits.streamBoundaryBytes

/-- The route that is left, if it is one: the last step of `evaluate`. -/
def resolveRoute : List String → Except RuntimeError (Option String)
  | [] => .ok none
  | [route] => .ok (some route)
  | _ => .error .routeDenied

def decideOn (snapshot : PolicySnapshot) (facts : EvaluationFacts)
    (limits : EffectiveLimits) (acc : Considered) : Except RuntimeError PolicyDecision :=
  if acc.matchedAllows == 0 then .error .policyDenied
  else
    let elevated := facts.classification = .elevated
    let exposure := if elevated then acc.exposure.join .transformed
      else acc.exposure
    let consent := if elevated then acc.consent.join .approval
      else acc.consent
    match resolveRoute acc.routes with
    | .error e => .error e
    | .ok route => .ok
        { matchedRules := acc.matchedRules
          exposure, consent, limits, route
          policyDigest := snapshot.digest }

def evaluate (snapshot : PolicySnapshot) (facts : EvaluationFacts) :
    Except RuntimeError PolicyDecision :=
  let limits := snapshot.document.limits.effective
  if facts.requestBytes > limits.requestBytes
      || facts.largestFragmentBytes > limits.fragmentBytes then
    .error .limitExceeded
  else
    match considerRules facts snapshot.document.rule with
    | .error e => .error e
    | .ok acc => decideOn snapshot facts limits acc

-- ==== the loop, once

def matching (rules : List RuleDocument) (facts : EvaluationFacts) : List RuleDocument :=
  rules.filter (ruleMatches ·.match_ facts)

theorem matching_cons (rule : RuleDocument) (rules : List RuleDocument)
    (facts : EvaluationFacts) : matching (rule :: rules) facts
      = if ruleMatches rule.match_ facts then
          rule :: matching rules facts
        else matching rules facts :=
  filter_cons

theorem matching_perm {rules rules' : List RuleDocument} (hperm : rules.Perm rules')
    (facts : EvaluationFacts) : (matching rules facts).Perm (matching rules' facts) :=
  hperm.filter _

/-- What `acc'` comes to after `acc`, when the rules `matched` matched and
none of them denies. -/
structure After (acc : Considered) (matched : List RuleDocument) (acc' : Considered) : Prop where
  ids : acc'.matchedRules = acc.matchedRules ++ matched.map (·.id)
  allows : acc'.matchedAllows = acc.matchedAllows + matched.length
  exposure : ∀ c, acc'.exposure ≤ c ↔ acc.exposure ≤ c
    ∧ ∀ r ∈ matched, ∀ e, r.effect.exposure = some e → e.class_ ≤ c
  consent : ∀ c, acc'.consent ≤ c ↔ acc.consent ≤ c
    ∧ ∀ r ∈ matched, ∀ e, r.effect.consent = some e → e ≤ c
  routes : ∀ route, route ∈ acc'.routes ↔ route ∈ acc.routes
    ∨ ∃ r ∈ matched, r.effect.route = some route
  distinct : acc.routes.Nodup → acc'.routes.Nodup

theorem After.refl (acc : Considered) : After acc [] acc where
  ids := (append_nil _).symm
  allows := rfl
  exposure c := by simp
  consent c := by simp
  routes route := by simp
  distinct h := h

theorem After.trans {acc acc' acc'' : Considered}
    {matched matched' : List RuleDocument} (h : After acc matched acc')
    (h' : After acc' matched' acc'') : After acc (matched ++ matched') acc'' where
  ids := by rw [h'.ids, h.ids, map_append, append_assoc]
  allows := by rw [h'.allows, h.allows, length_append, Nat.add_assoc]
  exposure c := by rw [h'.exposure, h.exposure, and_assoc, forall_mem_append]
  consent c := by rw [h'.consent, h.consent, and_assoc, forall_mem_append]
  routes route := by
    rw [h'.routes, h.routes, or_assoc]
    simp only [mem_append, or_and_right, exists_or]
  distinct hdistinct := h'.distinct (h.distinct hdistinct)

theorem consider_cases (facts : EvaluationFacts)
    (acc : Considered) (rule : RuleDocument) : (ruleMatches rule.match_ facts = false
      ∧ consider facts acc rule = .ok acc)
    ∨ (ruleMatches rule.match_ facts = true ∧ rule.effect.access = .deny
      ∧ consider facts acc rule = .error .policyDenied)
    ∨ (ruleMatches rule.match_ facts = true ∧ rule.effect.access = .allow
      ∧ ∃ acc', consider facts acc rule = .ok acc'
        ∧ After acc [rule] acc') := by
  unfold consider
  cases hmatches : ruleMatches rule.match_ facts with
  | false => exact .inl ⟨rfl, rfl⟩
  | true =>
    cases haccess : rule.effect.access with
    | deny => exact .inr (.inl ⟨rfl, rfl, rfl⟩)
    | allow =>
      refine .inr (.inr ⟨rfl, rfl, _, rfl, ?_⟩)
      constructor
      case ids => rfl
      case allows => rfl
      case exposure =>
        intro c
        cases hexposure : rule.effect.exposure with
        | none => simp [hexposure]
        | some e => simp [hexposure, ExposureClass.join_le]
      case consent =>
        intro c
        cases hconsent : rule.effect.consent with
        | none => simp [hconsent]
        | some e => simp [hconsent, ConsentMode.join_le]
      case routes =>
        intro route
        cases hroute : rule.effect.route with
        | none => simp [hroute]
        | some r => simp [hroute, or_comm, eq_comm]
      case distinct =>
        intro hdistinct
        cases rule.effect.route with
        | none => exact hdistinct
        | some r => exact hdistinct.insert

theorem consider_all (facts : EvaluationFacts) (rules : List RuleDocument)
    (acc : Considered) : ((∃ r ∈ matching rules facts, r.effect.access = .deny)
      ∧ rules.foldlM (consider facts) acc = .error .policyDenied)
    ∨ ((∀ r ∈ matching rules facts, r.effect.access = .allow)
      ∧ ∃ acc', rules.foldlM (consider facts) acc = .ok acc'
        ∧ After acc (matching rules facts) acc') := by
  induction rules generalizing acc with
  | nil => exact .inr ⟨by simp [matching], acc, rfl, After.refl acc⟩
  | cons rule rules ih =>
    rw [foldlM_cons]
    rcases consider_cases facts acc rule with ⟨hno, heq⟩
        | ⟨hyes, hdeny, heq⟩ | ⟨hyes, hallow, acc₁, heq, hafter⟩
    · rw [matching_cons, if_neg (by simp [hno]), heq]
      exact ih acc
    · refine .inl ⟨⟨rule, ?_, hdeny⟩, by rw [heq]; rfl⟩
      exact mem_filter.2 ⟨mem_cons_self, hyes⟩
    rw [matching_cons, if_pos hyes, heq]
    rcases ih acc₁ with ⟨⟨r, hr, hdeny⟩, hrest⟩ | ⟨hallows, acc₂, hrest, hafter₂⟩
    · exact .inl ⟨⟨r, mem_cons_of_mem _ hr, hdeny⟩, hrest⟩
    · refine .inr ⟨?_, acc₂, hrest, hafter.trans hafter₂⟩
      exact forall_mem_cons.2 ⟨hallow, hallows⟩

end SovereignVault.Runtime
