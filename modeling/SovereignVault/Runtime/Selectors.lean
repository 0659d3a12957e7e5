/-
What the fields of a selector are for, and which of them are looked at.

A field that is present is to narrow the rule to the requests that supply
something it accepts (`Supplies`). `ruleMatches` looks at nineteen of the
twenty-eight fields: the facts hold nothing on most of the others, and the
exposure class they do hold is not compared (`admits_any_provider`).
-/
import SovereignVault.Runtime.Composition

namespace SovereignVault.Runtime

variable {constraint : Option (List String)}

inductive Field where
  | principalIds | principalKinds | adapterIds | transports | operations
  | originKinds | destinationKinds | destinationIds | hostGlobs
  | pathPrefixes | methods | providerIds | modelGlobs | mcpServerIds
  | mcpToolGlobs | processProfileIds | containerGlobs | resourceKinds
  | exposureClasses | mediaTypes | fragmentRoles | labelsAll | labelsAny
  | labelsNone | classificationStates | minAuthStrength
  | sessionMaxAgeSeconds | timeWindow

namespace Field

def present (selector : RuleMatch) : Field → Bool
  | principalIds => selector.principalIds.isSome
  | principalKinds => selector.principalKinds.isSome
  | adapterIds => selector.adapterIds.isSome
  | transports => selector.transports.isSome
  | operations => selector.operations.isSome
  | originKinds => selector.originKinds.isSome
  | destinationKinds => selector.destinationKinds.isSome
  | destinationIds => selector.destinationIds.isSome
  | hostGlobs => selector.hostGlobs.isSome
  | pathPrefixes => selector.pathPrefixes.isSome
  | methods => selector.methods.isSome
  | providerIds => selector.providerIds.isSome
  | modelGlobs => selector.modelGlobs.isSome
  | mcpServerIds => selector.mcpServerIds.isSome
  | mcpToolGlobs => selector.mcpToolGlobs.isSome
  | processProfileIds => selector.processProfileIds.isSome
  | containerGlobs => selector.containerGlobs.isSome
  | resourceKinds => selector.resourceKinds.isSome
  | exposureClasses => selector.exposureClasses.isSome
  | mediaTypes => selector.mediaTypes.isSome
  | fragmentRoles => selector.fragmentRoles.isSome
  | labelsAll => selector.labelsAll.isSome
  | labelsAny => selector.labelsAny.isSome
  | labelsNone => selector.labelsNone.isSome
  | classificationStates => selector.classificationStates.isSome
  | minAuthStrength => selector.minAuthStrength.isSome
  | sessionMaxAgeSeconds => selector.sessionMaxAgeSeconds.isSome
  | timeWindow => selector.timeWindow.isSome

end Field

def Supplies (accepts : String → String → Bool)
    (constraint : Option (List String)) (actual : Option String) : Prop :=
  ∃ entries ∈ constraint, ∃ value ∈ actual, ∃ entry ∈ entries, accepts entry value = true

def exposureClassName : ExposureClass → String
  | .raw => "raw"
  | .transformed => "transformed"
  | .referenceOnly => "reference-only"
  | .executeOnly => "execute-only"
  | .nonExportable => "non-exportable"

def Satisfied (selector : RuleMatch) (facts : EvaluationFacts) : Field → Prop
  | .principalIds => Supplies (· == ·) selector.principalIds facts.principalId
  | .principalKinds => Supplies (· == ·) selector.principalKinds
      (facts.principalKind.map principalKindName)
  | .adapterIds => Supplies (· == ·) selector.adapterIds facts.adapterId
  | .transports => Supplies (· == ·) selector.transports (facts.transport.map transportName)
  | .operations => Supplies (· == ·) selector.operations facts.operation
  | .originKinds => Supplies (· == ·) selector.originKinds facts.originKind
  | .destinationKinds => Supplies (· == ·) selector.destinationKinds facts.destinationKind
  | .destinationIds => Supplies (· == ·) selector.destinationIds facts.destinationId
  | .hostGlobs => Supplies Glob.globMatches selector.hostGlobs facts.host
  | .pathPrefixes => Supplies startsWith selector.pathPrefixes facts.path
  | .methods => Supplies (· == ·) selector.methods facts.method
  | .mcpServerIds => Supplies (· == ·) selector.mcpServerIds facts.mcpServerId
  | .mcpToolGlobs => Supplies Glob.globMatches selector.mcpToolGlobs facts.mcpTool
  | .processProfileIds => Supplies (· == ·) selector.processProfileIds facts.processProfileId
  | .resourceKinds => ∃ kinds ∈ selector.resourceKinds, ∃ kind ∈ kinds, kind ∈ facts.resourceKinds
  | .labelsAll => ∃ required ∈ selector.labelsAll, ∀ pattern ∈ required,
      ∃ label ∈ facts.labels, Glob.globMatches pattern label = true
  | .labelsAny => ∃ patterns ∈ selector.labelsAny, ∃ pattern ∈ patterns,
      ∃ label ∈ facts.labels, Glob.globMatches pattern label = true
  | .labelsNone => ∃ patterns ∈ selector.labelsNone, ∀ pattern ∈ patterns, ∀ label ∈ facts.labels,
        ¬ Glob.globMatches pattern label = true
  | .classificationStates => Supplies (· == ·) selector.classificationStates
      (some (classificationName facts.classification))
  | .exposureClasses => Supplies (· == ·) selector.exposureClasses
      (some (exposureClassName facts.resourceExposureFloor))
  | .providerIds | .modelGlobs | .containerGlobs | .mediaTypes
  | .fragmentRoles | .minAuthStrength | .sessionMaxAgeSeconds
  | .timeWindow => False

def Constrains (field : Field) : Prop :=
  ∀ selector facts, field.present selector = true →
    ¬ Satisfied selector facts field → ruleMatches selector facts = false

def Field.consulted : Field → Bool
  | .providerIds | .modelGlobs | .containerGlobs | .exposureClasses
  | .mediaTypes | .fragmentRoles | .minAuthStrength
  | .sessionMaxAgeSeconds | .timeWindow => false
  | _ => true

-- ==== what is matched

theorem supplies_of_optAny {accepts : String → String → Bool}
    {actual : Option String} (hpresent : constraint.isSome = true)
    (h : optAny accepts constraint actual = true) : Supplies accepts constraint actual := by
  obtain ⟨entries, rfl⟩ := Option.isSome_iff_exists.1 hpresent
  obtain ⟨value, hvalue, hany⟩ := (Option.any_eq_true _ _).1 h
  obtain ⟨entry, hentry, haccepts⟩ := List.any_eq_true.1 hany
  exact ⟨entries, rfl, value, hvalue, entry, hentry, haccepts⟩

theorem exists_of_optList {passes : List String → Bool} (hpresent : constraint.isSome = true)
    (h : optList constraint passes = true) : ∃ entries ∈ constraint, passes entries = true := by
  obtain ⟨entries, rfl⟩ := Option.isSome_iff_exists.1 hpresent
  exact ⟨entries, rfl, h⟩

theorem satisfied_of_matches
    {selector : RuleMatch} {facts : EvaluationFacts} (hmatches : ruleMatches selector facts = true)
    {field : Field} (hconsulted : field.consulted = true)
    (hpresent : field.present selector = true) : Satisfied selector facts field := by
  simp only [ruleMatches, Bool.and_eq_true, optIn, optGlob, and_assoc] at hmatches
  obtain ⟨h₁, h₂, h₃, h₄, h₅, h₆, h₇, h₈, h₉, h₁₀, h₁₁, h₁₂, h₁₃, h₁₄, h₁₅,
    h₁₆, h₁₇, h₁₈, h₁₉⟩ := hmatches
  cases field with
  | principalIds => exact supplies_of_optAny hpresent h₁
  | principalKinds => exact supplies_of_optAny hpresent h₂
  | adapterIds => exact supplies_of_optAny hpresent h₃
  | transports => exact supplies_of_optAny hpresent h₄
  | operations => exact supplies_of_optAny hpresent h₅
  | originKinds => exact supplies_of_optAny hpresent h₆
  | destinationKinds => exact supplies_of_optAny hpresent h₇
  | destinationIds => exact supplies_of_optAny hpresent h₈
  | hostGlobs => exact supplies_of_optAny hpresent h₉
  | pathPrefixes => exact supplies_of_optAny hpresent h₁₀
  | methods => exact supplies_of_optAny hpresent h₁₁
  | mcpServerIds => exact supplies_of_optAny hpresent h₁₂
  | mcpToolGlobs => exact supplies_of_optAny hpresent h₁₃
  | processProfileIds => exact supplies_of_optAny hpresent h₁₄
  | resourceKinds =>
    obtain ⟨kinds, hkinds, hany⟩ := exists_of_optList hpresent h₁₅
    obtain ⟨kind, hkind, hmem⟩ := List.any_eq_true.1 hany
    exact ⟨kinds, hkinds, kind, hkind, of_decide_eq_true hmem⟩
  | labelsAll =>
    obtain ⟨required, hrequired, hall⟩ := exists_of_optList hpresent h₁₆
    refine ⟨required, hrequired, fun pattern hpattern => ?_⟩
    exact List.any_eq_true.1 (List.all_eq_true.1 hall pattern hpattern)
  | labelsAny =>
    obtain ⟨patterns, hpatterns, hany⟩ := exists_of_optList hpresent h₁₇
    obtain ⟨pattern, hpattern, hhit⟩ := List.any_eq_true.1 hany
    exact ⟨patterns, hpatterns, pattern, hpattern, List.any_eq_true.1 hhit⟩
  | labelsNone =>
    obtain ⟨patterns, hpatterns, hnone⟩ := exists_of_optList hpresent h₁₈
    refine ⟨patterns, hpatterns, fun pattern hpattern label hlabel hhit => ?_⟩
    rw [Bool.not_eq_true', List.any_eq_false] at hnone
    exact hnone pattern hpattern (List.any_eq_true.2 ⟨label, hlabel, hhit⟩)
  | classificationStates => exact supplies_of_optAny hpresent h₁₉
  | providerIds | modelGlobs | containerGlobs | exposureClasses
  | mediaTypes | fragmentRoles | minAuthStrength | sessionMaxAgeSeconds
  | timeWindow => cases hconsulted

-- ==== what is not matched

namespace Sample

def only : Field → RuleMatch
  | .providerIds => { providerIds := some ["zai"] }
  | .modelGlobs => { modelGlobs := some ["glm-*"] }
  | .containerGlobs => { containerGlobs := some ["work"] }
  | .exposureClasses => { exposureClasses := some ["raw"] }
  | .mediaTypes => { mediaTypes := some ["text/plain"] }
  | .fragmentRoles => { fragmentRoles := some ["payload"] }
  | .minAuthStrength => { minAuthStrength := some "mfa" }
  | .sessionMaxAgeSeconds => { sessionMaxAgeSeconds := some 3600 }
  | .timeWindow => { timeWindow := some ⟨"09:00", "17:00", []⟩ }
  | _ => {}

theorem only_matches {field : Field} (hnot : field.consulted = false) :
    field.present (only field) = true
    ∧ ¬ Satisfied (only field) {} field
    ∧ ruleMatches (only field) {} = true := by
  cases field <;> first
    | exact absurd hnot (by decide)
    | exact ⟨rfl, by simp [Satisfied, Supplies, only, exposureClassName],
        rfl⟩

end Sample

/-- A field narrows the rules that have it exactly if it is one of those
`ruleMatches` looks at. -/
theorem constrains_iff_consulted (field : Field) : Constrains field ↔ field.consulted = true := by
  constructor
  · intro hconstrains
    by_contra hnot
    obtain ⟨hpresent, hunsatisfied, hmatches⟩ := Sample.only_matches (Bool.eq_false_iff.2 hnot)
    have hfalse := hconstrains _ _ hpresent hunsatisfied
    cases hmatches.symm.trans hfalse
  · intro hconsulted selector facts hpresent hnot
    rw [← Bool.not_eq_true]
    exact fun hmatches => hnot (satisfied_of_matches hmatches hconsulted hpresent)

/-- An allow rule for one provider: it matches, and lets through, a
request that names no provider at all. -/
theorem admits_any_provider :
    let rules := [Sample.rule "zai" 1 { providerIds := some ["zai"] } { access := .allow }]
    let facts : EvaluationFacts := { resourceExposureFloor := .raw }
    ∃ snapshot : PolicySnapshot, snapshot.document = Sample.document rules
      ∧ ¬ Satisfied { providerIds := some ["zai"] } facts .providerIds
      ∧ ruleMatches { providerIds := some ["zai"] } facts = true
      ∧ evaluate snapshot facts = .ok ⟨["zai"], .raw, .none, Sample.limits.effective, none, []⟩ :=
  ⟨⟨_, ⟨1⟩, [], [], by decide +kernel⟩, rfl, fun h => h, by decide +kernel,
    by decide +kernel⟩

end SovereignVault.Runtime
