/-
How rules compose: deny overrides, exposure and consent are joins, and
neither the order nor the priority of a rule has any effect.

It is all `evaluate` depends on besides the limits (`evaluate_cases`), so
that the order falls away with the list, and a further rule can only add
to the sets.
-/
import SovereignVault.Runtime.Evaluator
import Mathlib.Order.Bounds.Basic
import Mathlib.Data.Set.Subsingleton

namespace SovereignVault.Runtime

open List

variable {matched : List RuleDocument} {facts : EvaluationFacts}

-- ==== the meaning

section

variable (matched : List RuleDocument) (facts : EvaluationFacts)

def Fits (limits : LimitsDocument) (facts : EvaluationFacts) : Prop :=
  facts.requestBytes ≤ limits.requestBytes
  ∧ facts.largestFragmentBytes ≤ limits.fragmentBytes

def Denied : Prop :=
  matched = [] ∨ ∃ r ∈ matched, r.effect.access = .deny

def Exposures : Set ExposureClass :=
  {c | c = facts.resourceExposureFloor
    ∨ (∃ r ∈ matched, ∃ e, r.effect.exposure = some e ∧ c = e.class_)
    ∨ (facts.classification = .elevated ∧ c = .transformed)}

def Consents : Set ConsentMode :=
  {c | (∃ r ∈ matched, r.effect.consent = some c)
    ∨ (facts.classification = .elevated ∧ c = .approval)}

def Routes : Set String :=
  {route | ∃ r ∈ matched, r.effect.route = some route}

structure Composed (limits : LimitsDocument) (d : PolicyDecision) :
    Prop where
  ids : d.matchedRules.Perm (matched.map (·.id))
  exposure : IsLUB (Exposures matched facts) d.exposure
  consent : IsLUB (Consents matched facts) d.consent
  limits : d.limits = limits.effective
  route : ∀ route, d.route = some route ↔ route ∈ Routes matched

end

def EffectsWithin (matched matched' : List RuleDocument) : Prop :=
  ∀ r ∈ matched, ∃ r' ∈ matched', r'.effect = r.effect

section

variable {matched matched' : List RuleDocument} {facts : EvaluationFacts}

theorem EffectsWithin.of_subset (h : matched ⊆ matched') :
    EffectsWithin matched matched' := fun r hr => ⟨r, h hr, rfl⟩

theorem EffectsWithin.exposures (h : EffectsWithin matched matched') :
    Exposures matched facts ⊆ Exposures matched' facts := by
  rintro c (hfloor | ⟨r, hr, e, he, hc⟩ | helevated)
  · exact .inl hfloor
  · obtain ⟨r', hr', heffect⟩ := h r hr
    exact .inr (.inl ⟨r', hr', e, by rw [heffect, he], hc⟩)
  · exact .inr (.inr helevated)

theorem EffectsWithin.consents (h : EffectsWithin matched matched') :
    Consents matched facts ⊆ Consents matched' facts := by
  rintro c (⟨r, hr, hc⟩ | helevated)
  · obtain ⟨r', hr', heffect⟩ := h r hr
    exact .inl ⟨r', hr', by rw [heffect, hc]⟩
  · exact .inr helevated

theorem EffectsWithin.routes (h : EffectsWithin matched matched') :
    Routes matched ⊆ Routes matched' := by
  rintro route ⟨r, hr, hroute⟩
  obtain ⟨r', hr', heffect⟩ := h r hr
  exact ⟨r', hr', by rw [heffect, hroute]⟩

theorem EffectsWithin.denies (h : EffectsWithin matched matched')
    (hdeny : ∃ r ∈ matched, r.effect.access = .deny) : ∃ r ∈ matched', r.effect.access = .deny := by
  obtain ⟨r, hr, hdeny⟩ := hdeny
  obtain ⟨r', hr', heffect⟩ := h r hr
  exact ⟨r', hr', by rw [heffect, hdeny]⟩

end

-- ==== one decision

theorem resolveRoute_cases {routes : List String} (hnodup : routes.Nodup) :
    ({r | r ∈ routes}.Nontrivial ∧ resolveRoute routes = .error .routeDenied)
    ∨ (¬ {r | r ∈ routes}.Nontrivial ∧ ∃ route, resolveRoute routes = .ok route
        ∧ ∀ r, route = some r ↔ r ∈ routes) := by
  match routes with
  | [] => exact .inr ⟨by simp [Set.Nontrivial], none, rfl, by simp⟩
  | [route] => exact .inr ⟨by simp [Set.Nontrivial], some route, rfl, by simp [eq_comm]⟩
  | a :: b :: rest =>
    refine .inl ⟨⟨a, by simp, b, by simp, ?_⟩, rfl⟩
    rintro rfl
    simp at hnodup

theorem exposure_isLUB {e : ExposureClass} (h : ∀ c, e ≤ c ↔ facts.resourceExposureFloor ≤ c
      ∧ ∀ r ∈ matched, ∀ e, r.effect.exposure = some e → e.class_ ≤ c) :
    IsLUB (Exposures matched facts) (if facts.classification = .elevated then e.join .transformed
        else e) := by
  refine isLUB_iff_le_iff.2 fun c => ?_
  have hbounds : c ∈ upperBounds (Exposures matched facts) ↔ e ≤ c
      ∧ (facts.classification = .elevated → .transformed ≤ c) := by
    rw [h c]
    constructor
    · intro hc
      refine ⟨⟨hc (.inl rfl), fun r hr e he => ?_⟩, fun helevated => ?_⟩
      · exact hc (.inr (.inl ⟨r, hr, e, he, rfl⟩))
      · exact hc (.inr (.inr ⟨helevated, rfl⟩))
    · rintro ⟨⟨hfloor, hrules⟩, helevated⟩ c' (rfl | ⟨r, hr, e, he, rfl⟩ | ⟨hel, rfl⟩)
      · exact hfloor
      · exact hrules r hr e he
      · exact helevated hel
  rw [hbounds]
  split <;> simp_all [ExposureClass.join_le]

theorem consent_isLUB {e : ConsentMode} (h : ∀ c, e ≤ c ↔ ConsentMode.none ≤ c
      ∧ ∀ r ∈ matched, ∀ e, r.effect.consent = some e → e ≤ c) :
    IsLUB (Consents matched facts) (if facts.classification = .elevated then e.join .approval
        else e) := by
  refine isLUB_iff_le_iff.2 fun c => ?_
  have hbounds : c ∈ upperBounds (Consents matched facts) ↔ e ≤ c
      ∧ (facts.classification = .elevated → .approval ≤ c) := by
    rw [h c]
    constructor
    · intro hc
      refine ⟨⟨ConsentMode.none_le c, fun r hr e he => ?_⟩, fun helevated => ?_⟩
      · exact hc (.inl ⟨r, hr, he⟩)
      · exact hc (.inr ⟨helevated, rfl⟩)
    · rintro ⟨⟨-, hrules⟩, helevated⟩ c' (⟨r, hr, he⟩ | ⟨hel, rfl⟩)
      · exact hrules r hr c' he
      · exact helevated hel
  rw [hbounds]
  split <;> simp_all [ConsentMode.join_le]

theorem considerRules_cases (facts : EvaluationFacts)
    (rules : List RuleDocument) : ((∃ r ∈ matching rules facts, r.effect.access = .deny)
      ∧ considerRules facts rules = .error .policyDenied)
    ∨ ((∀ r ∈ matching rules facts, r.effect.access = .allow)
      ∧ ∃ acc ordered, considerRules facts rules = .ok acc ∧ ordered.Perm (matching rules facts)
        ∧ After ⟨[], 0, facts.resourceExposureFloor, .none, []⟩ ordered acc) := by
  have hperm := matching_perm (perm_insertionSort Earlier rules) facts
  rcases consider_all facts (rules.insertionSort Earlier)
      ⟨[], 0, facts.resourceExposureFloor, .none, []⟩ with
    ⟨⟨r, hr, hdeny⟩, heq⟩ | ⟨hallows, acc, heq, hafter⟩
  · exact .inl ⟨⟨r, hperm.mem_iff.1 hr, hdeny⟩, heq⟩
  · exact .inr ⟨fun r hr => hallows r (hperm.mem_iff.2 hr), acc, _, heq, hperm, hafter⟩

section

variable (snapshot : PolicySnapshot) (facts : EvaluationFacts)
  {snapshot' : PolicySnapshot} {rule : RuleDocument} {document' document : PolicyDocument}

theorem decideOn_cases {acc : Considered}
    {ordered matched : List RuleDocument} (hperm : ordered.Perm matched)
    (hafter : After ⟨[], 0, facts.resourceExposureFloor, .none, []⟩ ordered
      acc) (limits : LimitsDocument) :
    (matched = [] ∧ decideOn snapshot facts limits.effective acc = .error .policyDenied)
    ∨ (matched ≠ [] ∧ (Routes matched).Nontrivial
      ∧ decideOn snapshot facts limits.effective acc = .error .routeDenied)
    ∨ (matched ≠ [] ∧ ¬ (Routes matched).Nontrivial
      ∧ ∃ d, decideOn snapshot facts limits.effective acc = .ok d
        ∧ Composed matched facts limits d) := by
  have hroutes : {r | r ∈ acc.routes} = Routes matched := by
    ext route
    simp [Routes, hafter.routes, hperm.mem_iff]
  have hlength : acc.matchedAllows = matched.length := by
    rw [hafter.allows, hperm.length_eq, Nat.zero_add]
  unfold decideOn
  by_cases hempty : matched = []
  · refine .inl ⟨hempty, if_pos ?_⟩
    rw [hlength, hempty]
    rfl
  have hsome : ¬ (acc.matchedAllows == 0) = true := by
    rw [hlength]
    simpa using hempty
  rw [if_neg hsome]
  rcases resolveRoute_cases (hafter.distinct nodup_nil) with
    ⟨hmany, hresolve⟩ | ⟨hone, route, hresolve, hroute⟩
  · rw [hresolve]
    exact .inr (.inl ⟨hempty, hroutes ▸ hmany, rfl⟩)
  rw [hresolve]
  refine .inr (.inr ⟨hempty, hroutes ▸ hone, _, rfl, ?_⟩)
  constructor
  case ids =>
    have hids := hafter.ids
    rw [nil_append] at hids
    exact hids ▸ hperm.map _
  case exposure => exact exposure_isLUB fun c => by simp only [hafter.exposure, hperm.mem_iff]
  case consent => exact consent_isLUB fun c => by simp only [hafter.consent, hperm.mem_iff]
  case limits => rfl
  case route =>
    intro r
    rw [← hroutes]
    exact hroute r

abbrev PolicySnapshot.matching : List RuleDocument :=
  Runtime.matching snapshot.document.rule facts

theorem evaluate_of_not_fits (hfits : ¬ Fits snapshot.document.limits facts) :
    evaluate snapshot facts = .error .limitExceeded := by
  refine if_pos ?_
  unfold Fits at hfits
  simp only [Bool.or_eq_true, decide_eq_true_eq]
  change facts.requestBytes > snapshot.document.limits.requestBytes
    ∨ facts.largestFragmentBytes > snapshot.document.limits.fragmentBytes
  omega

theorem evaluate_of_fits (hfits : Fits snapshot.document.limits facts) : evaluate snapshot facts
      = match considerRules facts snapshot.document.rule with
        | .error e => .error e
        | .ok acc => decideOn snapshot facts snapshot.document.limits.effective acc := by
  refine if_neg ?_
  unfold Fits at hfits
  simp only [Bool.or_eq_true, decide_eq_true_eq]
  change ¬ (facts.requestBytes > snapshot.document.limits.requestBytes
    ∨ facts.largestFragmentBytes > snapshot.document.limits.fragmentBytes)
  omega

theorem evaluate_cases : (¬ Fits snapshot.document.limits facts
      ∧ evaluate snapshot facts = .error .limitExceeded)
    ∨ (Fits snapshot.document.limits facts ∧ Denied (snapshot.matching facts)
      ∧ evaluate snapshot facts = .error .policyDenied)
    ∨ (Fits snapshot.document.limits facts ∧ ¬ Denied (snapshot.matching facts)
      ∧ (Routes (snapshot.matching facts)).Nontrivial
      ∧ evaluate snapshot facts = .error .routeDenied)
    ∨ (Fits snapshot.document.limits facts ∧ ¬ Denied (snapshot.matching facts)
      ∧ ¬ (Routes (snapshot.matching facts)).Nontrivial
      ∧ ∃ d, evaluate snapshot facts = .ok d
        ∧ Composed (snapshot.matching facts) facts snapshot.document.limits d) := by
  by_cases hfits : Fits snapshot.document.limits facts
  swap
  · exact .inl ⟨hfits, evaluate_of_not_fits snapshot facts hfits⟩
  rw [evaluate_of_fits snapshot facts hfits]
  rcases considerRules_cases facts snapshot.document.rule with
    ⟨hdeny, heq⟩ | ⟨hallows, acc, ordered, heq, hperm, hafter⟩
  · rw [heq]
    exact .inr (.inl ⟨hfits, .inr hdeny, rfl⟩)
  rw [heq]
  have hdenied : snapshot.matching facts ≠ [] → ¬ Denied (snapshot.matching facts) := by
    rintro hne (hnil | ⟨r, hr, hdeny⟩)
    · exact hne hnil
    · rw [hallows r hr] at hdeny
      cases hdeny
  rcases decideOn_cases snapshot facts hperm hafter
      snapshot.document.limits with
    ⟨hnil, hdecide⟩ | ⟨hne, hmany, hdecide⟩ | ⟨hne, hone, hdecide⟩
  · exact .inr (.inl ⟨hfits, .inl hnil, hdecide⟩)
  · exact .inr (.inr (.inl ⟨hfits, hdenied hne, hmany, hdecide⟩))
  · exact .inr (.inr (.inr ⟨hfits, hdenied hne, hone, hdecide⟩))

variable {snapshot : PolicySnapshot} {facts : EvaluationFacts}

theorem composed_of_ok {d : PolicyDecision}
    (hok : evaluate snapshot facts = .ok d) : Fits snapshot.document.limits facts
    ∧ ¬ Denied (snapshot.matching facts)
    ∧ ¬ (Routes (snapshot.matching facts)).Nontrivial
    ∧ Composed (snapshot.matching facts) facts snapshot.document.limits d := by
  rcases evaluate_cases snapshot facts with ⟨-, heq⟩ | ⟨-, -, heq⟩
    | ⟨-, -, -, heq⟩ | ⟨hfits, hdenied, hone, d', heq, hcomposed⟩
  · cases hok.symm.trans heq
  · cases hok.symm.trans heq
  · cases hok.symm.trans heq
  · cases hok.symm.trans heq
    exact ⟨hfits, hdenied, hone, hcomposed⟩

theorem evaluate_denied (hfits : Fits snapshot.document.limits facts)
    (hdenied : Denied (snapshot.matching facts)) :
    evaluate snapshot facts = .error .policyDenied := by
  rcases evaluate_cases snapshot facts with ⟨hno, -⟩ | ⟨-, -, heq⟩
    | ⟨-, hno, -⟩ | ⟨-, hno, -⟩
  · exact absurd hfits hno
  · exact heq
  · exact absurd hdenied hno
  · exact absurd hdenied hno

theorem evaluate_ambiguous (hfits : Fits snapshot.document.limits facts)
    (hdenied : ¬ Denied (snapshot.matching facts))
    (hmany : (Routes (snapshot.matching facts)).Nontrivial) :
    evaluate snapshot facts = .error .routeDenied := by
  rcases evaluate_cases snapshot facts with ⟨hno, -⟩ | ⟨-, hyes, -⟩
    | ⟨-, -, -, heq⟩ | ⟨-, -, hno, -⟩
  · exact absurd hfits hno
  · exact absurd hyes hdenied
  · exact heq
  · exact absurd hmany hno

theorem evaluate_allowed
    (hfits : Fits snapshot.document.limits facts) (hdenied : ¬ Denied (snapshot.matching facts))
    (hone : ¬ (Routes (snapshot.matching facts)).Nontrivial) : ∃ d, evaluate snapshot facts = .ok d
      ∧ Composed (snapshot.matching facts) facts snapshot.document.limits d := by
  rcases evaluate_cases snapshot facts with ⟨hno, -⟩ | ⟨-, hyes, -⟩
    | ⟨-, -, hyes, -⟩ | ⟨-, -, -, hok⟩
  · exact absurd hfits hno
  · exact absurd hyes hdenied
  · exact absurd hyes hone
  · exact hok

-- ==== order and priorities

def RuleDocument.unranked (r : RuleDocument) : RuleDocument :=
  { r with priority := 0 }

/-- The limits are the same, and the rules are up to their order and
their priorities. -/
def Rearranged (document document' : PolicyDocument) : Prop :=
  document.limits = document'.limits
  ∧ (document.rule.map (·.unranked)).Perm (document'.rule.map (·.unranked))

theorem Rearranged.symm (h : Rearranged document document') : Rearranged document' document :=
  ⟨h.1.symm, h.2.symm⟩

theorem matching_unranked
    (rules : List RuleDocument) (facts : EvaluationFacts) : matching (rules.map (·.unranked)) facts
      = (matching rules facts).map (·.unranked) :=
  filter_map

theorem Rearranged.matching (h : Rearranged document document')
    (facts : EvaluationFacts) : ((Runtime.matching document.rule facts).map (·.unranked)).Perm
      ((Runtime.matching document'.rule facts).map (·.unranked)) := by
  rw [← matching_unranked, ← matching_unranked]
  exact matching_perm h.2 facts

theorem Rearranged.effectsWithin (h : Rearranged document document')
    (facts : EvaluationFacts) : EffectsWithin (Runtime.matching document.rule facts)
      (Runtime.matching document'.rule facts) := by
  intro r hr
  have hmem := (h.matching facts).mem_iff.1 (mem_map_of_mem hr)
  obtain ⟨r', hr', heq⟩ := mem_map.1 hmem
  have heffect : r'.unranked.effect = r.unranked.effect := by rw [heq]
  exact ⟨r', hr', heffect⟩

theorem Rearranged.denied (h : Rearranged document document')
    {facts : EvaluationFacts} (hdenied : Denied (Runtime.matching document.rule facts)) :
    Denied (Runtime.matching document'.rule facts) := by
  rcases hdenied with hnil | hdeny
  · refine .inl ?_
    have hperm := h.matching facts
    rw [hnil] at hperm
    exact map_eq_nil_iff.1 hperm.symm.eq_nil
  · exact .inr ((h.effectsWithin facts).denies hdeny)

/-- Two answers that differ in the order of the matched rules and in the
digest at most. -/
def Alike : Except RuntimeError PolicyDecision → Except RuntimeError PolicyDecision → Prop
  | .error e, .error e' => e = e'
  | .ok d, .ok d' => d.matchedRules.Perm d'.matchedRules
      ∧ d.exposure = d'.exposure ∧ d.consent = d'.consent
      ∧ d.limits = d'.limits ∧ d.route = d'.route
  | _, _ => False

theorem Composed.alike
    {matched matched' : List RuleDocument} {limits : LimitsDocument} {d d' : PolicyDecision}
    (h : Composed matched facts limits d) (h' : Composed matched' facts limits d')
    (hperm : (matched.map (·.unranked)).Perm (matched'.map (·.unranked)))
    (hwithin : EffectsWithin matched matched')
    (hwithin' : EffectsWithin matched' matched) : Alike (.ok d) (.ok d') := by
  refine ⟨?_, ?_, ?_, h.limits.trans h'.limits.symm, ?_⟩
  · have hids := hperm.map RuleDocument.id
    rw [map_map, map_map] at hids
    exact (h.ids.trans hids).trans h'.ids.symm
  · exact le_antisymm (h.exposure.mono h'.exposure hwithin.exposures)
      (h'.exposure.mono h.exposure hwithin'.exposures)
  · exact le_antisymm (h.consent.mono h'.consent hwithin.consents)
      (h'.consent.mono h.consent hwithin'.consents)
  · refine Option.ext fun route => ?_
    rw [h.route, h'.route]
    exact ⟨fun hr => hwithin.routes hr, fun hr => hwithin'.routes hr⟩

theorem Rearranged.alike (h : Rearranged snapshot.document snapshot'.document) :
    Alike (evaluate snapshot facts) (evaluate snapshot' facts) := by
  have hfits : Fits snapshot.document.limits facts
      ↔ Fits snapshot'.document.limits facts := by rw [h.1]
  have hdenied : Denied (snapshot.matching facts)
      ↔ Denied (snapshot'.matching facts) := ⟨h.denied, h.symm.denied⟩
  have hwithin := h.effectsWithin facts
  have hwithin' := h.symm.effectsWithin facts
  have hroutes : (Routes (snapshot.matching facts)).Nontrivial
      ↔ (Routes (snapshot'.matching facts)).Nontrivial :=
    ⟨fun hm => hm.mono hwithin.routes, fun hm => hm.mono hwithin'.routes⟩
  rcases evaluate_cases snapshot facts with ⟨hno, heq⟩ | ⟨hyes, hden, heq⟩
    | ⟨hyes, hden, hmany, heq⟩ | ⟨hyes, hden, hone, d, heq, hd⟩
  · rw [heq, evaluate_of_not_fits snapshot' facts (mt hfits.2 hno)]
    rfl
  · rw [heq, evaluate_denied (hfits.1 hyes) (hdenied.1 hden)]
    rfl
  · rw [heq, evaluate_ambiguous (hfits.1 hyes) (mt hdenied.2 hden) (hroutes.1 hmany)]
    rfl
  · obtain ⟨d', heq', hd'⟩ := evaluate_allowed (hfits.1 hyes)
      (mt hdenied.2 hden) (mt hroutes.2 hone)
    rw [heq, heq']
    exact (h.1 ▸ hd).alike hd' (h.matching facts) hwithin hwithin'

-- ==== a further rule

def Inserted (document document' : PolicyDocument) (rule : RuleDocument) : Prop :=
  document.limits = document'.limits
  ∧ ∃ before after, document.rule = before ++ after ∧ document'.rule = before ++ rule :: after

theorem Inserted.matching_cases (h : Inserted document document' rule) (facts : EvaluationFacts) :
    Runtime.matching document.rule facts ⊆ Runtime.matching document'.rule facts
    ∧ (rule ∈ Runtime.matching document'.rule facts
      ∨ Runtime.matching document'.rule facts = Runtime.matching document.rule facts) := by
  obtain ⟨-, before, after, hrule, hrule'⟩ := h
  rw [hrule, hrule', Runtime.matching, Runtime.matching, filter_append, filter_append, filter_cons]
  split
  · refine ⟨fun r hr => ?_, .inl (by simp)⟩
    rcases mem_append.1 hr with hr | hr
    · exact mem_append_left _ hr
    · exact mem_append_right _ (mem_cons_of_mem _ hr)
  · exact ⟨List.Subset.refl _, .inr rfl⟩

theorem Inserted.ratchets
    (h : Inserted snapshot.document snapshot'.document rule) {d d' : PolicyDecision}
    (hok : evaluate snapshot facts = .ok d) (hok' : evaluate snapshot' facts = .ok d') :
    d.exposure ≤ d'.exposure ∧ d.consent ≤ d'.consent := by
  have hwithin : EffectsWithin (snapshot.matching facts)
      (snapshot'.matching facts) := .of_subset (h.matching_cases facts).1
  obtain ⟨-, -, -, hd⟩ := composed_of_ok hok
  obtain ⟨-, -, -, hd'⟩ := composed_of_ok hok'
  exact ⟨hd.exposure.mono hd'.exposure hwithin.exposures,
    hd.consent.mono hd'.consent hwithin.consents⟩

theorem Inserted.stays_denied (h : Inserted snapshot.document snapshot'.document rule)
    (hdeny : rule.effect.access = .deny) {d' : PolicyDecision}
    (hok' : evaluate snapshot' facts = .ok d') : ∃ d, evaluate snapshot facts = .ok d := by
  obtain ⟨hfits, hdenied, hone, -⟩ := composed_of_ok hok'
  rcases (h.matching_cases facts).2 with hmem | heq
  · exact absurd (.inr ⟨rule, hmem, hdeny⟩) hdenied
  · unfold PolicySnapshot.matching at hdenied hone
    rw [heq] at hdenied hone
    obtain ⟨d, hok, -⟩ := evaluate_allowed (h.1 ▸ hfits) hdenied hone
    exact ⟨d, hok⟩

/-- Deny overrides, the rest joins, and order has no effect. -/
structure DenyOverrides (snapshot : PolicySnapshot) (facts : EvaluationFacts) : Prop where
  /-- Neither the order nor the priorities of the rules matter. -/
  orderFree : ∀ other : PolicySnapshot, Rearranged
    snapshot.document other.document → Alike (evaluate snapshot facts) (evaluate other facts)
  /-- Within the limits a request is denied by a rule that matches, or
  for want of one. -/
  denied : Fits snapshot.document.limits facts → (evaluate snapshot facts = .error .policyDenied
      ↔ Denied (snapshot.matching facts))
  /-- Otherwise it is refused if the rules name different routes. -/
  ambiguous : Fits snapshot.document.limits
    facts → ¬ Denied (snapshot.matching facts) → (evaluate snapshot facts = .error .routeDenied
      ↔ (Routes (snapshot.matching facts)).Nontrivial)
  allowed : Fits snapshot.document.limits facts → ¬ Denied (snapshot.matching facts) →
    ¬ (Routes (snapshot.matching facts)).Nontrivial → ∃ d, evaluate snapshot facts = .ok d
  /-- What is allowed is composed of the rules that match. -/
  composed : ∀ d, evaluate snapshot facts = .ok d →
    Composed (snapshot.matching facts) facts snapshot.document.limits d
  /-- A further rule lowers neither exposure nor consent. -/
  ratchets : ∀ (other : PolicySnapshot) (rule : RuleDocument),
    Inserted snapshot.document other.document rule → ∀ d d', evaluate snapshot facts
    = .ok d → evaluate other facts = .ok d' → d.exposure ≤ d'.exposure ∧ d.consent ≤ d'.consent
  /-- A further deny allows nothing that was refused. -/
  denies : ∀ (other : PolicySnapshot) (rule : RuleDocument),
    Inserted snapshot.document other.document rule → rule.effect.access
    = .deny → ∀ e, evaluate snapshot facts = .error e → ∃ e', evaluate other facts = .error e'

/-- Evaluation overrides by denies and joins the rest, whatever the order
of the rules. -/
theorem evaluate_deny_overrides (snapshot : PolicySnapshot)
    (facts : EvaluationFacts) : DenyOverrides snapshot facts where
  orderFree _ h := h.alike
  denied hfits := by
    refine ⟨fun herror => ?_, evaluate_denied hfits⟩
    by_contra hdenied
    by_cases hmany : (Routes (snapshot.matching facts)).Nontrivial
    · cases herror.symm.trans (evaluate_ambiguous hfits hdenied hmany)
    · obtain ⟨d, hok, -⟩ := evaluate_allowed hfits hdenied hmany
      cases herror.symm.trans hok
  ambiguous hfits hdenied := by
    refine ⟨fun herror => ?_, evaluate_ambiguous hfits hdenied⟩
    by_contra hmany
    obtain ⟨d, hok, -⟩ := evaluate_allowed hfits hdenied hmany
    cases herror.symm.trans hok
  allowed hfits hdenied hone := by
    obtain ⟨d, hok, -⟩ := evaluate_allowed hfits hdenied hone
    exact ⟨d, hok⟩
  composed d hok := (composed_of_ok hok).2.2.2
  ratchets _ _ h _ _ hok hok' := h.ratchets hok hok'
  denies other rule h hdeny e herror := by
    cases hother : evaluate other facts with
    | error e' => exact ⟨e', rfl⟩
    | ok d' =>
      obtain ⟨d, hok⟩ := h.stays_denied hdeny hother
      cases herror.symm.trans hok

end

/-- A rule is warned of as an allow that is not reached exactly if an
earlier rule denies what it selects; and then no request that it matches
is allowed, in whatever order the rules stand. -/
theorem unreachable_allow_sound (snapshot : PolicySnapshot) (id : String) :
    (.unreachableAllow id ∈ checkWarnings snapshot.document
      ↔ ∃ before rule after, snapshot.document.rule = before ++ rule :: after
        ∧ rule.id = id ∧ rule.effect.access = .allow
        ∧ ∃ earlier ∈ before, earlier.effect.access = .deny ∧ earlier.match_ = rule.match_)
    ∧ (.unreachableAllow id ∈ checkWarnings
      snapshot.document → ∀ rule ∈ snapshot.document.rule, rule.id = id → ∀ other : PolicySnapshot,
        snapshot.document.rule.Perm other.document.rule →
      ∀ facts d, ruleMatches rule.match_ facts = true → evaluate other facts ≠ .ok d) := by
  have hiff : .unreachableAllow id ∈ checkWarnings snapshot.document
      ↔ ∃ before rule after, snapshot.document.rule = before ++ rule :: after
        ∧ rule.id = id ∧ rule.effect.access = .allow
        ∧ ∃ earlier ∈ before, earlier.effect.access = .deny
          ∧ earlier.match_ = rule.match_ := by
    simp only [checkWarnings,
      mem_append, mem_map, mem_warned, ValidationWarning.unreachableAllow.injEq, reduceCtorEq,
      and_false, exists_false, or_false, nil_append, Bool.and_eq_true, decide_eq_true_eq]
    constructor
    · rintro ⟨rule, ⟨l, r, hrules, earlier, hmem, ⟨hallow, hdeny⟩, hmatch⟩, hid⟩
      exact ⟨l, rule, r, hrules, hid, hallow, earlier, hmem, hdeny, hmatch⟩
    · rintro ⟨l, rule, r, hrules, hid, hallow, earlier, hmem, hdeny, hmatch⟩
      exact ⟨rule, ⟨l, r, hrules, earlier, hmem, ⟨hallow, hdeny⟩, hmatch⟩, hid⟩
  refine ⟨hiff, fun hwarned rule hrule hid other hperm facts d hmatches hok => ?_⟩
  obtain ⟨before, rule', after, hrules, hid', -, earlier, hmem, hdeny, hmatch⟩ := hiff.1 hwarned
  -- the identifier stands for one rule
  have hsame : rule = rule' := inj_on_of_nodup_map snapshot.ids_unique.1
    hrule (hrules ▸ by simp) (hid.trans hid'.symm)
  obtain ⟨-, hdenied, -⟩ := composed_of_ok hok
  refine hdenied (.inr ⟨earlier, mem_filter.2 ⟨hperm.subset ?_, ?_⟩, hdeny⟩)
  · rw [hrules]
    exact mem_append_left _ hmem
  · rw [hmatch, ← hsame]
    exact hmatches

namespace Sample

def limits : LimitsDocument := ⟨100, 50, 100, 1, 1, 1, 1⟩

def rule (id : String) (priority : Int) (match_ : RuleMatch)
    (effect : RuleEffect) : RuleDocument := ⟨id, priority, match_, effect⟩

def document (rules : List RuleDocument) : PolicyDocument where
  policyId := "policy.test"
  limits := limits
  rule := rules

def reading : EvaluationFacts where
  operation := some "vault.read"
  labels := ["pii.email"]
  resourceExposureFloor := .raw

end Sample

/-- An allow and a deny of the same requests: the warning is given in one
of the two orders. -/
theorem warnings_depend_on_order :
    let deny := Sample.rule "deny" 0 {} { access := .deny }
    let allow := Sample.rule "allow" 0 {} { access := .allow }
    [deny, allow].Perm [allow, deny]
    ∧ check (Sample.document [deny, allow]) = .ok [.unreachableAllow "allow"]
    ∧ check (Sample.document [allow, deny]) = .ok [] :=
  ⟨.swap _ _ _, by decide +kernel, by decide +kernel⟩

end SovereignVault.Runtime
