/-
What the scopes of an agent grant, and what matching them costs.

The loop stops at the first scope that applies to the container and the
action, and what its ceiling says is the answer. So the answer is a union,
in every order and when scopes are added, just when those that apply agree
(`scopes_union_iff`).

`globCalls` counts the calls of `glob_inner`. Each star tries every end of
the name it can leave, so the count grows by a factor of the length of the
name with every star (`globCalls_le`), and there are globs of a few stars
above any square (`stars_exceed`).
-/
import SovereignVault.Mcp.Request
import Mathlib.Data.List.Perm.Basic

namespace SovereignVault.Mcp

open List

-- ==== the union

def ResolvedScope.applies (request : AccessRequest) (container : String)
    (scope : ResolvedScope) : Bool :=
  globMatch scope.containerGlob container && scope.actions.contains request.action

def ResolvedScope.withinCeiling (request : AccessRequest) (scope : ResolvedScope) : Bool :=
  match scope.modeCeiling, request.mode with
  | some ceiling, some mode => modeRank mode ≤ modeRank ceiling
  | _, _ => true

def ResolvedScope.grants (request : AccessRequest) (container : String)
    (scope : ResolvedScope) : Bool :=
  scope.applies request container && scope.withinCeiling request

section Union

variable {agent : ResolvedAgent} {request : AccessRequest} {container : String}

theorem enforceContainerScopes_eq_ok (scopes : List ResolvedScope) :
    enforceContainerScopes agent request container scopes = .ok ()
      ↔ (scopes.find? (·.applies request container)).any (·.withinCeiling request) = true := by
  induction scopes with
  | nil => simp [enforceContainerScopes]
  | cons scope rest ih =>
      unfold enforceContainerScopes
      rw [find?_cons]
      by_cases happly : scope.applies request container = true
      · obtain ⟨hglob, haction⟩ := Bool.and_eq_true_iff.mp happly
        rw [happly, hglob, haction]
        simp only [Bool.not_true, Bool.false_eq_true, if_false,
          Option.any_some, ResolvedScope.withinCeiling]
        cases scope.modeCeiling <;> cases request.mode <;> simp
      · rw [Bool.not_eq_true] at happly
        rw [happly]
        rcases Bool.and_eq_false_iff.mp happly with hglob | haction
        · rw [hglob, Bool.not_false, if_pos rfl]
          exact ih
        · rw [haction, Bool.not_false, if_pos rfl, ite_self]
          exact ih

variable (hscopes : agent.scopes ≠ []) (hnamed : request.container = some container)
include hscopes hnamed

theorem enforceScopes_eq_ok : enforceScopes agent request = .ok ()
    ↔ (agent.scopes.find? (·.applies request container)).any (·.withinCeiling request) = true := by
  unfold enforceScopes
  rw [if_neg (by simpa using hscopes), hnamed]
  exact enforceContainerScopes_eq_ok _

theorem granted_of_enforceScopes (h : enforceScopes agent request = .ok ()) :
    ∃ scope ∈ agent.scopes, scope.grants request container = true := by
  rw [enforceScopes_eq_ok hscopes hnamed, Option.any_eq_true] at h
  obtain ⟨scope, hfound, hwithin⟩ := h
  refine ⟨scope, mem_of_find?_eq_some hfound, ?_⟩
  exact Bool.and_eq_true_iff.mpr ⟨find?_some hfound, hwithin⟩

/-- A request is let through if some scope applies and all that do grant it. -/
theorem enforceScopes_of_all {scope : ResolvedScope} (hmem : scope ∈ agent.scopes)
    (happly : scope.applies request container = true)
    (hall : ∀ other ∈ agent.scopes, other.applies request container = true →
      other.grants request container = true) : enforceScopes agent request = .ok () := by
  rw [enforceScopes_eq_ok hscopes hnamed, Option.any_eq_true]
  obtain ⟨first, hfirst⟩ := Option.isSome_iff_exists.mp
    (find?_isSome.mpr ⟨scope, hmem, happly⟩)
  refine ⟨first, hfirst, ?_⟩
  have hgrants := hall first (mem_of_find?_eq_some hfirst) (find?_some hfirst)
  exact (Bool.and_eq_true_iff.mp hgrants).2

omit hscopes in
/-- The scope in front decides alone, if it applies. -/
theorem grants_of_front {scope : ResolvedScope} {rest : List ResolvedScope}
    (hok : enforceScopes { agent with scopes := scope :: rest } request = .ok ())
    (happly : scope.applies request container = true) :
    scope.grants request container = true := by
  rw [enforceScopes_eq_ok (cons_ne_nil _ _) hnamed, find?_cons_of_pos happly] at hok
  exact Bool.and_eq_true_iff.mpr ⟨happly, hok⟩

end Union

/-- The scopes of an agent are a union for a request, and stay one when a
scope of `added` is added. -/
structure ScopesUnion (agent : ResolvedAgent) (added : List ResolvedScope)
    (request : AccessRequest) (container : String) : Prop where
  union : ∀ scopes, scopes.Perm agent.scopes →
    (enforceScopes { agent with scopes } request = .ok ()
      ↔ ∃ scope ∈ scopes, scope.grants request container = true)
  order : ∀ scopes, scopes.Perm agent.scopes →
    (enforceScopes { agent with scopes } request = .ok ()
      ↔ enforceScopes agent request = .ok ())
  adding : ∀ scope ∈ added, ∀ scopes, scopes.Perm (scope :: agent.scopes) →
    enforceScopes agent request = .ok () →
    enforceScopes { agent with scopes } request = .ok ()

/-- If a scope of the agent grants the request, then so does every scope
that applies to it, of the agent's and of those to be added. -/
def Agree (agent : ResolvedAgent) (added : List ResolvedScope)
    (request : AccessRequest) (container : String) : Prop :=
  (∃ scope ∈ agent.scopes, scope.grants request container = true) →
    ∀ scope ∈ added ++ agent.scopes, scope.applies request container = true →
      scope.grants request container = true

/-- What is let through is granted by a scope; the scopes are a union, in
every order and under every addition, just when they agree. -/
theorem scopes_union_iff (agent : ResolvedAgent) (added : List ResolvedScope)
    (request : AccessRequest) (container : String) (hscopes : agent.scopes ≠ [])
    (hnamed : request.container = some container) :
    (enforceScopes agent request = .ok () →
      ∃ scope ∈ agent.scopes, scope.grants request container = true)
    ∧ (ScopesUnion agent added request container
      ↔ Agree agent added request container) := by
  refine ⟨granted_of_enforceScopes hscopes hnamed, ?_, ?_⟩
  · intro h hgranted scope hmem happly
    have hagent := (h.union _ (Perm.refl _)).mpr hgranted
    rcases mem_append.mp hmem with hadded | hmem
    · exact grants_of_front hnamed (h.adding scope hadded _ (Perm.refl _) hagent) happly
    · have hperm := (perm_cons_erase hmem).symm
      exact grants_of_front hnamed ((h.order _ hperm).mpr hagent) happly
  · intro hagree
    have hunion : ∀ scopes, scopes.Perm agent.scopes →
        (enforceScopes { agent with scopes } request = .ok ()
          ↔ ∃ scope ∈ scopes, scope.grants request container = true) := by
      intro scopes hperm
      have hne : scopes ≠ [] := fun hnil => hscopes (nil_perm.mp (hnil ▸ hperm))
      constructor
      · exact granted_of_enforceScopes hne hnamed
      · rintro ⟨scope, hmem, hgrants⟩
        apply enforceScopes_of_all hne hnamed hmem (Bool.and_eq_true_iff.mp hgrants).1
        intro other hother
        exact hagree ⟨scope, hperm.mem_iff.mp hmem, hgrants⟩ other
          (mem_append_right _ (hperm.mem_iff.mp hother))
    refine ⟨hunion, ?_, ?_⟩
    · intro scopes hperm
      rw [hunion scopes hperm, hunion agent.scopes (Perm.refl _)]
      simp only [hperm.mem_iff]
    · intro scope hadded scopes hperm hok
      obtain ⟨granting, hmem, hgrants⟩ := granted_of_enforceScopes hscopes hnamed hok
      have hne : scopes ≠ [] := fun hnil => cons_ne_nil _ _ (nil_perm.mp (hnil ▸ hperm))
      apply enforceScopes_of_all hne hnamed
        (hperm.mem_iff.mpr (mem_cons_of_mem _ hmem)) (Bool.and_eq_true_iff.mp hgrants).1
      intro other hother
      apply hagree ⟨granting, hmem, hgrants⟩ other
      rcases mem_cons.mp (hperm.mem_iff.mp hother) with rfl | hother
      · exact mem_append_left _ hadded
      · exact mem_append_right _ hother

namespace Sample

def approvedRead : AccessRequest :=
  { simpleRequest .mcpWs .readFile "" with
    container := some "notes", mode := some .approval }

def upTo (mode : SecurityMode) : ResolvedScope := ⟨"*", [.readFile], some mode⟩

def anyMode : ResolvedScope := ⟨"*", [.readFile], none⟩

end Sample

theorem scopes_union_ceilings :
    ScopesUnion ⟨"agent", [Sample.anyMode, Sample.upTo .otp]⟩ [Sample.upTo .approval]
      Sample.approvedRead "notes" := by
  apply (scopes_union_iff _ _ _ _ (by decide) rfl).2.mpr
  intro _
  decide

/-- A scope with a low ceiling in front of one that grants the request. -/
theorem first_scope_decides :
    enforceScopes ⟨"agent", [Sample.anyMode]⟩ Sample.approvedRead = .ok ()
    ∧ enforceScopes ⟨"agent", [Sample.anyMode, Sample.upTo .direct]⟩
      Sample.approvedRead = .ok ()
    ∧ enforceScopes ⟨"agent", [Sample.upTo .direct, Sample.anyMode]⟩
      Sample.approvedRead ≠ .ok () := by
  decide

-- ==== the cost

/-- The calls made for the ends of a name that a star tries, up to the
first that matches. -/
def callsUntil (found : List Char → Bool) (calls : List Char → Nat) : List (List Char) → Nat
  | [] => 0
  | v :: stops => calls v + if found v then 0 else callsUntil found calls stops

def globCalls : List Char → List Char → Nat
  | [], _ => 1
  | '*' :: '*' :: rest, v => 1 + callsUntil (globInner rest) (globCalls rest) (starStops true v)
  | '*' :: rest, v => 1 + callsUntil (globInner rest) (globCalls rest) (starStops false v)
  | c :: p, v =>
    match v with
    | [] => 1
    | d :: v => if c == d then 1 + globCalls p v else 1

/-- The stars of a glob, two in a row counted as one. -/
def stars : List Char → Nat
  | [] => 0
  | '*' :: '*' :: rest => stars rest + 1
  | '*' :: rest => stars rest + 1
  | _ :: rest => stars rest

theorem starStops_bounds (double : Bool) (v : List Char) :
    (starStops double v).length ≤ v.length + 1
    ∧ ∀ stop ∈ starStops double v, stop.length ≤ v.length := by
  induction v with
  | nil => simp [starStops]
  | cons c v ih =>
      unfold starStops
      split
      · simp
      obtain ⟨hlen, hstops⟩ := ih
      refine ⟨Nat.succ_le_succ hlen, ?_⟩
      rintro stop (_ | ⟨_, hmem⟩)
      · exact Nat.le_refl _
      · exact Nat.le_succ_of_le (hstops stop hmem)

theorem callsUntil_le {found : List Char → Bool} {calls : List Char → Nat}
    {most : Nat} {stops : List (List Char)} (h : ∀ stop ∈ stops, calls stop ≤ most) :
    callsUntil found calls stops ≤ stops.length * most := by
  induction stops with
  | nil => exact Nat.zero_le _
  | cons v stops ih =>
      have hv := h v (mem_cons_self ..)
      have hrest := ih fun stop hstop => h stop (mem_cons_of_mem _ hstop)
      unfold callsUntil
      rw [length_cons, Nat.succ_mul]
      split <;> omega

theorem one_more {calls length base k : Nat}
    (h : calls ≤ (length + 1) * (base + 1) ^ k) : 1 + calls ≤ (length + 2) * (base + 1) ^ k := by
  have hpos : 1 ≤ (base + 1) ^ k := Nat.one_le_pow _ _ (Nat.succ_pos _)
  rw [Nat.succ_mul]
  omega

theorem star_le {rest v : List Char} (double : Bool) (ih : ∀ v, globCalls rest v
      ≤ (rest.length + 1) * (v.length + 1) ^ stars rest) :
    1 + callsUntil (globInner rest) (globCalls rest) (starStops double v)
      ≤ (rest.length + 2) * (v.length + 1) ^ (stars rest + 1) := by
  obtain ⟨hlen, hstops⟩ := starStops_bounds double v
  apply one_more
  rw [Nat.pow_succ', Nat.mul_left_comm]
  refine Nat.le_trans (callsUntil_le fun stop hstop => ?_) (Nat.mul_le_mul_right _ hlen)
  refine Nat.le_trans (ih stop) (Nat.mul_le_mul_left _ ?_)
  exact Nat.pow_le_pow_left (Nat.succ_le_succ (hstops stop hstop)) _

/-- Matching costs a factor of the length of the name for every star. -/
theorem globCalls_le (p v : List Char) :
    globCalls p v ≤ (p.length + 1) * (v.length + 1) ^ stars p := by
  fun_induction stars p generalizing v with
  | case1 => simp [globCalls]
  | case2 rest ih =>
      rw [globCalls]
      refine Nat.le_trans (star_le true ih) (Nat.mul_le_mul_right _ ?_)
      simp
  | case3 rest hsingle ih =>
      rw [globCalls]
      · exact star_le false ih
      · exact hsingle
  | case4 c rest hsingle hchar ih =>
      cases v with
      | nil =>
          rw [globCalls]
          · exact one_more (Nat.zero_le _)
          · exact hsingle
          · exact hchar
      | cons d v =>
          rw [globCalls]
          · split
            · apply one_more
              refine Nat.le_trans (ih v) (Nat.mul_le_mul_left _ ?_)
              exact Nat.pow_le_pow_left (Nat.le_succ _) _
            · exact one_more (Nat.zero_le _)
          · exact hsingle
          · exact hchar

theorem stars_exceed : validateScopeGlob "*a*a*a*ab" = .ok ()
    ∧ (9 + 1) * (12 + 1) * (12 + 1) < globCalls "*a*a*a*ab".toList "aaaaaaaaaaaa".toList := by
  have hsplit : "*a*a*a*ab".splitOn "/" = ["*a*a*a*ab"] := by
    rw [String.splitOn, if_neg (by decide)]
    iterate 9
      rw [String.splitOnAux, if_neg (by decide +kernel),
        if_neg (by decide +kernel)]
    rw [String.splitOnAux, if_pos (by decide +kernel)]
    decide +kernel
  constructor
  · unfold validateScopeGlob
    rw [hsplit]
    decide +kernel
  · decide +kernel

end SovereignVault.Mcp
