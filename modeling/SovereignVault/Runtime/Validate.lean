/-
`policy::validate` and `policy::snapshot`: the checks a document passes
before it is put in force, and the snapshot that holds one.

A snapshot is made by `validate` alone, after `check`, so it carries the
proof that its document was checked.  The last section compares the host
`host_of` finds in a URL with the one the URL names.
-/
import SovereignVault.Runtime.Document
import Mathlib.Data.List.TakeWhile

namespace SovereignVault.Runtime

open List

inductive ValidationWarning where
  | unreachableAllow (ruleId : String)
  | ambiguousRoute (ruleId : String)
  deriving DecidableEq

-- ==== the checks

def ensureUniqueFrom (seen : List String) : List String → Except RuntimeError Unit
  | [] => .ok ()
  | id :: items =>
    if id ∈ seen then .error .invalidStructure
    else ensureUniqueFrom (id :: seen) items

def ensureUnique (items : List String) : Except RuntimeError Unit :=
  ensureUniqueFrom [] items

def checkUniqueIds (doc : PolicyDocument) : Except RuntimeError Unit := do
  ensureUnique (doc.rule.map (·.id))
  ensureUnique (doc.referenceClass.map (·.id))
  ensureUnique (doc.providerRoute.map (·.id))
  ensureUnique (doc.mcpServer.map (·.id))
  ensureUnique (doc.processProfile.map (·.id))

def ensureAll {α : Type} (e : RuntimeError) (ok : α → Bool)
    (items : List α) : Except RuntimeError Unit :=
  if items.all ok then .ok () else .error e

def checkRoutes (doc : PolicyDocument) : Except RuntimeError Unit :=
  ensureAll .routeDenied (fun rule : RuleDocument =>
    match rule.effect.route with
    | some routeId => routeId ∈ doc.providerRoute.map (·.id)
    | none => true) doc.rule

def checkReferences (doc : PolicyDocument) : Except RuntimeError Unit :=
  ensureAll .invalidStructure (fun rule : RuleDocument =>
    (match rule.match_.mcpServerIds with
      | some ids => ids.all (· ∈ doc.mcpServer.map (·.id))
      | none => true)
    && (match rule.match_.processProfileIds with
      | some ids => ids.all (· ∈ doc.processProfile.map (·.id))
      | none => true)) doc.rule

def beforeFirst (c : Char) (s : List Char) : List Char :=
  s.takeWhile (· != c)

def afterLast (c : Char) (s : List Char) : List Char :=
  (s.reverse.takeWhile (· != c)).reverse

def stripPrefix (start s : List Char) : Option (List Char) :=
  if start.isPrefixOf s then some (s.drop start.length) else none

def hostOf (url : String) : Except RuntimeError (List Char) :=
  match stripPrefix "https://".toList url.toList with
  | none => .error .invalidStructure
  | some rest =>
    let authority := beforeFirst '/' rest
    let hostPort := afterLast '@' authority
    .ok (afterLast ':' hostPort)

def checkUrls (doc : PolicyDocument) : Except RuntimeError Unit :=
  ensureAll .invalidStructure (fun route : ProviderRouteDocument =>
    match hostOf route.baseUrl with
    | .error _ => false
    | .ok host =>
      "https://".toList.isPrefixOf route.baseUrl.toList
      && !host.isEmpty && !host.contains '*') doc.providerRoute

def FORBIDDEN : List String :=
  ["transit_key", "signing_key", "provider_credential"]

def checkExposure (doc : PolicyDocument) : Except RuntimeError Unit :=
  ensureAll .invalidStructure (fun rule : RuleDocument =>
    if rule.effect.exposure = some .raw then
      match rule.match_.resourceKinds with
      | some kinds => !kinds.any (· ∈ FORBIDDEN)
      | none => true
    else true) doc.rule

def checkLimits (limits : LimitsDocument) : Except RuntimeError Unit :=
  if limits.requestBytes == 0 || limits.fragmentBytes == 0
      || limits.responseBytes == 0
      || limits.concurrentRequestsPerPrincipal == 0
      || limits.requestTimeoutMs == 0 || limits.consentTimeoutMs == 0
      || limits.streamBoundaryBytes == 0 then
    .error .invalidStructure
  else .ok ()

def isDriveAbsolute : List Char → Bool
  | c :: ':' :: '/' :: _ => c.isAlpha
  | c :: ':' :: '\\' :: _ => c.isAlpha
  | _ => false

def checkExecutables (doc : PolicyDocument) : Except RuntimeError Unit :=
  ensureAll .invalidStructure (fun profile : ProcessProfileDocument =>
    let exe := profile.executable.toList
    (exe.head? == some '/' || isDriveAbsolute exe)
    && !exe.any (· ∈ "&|;`$><\n\r".toList)) doc.processProfile

-- ==== the warnings

/-- The rules that have an earlier rule such that `warns earlier rule`. -/
def warned (warns : RuleDocument → RuleDocument → Bool)
    (before : List RuleDocument) : List RuleDocument → List RuleDocument
  | [] => []
  | rule :: rest =>
    (if before.any (warns · rule) then [rule] else []) ++ warned warns (before ++ [rule]) rest

def checkWarnings (doc : PolicyDocument) : List ValidationWarning :=
  (warned (fun earlier rule => rule.effect.access = .allow
      && earlier.effect.access = .deny && earlier.match_ = rule.match_)
    [] doc.rule).map (fun rule => .unreachableAllow rule.id)
  ++ (warned (fun earlier rule => rule.match_ = earlier.match_
      && rule.effect.route != earlier.effect.route)
    [] doc.rule).map (fun rule => .ambiguousRoute rule.id)

def check (doc : PolicyDocument) : Except RuntimeError (List ValidationWarning) := do
  checkUniqueIds doc
  checkRoutes doc
  checkReferences doc
  checkUrls doc
  checkExposure doc
  checkLimits doc.limits
  checkExecutables doc
  return checkWarnings doc

-- ==== the snapshot

/-- `PolicySnapshot`, with the proof that its document was checked. -/
structure PolicySnapshot where
  document : PolicyDocument
  version : PolicyVersion
  digest : Bytes
  warnings : List ValidationWarning
  checked : check document = .ok warnings

theorem ensureUniqueFrom_ok {seen items : List String}
    (h : ensureUniqueFrom seen items = .ok ()) : items.Nodup ∧ ∀ id ∈ items, id ∉ seen := by
  induction items generalizing seen with
  | nil => exact ⟨nodup_nil, fun _ hmem => absurd hmem not_mem_nil⟩
  | cons id items ih =>
    unfold ensureUniqueFrom at h
    split at h
    · cases h
    next hnew =>
    obtain ⟨hnodup, hrest⟩ := ih h
    refine ⟨nodup_cons.2 ⟨fun hmem => ?_, hnodup⟩, fun other hmem => ?_⟩
    · exact hrest id hmem mem_cons_self
    · rcases mem_cons.1 hmem with rfl | hmem
      · exact hnew
      · exact fun hseen => hrest other hmem (mem_cons_of_mem _ hseen)

section

variable {doc : PolicyDocument} {warnings : List ValidationWarning} {s : List Char}

theorem ok_of_bind {ε α β : Type} {x : Except ε α} {f : α → Except ε β}
    {b : β} (h : (x >>= f) = .ok b) : ∃ a, x = .ok a ∧ f a = .ok b := by
  cases x with
  | error e => cases h
  | ok a => exact ⟨a, rfl, h⟩

theorem check_urls (h : check doc = .ok warnings) :
    checkUniqueIds doc = .ok () ∧ checkUrls doc = .ok () := by
  obtain ⟨_, hunique, h⟩ := ok_of_bind h
  obtain ⟨_, -, h⟩ := ok_of_bind h
  obtain ⟨_, -, h⟩ := ok_of_bind h
  obtain ⟨_, hurls, -⟩ := ok_of_bind h
  exact ⟨hunique, hurls⟩

theorem PolicySnapshot.ids_unique (snapshot : PolicySnapshot) :
    (snapshot.document.rule.map (·.id)).Nodup
    ∧ (snapshot.document.referenceClass.map (·.id)).Nodup
    ∧ (snapshot.document.providerRoute.map (·.id)).Nodup
    ∧ (snapshot.document.mcpServer.map (·.id)).Nodup
    ∧ (snapshot.document.processProfile.map (·.id)).Nodup := by
  obtain ⟨_, hrule, h⟩ := ok_of_bind (check_urls snapshot.checked).1
  obtain ⟨_, hclass, h⟩ := ok_of_bind h
  obtain ⟨_, hroute, h⟩ := ok_of_bind h
  obtain ⟨_, hserver, hprofile⟩ := ok_of_bind h
  exact ⟨(ensureUniqueFrom_ok hrule).1, (ensureUniqueFrom_ok hclass).1, (ensureUniqueFrom_ok
    hroute).1, (ensureUniqueFrom_ok hserver).1, (ensureUniqueFrom_ok hprofile).1⟩

theorem mem_warned {warns : RuleDocument → RuleDocument → Bool} {before rules : List RuleDocument}
    {rule : RuleDocument} : rule ∈ warned warns before rules ↔ ∃ l r, rules = l ++ rule :: r
      ∧ ∃ earlier ∈ before ++ l, warns earlier rule = true := by
  induction rules generalizing before with
  | nil => simp [warned]
  | cons head rest ih =>
    rw [warned, mem_append, ih]
    constructor
    · rintro (hhead | ⟨l, r, rfl, earlier, hmem, hwarns⟩)
      · split at hhead
        · next hany =>
          obtain ⟨earlier, hmem, hwarns⟩ := any_eq_true.1 hany
          cases mem_singleton.1 hhead
          exact ⟨[], rest, rfl, earlier, by simpa using hmem, hwarns⟩
        · cases hhead
      · exact ⟨head :: l, r, rfl, earlier, by simpa using hmem, hwarns⟩
    · rintro ⟨l, r, heq, earlier, hmem, hwarns⟩
      cases l with
      | nil =>
        cases heq
        have hany : before.any (warns · rule) = true :=
          any_eq_true.2 ⟨earlier, by simpa using hmem, hwarns⟩
        rw [if_pos hany]
        exact .inl mem_cons_self
      | cons a l =>
        cases heq
        exact .inr ⟨l, r, rfl, earlier, by simpa using hmem, hwarns⟩

-- ==== hosts

/-- A text up to its query or fragment. -/
def cutQuery (s : List Char) : List Char :=
  s.takeWhile fun c => c != '?' && c != '#'

/-- The host a URL names: after user information, before a port. -/
def namedHost (url : String) : Option (List Char) :=
  (stripPrefix "https://".toList url.toList).map fun rest =>
    beforeFirst ':' (afterLast '@' (cutQuery (beforeFirst '/' rest)))

/-- The text `host_of` returns for an authority. -/
def keptHost (authority : List Char) : List Char :=
  afterLast ':' (afterLast '@' authority)

/-- What `host_of` throws away of an authority. -/
def thrownAway (authority : List Char) : List Char :=
  authority.take (authority.length - (keptHost authority).length)

/-- The text `host_of` throws away hides no host: it is user information at
most, and a query or fragment does not follow it at once, or the host that
stands in it is one that `check_urls` would accept. -/
def Unhidden (url : String) : Prop :=
  ∀ rest ∈ stripPrefix "https://".toList url.toList,
    let authority := beforeFirst '/' rest
    let thrown := thrownAway authority
    let site := afterLast '@' (cutQuery thrown)
    if cutQuery thrown = thrown ∧ site = [] then
      cutQuery (keptHost authority) ≠ []
    else
      beforeFirst ':' site ≠ [] ∧ '*' ∉ beforeFirst ':' site

theorem beforeFirst_of_not_mem {c : Char} (h : c ∉ s) : beforeFirst c s = s := by
  refine takeWhile_eq_self_iff.2 fun d hd => ?_
  rw [bne_iff_ne]
  rintro rfl
  exact h hd

theorem afterLast_of_not_mem {c : Char} (h : c ∉ s) : afterLast c s = s := by
  have hreverse : beforeFirst c s.reverse = s.reverse :=
    beforeFirst_of_not_mem (by rwa [mem_reverse])
  unfold beforeFirst at hreverse
  rw [afterLast, hreverse, reverse_reverse]

theorem beforeFirst_split {c : Char} {u v : List Char} (h : c ∉ u) :
    beforeFirst c (u ++ c :: v) = u := by
  rw [beforeFirst, takeWhile_append_of_pos]
  · simp
  · intro d hd
    rw [bne_iff_ne]
    intro heq
    exact h (heq ▸ hd)

theorem afterLast_split {c : Char} {u v : List Char} (h : c ∉ v) :
    afterLast c (u ++ c :: v) = v := by
  have hrev : (u ++ c :: v).reverse = v.reverse ++ c :: u.reverse := by simp
  have hcut : beforeFirst c (v.reverse ++ c :: u.reverse) = v.reverse :=
    beforeFirst_split (by rwa [mem_reverse])
  unfold beforeFirst at hcut
  rw [afterLast, hrev, hcut, reverse_reverse]

/-- What stands before the last `c` ends with it. -/
theorem afterLast_cases (c : Char) (s : List Char) :
    c ∉ s ∧ afterLast c s = s ∨ ∃ u v, s = u ++ c :: v ∧ c ∉ v ∧ afterLast c s = v := by
  by_cases hmem : c ∈ s
  · obtain ⟨u, v, hs, hv⟩ := eq_append_cons_of_mem (mem_reverse.2 hmem)
    have hs' : s = v.reverse ++ c :: u.reverse := by
      rw [← reverse_reverse s, hs]
      simp
    have hu : c ∉ u.reverse := by rwa [mem_reverse]
    refine .inr ⟨_, _, hs', hu, ?_⟩
    rw [hs', afterLast_split hu]
  · exact .inl ⟨hmem, afterLast_of_not_mem hmem⟩


/-- What is thrown away is user information, up to an `@`, and text before a
port, up to a `:`. -/
theorem authority_split (authority : List Char) : ∃ info front,
    thrownAway authority = info ++ front
    ∧ authority = info ++ front ++ keptHost authority
    ∧ (info = [] ∨ ∃ u, info = u ++ ['@'])
    ∧ '@' ∉ front ∧ '@' ∉ keptHost authority
    ∧ (front = [] ∨ ':' ∈ front) ∧ ':' ∉ keptHost authority := by
  obtain ⟨info, hinfo, hends, hat⟩ : ∃ info, authority = info ++ afterLast '@' authority
      ∧ (info = [] ∨ ∃ u, info = u ++ ['@']) ∧ '@' ∉ afterLast '@' authority := by
    rcases afterLast_cases '@' authority with ⟨hnot, heq⟩ | ⟨u, v, hs, hv, heq⟩
    · exact ⟨[], by rw [heq, nil_append], .inl rfl, by rwa [heq]⟩
    · exact ⟨u ++ ['@'], by rw [heq, append_assoc, hs]; rfl, .inr ⟨u, rfl⟩, by rwa [heq]⟩
  obtain ⟨front, hfront, hport, hcolon⟩ : ∃ front,
      afterLast '@' authority = front ++ keptHost authority
      ∧ (front = [] ∨ ':' ∈ front) ∧ ':' ∉ keptHost authority := by
    unfold keptHost
    rcases afterLast_cases ':' (afterLast '@' authority) with ⟨hnot, heq⟩ | ⟨u, v, hs, hv, heq⟩
    · exact ⟨[], by rw [heq, nil_append], .inl rfl, by rwa [heq]⟩
    · refine ⟨u ++ [':'], ?_, .inr (mem_append_right _ mem_cons_self), by rwa [heq]⟩
      rw [heq, append_assoc]
      exact hs
  have hwhole : authority = info ++ front ++ keptHost authority := by
    rw [append_assoc, ← hfront]
    exact hinfo
  rw [hfront, mem_append, not_or] at hat
  refine ⟨info, front, ?_, hwhole, hends, hat.1, hat.2, hport, hcolon⟩
  have hlength : authority.length - (keptHost authority).length = (info ++ front).length := by
    have hlengths := congrArg length hwhole
    rw [length_append] at hlengths
    omega
  rw [thrownAway, hlength]
  conv_lhs => rw [hwhole]
  exact take_left

theorem afterLast_info {info s : List Char} (hinfo : info = [] ∨ ∃ u, info = u ++ ['@'])
    (hs : '@' ∉ s) : afterLast '@' (info ++ s) = s := by
  rcases hinfo with rfl | ⟨u, rfl⟩
  · exact afterLast_of_not_mem hs
  · rw [append_assoc]
    exact afterLast_split hs

theorem cutQuery_append (a b : List Char) :
    cutQuery (a ++ b) = if cutQuery a = a then a ++ cutQuery b else cutQuery a := by
  rw [cutQuery, takeWhile_append]
  refine if_congr ⟨fun h => ?_, fun h => congrArg length h⟩ rfl rfl
  exact ( takeWhile_prefix _).eq_of_length h

theorem not_mem_cutQuery {c : Char} (h : c ∉ s) : c ∉ cutQuery s :=
  fun hmem => h (( takeWhile_prefix _).subset hmem)

/-- Of an authority whose kept text is a host, the text the host of the URL
stands in: the one kept, or the one thrown away. -/
theorem named_of_authority (authority : List Char) :
    let thrown := thrownAway authority
    let site := afterLast '@' (cutQuery thrown)
    beforeFirst ':' (afterLast '@' (cutQuery authority)) =
      if cutQuery thrown = thrown ∧ site = [] then cutQuery (keptHost authority)
      else beforeFirst ':' site := by
  obtain ⟨info, front, hthrown, hwhole, hinfo, hat, hatKept, hfront, hcolon⟩ :=
    authority_split authority
  dsimp only
  have hcut := cutQuery_append (info ++ front) (keptHost authority)
  rw [← hwhole] at hcut
  rw [hthrown, hcut]
  by_cases hquery : cutQuery (info ++ front) = info ++ front
  · rw [if_pos hquery, hquery, append_assoc, afterLast_info hinfo hat, afterLast_info hinfo]
    · rcases hfront with rfl | hmem
      · rw [if_pos ⟨rfl, rfl⟩]
        exact beforeFirst_of_not_mem (not_mem_cutQuery hcolon)
      · rw [if_neg fun h => ne_nil_of_mem hmem h.2]
        obtain ⟨u, v, rfl, hu⟩ := eq_append_cons_of_mem hmem
        rw [append_assoc, cons_append, beforeFirst_split hu, beforeFirst_split hu]
    · rw [mem_append, not_or]
      exact ⟨hat, not_mem_cutQuery hatKept⟩
  · rw [if_neg hquery, if_neg fun h => hquery h.1]

/-- A route that is accepted names a host, and one without a wildcard,
exactly if no host is hidden in what `host_of` throws away. -/
theorem routes_name_hosts (h : check doc = .ok warnings) {route : ProviderRouteDocument}
    (hroute : route ∈ doc.providerRoute) :
    (∃ host, namedHost route.baseUrl = some host ∧ host ≠ [] ∧ '*' ∉ host)
      ↔ Unhidden route.baseUrl := by
  have hurls := (check_urls h).2
  unfold checkUrls ensureAll at hurls
  split at hurls
  · next hall =>
    have hok := all_eq_true.1 hall route hroute
    unfold hostOf at hok
    unfold namedHost Unhidden
    cases hrest : stripPrefix "https://".toList route.baseUrl.toList with
    | none =>
      rw [hrest] at hok
      cases hok
    | some rest =>
      rw [hrest] at hok
      simp only [Bool.and_eq_true, Bool.not_eq_true', contains_eq_mem,
        decide_eq_false_iff_not] at hok
      simp only [Option.map_some, Option.some.injEq, exists_eq_left', Option.mem_def,
        forall_eq']
      rw [named_of_authority]
      split
      · exact and_iff_left (not_mem_cutQuery hok.2)
      · rfl
  · cases hurls

end

namespace Sample

def routed (baseUrl : String) : PolicyDocument where
  policyId := "policy.test"
  limits := ⟨1, 1, 1, 1, 1, 1, 1⟩
  rule := []
  providerRoute := [⟨"provider", "openai", baseUrl, "ref", [], [], [], false,
    1, 1⟩]

end Sample

theorem routes_name_hosts_port : Unhidden "https://api.example.com:443/v1"
    ∧ (∃ host, namedHost "https://api.example.com:443/v1" = some host
      ∧ host ≠ [] ∧ '*' ∉ host) := by
  have hchecked : check (Sample.routed "https://api.example.com:443/v1") = .ok [] := by
    decide +kernel
  have hshown : Unhidden "https://api.example.com:443/v1" := by
    unfold Unhidden
    decide +kernel
  exact ⟨hshown, (routes_name_hosts hchecked mem_cons_self).2 hshown⟩

/-- With a port, it is the port that is checked. -/
theorem port_hides_host : check (Sample.routed "https://*:443/v1") = .ok []
    ∧ namedHost "https://*:443/v1" = some ['*']
    ∧ check (Sample.routed "https://:443/v1") = .ok []
    ∧ namedHost "https://:443/v1" = some [] := by
  decide +kernel

end SovereignVault.Runtime
