/-
`sv-core::broker`: which paths and which addresses a brokered request may
reach, and what its response may show.

A path prefix is to admit whole segments (`Extends`). The broker compares
segments; a rule of the runtime's policy compares characters, so it is
segment-aware just when its prefix ends in a slash (`path_gates_agree`).

A refused IPv4 address is looked for again inside an IPv6 address, under
two of the four prefixes that can carry it (`embedded_blocked`).

A secret that comes back in a response is replaced in one pass from left
to right; none is left, even across a marker (`redactSecret_complete`).
-/
import SovereignVault.State
import SovereignVault.Runtime.Evaluator

namespace SovereignVault.Broker

open List

open SovereignVault.Runtime (startsWith RuleMatch EvaluationFacts ruleMatches)

-- ==== paths

def endsInSlash (path : String) : Bool := path.toList.getLast? = some '/'

def pathPrefixMatches (allowed path : String) : Bool :=
  if allowed.toList.head? ≠ some '/' then false
  else if allowed = "/" || endsInSlash allowed then startsWith allowed path
  else path = allowed
    || (startsWith allowed path && (path.toList.drop allowed.toList.length).head? = some '/')

def eqIgnoreAsciiCase (s t : String) : Bool :=
  s.toList.map Char.toLower = t.toList.map Char.toLower

def matchedEntry (allow : List BrokerAllow) (host path method : String) : Option BrokerAllow :=
  allow.find? fun entry => eqIgnoreAsciiCase entry.host host
    && pathPrefixMatches entry.pathPrefix path && entry.methods.any (eqIgnoreAsciiCase · method)

/-- A path is an allowed one, or goes on from it at a slash. -/
def Extends (allowed path : String) : Prop :=
  path = allowed ∨ ∃ rest, path.toList = allowed.toList ++ rest
    ∧ (endsInSlash allowed = true ∨ rest.head? = some '/')

variable {p q : String}

theorem startsWith_iff : startsWith p q = true ↔ ∃ rest, q.toList = p.toList ++ rest := by
  unfold startsWith
  rw [ isPrefixOf_iff_prefix]
  exact exists_congr fun rest => eq_comm

theorem extends_of_startsWith (hp : endsInSlash p = true)
    (h : startsWith p q = true) : Extends p q := by
  obtain ⟨rest, hrest⟩ := startsWith_iff.mp h
  exact Or.inr ⟨rest, hrest, Or.inl hp⟩

theorem pathPrefixMatches_extends (h : pathPrefixMatches p q = true) : Extends p q := by
  unfold pathPrefixMatches at h
  split at h
  · cases h
  split at h
  case isTrue hslash =>
    apply extends_of_startsWith _ h
    rw [Bool.or_eq_true, decide_eq_true_eq] at hslash
    rcases hslash with hroot | hend
    · rw [hroot]
      rfl
    · exact hend
  case isFalse =>
    rw [Bool.or_eq_true, decide_eq_true_eq, Bool.and_eq_true, decide_eq_true_eq] at h
    rcases h with heq | ⟨hstart, hnext⟩
    · exact Or.inl heq
    · obtain ⟨rest, hrest⟩ := startsWith_iff.mp hstart
      rw [hrest, drop_left] at hnext
      exact Or.inr ⟨rest, hrest, Or.inr hnext⟩

theorem matchedEntry_extends {allow : List BrokerAllow} {host method : String} {entry : BrokerAllow}
    (h : matchedEntry allow host q method = some entry) : Extends entry.pathPrefix q := by
  have hfound := find?_some h
  simp only [Bool.and_eq_true] at hfound
  exact pathPrefixMatches_extends hfound.1.2

def onPath (p : String) : RuleMatch := { pathPrefixes := some [p] }

theorem ruleMatches_onPath : ruleMatches (onPath p) { path := some q } = startsWith p q := by
  simp [ruleMatches, onPath, Runtime.optIn, Runtime.optGlob, Runtime.optAny, Runtime.optList]

theorem startsWith_of_ruleMatches
    {selector : RuleMatch} {facts : EvaluationFacts} (hp : selector.pathPrefixes = some [p])
    (hq : facts.path = some q) (h : ruleMatches selector facts = true) : startsWith p q = true := by
  unfold ruleMatches at h
  simp only [Bool.and_eq_true, hp, hq, Runtime.optAny, Option.any_some,
    any_cons, any_nil, Bool.or_false] at h
  tauto

/-- The broker admits nothing but extensions of a prefix. A rule does the
same, and admits nothing that the broker refuses, just when its prefix
ends in a slash. -/
theorem path_gates_agree (p : String) (hp : p.toList.head? = some '/') :
    (∀ allow host method entry q, matchedEntry allow host q method = some entry →
      entry.pathPrefix = p → Extends p q)
    ∧ ((∀ selector facts q, selector.pathPrefixes = some [p] → facts.path
        = some q → ruleMatches selector facts = true → Extends p q ∧ pathPrefixMatches p q = true)
      ↔ endsInSlash p = true) := by
  constructor
  · intro allow host method entry q h heq
    rw [← heq]
    exact matchedEntry_extends h
  constructor
  · intro h
    -- one more character than the prefix, and no slash
    have hstart : startsWith p (p ++ "x") = true := startsWith_iff.mpr ⟨['x'], String.toList_append⟩
    obtain ⟨hext, -⟩ := h (onPath p) { path := some (p ++ "x") } _ rfl rfl
      (ruleMatches_onPath.trans hstart)
    rcases hext with heq | ⟨rest, hrest, hend | hhead⟩
    · have := congrArg (fun s : String => s.toList.length) heq
      simp at this
    · exact hend
    · rw [String.toList_append] at hrest
      rw [← append_cancel_left hrest] at hhead
      cases hhead
  · intro hend selector facts q hsel hpath hmatch
    have hstart := startsWith_of_ruleMatches hsel hpath hmatch
    refine ⟨extends_of_startsWith hend hstart, ?_⟩
    unfold pathPrefixMatches
    rw [if_neg (not_not.mpr hp), if_pos (by rw [hend, Bool.or_true])]
    exact hstart

theorem path_gates_agree_api : pathPrefixMatches "/api/" "/api/v1" = true :=
  ((path_gates_agree "/api/" (by decide)).2.mpr (by decide) (onPath "/api/")
    { path := some "/api/v1" } "/api/v1" rfl rfl (by decide)).2

theorem api_admits_apiary : ruleMatches (onPath "/api") { path := some "/apiary" } = true
    ∧ pathPrefixMatches "/api" "/apiary" = false
    ∧ ¬ Extends "/api" "/apiary" := by
  refine ⟨by decide, by decide, ?_⟩
  rintro (h | ⟨rest, hrest, hend | hhead⟩)
  · exact absurd h (by decide)
  · exact absurd hend (by decide)
  · have : rest = "ary".toList := by simpa using hrest.symm
    rw [this] at hhead
    exact absurd hhead (by decide)

-- ==== addresses

structure Ipv4Addr where
  (a b c d : BitVec 8)
  deriving DecidableEq

structure Ipv6Addr where
  (s0 s1 s2 s3 s4 s5 s6 s7 : BitVec 16)
  deriving DecidableEq

def isBlockedV4 (ip : Ipv4Addr) : Bool :=
  ip.a = 127 -- loopback
  || ip.a = 10 || (ip.a = 172 && 16 ≤ ip.b && ip.b ≤ 31)
  || (ip.a = 192 && ip.b = 168) -- private
  || (ip.a = 169 && ip.b = 254) -- link-local
  || ip = ⟨255, 255, 255, 255⟩ || ip = ⟨0, 0, 0, 0⟩
  || ip.a = 0
  || (ip.a = 100 && 64 ≤ ip.b && ip.b ≤ 127)
  || (ip.a = 192 && ip.b = 0 && ip.c = 0)
  || (ip.a = 192 && ip.b = 0 && ip.c = 2)
  || (ip.a = 192 && ip.b = 88 && ip.c = 99)
  || (ip.a = 198 && (ip.b = 18 || ip.b = 19))
  || (ip.a = 198 && ip.b = 51 && ip.c = 100)
  || (ip.a = 203 && ip.b = 0 && ip.c = 113)
  || 224 ≤ ip.a

def Ipv6Addr.low (ip : Ipv6Addr) : Ipv4Addr :=
  ⟨(ip.s6 >>> 8).setWidth 8, ip.s6.setWidth 8, (ip.s7 >>> 8).setWidth 8, ip.s7.setWidth 8⟩

def toIpv4Mapped (ip : Ipv6Addr) : Option Ipv4Addr :=
  if ip.s0 = 0 && ip.s1 = 0 && ip.s2 = 0 && ip.s3 = 0 && ip.s4 = 0
    && ip.s5 = 0xffff then some ip.low else none

def isBlockedV6 (ip : Ipv6Addr) : Bool :=
  if ip = ⟨0, 0, 0, 0, 0, 0, 0, 1⟩ || ip = ⟨0, 0, 0, 0, 0, 0, 0, 0⟩
    || ip.s0 &&& 0xff00 = 0xff00 then true
  else if ip.s0 &&& 0xfe00 = 0xfc00 then true
  else if ip.s0 &&& 0xffc0 = 0xfe80 then true
  else if ip.s0 &&& 0xffc0 = 0xfec0
    || (ip.s0 = 0x2001 && ip.s1 = 0x0db8) then true
  else match toIpv4Mapped ip with
    | some v4 => isBlockedV4 v4
    | none =>
      if ip.s0 = 0x0064 && ip.s1 = 0xff9b && ip.s2 = 0 && ip.s3 = 0
        && ip.s4 = 0 && ip.s5 = 0 then isBlockedV4 ip.low
      else false

/-- The prefixes that carry an IPv4 address. A 6to4 address has five
segments of its own after it. -/
inductive Embedding where
  | mapped | compatible | nat64
  | sixToFour (s3 s4 s5 s6 s7 : BitVec 16)

def Embedding.embed (v4 : Ipv4Addr) : Embedding → Ipv6Addr
  | mapped => ⟨0, 0, 0, 0, 0, 0xffff, v4.a ++ v4.b, v4.c ++ v4.d⟩
  | compatible => ⟨0, 0, 0, 0, 0, 0, v4.a ++ v4.b, v4.c ++ v4.d⟩
  | nat64 => ⟨0x0064, 0xff9b, 0, 0, 0, 0, v4.a ++ v4.b, v4.c ++ v4.d⟩
  | sixToFour s3 s4 s5 s6 s7 => ⟨0x2002, v4.a ++ v4.b, v4.c ++ v4.d, s3, s4, s5, s6, s7⟩

/-- The embeddings under which a refused address is found again. -/
def Embedding.found (v4 : Ipv4Addr) : Embedding → Bool
  | mapped => true
  | compatible => v4 = ⟨0, 0, 0, 0⟩ || v4 = ⟨0, 0, 0, 1⟩
  | nat64 => true
  | sixToFour _ _ _ _ _ => false

theorem high_append (x y : BitVec 8) : ((x ++ y) >>> 8).setWidth 8 = x := by
  apply BitVec.eq_of_toNat_eq
  have hy := y.isLt
  simp only [BitVec.toNat_setWidth,
    BitVec.toNat_ushiftRight, BitVec.toNat_append, Nat.shiftRight_eq_div_pow, Nat.shiftLeft_eq]
  rw [Nat.mul_comm, ← Nat.two_pow_add_eq_or_of_lt hy]
  omega

theorem low_append (x y : BitVec 8) : (x ++ y).setWidth 8 = y := by
  apply BitVec.eq_of_toNat_eq
  have hy := y.isLt
  simp only [BitVec.toNat_setWidth, BitVec.toNat_append, Nat.shiftLeft_eq]
  rw [Nat.mul_comm, ← Nat.two_pow_add_eq_or_of_lt hy]
  omega

theorem append_eq_iff (x y u v : BitVec 8) : x ++ y = u ++ v ↔ x = u ∧ y = v := by
  constructor
  · intro h
    have hhigh := congrArg (fun s : BitVec (8 + 8) => (s >>> 8).setWidth 8) h
    have hlow := congrArg (BitVec.setWidth 8) h
    rw [low_append, low_append] at hlow
    rw [high_append, high_append] at hhigh
    exact ⟨hhigh, hlow⟩
  · rintro ⟨rfl, rfl⟩
    rfl

theorem isBlockedV6_sixToFour {ip : Ipv6Addr} (h : ip.s0 = 0x2002) : isBlockedV6 ip = false := by
  have hne : ∀ ip' : Ipv6Addr, ip'.s0 ≠ 0x2002 → ip ≠ ip' := by
    intro ip' hip' heq
    exact hip' (heq ▸ h)
  unfold isBlockedV6 toIpv4Mapped
  rw [h]
  simp [hne]

theorem isBlockedV6_compatible (v4 : Ipv4Addr) : isBlockedV6 (Embedding.compatible.embed v4)
      = Embedding.compatible.found v4 := by
  have hzero := append_eq_iff v4.a v4.b 0 0
  have hzero' := append_eq_iff v4.c v4.d 0 0
  have hone := append_eq_iff v4.c v4.d 0 1
  obtain ⟨a, b, c, d⟩ := v4
  rw [Bool.eq_iff_iff]
  simp only [BitVec.reduceAppend] at *
  simp [isBlockedV6, Embedding.embed, Embedding.found, toIpv4Mapped]
  grind

/-- A refused IPv4 address is refused inside an IPv6 address under the two
prefixes that are looked at, and under no other. -/
theorem embedded_blocked (v4 : Ipv4Addr) (h : isBlockedV4 v4 = true)
    (e : Embedding) : isBlockedV6 (e.embed v4) = e.found v4 := by
  cases e with
  | mapped =>
      simp [isBlockedV6, Embedding.embed, Embedding.found, toIpv4Mapped,
        Ipv6Addr.low, high_append, low_append, h]
  | nat64 =>
      simp [isBlockedV6, Embedding.embed, Embedding.found, toIpv4Mapped,
        Ipv6Addr.low, high_append, low_append, h]
  | compatible => exact isBlockedV6_compatible v4
  | sixToFour => exact isBlockedV6_sixToFour rfl

theorem embedded_blocked_loopback : isBlockedV6 (Embedding.nat64.embed ⟨127, 0, 0, 1⟩) = true :=
  embedded_blocked ⟨127, 0, 0, 1⟩ (by decide) .nat64

/-- `2002:7f00:1::` and `::127.0.0.1` carry the loopback address. -/
theorem loopback_reached : isBlockedV4 ⟨127, 0, 0, 1⟩ = true
    ∧ isBlockedV6 ((Embedding.sixToFour 0 0 0 0 0).embed ⟨127, 0, 0, 1⟩) = false
    ∧ isBlockedV6 (Embedding.compatible.embed ⟨127, 0, 0, 1⟩) = false :=
  ⟨by decide, by decide, by decide⟩

-- ==== secrets in responses

/-- `str::replace`: `skip` characters are still those of the last
occurrence that was replaced. -/
def replaceFrom (needle marker : List Char) : (skip : Nat) → List Char → List Char
  | _, [] => []
  | skip + 1, _ :: rest => replaceFrom needle marker skip rest
  | 0, c :: rest =>
    if needle.isPrefixOf (c :: rest) then
      marker ++ replaceFrom needle marker (needle.length - 1) rest
    else c :: replaceFrom needle marker 0 rest

def redactSecret (value secret : String) : String :=
  if secret.isEmpty then value
  else .ofList (replaceFrom secret.toList "<redacted>".toList 0 value.toList)

section

variable {needle marker s : List Char}

theorem prefix_of_replaceFrom {a : Char} (ha : a ∉ s) (text : List Char)
    (h : s <+: replaceFrom needle (a :: marker) 0 text) : s <+: text := by
  induction text generalizing s with
  | nil => exact h
  | cons c rest ih =>
    cases s with
    | nil => exact nil_prefix
    | cons b s =>
      rw [replaceFrom] at h
      split at h
      · obtain ⟨rfl, -⟩ := cons_prefix_cons.1 h
        exact absurd mem_cons_self ha
      · obtain ⟨rfl, hs⟩ := cons_prefix_cons.1 h
        exact cons_prefix_cons.2 ⟨rfl, ih (fun hm => ha (mem_cons_of_mem _ hm)) hs⟩

theorem infix_append_cons {a : Char} {l r : List Char} (ha : a ∉ s)
    (h : s <:+: l ++ a :: r) : s <:+: l ∨ s <:+: r := by
  obtain ⟨before, after, heq⟩ := h
  obtain ⟨t, rfl, -⟩ | ⟨t, hleft, hright⟩ := append_eq_append_iff.1 heq
  · exact .inl ⟨before, t, rfl⟩
  cases t with
  | nil => exact .inl ⟨before, [], by simpa using hleft⟩
  | cons b t =>
    obtain ⟨rfl, rfl⟩ := cons.inj hright
    obtain ⟨u, -, rfl⟩ | ⟨u, -, hs⟩ := append_eq_append_iff.1 hleft
    · exact absurd (mem_append_right _ mem_cons_self) ha
    cases u with
    | nil =>
      obtain rfl : a :: t = s := hs
      exact absurd mem_cons_self ha
    | cons c u =>
      obtain ⟨-, rfl⟩ := cons.inj hs
      exact .inr ⟨u, after, rfl⟩

theorem not_infix_replaceFrom (hneedle : needle ≠ []) (hopen : '<' ∉ needle) (hclose : '>' ∉ needle)
    (hword : ¬ needle <:+: "redacted".toList) (skip : Nat) (text : List Char) :
    ¬ needle <:+: replaceFrom needle "<redacted>".toList skip text := by
  induction text generalizing skip with
  | nil =>
    rw [replaceFrom]
    exact fun h => hneedle (infix_nil.1 h)
  | cons c rest ih =>
    cases skip with
    | succ skip => exact ih skip
    | zero =>
      intro h
      rw [replaceFrom] at h
      split at h
      · -- on neither side of the brackets, nor between them
        rcases infix_append_cons (l := []) hopen h with h | h
        · exact hneedle (infix_nil.1 h)
        · rcases infix_append_cons (l := "redacted".toList) hclose h with h | h
          · exact hword h
          · exact ih _ h
      · next hnot =>
        rcases infix_cons_iff.1 h with hcopied | h
        · have hcopied' : needle <+: replaceFrom needle "<redacted>".toList 0 (c :: rest) := by
            rwa [replaceFrom, if_neg hnot]
          exact hnot ( isPrefixOf_iff_prefix.2 (prefix_of_replaceFrom hopen _ hcopied'))
        · exact ih 0 h

end

/-- No secret without angle brackets that is not part of the word
`redacted` is left in what is shown. -/
theorem redactSecret_complete (value secret : String) (hsecret : secret ≠ "")
    (hopen : '<' ∉ secret.toList) (hclose : '>' ∉ secret.toList)
    (hword : ¬ secret.toList <:+: "redacted".toList) :
    ¬ secret.toList <:+: (redactSecret value secret).toList := by
  have hne : secret.toList ≠ [] := mt String.toList_eq_nil_iff.1 hsecret
  have hempty : ¬ secret.isEmpty = true := mt String.isEmpty_iff.1 hsecret
  rw [redactSecret, if_neg hempty, String.toList_ofList]
  exact not_infix_replaceFrom hne hopen hclose hword 0 value.toList

theorem redactSecret_complete_twice : redactSecret "k1k1 k2" "k1" = "<redacted><redacted> k2"
    ∧ ¬ "k1".toList <:+: (redactSecret "k1k1 k2" "k1").toList :=
  ⟨by decide, redactSecret_complete "k1k1 k2" "k1" (by decide) (by decide) (by decide)
    (by decide +kernel)⟩

end SovereignVault.Broker
