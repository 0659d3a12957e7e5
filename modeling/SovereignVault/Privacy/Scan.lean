/-
`sv-privacy`: the detectors.

A detector walks over the bytes of the text. At each position it finds
something or not, and says where to go on; the walk is `detect`, the
positions are the detectors' own. Offsets are byte offsets. Digits and
sums are natural numbers: the longest sum the code takes is over nineteen
digits.
-/
import SovereignVault.Crypto
import Mathlib.Data.Finset.Dedup
import Mathlib.Algebra.Ring.Nat
import Mathlib.Data.List.Sort

namespace SovereignVault.Privacy

open List

-- ==== the categories

inductive PiiCategory where
  | email | cpf | cnpj | creditCard | ipv4 | phone | ssn
  deriving DecidableEq

namespace PiiCategory

def ALL : List PiiCategory :=
  [.cnpj, .cpf, .creditCard, .email, .ipv4, .phone, .ssn]

def label : PiiCategory → String
  | .email => "EMAIL"
  | .cpf => "CPF"
  | .cnpj => "CNPJ"
  | .creditCard => "CREDIT_CARD"
  | .ipv4 => "IPV4"
  | .phone => "PHONE"
  | .ssn => "SSN"

def priority : PiiCategory → Nat
  | .cnpj => 6
  | .cpf => 5
  | .creditCard => 4
  | .email => 3
  | .ipv4 => 2
  | .phone => 1
  | .ssn => 2

end PiiCategory

structure Policy where
  categories : Finset PiiCategory

namespace Policy

def all : Policy := ⟨PiiCategory.ALL.toFinset⟩

def enabled (policy : Policy) (category : PiiCategory) : Bool :=
  category ∈ policy.categories

end Policy

structure Finding where
  category : PiiCategory
  start : Nat
  stop : Nat
  deriving DecidableEq

-- ==== characters

def isDigit (c : UInt8) : Bool := '0'.toUInt8 ≤ c && c ≤ '9'.toUInt8

def isAsciiAlphabetic (c : UInt8) : Bool :=
  'A'.toUInt8 ≤ c && c ≤ 'Z'.toUInt8 || 'a'.toUInt8 ≤ c && c ≤ 'z'.toUInt8

def isAsciiAlphanumeric (c : UInt8) : Bool :=
  isAsciiAlphabetic c || isDigit c

def oneOf (chars : List Char) (c : UInt8) : Bool :=
  chars.any fun x => x.toUInt8 = c

def isEmailLocal (c : UInt8) : Bool :=
  isAsciiAlphanumeric c || oneOf ['.', '_', '%', '+', '-'] c

def isEmailDomain (c : UInt8) : Bool :=
  isAsciiAlphanumeric c || oneOf ['.', '-'] c

def isNumberBoundary : Option UInt8 → Bool
  | none => true
  | some c => !isDigit c && c ≠ '.'.toUInt8

def isSsnBoundary : Option UInt8 → Bool
  | none => true
  | some c => !isDigit c && c ≠ '-'.toUInt8

def isAt (p : UInt8 → Bool) (b : Bytes) (i : Nat) : Bool := b[i]?.any p

def byteBefore (b : Bytes) : Nat → Option UInt8
  | 0 => none
  | i + 1 => b[i]?

def goLeft (p : UInt8 → Bool) (b : Bytes) : Nat → Nat
  | 0 => 0
  | i + 1 => if isAt p b i then goLeft p b i else i + 1

def goRight (p : UInt8 → Bool) (b : Bytes) (i : Nat) : Nat :=
  i + ((b.drop i).takeWhile p).length

def goBack (p : UInt8 → Bool) (b : Bytes) (least : Nat) : Nat → Nat
  | 0 => 0
  | i + 1 =>
    if least < i + 1 && isAt p b i then goBack p b least i else i + 1

-- ==== checksums

def luhnDigit (double : Bool) (d : Nat) : Nat :=
  if double then if 9 < d * 2 then d * 2 - 9 else d * 2 else d

def luhnSum : Bool → List Nat → Nat
  | _, [] => 0
  | double, d :: rest => luhnDigit double d + luhnSum (!double) rest

def luhnValid (digits : List Nat) : Bool :=
  2 ≤ digits.length && luhnSum false digits.reverse % 10 = 0

def allEqual (digits : List Nat) : Bool :=
  digits.all fun d => digits.head? = some d

def weighted (weights digits : List Nat) : Nat :=
  (List.zipWith (· * ·) weights digits).sum

def cpfCheck (digits : List Nat) (upto startWeight : Nat) : Nat :=
  let r := weighted ((List.range upto).map (startWeight - ·)) digits * 10 % 11
  if r = 10 then 0 else r

def cpfValid (d : List Nat) : Bool :=
  d.length = 11 && !allEqual d && d[9]? = some (cpfCheck d 9 10) && d[10]? = some (cpfCheck d 10 11)

def cnpjCheck (digits weights : List Nat) : Nat :=
  let r := weighted weights digits % 11
  if r < 2 then 0 else 11 - r

def cnpjValid (d : List Nat) : Bool :=
  d.length = 14 && !allEqual d && d[12]? = some (cnpjCheck d [5, 4, 3, 2, 9, 8, 7, 6, 5, 4, 3, 2])
    && d[13]? = some (cnpjCheck d [6, 5, 4, 3, 2, 9, 8, 7, 6, 5, 4, 3, 2])

-- ==== the walk

/-- The loop of a detector: at each position, what it finds and where it
goes on. There is a round for each byte, and each goes on further. -/
def detect (step : Nat → Option Finding × Nat) (len : Nat) : Nat → Nat → List Finding
  | 0, _ => []
  | rounds + 1, i =>
    if i < len then
      (step i).1.toList ++ detect step len rounds (step i).2
    else []

def detectIn (step : Nat → Option Finding × Nat) (b : Bytes) : List Finding :=
  detect step b.length b.length 0

/-- A step that found something goes on after it, another one byte
further. -/
def orNext (i : Nat) : Option Finding → Option Finding × Nat
  | some f => (some f, f.stop)
  | none => (none, i + 1)

section

variable {step : Nat → Option Finding × Nat} {len : Nat}

theorem mem_detect {f : Finding} : ∀ {rounds i : Nat}, f ∈ detect step len rounds i →
      ∃ j, j < len ∧ (step j).1 = some f := by
  intro rounds
  induction rounds with
  | zero =>
    intro i hf
    cases hf
  | succ rounds ih =>
    intro i hf
    unfold detect at hf
    split at hf
    · next hi =>
      rcases mem_append.1 hf with hf | hf
      · exact ⟨i, hi, Option.mem_toList.1 hf⟩
      · exact ih hf
    · cases hf

end

-- ==== the detectors

section

variable (b : Bytes)

def validEmailDomain (domain : Bytes) : Bool :=
  match domain.reverse.idxOf? '.'.toUInt8 with
  | none => false
  | some n =>
    let tld := domain.drop (domain.length - n)
    domain.head? ≠ some '.'.toUInt8 && 2 ≤ tld.length && tld.all isAsciiAlphabetic

def emailAt (i : Nat) : Option Finding × Nat :=
  if isAt (· = '@'.toUInt8) b i then
    let start := goLeft isEmailLocal b i
    let stop := goBack (oneOf ['.', '-']) b (i + 1) (goRight isEmailDomain b (i + 1))
    (if start < i
        && validEmailDomain ((b.drop (i + 1)).take (stop - (i + 1))) then
      some ⟨.email, start, stop⟩ else none, max stop (i + 1))
  else (none, i + 1)

def findEmails : List Finding := detectIn (emailAt b) b

def octet (i : Nat) : List Nat :=
  (((b.drop i).take 3).takeWhile isDigit).map fun c => (c - '0'.toUInt8).toNat

def valueOf (digits : List Nat) : Nat :=
  digits.foldl (fun val d => val * 10 + d) 0

def octets : Nat → Nat → Option Nat
  | 0, stop => some stop
  | n + 1, stop =>
    let digits := octet b stop
    let stop' := stop + digits.length
    if digits.length = 0 || 255 < valueOf digits
        || 1 < digits.length && digits.head? = some 0 then none
    else if n = 0 then some stop'
    else if isAt (· = '.'.toUInt8) b stop' then octets n (stop' + 1)
    else none

def numberStarts (i : Nat) : Bool :=
  isAt isDigit b i && isNumberBoundary (byteBefore b i)

def ipv4At (i : Nat) : Option Finding :=
  if numberStarts b i then
    match octets b 4 i with
    | some stop =>
      if isNumberBoundary b[stop]? then some ⟨.ipv4, i, stop⟩ else none
    | none => none
  else none

def findIpv4 : List Finding :=
  detectIn (fun i => orNext i (ipv4At b i)) b

def collectFrom (max : Nat) : Bytes → List Nat → Nat → List Nat × Nat
  | [], digits, stop => (digits, stop)
  | c :: rest, digits, stop =>
    if digits.length < max then
      if isDigit c then
        collectFrom max rest (digits ++ [(c - '0'.toUInt8).toNat]) (stop + 1)
      else if oneOf [' ', '.', '-', '/'] c && rest.head?.any isDigit
          && !digits.isEmpty then
        collectFrom max rest digits (stop + 1)
      else (digits, stop)
    else (digits, stop)

def collectGroupedDigits (i max : Nat) : List Nat × Nat :=
  collectFrom max (b.drop i) [] i

def numberAt (category : PiiCategory) (max : Nat)
    (validate : List Nat → Bool) (i : Nat) : Option Finding :=
  if numberStarts b i then
    let r := collectGroupedDigits b i max
    if isNumberBoundary b[r.2]? && validate r.1 then
      some ⟨category, i, r.2⟩
    else none
  else none

def findCheckedId (len : Nat) (category : PiiCategory)
    (validate : List Nat → Bool) : List Finding :=
  detectIn (fun i => orNext i (numberAt b category len
    (fun digits => digits.length = len && validate digits) i)) b

def findCpf : List Finding := findCheckedId b 11 .cpf cpfValid

def findCnpj : List Finding := findCheckedId b 14 .cnpj cnpjValid

def findCreditCards : List Finding :=
  detectIn (fun i => orNext i (numberAt b .creditCard 19
    (fun digits => 13 ≤ digits.length && digits.length ≤ 19 && luhnValid digits) i)) b

/-- The body of a telephone number: how many digits, whether a parenthesis
was closed, and where it ends. -/
def phoneBody : Bytes → Nat → Bool → Nat → Nat × Bool × Nat
  | [], digits, closed, stop => (digits, closed, stop)
  | c :: rest, digits, closed, stop =>
    if isDigit c then phoneBody rest (digits + 1) closed (stop + 1)
    else if oneOf [' ', '-', '.', '(', ')'] c then
      phoneBody rest digits (closed || c = ')'.toUInt8) (stop + 1)
    else (digits, closed, stop)

def phoneAt (i : Nat) : Option Finding × Nat :=
  if isAt (oneOf ['+', '(']) b i && isNumberBoundary (byteBefore b i) then
    let r := phoneBody (b.drop (i + 1)) 0 false (i + 1)
    let stop := goBack (fun c => !isDigit c) b i r.2.2
    if 10 ≤ r.1 && r.1 ≤ 13 && (isAt (· ≠ '('.toUInt8) b i || r.2.1) then
      (some ⟨.phone, i, stop⟩, max stop (i + 1))
    else (none, i + 1)
  else (none, i + 1)

def findPhones : List Finding := detectIn (phoneAt b) b

def isSsn (s : Bytes) : Bool :=
  s.length = 11 && (List.range 11).all fun k =>
      isAt (if k = 3 ∨ k = 6 then (· = '-'.toUInt8) else isDigit) s k

def ssnAt (i : Nat) : Option Finding :=
  if isAt isDigit b i && isSsnBoundary (byteBefore b i)
      && isSsn ((b.drop i).take 11) && isSsnBoundary b[i + 11]? then
    some ⟨.ssn, i, i + 11⟩
  else none

def findSsns : List Finding :=
  detectIn (fun i => orNext i (ssnAt b i)) b

def ifEnabled (policy : Policy) (category : PiiCategory) (found : List Finding) : List Finding :=
  if policy.enabled category then found else []

def candidates (policy : Policy) : List Finding :=
  ifEnabled policy .email
    (findEmails b) ++ ifEnabled policy .ipv4 (findIpv4 b) ++ ifEnabled policy .cpf (findCpf b)
    ++ ifEnabled policy .cnpj (findCnpj b) ++ ifEnabled policy .creditCard (findCreditCards b)
    ++ ifEnabled policy .phone (findPhones b) ++ ifEnabled policy .ssn (findSsns b)

end

def detectors : List (PiiCategory × (Bytes → List Finding)) :=
  [(.email, findEmails), (.ipv4, findIpv4), (.cpf, findCpf),
    (.cnpj, findCnpj), (.creditCard, findCreditCards), (.phone, findPhones), (.ssn, findSsns)]

theorem candidates_eq (b : Bytes) (policy : Policy) : candidates b policy
      = detectors.flatMap fun d => ifEnabled policy d.1 (d.2 b) := by
  simp [candidates, detectors]

variable {policy : Policy} {f : Finding}

theorem mem_ifEnabled {category : PiiCategory} {found : List Finding} :
    f ∈ ifEnabled policy category found
      ↔ policy.enabled category = true ∧ f ∈ found := by
  unfold ifEnabled
  split
  · next henabled => simp [henabled]
  · next henabled => simp [henabled]

theorem mem_candidates_iff {b : Bytes} : f ∈ candidates b policy
      ↔ ∃ d ∈ detectors, policy.enabled d.1 = true ∧ f ∈ d.2 b := by
  simp only [candidates_eq, mem_flatMap, mem_ifEnabled]

-- ==== their spans

section

variable {b : Bytes}

variable {i : Nat} {f : Finding} {validate : List Nat → Bool}
  {category : PiiCategory} {p : UInt8 → Bool}

theorem lt_length_of_isAt (h : isAt p b i = true) : i < b.length := by
  obtain ⟨c, hc, -⟩ := Option.any_eq_true _ _ |>.1 h
  exact (List.getElem?_eq_some_iff.1 hc).1

theorem le_goRight (p : UInt8 → Bool) (i : Nat) : i ≤ goRight p b i := Nat.le_add_right _ _

theorem goRight_le (p : UInt8 → Bool) (hi : i ≤ b.length) : goRight p b i ≤ b.length := by
  have hle := (takeWhile_sublist p (l := b.drop i)).length_le
  rw [length_drop] at hle
  unfold goRight
  omega

theorem goBack_le (p : UInt8 → Bool) (least i : Nat) : goBack p b least i ≤ i := by
  induction i with
  | zero => exact le_rfl
  | succ i ih =>
    unfold goBack
    split
    · omega
    · exact le_rfl

theorem le_goBack (p : UInt8 → Bool) {least i : Nat} (hi : least ≤ i) :
    least ≤ goBack p b least i := by
  induction i with
  | zero => exact hi
  | succ i ih =>
    unfold goBack
    split
    · next hlt =>
      simp only [Bool.and_eq_true, decide_eq_true_eq] at hlt
      exact ih (by omega)
    · exact hi

theorem lt_goBack {least i k : Nat} (hk : k < i) (hp : isAt p b k = false) :
    k < goBack p b least i := by
  induction i with
  | zero => omega
  | succ i ih =>
    unfold goBack
    split
    · next hback =>
      rw [Bool.and_eq_true] at hback
      have hne : k ≠ i := by
        rintro rfl
        rw [hp] at hback
        exact Bool.false_ne_true hback.2
      exact ih (by omega)
    · exact hk

theorem emailAt_span (h : (emailAt b i).1 = some f) :
    f.start < i ∧ i < f.stop ∧ f.stop ≤ b.length ∧ f.category = .email := by
  unfold emailAt at h
  split at h
  · next hat =>
    have hi := lt_length_of_isAt hat
    dsimp only at h
    split at h
    · next hstart =>
      cases h
      rw [Bool.and_eq_true, decide_eq_true_eq] at hstart
      have hright := goRight_le isEmailDomain (b := b) (i := i + 1) hi
      have hle := goBack_le (b := b) (oneOf ['.', '-']) (i + 1) (goRight isEmailDomain b (i + 1))
      have hge := le_goBack (b := b) (oneOf ['.', '-']) (le_goRight (b := b) isEmailDomain (i + 1))
      exact ⟨hstart.1, hge, hle.trans hright, rfl⟩
    · cases h
  · cases h

theorem octet_length_le (i : Nat) : (octet b i).length ≤ b.length - i := by
  have htake := (takeWhile_sublist isDigit (l := (b.drop i).take 3)).length_le
  have hle := length_take_le 3 (b.drop i)
  rw [length_take, length_drop] at htake
  unfold octet
  rw [length_map]
  omega

theorem octets_span {n : Nat} (hn : 0 < n) {i stop : Nat}
    (h : octets b n i = some stop) : i < stop ∧ stop ≤ b.length := by
  induction n generalizing i with
  | zero => omega
  | succ n ih =>
    have hle := octet_length_le (b := b) i
    unfold octets at h
    dsimp only at h
    split at h
    · cases h
    next hok =>
    have hpos : (octet b i).length ≠ 0 := by
      intro hzero
      simp [hzero] at hok
    split at h
    · cases h
      omega
    next hn =>
    split at h
    · obtain ⟨hlt, hstop⟩ := ih (Nat.pos_of_ne_zero hn) h
      exact ⟨by omega, hstop⟩
    · cases h

theorem ipv4At_span (h : ipv4At b i = some f) :
    f.start = i ∧ i < f.stop ∧ f.stop ≤ b.length ∧ f.category = .ipv4 := by
  unfold ipv4At at h
  split at h
  · split at h
    · next stop hoctets =>
      split at h
      · cases h
        obtain ⟨hlt, hle⟩ := octets_span (by decide) hoctets
        exact ⟨rfl, hlt, hle, rfl⟩
      · cases h
    · cases h
  · cases h

theorem collectFrom_span (max : Nat) (rest : Bytes)
    (digits : List Nat) (stop : Nat) : (collectFrom max rest digits stop).1.length + stop
      ≤ digits.length + (collectFrom max rest digits stop).2
    ∧ (collectFrom max rest digits stop).2 ≤ stop + rest.length := by
  induction rest generalizing digits stop with
  | nil => exact ⟨le_rfl, le_rfl⟩
  | cons c rest ih =>
    unfold collectFrom
    rw [length_cons]
    split
    · split
      · obtain ⟨hdigits, hstop⟩ := ih (digits ++ [(c - '0'.toUInt8).toNat]) (stop + 1)
        rw [length_append, length_singleton] at hdigits
        omega
      · split
        · obtain ⟨hdigits, hstop⟩ := ih digits (stop + 1)
          omega
        · exact ⟨le_rfl, by omega⟩
    · exact ⟨le_rfl, by omega⟩

theorem numberAt_span {max i : Nat}
    (hvalidate : ∀ digits, validate digits = true → 0 < digits.length)
    (h : numberAt b category max validate i = some f) :
    f.start = i ∧ i < f.stop ∧ f.stop ≤ b.length ∧ f.category = category := by
  unfold numberAt at h
  split at h
  · next hstarts =>
    unfold numberStarts at hstarts
    rw [Bool.and_eq_true] at hstarts
    have hi := lt_length_of_isAt hstarts.1
    dsimp only at h
    split at h
    · next hvalid =>
      cases h
      rw [Bool.and_eq_true] at hvalid
      have hpos := hvalidate _ hvalid.2
      unfold collectGroupedDigits at hpos ⊢
      obtain ⟨hdigits, hstop⟩ := collectFrom_span max (b.drop i) [] i
      rw [length_nil] at hdigits
      rw [length_drop] at hstop
      exact ⟨rfl, by dsimp only; omega, by dsimp only; omega, rfl⟩
    · cases h
  · cases h

theorem phoneBody_span {s : Nat} (digits : Nat) (closed : Bool) :
    s ≤ (phoneBody (b.drop s) digits closed s).2.2
    ∧ (s ≤ b.length → (phoneBody (b.drop s) digits closed s).2.2 ≤ b.length)
    ∧ (digits < (phoneBody (b.drop s) digits closed s).1 → ∃ k, s ≤ k
      ∧ k < (phoneBody (b.drop s) digits closed s).2.2
      ∧ isAt isDigit b k = true) := by
  generalize hrest : b.drop s = rest
  induction rest generalizing s digits closed with
  | nil => exact ⟨le_rfl, id, fun h => absurd h (lt_irrefl _)⟩
  | cons c rest ih =>
    have hlt : s < b.length := by
      have hlen := congrArg List.length hrest
      rw [length_drop, length_cons] at hlen
      omega
    have hrest' : b.drop (s + 1) = rest := by
      rw [← drop_drop, hrest]
      rfl
    have hc : b[s]? = some c := by
      rw [← head?_drop, hrest]
      rfl
    unfold phoneBody
    split
    · next hdigit =>
      obtain ⟨hge, hle, -⟩ := ih (digits + 1) closed hrest'
      refine ⟨by omega, fun _ => hle hlt, fun _ => ⟨s, le_rfl, by omega, ?_⟩⟩
      unfold isAt
      rw [hc]
      exact hdigit
    · split
      · obtain ⟨hge, hle, hcount⟩ := ih digits (closed || c = ')'.toUInt8) hrest'
        refine ⟨by omega, fun _ => hle hlt, fun hmore => ?_⟩
        obtain ⟨k, hk, hk', hdigit⟩ := hcount hmore
        exact ⟨k, by omega, hk', hdigit⟩
      · exact ⟨le_rfl, id, fun h => absurd h (lt_irrefl _)⟩

theorem phoneAt_span (h : (phoneAt b i).1 = some f) :
    f.start = i ∧ i < f.stop ∧ f.stop ≤ b.length ∧ f.category = .phone := by
  unfold phoneAt at h
  split at h
  · next hlead =>
    rw [Bool.and_eq_true] at hlead
    have hi := lt_length_of_isAt hlead.1
    dsimp only at h
    split at h
    · next hcount =>
      cases h
      simp only [Bool.and_eq_true, decide_eq_true_eq] at hcount
      obtain ⟨-, hle, hdigit⟩ := phoneBody_span (b := b) (s := i + 1) 0 false
      obtain ⟨k, hk, hk', hdigit⟩ := hdigit (by omega)
      have hback := goBack_le (b := b) (fun c => !isDigit c) i
        (phoneBody (b.drop (i + 1)) 0 false (i + 1)).2.2
      have hlt : k < goBack (fun c => !isDigit c) b i
          (phoneBody (b.drop (i + 1)) 0 false (i + 1)).2.2 := by
        refine lt_goBack hk' ?_
        unfold isAt at hdigit ⊢
        cases hb : b[k]? with
        | none => rfl
        | some c =>
          rw [hb] at hdigit
          have hdigit : isDigit c = true := hdigit
          simp [hdigit]
      have hle := hle hi
      exact ⟨rfl, by dsimp only; omega, by dsimp only; omega, rfl⟩
    · cases h
  · cases h

theorem ssnAt_span (h : ssnAt b i = some f) :
    f.start = i ∧ i < f.stop ∧ f.stop ≤ b.length ∧ f.category = .ssn := by
  unfold ssnAt at h
  split at h
  · next hssn =>
    cases h
    simp only [isSsn, Bool.and_eq_true, decide_eq_true_eq] at hssn
    have hlen := hssn.1.2.1
    rw [length_take, length_drop] at hlen
    exact ⟨rfl, by dsimp only; omega, by dsimp only; omega, rfl⟩
  · cases h

theorem orNext_found {o : Option Finding} : (orNext i o).1 = o := by cases o <;> rfl

theorem mem_detectIn_orNext {find : Nat → Option Finding}
    (h : f ∈ detectIn (fun i => orNext i (find i)) b) : ∃ i, i < b.length ∧ find i = some f := by
  obtain ⟨i, hi, hfound⟩ := mem_detect h
  rw [orNext_found] at hfound
  exact ⟨i, hi, hfound⟩

theorem checkedId_pos {n : Nat} (hn : 0 < n) {valid : List Nat → Bool} (digits : List Nat)
    (h : (decide (digits.length = n) && valid digits) = true) : 0 < digits.length := by
  rw [Bool.and_eq_true, decide_eq_true_eq] at h
  omega

theorem card_pos (digits : List Nat) (h : (decide (13 ≤ digits.length)
    && decide (digits.length ≤ 19) && luhnValid digits) = true) : 0 < digits.length := by
  simp only [Bool.and_eq_true, decide_eq_true_eq] at h
  omega

theorem findCheckedId_span {len : Nat} (hlen : 0 < len)
    (h : f ∈ findCheckedId b len category validate) :
    f.category = category ∧ f.start < f.stop ∧ f.stop ≤ b.length := by
  obtain ⟨i, -, hi⟩ := mem_detectIn_orNext h
  obtain ⟨hstart, hlt, hle, hcategory⟩ := numberAt_span (checkedId_pos hlen) hi
  exact ⟨hcategory, by omega, hle⟩

theorem detectors_span {d : PiiCategory × (Bytes → List Finding)} (hd : d ∈ detectors)
    (hf : f ∈ d.2 b) : f.category = d.1 ∧ f.start < f.stop ∧ f.stop ≤ b.length := by
  simp only [detectors, mem_cons, not_mem_nil, or_false] at hd
  rcases hd with rfl | rfl | rfl | rfl | rfl | rfl | rfl
  · obtain ⟨i, -, hi⟩ := mem_detect hf
    obtain ⟨hstart, hlt, hle, hcategory⟩ := emailAt_span hi
    exact ⟨hcategory, by omega, hle⟩
  · obtain ⟨i, -, hi⟩ := mem_detectIn_orNext hf
    obtain ⟨hstart, hlt, hle, hcategory⟩ := ipv4At_span hi
    exact ⟨hcategory, by omega, hle⟩
  · exact findCheckedId_span (by decide) hf
  · exact findCheckedId_span (by decide) hf
  · obtain ⟨i, -, hi⟩ := mem_detectIn_orNext hf
    obtain ⟨hstart, hlt, hle, hcategory⟩ := numberAt_span card_pos hi
    exact ⟨hcategory, by omega, hle⟩
  · obtain ⟨i, -, hi⟩ := mem_detect hf
    obtain ⟨hstart, hlt, hle, hcategory⟩ := phoneAt_span hi
    exact ⟨hcategory, by omega, hle⟩
  · obtain ⟨i, -, hi⟩ := mem_detectIn_orNext hf
    obtain ⟨hstart, hlt, hle, hcategory⟩ := ssnAt_span hi
    exact ⟨hcategory, by omega, hle⟩

theorem mem_candidates {policy : Policy} (h : f ∈ candidates b policy) :
    policy.enabled f.category = true ∧ f.start < f.stop
      ∧ f.stop ≤ b.length := by
  obtain ⟨d, hd, henabled, hf⟩ := mem_candidates_iff.1 h
  obtain ⟨hcategory, hspan⟩ := detectors_span hd hf
  exact ⟨hcategory ▸ henabled, hspan⟩

end

end SovereignVault.Privacy
