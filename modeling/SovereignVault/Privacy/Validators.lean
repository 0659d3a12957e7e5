/-
`sv-patterns::validators` against the checksums of `sv-privacy`.

The two crates compute the same check digits by different formulas.
`sv-patterns` takes a text and drops the separators of its kind first; on
the digits that are left the two agree (`validators_agree`).

Verhoeff's tables tell every changed digit and every swap of neighbours
(`verhoeff_detects`); the streamed remainder of an IBAN is that of its
whole number (`validateIban_exact`).
-/
import SovereignVault.Privacy.Scan

namespace SovereignVault.Privacy

open List

variable (candidate : List Char)

-- ==== validators

def toDigit (c : Char) : Option Nat :=
  if '0' ≤ c ∧ c ≤ '9' then some (c.toNat - '0'.toNat) else none

def digitsOnly (separators : List Char) : List Char → Option (List Nat)
  | [] => some []
  | c :: rest =>
    match toDigit c with
    | some d => (digitsOnly separators rest).map (d :: ·)
    | none =>
      if separators.contains c then digitsOnly separators rest else none

def luhnStep (acc : Nat × Bool) (d : Nat) : Nat × Bool :=
  let v := if acc.2 then if 9 < d * 2 then d * 2 - 9 else d * 2 else d
  (acc.1 + v, !acc.2)

def validateLuhn (candidate : List Char) : Bool :=
  match digitsOnly [' ', '-'] candidate with
  | none => false
  | some digits =>
    if digits.length < 2 then false
    else (digits.reverse.foldl luhnStep (0, false)).1 % 10 = 0

def checkDigit (sum : Nat) : Nat :=
  if sum % 11 < 2 then 0 else 11 - sum % 11

def cpfDigit (slice : List Nat) (weightStart : Nat) : Nat :=
  checkDigit (slice.zipIdx.map fun (x, i) => x * (weightStart - i)).sum

def validateCpf (candidate : List Char) : Bool :=
  match digitsOnly ['.', '-', ' '] candidate with
  | none => false
  | some d =>
    if d.length ≠ 11 then false
    else if allEqual d then false
    else d[9]? = some (cpfDigit (d.take 9) 10) && d[10]? = some (cpfDigit (d.take 10) 11)

def cnpjDigit (slice weights : List Nat) : Nat :=
  checkDigit ((slice.zip weights).map fun (x, w) => x * w).sum

def validateCnpj (candidate : List Char) : Bool :=
  let weights := [5, 4, 3, 2, 9, 8, 7, 6, 5, 4, 3, 2]
  match digitsOnly ['.', '/', '-', ' '] candidate with
  | none => false
  | some d =>
    if d.length ≠ 14 then false
    else if allEqual d then false
    else if d[12]? ≠ some (cnpjDigit (d.take 12) weights) then false
    else d[13]? = some (cnpjDigit (d.take 13) (6 :: weights))

-- ==== agreement

theorem luhnStep_foldl (digits : List Nat) :
    ∀ total double, (digits.foldl luhnStep (total, double)).1
      = total + luhnSum double digits := by
  induction digits with
  | nil => exact fun _ _ => rfl
  | cons d rest ih =>
      intro total double
      rw [foldl_cons, luhnSum, ← Nat.add_assoc]
      exact ih _ _

theorem validateLuhn_eq : validateLuhn candidate
      = (digitsOnly [' ', '-'] candidate).any luhnValid := by
  unfold validateLuhn luhnValid
  cases digitsOnly [' ', '-'] candidate with
  | none => rfl
  | some digits =>
      dsimp only [Option.any_some]
      rw [luhnStep_foldl, Nat.zero_add]
      by_cases hlen : digits.length < 2
      · rw [if_pos hlen, decide_eq_false (by omega), Bool.false_and]
      · rw [if_neg hlen, decide_eq_true (Nat.le_of_not_lt hlen), Bool.true_and]

theorem checkDigit_eq (sum : Nat) :
    checkDigit sum = if sum * 10 % 11 = 10 then 0 else sum * 10 % 11 := by
  have hmod : sum * 10 % 11 = sum % 11 * 10 % 11 := by omega
  have hlt : sum % 11 < 11 := Nat.mod_lt _ (by decide)
  unfold checkDigit
  rw [hmod]
  generalize sum % 11 = r at hlt ⊢
  revert r
  decide

theorem cpfDigit_eq (d : List Nat) (upto start : Nat) :
    cpfDigit (d.take upto) start = cpfCheck d upto start := by
  have hsum : ((d.take upto).zipIdx.map fun (x, i) => x * (start - i)).sum
      = weighted ((range upto).map (start - ·)) d := by
    congr 1
    apply ext_getElem
    · simp
    · intro i hi hi'
      simp [Nat.mul_comm]
  unfold cpfDigit cpfCheck
  rw [hsum, checkDigit_eq]

theorem cnpjDigit_eq (d weights : List Nat) :
    cnpjDigit (d.take weights.length) weights = cnpjCheck d weights := by
  have hsum : (((d.take weights.length).zip weights).map
      fun (x, w) => x * w).sum = weighted weights d := by
    congr 1
    apply ext_getElem
    · simp
    · intro i hi hi'
      simp
      exact Nat.mul_comm _ _
  unfold cnpjDigit cnpjCheck checkDigit
  rw [hsum]

theorem validateCpf_eq : validateCpf candidate
      = (digitsOnly ['.', '-', ' '] candidate).any cpfValid := by
  unfold validateCpf cpfValid
  cases digitsOnly ['.', '-', ' '] candidate with
  | none => rfl
  | some d =>
      dsimp only [Option.any_some]
      by_cases hlen : d.length = 11
      · rw [cpfDigit_eq, cpfDigit_eq]
        simp [hlen]
        cases allEqual d <;> simp
      · simp [hlen]

theorem validateCnpj_eq : validateCnpj candidate
      = (digitsOnly ['.', '/', '-', ' '] candidate).any cnpjValid := by
  unfold validateCnpj cnpjValid
  cases digitsOnly ['.', '/', '-', ' '] candidate with
  | none => rfl
  | some d =>
      have hfirst : cnpjDigit (d.take 12) _ = cnpjCheck d _ :=
        cnpjDigit_eq d [5, 4, 3, 2, 9, 8, 7, 6, 5, 4, 3, 2]
      have hsecond : cnpjDigit (d.take 13) _ = cnpjCheck d _ :=
        cnpjDigit_eq d [6, 5, 4, 3, 2, 9, 8, 7, 6, 5, 4, 3, 2]
      dsimp only [Option.any_some]
      rw [hfirst, hsecond]
      by_cases hlen : d.length = 14
      · simp [hlen]
        cases allEqual d <;> simp
      · simp [hlen]

def digitText (d : List (Fin 10)) : List Char :=
  d.map fun x => Char.ofNat ('0'.toNat + x)

theorem digitsOnly_digitText (separators : List Char) (d : List (Fin 10)) :
    digitsOnly separators (digitText d) = some (d.map Fin.val) := by
  have hdigit : ∀ x : Fin 10, toDigit (Char.ofNat ('0'.toNat + x)) = some x.val := by decide
  induction d with
  | nil => rfl
  | cons x rest ih =>
      show (match toDigit (Char.ofNat ('0'.toNat + x)) with
        | some y => (digitsOnly separators (digitText rest)).map (y :: ·)
        | none => _) = _
      rw [hdigit, ih]
      rfl

/-- The validators accept the texts whose digits the other crate accepts,
and so the same sequences of digits, within the bounds its detectors put
on their length and without. -/
theorem validators_agree : (∀ candidate, validateLuhn candidate
        = (digitsOnly [' ', '-'] candidate).any luhnValid
      ∧ validateCpf candidate = (digitsOnly ['.', '-', ' '] candidate).any cpfValid
      ∧ validateCnpj candidate = (digitsOnly ['.', '/', '-', ' '] candidate).any cnpjValid)
    ∧ ∀ d : List (Fin 10), (13 ≤ d.length ∧ d.length ≤ 19 ∧ luhnValid (d.map Fin.val) = true
        ↔ 13 ≤ d.length ∧ d.length ≤ 19 ∧ validateLuhn (digitText d) = true)
      ∧ cpfValid (d.map Fin.val) = validateCpf (digitText d)
      ∧ cnpjValid (d.map Fin.val) = validateCnpj (digitText d) := by
  refine ⟨fun candidate => ⟨validateLuhn_eq candidate,
    validateCpf_eq candidate, validateCnpj_eq candidate⟩, fun d => ?_⟩
  rw [validateLuhn_eq, validateCpf_eq, validateCnpj_eq,
    digitsOnly_digitText, digitsOnly_digitText, digitsOnly_digitText]
  exact ⟨Iff.rfl, rfl, rfl⟩

-- ==== Verhoeff

namespace Verhoeff

/-- The addition table of the dihedral group of the pentagon. -/
def D : List (List Nat) :=
  [[0, 1, 2, 3, 4, 5, 6, 7, 8, 9], [1, 2, 3, 4, 0, 6, 7, 8, 9, 5], [2, 3, 4, 0, 1, 7, 8, 9, 5, 6],
    [3, 4, 0, 1, 2, 8, 9, 5, 6, 7], [4, 0, 1, 2, 3, 9, 5, 6, 7, 8], [5, 9, 8, 7, 6, 0, 4, 3, 2, 1],
    [6, 5, 9, 8, 7, 1, 0, 4, 3, 2], [7, 6, 5, 9, 8, 2, 1, 0, 4, 3], [8, 7, 6, 5, 9, 3, 2, 1, 0, 4],
    [9, 8, 7, 6, 5, 4, 3, 2, 1, 0]]

def P : List (List Nat) :=
  [[0, 1, 2, 3, 4, 5, 6, 7, 8, 9], [1, 5, 7, 6, 2, 8, 3, 0, 9, 4], [5, 8, 0, 3, 7, 9, 6, 1, 4, 2],
    [8, 9, 1, 6, 0, 4, 3, 5, 2, 7], [9, 4, 5, 3, 1, 2, 6, 8, 7, 0], [4, 2, 8, 6, 5, 7, 3, 9, 0, 1],
    [2, 7, 9, 3, 8, 0, 6, 4, 1, 5], [7, 0, 4, 6, 9, 1, 3, 2, 5, 8]]

def entry (table : List (List Nat)) (i j : Nat) : Nat := (table.getD i []).getD j 0

def step (c : Nat) (x : Nat × Nat) : Nat := entry D c (entry P (x.2 % 8) x.1)

end Verhoeff

def validateVerhoeff (candidate : List Char) : Bool :=
  match digitsOnly [' ', '-'] candidate with
  | none => false
  | some digits =>
    if digits.length < 2 then false
    else digits.reverse.zipIdx.foldl Verhoeff.step 0 = 0

namespace Verhoeff

def loop (digits : List (Fin 10)) (i c : Nat) : Nat := ((digits.map Fin.val).zipIdx i).foldl step c

/-- What the first table is: closed, associative, and without repetition
in a row or a column. -/
theorem D_group : (∀ a b : Fin 10, entry D a b < 10)
    ∧ (∀ a b c : Fin 10, entry D (entry D a b) c = entry D a (entry D b c))
    ∧ ∀ a b c : Fin 10, a ≠ b → entry D a c ≠ entry D b c ∧ entry D c a ≠ entry D c b := by
  decide +kernel

/-- What the second is for: no two digits change places unnoticed. -/
theorem P_antisymmetric : (∀ (i : Fin 8) (a : Fin 10), entry P i a < 10)
    ∧ ∀ (i : Fin 8) (a b : Fin 10), a ≠ b → entry P i a ≠ entry P i b
      ∧ entry D (entry P i a) (entry P ((i + 1) % 8) b)
        ≠ entry D (entry P i b) (entry P ((i + 1) % 8) a) := by
  decide +kernel

def permuted (i : Fin 8) (a : Fin 10) : Fin 10 := ⟨entry P i a, P_antisymmetric.1 i a⟩

theorem step_lt (c a : Fin 10) (i : Fin 8) : entry D c (entry P i a) < 10 :=
  D_group.1 c (permuted i a)

theorem step_column (c c' a : Fin 10) (i : Fin 8) (hne : c ≠ c') :
    entry D c (entry P i a) ≠ entry D c' (entry P i a) :=
  (D_group.2.2 c c' (permuted i a) hne).1

theorem step_row (c a b : Fin 10) (i : Fin 8) (hne : a ≠ b) :
    entry D c (entry P i a) ≠ entry D c (entry P i b) :=
  (D_group.2.2 (permuted i a) (permuted i b) c
    (Fin.ne_of_val_ne (P_antisymmetric.2 i a b hne).1)).2

theorem step_swap (c a b : Fin 10) (i : Fin 8) (hne : a ≠ b) :
    entry D (entry D c (entry P i a)) (entry P ((i + 1) % 8) b)
      ≠ entry D (entry D c (entry P i b)) (entry P ((i + 1) % 8) a) := by
  let j : Fin 8 := ⟨(i + 1) % 8, Nat.mod_lt _ (by decide)⟩
  have hassoc (x y : Fin 10) := D_group.2.1 c (permuted i x) (permuted j y)
  have hrow := D_group.2.2 ⟨_, step_lt (permuted i a) b j⟩ ⟨_, step_lt (permuted i b) a j⟩ c
    (Fin.ne_of_val_ne (P_antisymmetric.2 i a b hne).2)
  exact ((hassoc a b).trans_ne hrow.2).trans_eq (hassoc b a).symm

variable {pre post digits : List (Fin 10)} {i c c' : Nat}

theorem loop_cons (a : Fin 10) : loop (a :: digits) i c = loop digits (i + 1) (step c (a, i)) := rfl

theorem loop_append : loop (pre ++ post) i c = loop post (i + pre.length) (loop pre i c) := by
  simp [loop, zipIdx_append]

theorem loop_lt (hc : c < 10) : loop digits i c < 10 := by
  induction digits generalizing i c with
  | nil => exact hc
  | cons a digits ih => exact ih (step_lt ⟨c, hc⟩ a (Fin.ofNat 8 i))

theorem loop_ne (hc : c < 10) (hc' : c' < 10) (hne : c ≠ c') :
    loop digits i c ≠ loop digits i c' := by
  induction digits generalizing i c c' with
  | nil => exact hne
  | cons a digits ih =>
    refine ih (step_lt ⟨c, hc⟩ a (Fin.ofNat 8 i)) (step_lt ⟨c', hc'⟩ a (Fin.ofNat 8 i)) ?_
    exact step_column ⟨c, hc⟩ ⟨c', hc'⟩ a (Fin.ofNat 8 i) (mt Fin.val_eq_of_eq hne)

theorem validateVerhoeff_digitText (d : List (Fin 10)) : validateVerhoeff (digitText d)
      = (decide (2 ≤ d.length) && decide (loop d.reverse 0 0 = 0)) := by
  rw [validateVerhoeff, digitsOnly_digitText]
  by_cases hlen : d.length < 2
  · simp [hlen]
  · simp [hlen, loop, Nat.le_of_not_lt hlen]

theorem rejected_of_ne {d d' : List (Fin 10)} (hne : loop d.reverse 0 0 ≠ loop d'.reverse 0 0)
    (h : validateVerhoeff (digitText d) = true) : validateVerhoeff (digitText d') = false := by
  rw [validateVerhoeff_digitText, Bool.and_eq_true, decide_eq_true_eq, decide_eq_true_eq] at h
  rw [h.2] at hne
  rw [validateVerhoeff_digitText, decide_eq_false hne.symm, Bool.and_false]

/-- A single digit that is changed, or two neighbours that change places,
are noticed, wherever they stand. -/
theorem verhoeff_detects (pre post : List (Fin 10)) (x y : Fin 10) (hne : x ≠ y) :
    (validateVerhoeff (digitText (pre ++ x :: post)) = true →
      validateVerhoeff (digitText (pre ++ y :: post)) = false)
    ∧ (validateVerhoeff (digitText (pre ++ x :: y :: post)) = true →
      validateVerhoeff (digitText (pre ++ y :: x :: post)) = false) := by
  have hlt : loop post.reverse 0 0 < 10 := loop_lt (by decide)
  -- the loop comes to what is behind the change first
  refine ⟨rejected_of_ne ?_, rejected_of_ne ?_⟩
  · simp only [reverse_append, reverse_cons, append_assoc, singleton_append,
      loop_append, loop_cons]
    exact loop_ne (step_lt ⟨_, hlt⟩ x (Fin.ofNat 8 _)) (step_lt ⟨_, hlt⟩ y (Fin.ofNat 8 _))
      (step_row ⟨_, hlt⟩ x y (Fin.ofNat 8 _) hne)
  simp only [reverse_append, reverse_cons, append_assoc, singleton_append,
    loop_append, loop_cons]
  have hx := step_lt ⟨_, hlt⟩ x (Fin.ofNat 8 (0 + post.reverse.length))
  have hy := step_lt ⟨_, hlt⟩ y (Fin.ofNat 8 (0 + post.reverse.length))
  have hswap := step_swap ⟨_, hlt⟩ y x (Fin.ofNat 8 (0 + post.reverse.length)) hne.symm
  rw [Fin.val_ofNat, Nat.mod_add_mod] at hswap
  exact loop_ne (step_lt ⟨_, hy⟩ x (Fin.ofNat 8 _)) (step_lt ⟨_, hx⟩ y (Fin.ofNat 8 _)) hswap

end Verhoeff

theorem verhoeff_detects_swap : validateVerhoeff (digitText [2, 3, 6, 3]) = true
    ∧ validateVerhoeff (digitText [2, 6, 3, 3]) = false := by
  have haccepted : validateVerhoeff (digitText [2, 3, 6, 3]) = true := by decide +kernel
  exact ⟨haccepted, (Verhoeff.verhoeff_detects [2] [3] 3 6 (by decide)).2 haccepted⟩

-- ==== IBAN

namespace Iban

def stripped (candidate : List Char) : List Char :=
  (candidate.filter fun c => c ≠ ' ' ∧ c ≠ '-').map Char.toUpper

def isAsciiUppercase (b : UInt8) : Bool := 'A'.toUInt8 ≤ b && b ≤ 'Z'.toUInt8

def mapped (b : UInt8) : List Nat :=
  (Nat.toDigits 10 (if isDigit b then b.toNat - '0'.toNat else b.toNat - 'A'.toNat + 10)).map
    fun d => d.toNat - '0'.toNat

def push (remainder d : Nat) : Nat := (remainder * 10 + d) % 2 ^ 32 % 97

def rearranged {α : Type} (s : List α) : List α := s.drop 4 ++ s.take 4

end Iban

def validateIban (candidate : List Char) : Bool :=
  let bytes := (Iban.stripped candidate).flatMap String.utf8EncodeChar
  if bytes.length < 15 || 34 < bytes.length then false
  else if !Iban.isAsciiUppercase (bytes.getD 0 0) || !Iban.isAsciiUppercase (bytes.getD 1 0)
      || !isDigit (bytes.getD 2 0) || !isDigit (bytes.getD 3 0) then false
  else if !bytes.all isAsciiAlphanumeric then false
  else (Iban.rearranged bytes).foldl (fun r b => (Iban.mapped b).foldl Iban.push r) 0 = 1

namespace Iban

def value (c : Char) : Nat := if c.isDigit then c.toNat - '0'.toNat else c.toNat - 'A'.toNat + 10

def extend (n : Nat) (c : Char) : Nat := n * (if c.isDigit then 10 else 100) + value c

@[mk_iff]
structure IsIban (s : List Char) : Prop where
  length : 15 ≤ s.length ∧ s.length ≤ 34
  alphanumeric : ∀ c ∈ s, c.isAlphanum
  country : ∀ c ∈ s.take 2, c.isUpper
  check : ∀ c ∈ (s.drop 2).take 2, c.isDigit
  remainder : (rearranged s).foldl extend 0 % 97 = 1

def byte (c : Char) : UInt8 := UInt8.ofNat c.toNat

/-- What the proofs need of a letter or digit: its byte and its upper
case. -/
abbrev Ascii (c : Char) : Prop :=
  (isAsciiUppercase (byte c) = c.isUpper ∧ isDigit (byte c) = c.isDigit)
  ∧ (value c < 100
    ∧ mapped (byte c) = if c.isDigit then [value c] else [value c / 10, value c % 10])
  ∧ (c ≠ ' ' ∧ c ≠ '-') ∧ c.toUpper.isDigit = c.isDigit ∧ value c.toUpper < 36
    ∧ c.toUpper = Char.ofNat (value c.toUpper + if c.isDigit then 48 else 55)

theorem ascii_table : ∀ n : Fin 128, let c := Char.ofNat n
    isAsciiAlphanumeric (byte c) = c.isAlphanum ∧ (c.isAlphanum → Ascii c) := by
  decide +kernel

theorem toNat_lt_of_isAlphanum {c : Char} (hc : c.isAlphanum) : c.toNat < 128 := by
  delta Char.isAlphanum Char.isAlpha Char.isUpper Char.isLower Char.isDigit at hc
  simp [UInt32.le_iff_toNat_le] at hc
  have : c.toNat = c.val.toNat := rfl
  omega

theorem utf8_of_lt {c : Char} (hc : c.toNat < 128) : String.utf8EncodeChar c = [byte c] :=
  if_pos (Nat.le_of_lt_succ hc)

theorem all_utf8 (c : Char) : (String.utf8EncodeChar c).all isAsciiAlphanumeric = c.isAlphanum := by
  by_cases hc : c.toNat < 128
  · have h := (ascii_table ⟨c.toNat, hc⟩).1
    simpa [utf8_of_lt hc] using h
  have hnot : c.isAlphanum = false := Bool.eq_false_iff.2 (mt toNat_lt_of_isAlphanum hc)
  have hlast : UInt8.ofNat (c.val.toNat % 64 + 128) ∈ String.utf8EncodeChar c := by
    unfold String.utf8EncodeChar
    simp only [show ¬ c.val.toNat ≤ 127 from fun h => hc (Nat.lt_succ_of_le h), if_false]
    split
    · simp
    · split <;> simp
  have hbyte : ∀ n : Fin 64, isAsciiAlphanumeric (UInt8.ofNat (n + 128)) = false := by
    decide +kernel
  rw [hnot, all_eq_false]
  exact ⟨_, hlast, by simpa using hbyte ⟨_, Nat.mod_lt c.val.toNat (by decide)⟩⟩

theorem ascii {c : Char} (hc : c.isAlphanum) : Ascii c := by
  have h := (ascii_table ⟨c.toNat, toNat_lt_of_isAlphanum hc⟩).2
  rw [Char.ofNat_toNat] at h
  exact h hc

/-- A `u32` has room for the next digit. -/
theorem push_eq (n : Nat) {d : Nat} (hd : d < 100) : push (n % 97) d = (n * 10 + d) % 97 := by
  have hroom : n % 97 * 10 + d < 2 ^ 32 := by omega
  rw [push, Nat.mod_eq_of_lt hroom]
  omega

theorem push_foldl {c : Char} (hc : c.isAlphanum) (n : Nat) :
    (mapped (byte c)).foldl push (n % 97) = extend n c % 97 := by
  obtain ⟨-, ⟨hv, hm⟩, -⟩ := ascii hc
  rw [hm, extend]
  split
  · exact push_eq n hv
  · rw [foldl_cons, foldl_cons, foldl_nil, push_eq n (by omega),
      push_eq _ (by omega)]
    omega

theorem push_foldl_map {s : List Char} (hs : ∀ c ∈ s, c.isAlphanum) (n : Nat) :
    (s.map byte).foldl (fun r b => (mapped b).foldl push r) (n % 97) = s.foldl extend n % 97 := by
  induction s generalizing n with
  | nil => rfl
  | cons c s ih =>
    rw [map_cons, foldl_cons, push_foldl (hs c (by simp)), foldl_cons]
    exact ih (fun c' hc' => hs c' (by simp [hc'])) _

theorem flatMap_utf8 {s : List Char} (hs : ∀ c ∈ s, c.isAlphanum) :
    s.flatMap String.utf8EncodeChar = s.map byte := by
  rw [← flatMap_singleton' (s.map byte), flatMap_map]
  exact flatMap_congr fun c hc => utf8_of_lt (toNat_lt_of_isAlphanum (hs c hc))

theorem mem_of_mem_rearranged {α : Type} {s : List α} {x : α} (hx : x ∈ rearranged s) : x ∈ s := by
  obtain h | h := mem_append.1 hx
  · exact mem_of_mem_drop h
  · exact mem_of_mem_take h

theorem validateIban_iff (candidate : List Char) :
    validateIban candidate = true ↔ IsIban (stripped candidate) := by
  unfold validateIban
  generalize stripped candidate = s
  by_cases hs : ∀ c ∈ s, c.isAlphanum
  · have hall : (s.map byte).all isAsciiAlphanumeric = true := by
      rw [← flatMap_utf8 hs, all_flatMap, all_eq_true]
      exact fun c hc => (all_utf8 c).trans (hs c hc)
    have hloop := push_foldl_map (fun c hc => hs c (mem_of_mem_rearranged hc)) 0
    have hmap : rearranged (s.map byte) = (rearranged s).map byte := by simp [rearranged]
    simp only [flatMap_utf8 hs, hall, hmap, length_map]
    rw [show (0 : Nat) = 0 % 97 from rfl, hloop]
    obtain _ | ⟨a, _ | ⟨b, _ | ⟨c, _ | ⟨d, rest⟩⟩⟩⟩ := s
    iterate 4 simp [isIban_iff]
    have ha := (ascii (hs a (by simp))).1.1
    have hb := (ascii (hs b (by simp))).1.1
    have hc := (ascii (hs c (by simp))).1.2
    have hd := (ascii (hs d (by simp))).1.2
    have hrest : ∀ x ∈ rest, x.isAlphanum := fun x hx => hs x (by simp [hx])
    rw [isIban_iff]
    generalize (a :: b :: c :: d :: rest).length = n
    simp [ha, hb, hc, hd, hs]
    tauto
  · have hall : (s.flatMap String.utf8EncodeChar).all isAsciiAlphanumeric = false := by
      rw [all_flatMap, funext all_utf8]
      simpa using hs
    simp only [hall]
    simp
    exact fun h => hs h.alphanumeric

theorem push_foldl_lt {r : Nat} (hr : r < 97) (digits : List Nat) : digits.foldl push r < 97 := by
  induction digits generalizing r with
  | nil => exact hr
  | cons d digits ih => exact ih (Nat.mod_lt _ (by decide))

theorem mapped_lt {b : UInt8} {d : Nat} (hd : d ∈ mapped b) : d < 10 := by
  obtain ⟨c, hc, rfl⟩ := mem_map.1 hd
  have := Nat.isDigit_of_mem_toDigits (b := 10) (by decide) (by decide) hc
  simp [Char.isDigit, UInt32.le_iff_toNat_le] at this
  have : c.toNat = c.val.toNat := rfl
  have : '0'.toNat = 48 := rfl
  omega

theorem rearranged_append_cons (pre post : List Char) :
    ∃ pre' post', ∀ x, rearranged (pre ++ x :: post) = pre' ++ x :: post' := by
  by_cases hpre : 4 ≤ pre.length
  · refine ⟨pre.drop 4, post ++ pre.take 4, fun x => ?_⟩
    simp [rearranged, drop_append_of_le_length hpre, take_append_of_le_length hpre]
  · obtain ⟨k, hk⟩ : ∃ k, 4 = pre.length + (k + 1) := ⟨3 - pre.length, by omega⟩
    refine ⟨post.drop k ++ pre, post.take k, fun x => ?_⟩
    simp [rearranged, hk, take_length_add_append]

theorem extend_foldl_inj (s : List Char) {m n : Nat}
    (h : s.foldl extend m % 97 = s.foldl extend n % 97) : m % 97 = n % 97 := by
  induction s generalizing m n with
  | nil => exact h
  | cons c s ih =>
    have hstep := ih h
    unfold extend at hstep
    split at hstep <;> omega

variable {x y : Char}

theorem stripped_append_cons (hx : x.isAlphanum) (pre post : List Char) :
    stripped (pre ++ x :: post) = stripped pre ++ x.toUpper :: stripped post := by
  simp [stripped, (ascii hx).2.2.1]

theorem extend_inj (hx : x.isAlphanum) (hy : y.isAlphanum) (hkind : x.isDigit = y.isDigit) {n : Nat}
    (h : extend n x.toUpper % 97 = extend n y.toUpper % 97) : x.toUpper = y.toUpper := by
  obtain ⟨-, -, -, hxd, hxv, hxc⟩ := ascii hx
  obtain ⟨-, -, -, hyd, hyv, hyc⟩ := ascii hy
  rw [extend, extend, hxd, hyd, hkind] at h
  have hvalue : value x.toUpper = value y.toUpper := by omega
  rw [hxc, hyc, hvalue, hkind]

theorem isIban_replaced (hx : x.isAlphanum) (hy : y.isAlphanum) (hkind : x.isDigit = y.isDigit)
    {pre post : List Char} (h : IsIban (stripped (pre ++ x :: post))) :
    IsIban (stripped (pre ++ y :: post)) ↔ x.toUpper = y.toUpper := by
  rw [stripped_append_cons hy]
  rw [stripped_append_cons hx] at h
  obtain ⟨front, back, hrot⟩ := rearranged_append_cons (stripped pre) (stripped post)
  constructor
  · intro h'
    have hsame := h.remainder.trans h'.remainder.symm
    simp only [hrot, foldl_append, foldl_cons] at hsame
    exact extend_inj hx hy hkind (extend_foldl_inj back hsame)
  · intro heq
    rwa [← heq]

/-- The text is accepted exactly if it is an IBAN; no digit overflows the
`u32`; and of all letters or digits at a place only the right one is
accepted, in either case. -/
theorem validateIban_exact (candidate : List Char) :
    (validateIban candidate = true ↔ IsIban (stripped candidate))
    ∧ (∀ pre d post,
      (rearranged ((stripped candidate).flatMap String.utf8EncodeChar)).flatMap mapped
        = pre ++ d :: post → pre.foldl push 0 * 10 + d < 2 ^ 32)
    ∧ ∀ pre x y post, candidate = pre ++ x :: post → validateIban candidate = true →
      x.isAlphanum → y.isAlphanum → x.isDigit = y.isDigit →
        (validateIban (pre ++ y :: post) = true ↔ x.toUpper = y.toUpper) := by
  refine ⟨validateIban_iff candidate, ?_, ?_⟩
  · intro pre d post h
    have hd : d ∈ pre ++ d :: post := by simp
    rw [← h] at hd
    obtain ⟨b, -, hb⟩ := mem_flatMap.1 hd
    have hlt := mapped_lt hb
    have hr := push_foldl_lt (r := 0) (by decide) pre
    omega
  · rintro pre x y post rfl h hx hy hkind
    rw [validateIban_iff] at h ⊢
    exact isIban_replaced hx hy hkind h

end Iban

end SovereignVault.Privacy
