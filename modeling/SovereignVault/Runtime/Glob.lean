/-
`policy::glob`: path-aware globs by a table.

The table has a row for every end of the pattern and a cell in it for
every end of the value; it is filled from the last row up. A cell says
whether that end of the pattern matches that end of the value: whether
the value's is in the `Language` of the pattern's, read as a sequence of
tokens from left to right (`globMatches_iff`).
-/
import Mathlib.Data.List.Basic

namespace SovereignVault.Runtime

namespace Glob

def isSep (c : Char) : Bool := c == '/' || c == '.'

/-- The loop of a single star: the cells to the right of this one, as long
as no separator was passed. -/
def starLoop : (v : List Char) → (below : List Bool) → Bool
  | c :: v, cell :: below => !isSep c && (cell || starLoop v below)
  | _, _ => false

/-- One cell: `p` begins at `c`, the rows below it are `below` (one
character on) and `below2` (two on), each from this column on. -/
def cell (c : Char) (p : List Char) (v : List Char) (below below2 : List Bool) : Bool :=
  match c, p, v with
  | '*', '*' :: _, _ => below2.any id
  | '*', _, v => starLoop v below.tail
  | c, _, d :: _ => c == d && below.tail.headD false
  | _, _, [] => false

def rows (v : List Char) : (p : List Char) → List (List Bool)
  | [] => [(List.range (v.length + 1)).map fun j => j == v.length]
  | c :: p =>
    let under := rows v p
    ((List.range (v.length + 1)).map fun j =>
      cell c p (v.drop j) ((under.headD []).drop j) ((under.tail.headD []).drop j)) :: under

def globMatches (pattern value : String) : Bool :=
  ((rows value.toList pattern.toList).headD []).headD false

-- ==== the language

inductive Token where
  | any
  | star
  | lit (c : Char)

def tokens : List Char → List Token
  | [] => []
  | '*' :: '*' :: p => .any :: tokens p
  | '*' :: p => .star :: tokens p
  | c :: p => .lit c :: tokens p

def Token.Spells : Token → List Char → Prop
  | .any, _ => True
  | .star, text => text ≠ [] ∧ ∀ c ∈ text, isSep c = false
  | .lit c, text => text = [c]

def Language : List Token → List Char → Prop
  | [], text => text = []
  | t :: ts, text => ∃ front rest, text = front ++ rest ∧ t.Spells front ∧ Language ts rest

/-- A row of the table says of every end of the value whether it is in the
language. -/
structure Row (ts : List Token) (v : List Char) (row : List Bool) : Prop where
  length : row.length = v.length + 1
  cell : ∀ j b, row[j]? = some b → (b = true ↔ Language ts (v.drop j))

variable {c : Char} {v : List Char} {ts : List Token} {row : List Bool}

theorem Row.drop {j : Nat} (h : Row ts v row) (hj : j ≤ v.length) :
    Row ts (v.drop j) (row.drop j) where
  length := by
    rw [List.length_drop, List.length_drop, h.length]
    omega
  cell k b hk := by
    rw [List.getElem?_drop] at hk
    rw [List.drop_drop]
    exact h.cell _ b hk

theorem Row.head (h : Row ts v row) : row.headD false = true ↔ Language ts v := by
  cases row with
  | nil => cases h.length
  | cons b row => exact h.cell 0 b rfl

theorem Row.tail (h : Row ts (c :: v) row) : Row ts v row.tail := by
  rw [← List.drop_one]
  exact h.drop (j := 1) (Nat.succ_pos _)

theorem language_any_cons : Language (.any :: ts) (c :: v)
      ↔ Language ts (c :: v) ∨ Language (.any :: ts) v := by
  constructor
  · rintro ⟨_ | ⟨d, front⟩, rest, heq, -, hrest⟩
    · exact .inl (heq ▸ hrest)
    · exact .inr ⟨front, rest, (List.cons.inj heq).2, trivial, hrest⟩
  · rintro (h | ⟨front, rest, rfl, -, hrest⟩)
    · exact ⟨[], _, rfl, trivial, h⟩
    · exact ⟨c :: front, rest, rfl, trivial, hrest⟩

theorem language_star_cons : Language (.star :: ts) (c :: v)
      ↔ isSep c = false ∧ (Language ts v ∨ Language (.star :: ts) v) := by
  constructor
  · rintro ⟨_ | ⟨d, front⟩, rest, heq, ⟨hne, hsep⟩, hrest⟩
    · cases hne rfl
    obtain ⟨rfl, rfl⟩ := List.cons.inj heq
    rw [List.forall_mem_cons] at hsep
    refine ⟨hsep.1, ?_⟩
    cases front with
    | nil => exact .inl hrest
    | cons d front => exact .inr ⟨d :: front, rest, rfl, ⟨nofun, hsep.2⟩, hrest⟩
  · rintro ⟨hsep, h | ⟨front, rest, rfl, ⟨-, hfront⟩, hrest⟩⟩
    · exact ⟨[c], v, rfl, ⟨nofun, by simpa using hsep⟩, h⟩
    · exact ⟨c :: front, rest, rfl, ⟨nofun, List.forall_mem_cons.2 ⟨hsep, hfront⟩⟩, hrest⟩

theorem Row.any (h : Row ts v row) : row.any id = true ↔ Language (.any :: ts) v := by
  induction v generalizing row with
  | nil =>
    obtain ⟨b, rfl⟩ := List.length_eq_one_iff.1 h.length
    have hb := h.head
    simp_all [Language, Token.Spells]
  | cons c v ih =>
    rw [language_any_cons, ← ih h.tail, ← h.head]
    cases row with
    | nil => cases h.length
    | cons b row => simp

theorem Row.star (h : Row ts v row) : starLoop v row.tail = true ↔ Language (.star :: ts) v := by
  induction v generalizing row with
  | nil => simp [starLoop, Language, Token.Spells]
  | cons c v ih =>
    have htail := h.tail
    rw [language_star_cons, ← ih htail, ← htail.head]
    revert htail
    cases row.tail with
    | nil => exact fun htail => nomatch htail.length
    | cons b row => simp [starLoop]

theorem cell_lit {p : List Char} {below2 : List Bool} (h : Row ts v row) (hc : c ≠ '*') :
    cell c p v row below2 = true ↔ Language (.lit c :: ts) v := by
  cases v with
  | nil =>
    have hcell : cell c p [] row below2 = false := by
      unfold cell
      split <;> simp_all
    simp [hcell, Language, Token.Spells]
  | cons d v =>
    have hcell : cell c p (d :: v) row below2 = (c == d && row.tail.headD false) := by
      unfold cell
      split <;> simp_all
    rw [hcell, Bool.and_eq_true, h.tail.head, beq_iff_eq]
    simp [Language, Token.Spells, eq_comm]

theorem getElem?_cells {n j : Nat} {f : Nat → Bool} {b : Bool}
    (h : ((List.range (n + 1)).map f)[j]? = some b) : j ≤ n ∧ f j = b := by
  rw [List.getElem?_map, Option.map_eq_some_iff] at h
  obtain ⟨i, hi, rfl⟩ := h
  obtain ⟨hlt, rfl⟩ := List.getElem?_eq_some_iff.1 hi
  rw [List.length_range] at hlt
  rw [List.getElem_range]
  exact ⟨Nat.le_of_lt_succ hlt, rfl⟩

theorem rows_head (v p : List Char) : Row (tokens p) v ((rows v p).headD []) := by
  have hcells {c : Char} {p : List Char} {ts : List Token} (h : ∀ j ≤ v.length,
      cell c p (v.drop j) (((rows v p).headD []).drop j) (((rows v p).tail.headD []).drop j) = true
        ↔ Language ts (v.drop j)) : Row ts v ((rows v (c :: p)).headD []) := by
    refine ⟨by simp [rows], fun j b hj => ?_⟩
    obtain ⟨hle, rfl⟩ := getElem?_cells hj
    exact h j hle
  fun_induction tokens p with
  | case1 =>
    refine ⟨by simp [rows], fun j b hj => ?_⟩
    obtain ⟨hle, rfl⟩ := getElem?_cells hj
    rw [beq_iff_eq, Language, List.drop_eq_nil_iff]
    omega
  | case2 p ih => exact hcells fun j hj => (ih.drop hj).any
  | case3 p hp ih =>
    refine hcells fun j hj => ?_
    rw [← (ih.drop hj).star, cell]
    exact hp
  | case4 c p _ hc ih => exact hcells fun j hj => cell_lit (ih.drop hj) hc

/-- A value matches a pattern exactly if it is in the pattern's language. -/
theorem globMatches_iff (pattern value : String) :
    globMatches pattern value = true ↔ Language (tokens pattern.toList) value.toList :=
  (rows_head value.toList pattern.toList).head

end Glob

end SovereignVault.Runtime
