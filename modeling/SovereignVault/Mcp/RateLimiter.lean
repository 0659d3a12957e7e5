/-
`RateLimiter`: how many calls of one agent the gateway lets through.

The limiter keeps, for each key, the readings at which its checks were
accepted, and forgets a reading once a check of that key finds it a window
old. From the last reading on, what it keeps and what it has accepted
agree on every reading that is still young (`kept_eq`). A window is then
bounded by the last check accepted in it, which saw all the others.
-/
import Mathlib.Data.List.Induction
import Mathlib.Data.List.Basic
import Mathlib.Logic.Function.Basic

namespace SovereignVault.Mcp

open List

structure RateLimiter where
  maxRequests : Nat
  window : Nat

structure Check where
  key : String
  now : Nat

structure RateExceeded where
  requests : Nat
  window : Nat
  deriving DecidableEq

namespace RateLimiter

variable (limiter : RateLimiter) {state : String → List Nat}

def young (now t : Nat) : Bool := now - t < limiter.window

def check (state : String → List Nat) (c : Check) :
    Except RateExceeded Unit × (String → List Nat) :=
  let entry := (state c.key).filter (limiter.young c.now)
  if limiter.maxRequests ≤ entry.length then
    (.error ⟨entry.length, limiter.window⟩, Function.update state c.key entry)
  else (.ok (), Function.update state c.key (entry ++ [c.now]))

def run (history : List Check) : (String → List Nat) × List Check :=
  history.foldl (fun s c =>
    let (result, state) := limiter.check s.1 c
    (state, if result.isOk then s.2 ++ [c] else s.2)) (fun _ => [], [])

def outcome (history : List Check) (c : Check) : Except RateExceeded Unit :=
  (limiter.check (limiter.run history).1 c).1

def accepted (history : List Check) (key : String) : List Nat :=
  ((limiter.run history).2.filter (·.key = key)).map Check.now

-- ==== one check

variable {limiter} {history : List Check} {c : Check} {key : String}

theorem run_snoc : (limiter.run (history ++ [c])).1
    = (limiter.check (limiter.run history).1 c).2 := by
  unfold run
  rw [foldl_append]
  rfl

theorem accepted_snoc : limiter.accepted (history ++ [c]) key = limiter.accepted history key
      ++ if (limiter.outcome history c).isOk ∧ c.key = key then [c.now] else [] := by
  unfold accepted outcome run
  rw [foldl_append]
  show ((if (limiter.check _ c).1.isOk then _ ++ [c] else _ : List Check).filter _).map _ = _
  by_cases hok : (limiter.check (limiter.run history).1 c).1.isOk = true
  · unfold run at hok
    rw [if_pos hok, filter_append, map_append]
    by_cases hkey : c.key = key
    · rw [if_pos ⟨hok, hkey⟩, filter_cons_of_pos (by simpa using hkey)]
      rfl
    · rw [if_neg (fun h => hkey h.2),
        filter_cons_of_neg (by simpa using hkey)]
      rfl
  · unfold run at hok
    rw [if_neg hok, if_neg (fun h => hok h.1), append_nil]

theorem check_other (h : c.key ≠ key) : (limiter.check state c).2 key = state key := by
  unfold check
  dsimp only
  split <;> exact Function.update_of_ne (Ne.symm h) _ _

theorem check_own : (limiter.check state c).2 c.key = (state c.key).filter (limiter.young c.now)
        ++ if (limiter.check state c).1.isOk then [c.now] else [] := by
  unfold check
  dsimp only
  split
  · exact (Function.update_self ..).trans (append_nil _).symm
  · exact Function.update_self ..

theorem outcome_eq_error
    {e : RateExceeded} : limiter.outcome history c = .error e → limiter.maxRequests
      ≤ (((limiter.run history).1 c.key).filter (limiter.young c.now)).length
  := by
  unfold outcome check
  dsimp only
  split
  · intro _
    assumption
  · intro h
    cases h

theorem outcome_isOk (h : (limiter.outcome history c).isOk = true) :
    (((limiter.run history).1 c.key).filter (limiter.young c.now)).length
      < limiter.maxRequests := by
  unfold outcome check at h
  dsimp only at h
  split at h
  · cases h
  · omega

-- ==== what is kept

def Ordered (history : List Check) : Prop :=
  history.Pairwise fun c d => c.now ≤ d.now

theorem Ordered.snoc (h : Ordered (history ++ [c])) :
    Ordered history ∧ ∀ d ∈ history, d.now ≤ c.now := by
  obtain ⟨hfront, -, hlast⟩ := pairwise_append.mp h
  exact ⟨hfront, fun d hd => hlast d hd c (mem_singleton_self c)⟩

theorem filter_young {now later : Nat} (h : now ≤ later) (l : List Nat) :
    (l.filter (limiter.young now)).filter (limiter.young later)
      = l.filter (limiter.young later) := by
  rw [filter_filter]
  apply filter_congr
  intro t _
  rw [Bool.and_eq_left_iff_imp]
  unfold young
  simp only [decide_eq_true_eq]
  omega

theorem kept_eq (h : Ordered history) (key : String) : ∀ now, (∀ c ∈ history, c.now ≤ now) →
      ((limiter.run history).1 key).filter (limiter.young now)
        = (limiter.accepted history key).filter (limiter.young now) := by
  induction history using reverseRecOn with
  | nil => exact fun _ _ => rfl
  | append_singleton history c ih =>
      intro now hnow
      obtain ⟨hfront, hlast⟩ := h.snoc
      have hle : c.now ≤ now := hnow c (by simp)
      have hold := ih hfront now fun d hd => hnow d (mem_append_left _ hd)
      rw [run_snoc, accepted_snoc, filter_append, ← hold]
      by_cases hkey : c.key = key
      · subst hkey
        rw [check_own, filter_append, filter_young hle]
        simp only [and_true]
        rfl
      · rw [check_other hkey, if_neg (fun h => hkey h.2)]
        exact (append_nil _).symm

variable (limiter) in
def inWindow (start : Nat) (l : List Nat) : List Nat :=
  l.filter fun t => start ≤ t ∧ t < start + limiter.window

theorem window_bounded (h : Ordered history) (key : String) (start : Nat) :
    (limiter.inWindow start (limiter.accepted history key)).length ≤ limiter.maxRequests := by
  induction history using reverseRecOn with
  | nil => exact Nat.zero_le _
  | append_singleton history c ih =>
      obtain ⟨hfront, hlast⟩ := h.snoc
      have hold := ih hfront
      rw [accepted_snoc]
      split
      case isFalse =>
        rw [append_nil]
        exact hold
      case isTrue hok =>
        obtain ⟨hok, rfl⟩ := hok
        unfold inWindow at hold ⊢
        rw [filter_append, length_append]
        by_cases hc : start ≤ c.now ∧ c.now < start + limiter.window
        · -- the last check of the window saw the others
          have hseen := outcome_isOk hok
          rw [kept_eq hfront _ _ hlast] at hseen
          have hsub : ((limiter.accepted history c.key).filter fun t => start
              ≤ t ∧ t < start + limiter.window).length ≤ ((limiter.accepted history c.key).filter
                (limiter.young c.now)).length := by
            apply Sublist.length_le
            apply monotone_filter_right
            intro t ht
            simp only [young, decide_eq_true_eq] at *
            omega
          rw [filter_cons_of_pos (by simpa using hc)]
          show _ + 1 ≤ _
          omega
        · rw [filter_cons_of_neg (by simpa using hc)]
          exact hold

-- ==== keys

theorem check_congr {state' : String → List Nat}
    (h : state c.key = state' c.key) : (limiter.check state c).1 = (limiter.check state' c).1 := by
  unfold check
  rw [h]
  dsimp only
  split <;> rfl

theorem run_filter (history : List Check) (key : String) : (limiter.run history).1 key
      = (limiter.run (history.filter (·.key = key))).1 key := by
  induction history using reverseRecOn with
  | nil => rfl
  | append_singleton history c ih =>
      rw [run_snoc, filter_append]
      by_cases hkey : c.key = key
      · subst hkey
        rw [filter_cons_of_pos (by simp), filter_nil, run_snoc,
          check_own, check_own, check_congr ih, ih]
      · rw [filter_cons_of_neg (by simpa using hkey), filter_nil,
          append_nil, check_other hkey]
        exact ih

/-- The limiter is a sliding window: no window holds more accepted checks
of a key than are allowed, a check is refused for as many as are allowed
less than a window before it, and only checks of its key matter to it. -/
theorem sliding_window
    (limiter : RateLimiter) (history : List Check) (h : Ordered history) : (∀ key start,
      (limiter.inWindow start (limiter.accepted history key)).length ≤ limiter.maxRequests)
    ∧ (∀ before c after e, history = before ++ c :: after → limiter.outcome
      before c = .error e → limiter.maxRequests ≤ ((limiter.accepted before c.key).filter
        (limiter.young c.now)).length)
    ∧ ∀ before c, limiter.outcome before c = limiter.outcome (before.filter (·.key = c.key)) c := by
  refine ⟨window_bounded h, ?_, ?_⟩
  · intro before c after e hsplit herror
    rw [hsplit, append_cons] at h
    obtain ⟨hfront, hlast⟩ := Ordered.snoc (pairwise_append.mp h).1
    rw [← kept_eq hfront c.key c.now hlast]
    exact outcome_eq_error herror
  · intro before c
    exact check_congr (run_filter before c.key)

theorem sliding_window_refused : RateLimiter.outcome ⟨1, 10⟩ [⟨"a", 0⟩] ⟨"a", 5⟩ = .error ⟨1, 10⟩
    ∧ RateLimiter.outcome ⟨1, 10⟩ [⟨"a", 0⟩] ⟨"b", 5⟩ = .ok ()
    ∧ 1 ≤ ((RateLimiter.accepted ⟨1, 10⟩ [⟨"a", 0⟩] "a").filter
      (RateLimiter.young ⟨1, 10⟩ 5)).length :=
  ⟨by decide, by decide,
    (sliding_window ⟨1, 10⟩ [⟨"a", 0⟩, ⟨"a", 5⟩] (by simp [Ordered])).2.1
      [⟨"a", 0⟩] ⟨"a", 5⟩ [] ⟨1, 10⟩ rfl (by decide)⟩

end RateLimiter

end SovereignVault.Mcp
