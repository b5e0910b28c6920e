import Mathlib.Algebra.Order.Group.Nat
import Mathlib.Tactic.Common

/-! Binary search for the first number at which a test holds. -/
namespace BpsProtocol
namespace BinarySearch

variable {p : ℕ → Bool} {a b : ℕ}

/-- The loop that halves the range between `a` and `b` until one number is left. -/
def search (p : ℕ → Bool) (a b : ℕ) : ℕ :=
  if a < b then
    if p ((a+b)/2) then search p a ((a+b)/2) else search p ((a+b)/2+1) b
  else a
termination_by b-a

theorem search_mem (h : a ≤ b) : a ≤ search p a b ∧ search p a b ≤ b := by
  fun_induction search p a b with
  | case1 a b hlt hp ih => have := ih (by omega); omega
  | case2 a b hlt hp ih => have := ih (by omega); omega
  | case3 a b hlt => omega

/-- The test fails right before the number that is found, or there is none before it. -/
theorem search_before : search p a b = a ∨ p (search p a b-1) = false := by
  fun_induction search p a b with
  | case1 a b hlt hp ih => exact ih
  | case2 a b hlt hp ih =>
    refine .inr ?_
    rcases ih with heq | hbefore
    · rw [heq,Nat.add_sub_cancel]
      exact Bool.not_eq_true _ ▸ hp
    · exact hbefore
  | case3 a b hlt => exact .inl rfl

/-- The test holds at the number that is found, unless it is the end of the range. -/
theorem search_at : search p a b = b ∨ p (search p a b) = true ∨ b ≤ a := by
  fun_induction search p a b with
  | case1 a b hlt hp ih =>
    refine .inr (.inl ?_)
    rcases ih with heq | hat | hle
    · rw [heq]
      exact hp
    · exact hat
    · rw [search,if_neg (not_lt.2 hle)]
      have : (a+b)/2 = a := by omega
      rwa [this] at hp
  | case2 a b hlt hp ih =>
    rcases ih with heq | hat | hle
    · exact .inl heq
    · exact .inr (.inl hat)
    · refine .inl ?_
      rw [search,if_neg (not_lt.2 hle)]
      omega
  | case3 a b hlt => exact .inr (.inr (not_lt.1 hlt))

/-- Once the test holds, it holds up to the end of the range. -/
def Upward (p : ℕ → Bool) (b : ℕ) : Prop := ∀ ⦃x y⦄, x ≤ y → y ≤ b → p x = true → p y = true

/-- Where the test holds somewhere in the range, the search finds the first such number. -/
theorem search_eq_iff (hp : Upward p b) (hab : a ≤ b) (hb : p b = true) {n : ℕ} :
    search p a b = n ↔ a ≤ n ∧ n ≤ b ∧ p n = true ∧ ∀ x, a ≤ x → x < n → p x = false := by
  have hfound : p (search p a b) = true := by
    rcases search_at (p := p) (a := a) (b := b) with heq | hat | hle
    · rw [heq]
      exact hb
    · exact hat
    · obtain rfl : a = b := le_antisymm hab hle
      rw [search,if_neg (lt_irrefl _)]
      exact hb
  have hfirst : ∀ x, a ≤ x → x < search p a b → p x = false := by
    intro x hax hlt
    rcases search_before (p := p) (a := a) (b := b) with heq | hbefore
    · omega
    · by_contra hx
      have hend := (search_mem (p := p) hab).2
      have := hp (show x ≤ search p a b-1 by omega) (by omega) (Bool.not_eq_false _ ▸ hx)
      rw [hbefore] at this
      cases this
  obtain ⟨hlow,hhigh⟩ := search_mem (p := p) hab
  constructor
  · rintro rfl
    exact ⟨hlow,hhigh,hfound,hfirst⟩
  · rintro ⟨han,hnb,hn,hbefore⟩
    rcases lt_trichotomy (search p a b) n with hlt | heq | hgt
    · rw [hbefore _ hlow hlt] at hfound
      cases hfound
    · exact heq
    · rw [hfirst n han hgt] at hn
      cases hn

end BinarySearch
end BpsProtocol
