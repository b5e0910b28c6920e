import BpsProtocol.Lib.Checked
import Mathlib.Algebra.Order.Floor.Div
import Mathlib.Data.Rat.Cast.Order
import Mathlib.Tactic.Linarith
import Mathlib.Tactic.Positivity

/-! Multiplication and rounded-up division over words.
An exact product is divided and the quotient rounded up; the computation reverts where the
result does not fit the word, and returns the exact ceiling everywhere else. -/
namespace BpsProtocol
namespace Checked

variable {ε : Type} {e : ε}

/-- Checked multiplication: reverts where the product does not fit the word. -/
def mul (e : ε) (a b : ℕ) : Except ε ℕ := do
  revertIf (wordBound ≤ a*b) e
  return a*b

/-- `Math.mulDiv` with `Rounding.Ceil`: the floor of the full product's quotient, and one
more, by a checked addition, where the division leaves a remainder. -/
def mulDivCeil (e : ε) (a b d : ℕ) : Except ε ℕ := do
  revertIf (d = 0) e
  let floor ← mulDiv e a b d
  add e floor (if 0 < a*b%d then 1 else 0)

@[simp] theorem mul_eq_ok {a b c : ℕ} : mul e a b = .ok c ↔ a*b < wordBound ∧ a*b = c := by
  simp [mul]

theorem div_add_mod_pos (n : ℕ) {d : ℕ} (hd : 0 < d) :
    n/d+(if 0 < n%d then 1 else 0) = n ⌈/⌉ d := by
  apply le_antisymm
  · have hle : n ≤ d*(n ⌈/⌉ d) := le_smul_ceilDiv hd
    have hdiv := Nat.div_add_mod n d
    by_cases hmod : 0 < n%d
    · rw [if_pos hmod]
      have hlt : d*(n/d) < d*(n ⌈/⌉ d) := by omega
      exact Nat.lt_of_mul_lt_mul_left hlt
    · rw [if_neg hmod]
      have hle' : d*(n/d) ≤ d*(n ⌈/⌉ d) := by omega
      exact Nat.le_of_mul_le_mul_left hle' hd
  · apply (ceilDiv_le_iff_le_smul hd).mpr
    have hdiv := Nat.div_add_mod n d
    have hlt := Nat.mod_lt n hd
    rw [smul_eq_mul,Nat.mul_add]
    by_cases hmod : 0 < n%d
    · rw [if_pos hmod]
      omega
    · rw [if_neg hmod]
      omega

theorem mulDivCeil_eq_ok {a b d c : ℕ} (hd : 0 < d) :
    mulDivCeil e a b d = .ok c ↔ a*b ⌈/⌉ d < wordBound ∧ a*b ⌈/⌉ d = c := by
  have hceil := div_add_mod_pos (a*b) hd
  simp only [mulDivCeil,bind_eq_ok,revertIf_eq_ok,mulDiv_eq_ok,add_eq_ok,exists_const]
  constructor
  · rintro ⟨-,_,⟨-,rfl⟩,hlt,rfl⟩
    rw [hceil] at hlt ⊢
    exact ⟨hlt,rfl⟩
  · rintro ⟨hlt,rfl⟩
    exact ⟨hd.ne',_,⟨by omega,rfl⟩,by omega,hceil⟩

/-- Both fail with their own error alone. -/
theorem mul_error {e' : ε} {a b : ℕ} (h : mul e a b = .error e') : e' = e := by
  simp only [mul,bind_eq_error,revertIf_eq_error,pure_eq_error,and_false,exists_false,or_false] at h
  exact h.2.symm

theorem mulDivCeil_error {e' : ε} {a b d : ℕ} (h : mulDivCeil e a b d = .error e') : e' = e := by
  simp only [mulDivCeil,bind_eq_error,revertIf_eq_error,mulDiv_eq_error,add_eq_error] at h
  rcases h with h | ⟨_,-,h | ⟨_,-,h⟩⟩
  · exact h.2.symm
  · exact h.2.symm
  · exact h.2.symm

/-- Rounding up adds less than one. -/
theorem ceilDiv_lt (n : ℕ) {d : ℕ} (hd : 0 < d) : ((n ⌈/⌉ d : ℕ) : ℚ) < (n : ℚ)/d+1 := by
  have hd' : (0 : ℚ) < d := by exact_mod_cast hd
  have hlt : d*(n ⌈/⌉ d) < n+d := by
    rw [← div_add_mod_pos n hd]
    have hdiv := Nat.div_add_mod n d
    have hmod := Nat.mod_lt n hd
    rw [Nat.mul_add]
    split_ifs
    · omega
    · omega
  rw [div_add_one hd'.ne',lt_div_iff₀ hd']
  rw [mul_comm] at hlt
  exact_mod_cast hlt

theorem le_ceilDiv (n : ℕ) {d : ℕ} (hd : 0 < d) : n ≤ n ⌈/⌉ d*d := by
  rw [mul_comm]
  exact le_smul_ceilDiv hd

theorem ceilDiv_mono {n n' d : ℕ} (hd : 0 < d) (h : n ≤ n') : n ⌈/⌉ d ≤ n' ⌈/⌉ d :=
  (gc_smul_ceilDiv hd).monotone_l h

end Checked
end BpsProtocol
