import Mathlib.Algebra.BigOperators.Group.Finset.Piecewise
import Mathlib.Algebra.BigOperators.Group.List.Basic
import Mathlib.Algebra.Order.BigOperators.Group.Finset
import Mathlib.Data.Fintype.BigOperators
import Mathlib.Tactic.Ring

/-! Total maps with point updates, and what one update does to a sum.
A nested mapping is a curried function.  Every sum lemma is additive, with the old
entry on the side of the new sum, so no truncated subtraction appears. -/
namespace BpsProtocol
namespace Mapping

variable {α β γ δ M : Type} [DecidableEq α] [DecidableEq β] [DecidableEq γ]

/-- `m[k] = v` -/
def set (m : α → δ) (k : α) (v : δ) : α → δ :=
  fun x => if x = k then v else m x

/-- `m[k][l] = v` -/
def set₂ (m : α → β → δ) (k : α) (l : β) (v : δ) : α → β → δ :=
  set m k (set (m k) l v)

/-- `m[k][l][n] = v` -/
def set₃ (m : α → β → γ → δ) (k : α) (l : β) (n : γ) (v : δ) : α → β → γ → δ :=
  set m k (set₂ (m k) l n v)

theorem set_apply (m : α → δ) (k : α) (v : δ) (x : α) :
    set m k v x = if x = k then v else m x := rfl

@[simp] theorem set_same (m : α → δ) (k : α) (v : δ) : set m k v k = v := by
  simp [set]

theorem set_other {m : α → δ} {k x : α} (v : δ) (h : x ≠ k) : set m k v x = m x := by
  simp [set,h]

@[simp] theorem set_eq_self (m : α → δ) (k : α) : set m k (m k) = m := by
  funext x
  by_cases h : x = k <;> simp [set,h]

theorem set₂_apply (m : α → β → δ) (k : α) (l : β) (v : δ) (x : α) (y : β) :
    set₂ m k l v x y = if x = k ∧ y = l then v else m x y := by
  by_cases hx : x = k <;> by_cases hy : y = l <;> simp [set₂,set,hx,hy]

theorem set₃_apply (m : α → β → γ → δ) (k : α) (l : β) (n : γ) (v : δ) (x : α) (y : β) (z : γ) :
    set₃ m k l n v x y z = if x = k ∧ y = l ∧ z = n then v else m x y z := by
  by_cases hx : x = k
  · subst hx
    by_cases hy : y = l <;> by_cases hz : z = n <;> simp [set₃,set,set₂_apply,hy,hz]
  · simp [set₃,set,hx]

section Sums

variable [Fintype α] [AddCommMonoid M]

theorem sum_set_add (m : α → M) (k : α) (v : M) :
    ∑ x, set m k v x + m k = ∑ x, m x + v := by
  have hset : set m k v = Function.update m k v := by
    funext x
    by_cases h : x = k
    · subst h; simp
    · simp [set,h]
  rw [hset,Finset.sum_update_of_mem (Finset.mem_univ k),
    ← Finset.add_sum_erase _ m (Finset.mem_univ k),← Finset.erase_eq]
  rw [add_right_comm,add_comm v,add_right_comm]

end Sums

section Agree

variable [AddCommMonoid M]

/-- Two maps that agree away from one key have sums that differ by the entry there. -/
theorem sum_add_of_agree {s : Finset α} {f g : α → M} {k : α} (hk : k ∈ s)
    (h : ∀ x ∈ s, x ≠ k → g x = f x) : ∑ x ∈ s, g x + f k = ∑ x ∈ s, f x + g k := by
  have he : ∑ x ∈ s.erase k, g x = ∑ x ∈ s.erase k, f x :=
    Finset.sum_congr rfl fun x hx => h x (Finset.mem_of_mem_erase hx) (Finset.ne_of_mem_erase hx)
  rw [← Finset.add_sum_erase s g hk,← Finset.add_sum_erase s f hk,he]
  rw [add_right_comm,add_comm (g k),add_right_comm]

end Agree

section Bounds

omit [DecidableEq α]

theorem le_sum [Fintype α] (m : α → ℕ) (k : α) : m k ≤ ∑ x, m x :=
  Finset.single_le_sum (fun _ _ => Nat.zero_le _) (Finset.mem_univ k)

end Bounds

end Mapping
end BpsProtocol
