import Mathlib.Data.List.Forall2

/-! Two lists related element by element. -/
namespace BpsProtocol
namespace Pairing

variable {α β γ : Type} {R : α → β → Prop} {xs : List α} {ys : List β}

theorem map_eq (h : List.Forall₂ R xs ys) {f : α → γ} {g : β → γ}
    (hfg : ∀ x y, R x y → f x = g y) : xs.map f = ys.map g := by
  have hmap : List.Forall₂ (· = ·) (xs.map f) (ys.map g) := by
    rw [List.forall₂_map_left_iff,List.forall₂_map_right_iff]
    exact h.imp hfg
  rwa [List.forall₂_eq_eq_eq] at hmap

theorem exists_left (h : List.Forall₂ R xs ys) {y : β} (hy : y ∈ ys) : ∃ x ∈ xs, R x y := by
  induction h with
  | nil => exact absurd hy (by simp)
  | cons hhead _ ih =>
    rcases List.mem_cons.1 hy with rfl | hy
    · exact ⟨_,by simp,hhead⟩
    · obtain ⟨x,hx,hR⟩ := ih hy
      exact ⟨x,List.mem_cons_of_mem _ hx,hR⟩

theorem exists_right (h : List.Forall₂ R xs ys) {x : α} (hx : x ∈ xs) : ∃ y ∈ ys, R x y := by
  obtain ⟨y,hy,hR⟩ := exists_left h.flip hx
  exact ⟨y,hy,hR⟩

end Pairing
end BpsProtocol
