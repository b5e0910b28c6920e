import Mathlib.Data.List.Forall2
import Mathlib.Data.List.Induction
import Mathlib.Tactic.Common

/-! Lists joined by a separator.
A part that holds the separator may be split in two ways; where each later part either is
free of it or is the same on both sides, the parts are read back from the right. -/
namespace BpsProtocol
namespace Separated

variable {α : Type} {sep : α} {x y s t : List α} {ps qs : List (List α)}

/-- `parts.join(sep)` -/
def join (sep : α) : List (List α) → List α
  | [] => []
  | x::ps => x ++ ps.flatMap (sep::·)

theorem join_concat : join sep (x::(ps ++ [s])) = join sep (x::ps) ++ sep::s := by
  simp [join]

theorem join_cons_cons : join sep (x::y::ps) = join sep ((x ++ sep::y)::ps) := by
  simp [join]

/-- Two last parts may be taken off when they are equal or free of the separator. -/
theorem append_sep_inj (h : s = t ∨ sep ∉ s ∧ sep ∉ t) (heq : x ++ sep::s = y ++ sep::t) :
    x = y ∧ s = t := by
  rcases h with rfl | ⟨hs,ht⟩
  · exact ⟨List.append_cancel_right heq,rfl⟩
  · induction s using List.reverseRecOn generalizing t with
    | nil =>
      cases t using List.reverseRecOn with
      | nil => exact ⟨List.append_cancel_right heq,rfl⟩
      | append_singleton t b =>
        have hlast := (List.append_inj' (by simpa using heq : x ++ [sep] = (y ++ sep::t) ++ [b]) rfl).2
        exact absurd (by simpa using hlast) (fun e : sep = b => ht (by simp [e]))
    | append_singleton s a ih =>
      cases t using List.reverseRecOn with
      | nil =>
        have hlast := (List.append_inj' (by simpa using heq : (x ++ sep::s) ++ [a] = y ++ [sep]) rfl).2
        exact absurd (by simpa using hlast) (fun e : a = sep => hs (by simp [e]))
      | append_singleton t b =>
        have hsplit := List.append_inj'
          (by simpa using heq : (x ++ sep::s) ++ [a] = (y ++ sep::t) ++ [b]) rfl
        have hab : a = b := by simpa using hsplit.2
        have hs' : sep ∉ s := fun hm => hs (List.mem_append_left _ hm)
        have ht' : sep ∉ t := fun hm => ht (List.mem_append_left _ hm)
        obtain ⟨hxy,hst⟩ := ih hsplit.1 hs' ht'
        exact ⟨hxy,by rw [hst,hab]⟩

/-- Equal joins have equal parts. -/
theorem join_inj (h : List.Forall₂ (fun s t => s = t ∨ sep ∉ s ∧ sep ∉ t) ps qs)
    (heq : join sep (x::ps) = join sep (y::qs)) : x = y ∧ ps = qs := by
  induction ps using List.reverseRecOn generalizing qs with
  | nil =>
    cases h
    exact ⟨by simpa [join] using heq,rfl⟩
  | append_singleton ps s ih =>
    cases qs using List.reverseRecOn with
    | nil => simp at h
    | append_singleton qs t =>
      have hlength := h.length_eq
      simp only [List.length_append,List.length_singleton,Nat.add_right_cancel_iff] at hlength
      have hinit := List.forall₂_take_append _ _ _ h
      have hlast := List.forall₂_drop_append _ _ _ h
      rw [← hlength] at hinit hlast
      rw [List.take_left] at hinit
      rw [List.drop_left] at hlast
      rw [join_concat,join_concat] at heq
      obtain ⟨hrest,hst⟩ := append_sep_inj (by simpa using hlast) heq
      obtain ⟨hxy,hps⟩ := ih hinit hrest
      exact ⟨hxy,by rw [hps,hst]⟩

end Separated
end BpsProtocol
