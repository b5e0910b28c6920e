import BpsProtocol.Lib.Checked
import BpsProtocol.Lib.Mapping
import Mathlib.Data.List.Perm.Basic
import Mathlib.Data.List.Sort

/-! What forgets the order of its input.
A sort whose ties are equal, a map filled under distinct keys, a sum; and a fallible loop,
which on a permuted list does the same in another order. -/
namespace BpsProtocol
namespace Reorder

open Checked Mapping

section Sorting

variable {α : Type} {r : α → α → Prop} [DecidableRel r] [Std.Total r] [IsTrans α r]

/-- Where no two different elements are tied, permutations are sorted alike. -/
theorem insertionSort_eq {xs ys : List α} (h : xs.Perm ys)
    (htied : ∀ a ∈ xs, ∀ b ∈ xs, r a b → r b a → a = b) :
    ys.insertionSort r = xs.insertionSort r := by
  have hx := List.perm_insertionSort r xs
  have hperm : (ys.insertionSort r).Perm (xs.insertionSort r) :=
    ((List.perm_insertionSort r ys).trans h.symm).trans hx.symm
  refine List.Perm.eq_of_pairwise (fun a b ha hb hab hba => ?_)
    (List.pairwise_insertionSort r ys) (List.pairwise_insertionSort r xs) hperm
  exact htied a ((hperm.trans hx).mem_iff.1 ha) b (hx.mem_iff.1 hb) hab hba

omit [Std.Total r] [IsTrans α r] in
theorem orderedInsert_of_forall {a : α} {xs : List α} (h : ∀ b ∈ xs, r a b) :
    xs.orderedInsert r a = a::xs := by
  cases xs with
  | nil => rfl
  | cons b xs => exact List.orderedInsert_cons_of_le r xs (h b List.mem_cons_self)

omit [Std.Total r] in
theorem filter_orderedInsert {p : α → Bool} {a : α} {xs : List α} (h : xs.Pairwise r) :
    (xs.orderedInsert r a).filter p =
      if p a then (xs.filter p).orderedInsert r a else xs.filter p := by
  induction xs with
  | nil => cases ha : p a <;> simp [ha]
  | cons b xs ih =>
    rw [List.pairwise_cons] at h
    by_cases hab : r a b
    · have hall : ∀ c ∈ (b::xs).filter p, r a c := by
        intro c hc
        rcases List.mem_cons.1 (List.mem_of_mem_filter hc) with rfl | hc
        · exact hab
        · exact IsTrans.trans _ _ _ hab (h.1 c hc)
      rw [List.orderedInsert_cons_of_le r xs hab,orderedInsert_of_forall hall,List.filter_cons]
    · rw [List.orderedInsert_of_not_le r xs hab,List.filter_cons,ih h.2]
      cases hb : p b <;> cases p a <;> simp [hb,hab]

/-- Sorting what is left is leaving it out of what is sorted. -/
theorem filter_insertionSort (p : α → Bool) (xs : List α) :
    (xs.insertionSort r).filter p = (xs.filter p).insertionSort r := by
  induction xs with
  | nil => rfl
  | cons a xs ih =>
    rw [List.insertionSort_cons,filter_orderedInsert (List.pairwise_insertionSort r xs),ih,
      List.filter_cons]
    split <;> rfl

end Sorting

section Texts

variable {α : Type} {xs ys : List α}

/-- Sorting by texts forgets the order where a text belongs to one element. -/
theorem sortByText_eq (key : α → List Char) (h : xs.Perm ys)
    (hkey : ∀ a ∈ xs, ∀ b ∈ xs, key a = key b → a = b) :
    ys.insertionSort (fun a b => List.le (key a) (key b)) =
      xs.insertionSort (fun a b => List.le (key a) (key b)) := by
  have : Std.Total (fun a b : α => List.le (key a) (key b)) :=
    ⟨fun a b => List.le_total (key a) (key b)⟩
  have : IsTrans α (fun a b => List.le (key a) (key b)) := ⟨fun _ _ _ => List.le_trans⟩
  exact insertionSort_eq h fun a ha b hb hab hba => hkey a ha b hb (List.le_antisymm hab hba)

end Texts

section Filling

variable {α κ δ : Type} [DecidableEq κ] {key : α → κ} {value : α → δ} {xs ys : List α}

theorem set_comm {m : κ → δ} {k l : κ} {v w : δ} (h : k ≠ l) :
    set (set m k v) l w = set (set m l w) k v := by
  funext x
  simp only [set_apply]
  split_ifs with hl hk hk
  · exact absurd (hk.symm.trans hl) h
  · rfl
  · rfl
  · rfl

/-- A map filled under distinct keys does not depend on the order. -/
theorem foldl_set_perm (h : xs.Perm ys) (hnodup : (xs.map key).Nodup) (m : κ → δ) :
    xs.foldl (fun m x => set m (key x) (value x)) m =
      ys.foldl (fun m x => set m (key x) (value x)) m := by
  apply h.foldl_eq'
  intro x hx y hy z
  by_cases hkey : key x = key y
  · rw [List.inj_on_of_nodup_map hnodup hx hy hkey]
  · exact set_comm hkey

end Filling

section Keys

variable {α κ : Type} {key : α → κ} {xs ys : List α}

/-- Permuted lists with distinct keys are equal if their keys are listed alike. -/
theorem eq_of_map_eq (h : xs.Perm ys) (hnodup : (xs.map key).Nodup)
    (hkeys : ys.map key = xs.map key) : ys = xs := by
  have hinj : ∀ y ∈ ys, ∀ x ∈ xs, key y = key x → y = x := fun y hy x hx =>
    List.inj_on_of_nodup_map hnodup (h.mem_iff.2 hy) hx
  clear h hnodup
  induction ys generalizing xs with
  | nil => exact (List.map_eq_nil_iff.1 hkeys.symm).symm
  | cons y ys ih =>
    cases xs with
    | nil => cases hkeys
    | cons x xs =>
      obtain ⟨hkey,hkeys⟩ := List.cons.inj hkeys
      rw [hinj y List.mem_cons_self x List.mem_cons_self hkey,ih hkeys fun a ha b hb =>
        hinj a (List.mem_cons_of_mem _ ha) b (List.mem_cons_of_mem _ hb)]

end Keys

section Loops

variable {α β ε : Type} {f g : α → Except ε β} {xs ys : List α} {built : List β}

theorem mapM_congr (h : ∀ x ∈ xs, g x = f x) : xs.mapM g = xs.mapM f := by
  induction xs with
  | nil => rfl
  | cons x rest ih =>
    rw [List.mapM_cons,List.mapM_cons,h x List.mem_cons_self,
      ih fun y hy => h y (List.mem_cons_of_mem _ hy)]

/-- A loop that succeeds does so in any order, and builds the same. -/
theorem mapM_perm (h : xs.Perm ys) (hbuilt : xs.mapM f = .ok built) :
    ∃ built', ys.mapM f = .ok built' ∧ built.Perm built' := by
  obtain ⟨built',hrelated,hperm⟩ := List.perm_comp_forall₂ h.symm (mapM_eq_ok.1 hbuilt)
  exact ⟨built',mapM_eq_ok.2 hrelated,hperm.symm⟩

end Loops

end Reorder
end BpsProtocol
