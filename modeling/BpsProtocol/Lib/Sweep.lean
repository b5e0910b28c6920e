import BpsProtocol.Lib.Checked
import Mathlib.Algebra.BigOperators.Group.Finset.Basic
import Mathlib.Order.Interval.Finset.SuccPred
import Mathlib.Data.Int.ConditionallyCompleteOrder
import Mathlib.Data.Int.Interval

/-! Sweeps over breakpoints.
A sweep visits the intervals between neighbouring breakpoints.  If no event lies strictly
inside an interval, a visit may treat it as constant, and an invariant of the visits holds
at the last breakpoint. -/
namespace BpsProtocol
namespace Sweep

open Checked

variable {σ ε : Type}

def run (visit : ℤ → ℤ → σ → Except ε σ) (s : σ) : List ℤ → Except ε σ
  | a::b::rest => do
    let s ← visit a b s
    run visit s (b::rest)
  | _ => .ok s

/-- Ascending breakpoints from `start` to `stop`, with every event between them. -/
structure Breaks (Event : ℤ → Prop) (start stop : ℤ) (times : List ℤ) : Prop where
  ascending : (start::times).Pairwise (· < ·)
  last : (start::times).getLast (List.cons_ne_nil _ _) = stop
  complete : ∀ x, Event x → start < x → x < stop → x ∈ times

variable {Event : ℤ → Prop} {start stop a b : ℤ} {times : List ℤ}

theorem Breaks.tail (h : Breaks Event a stop (b::times)) : Breaks Event b stop times := by
  obtain ⟨hhead,htail⟩ := List.pairwise_cons.1 h.ascending
  have hab := hhead b (by simp)
  refine ⟨htail,?_,?_⟩
  · have hlast := h.last
    rwa [List.getLast_cons (List.cons_ne_nil _ _)] at hlast
  · intro x hx hbx hxs
    rcases List.mem_cons.1 (h.complete x hx (hab.trans hbx) hxs) with rfl | hmem
    · exact absurd hbx (lt_irrefl _)
    · exact hmem

theorem Breaks.lt (h : Breaks Event a stop (b::times)) : a < b :=
  (List.pairwise_cons.1 h.ascending).1 b (by simp)

theorem Breaks.le_stop (h : Breaks Event a stop times) : a ≤ stop := by
  have hmem := List.getLast_mem (List.cons_ne_nil a times)
  rw [h.last] at hmem
  rcases List.mem_cons.1 hmem with heq | hmem
  · exact heq.ge
  · exact ((List.pairwise_cons.1 h.ascending).1 stop hmem).le

/-- No event lies strictly between neighbours. -/
theorem Breaks.quiet (h : Breaks Event a stop (b::times)) {x : ℤ} (hx : Event x) (hax : a < x) :
    b ≤ x := by
  by_contra hxb
  have hbs := h.tail.le_stop
  have hmem := h.complete x hx hax (by omega)
  rcases List.mem_cons.1 hmem with rfl | hmem
  · exact hxb le_rfl
  · have hlt := (List.pairwise_cons.1 h.tail.ascending).1 x hmem
    omega

/-- The sweep rule: a visit keeps the invariant or fails as allowed, so the sweep does. -/
theorem run_invariant {visit : ℤ → ℤ → σ → Except ε σ} {I : ℤ → σ → Prop} {Fails : ε → Prop}
    (hvisit : ∀ a b s, a < b → b ≤ stop → (∀ x, Event x → a < x → b ≤ x) → I a s →
      (∀ s', visit a b s = .ok s' → I b s') ∧ ∀ e, visit a b s = .error e → Fails e)
    {s : σ} (hbreaks : Breaks Event start stop times) (hs : I start s) :
    (∀ s', run visit s (start::times) = .ok s' → I stop s') ∧
      ∀ e, run visit s (start::times) = .error e → Fails e := by
  induction times generalizing start s with
  | nil =>
    have hlast : start = stop := hbreaks.last
    refine ⟨fun s' h => ?_,fun e h => ?_⟩
    · cases h
      exact hlast ▸ hs
    · cases h
  | cons b rest ih =>
    obtain ⟨hok,herror⟩ := hvisit start b s hbreaks.lt hbreaks.tail.le_stop
      (fun x hx => hbreaks.quiet hx) hs
    cases hv : visit start b s with
    | ok u =>
      have hrun : run visit s (start::b::rest) = run visit u (b::rest) := by
        simp [run,hv,bind,Except.bind]
      rw [hrun]
      exact ih hbreaks.tail (hok u hv)
    | error e =>
      have hrun : run visit s (start::b::rest) = .error e := by
        simp [run,hv,bind,Except.bind]
      rw [hrun]
      refine ⟨fun s' h => (by cases h),fun e' h => ?_⟩
      cases h
      exact herror e hv

/-- Sorted distinct times that start with `start` and end below `stop` are breakpoints. -/
theorem breaks_of_sorted (hperm : ∃ unsorted : List ℤ, unsorted.Nodup ∧ times.Perm unsorted)
    (hsorted : times.Pairwise (· ≤ ·)) (hstart : start ∈ times) (hle : ∀ x ∈ times, start ≤ x)
    (hlt : ∀ x ∈ times, x < stop) (hevents : ∀ x, Event x → start < x → x < stop → x ∈ times) :
    ∃ rest, times ++ [stop] = start::rest ∧ Breaks Event start stop rest := by
  obtain ⟨unsorted,hnodup,hperm⟩ := hperm
  have hascending : (times ++ [stop]).Pairwise (· < ·) := by
    rw [List.pairwise_append]
    refine ⟨?_,List.pairwise_singleton _ _,fun x hx y hy => ?_⟩
    · exact (hsorted.and (hperm.nodup_iff.2 hnodup)).imp fun h => lt_of_le_of_ne h.1 h.2
    · rw [List.mem_singleton.1 hy]
      exact hlt x hx
  cases times with
  | nil => exact absurd hstart List.not_mem_nil
  | cons x rest =>
    have hx : x = start := by
      rcases List.mem_cons.1 hstart with heq | hmem
      · exact heq.symm
      · exact le_antisymm ((List.pairwise_cons.1 hsorted).1 start hmem) (hle x (by simp))
    subst hx
    refine ⟨rest ++ [stop],rfl,hascending,?_,?_⟩
    · exact List.getLast_concat (l := x::rest)
    · intro y hy hxy hys
      rcases List.mem_cons.1 (hevents y hy hxy hys) with rfl | hmem
      · exact absurd hxy (lt_irrefl _)
      · exact List.mem_append_left _ hmem

/-- A sum over seconds grows by a constant times a duration. -/
theorem sum_Ico_extend {f : ℤ → ℤ} (hstart : start ≤ a) (hab : a ≤ b)
    (hconst : ∀ t, a ≤ t → t < b → f t = f a) :
    ∑ t ∈ Finset.Ico start b, f t = ∑ t ∈ Finset.Ico start a, f t+f a*(b-a) := by
  have hconst' : ∑ t ∈ Finset.Ico a b, f t = f a*(b-a) := by
    rw [Finset.sum_congr rfl (fun t ht => hconst t (Finset.mem_Ico.1 ht).1 (Finset.mem_Ico.1 ht).2),
      Finset.sum_const,Int.card_Ico,nsmul_eq_mul,Int.toNat_of_nonneg (by omega),mul_comm]
  rw [← hconst',← Finset.Ico_union_Ico_eq_Ico hstart hab,
    Finset.sum_union (Finset.Ico_disjoint_Ico_consecutive start a b)]

end Sweep
end BpsProtocol
