import BpsProtocol.Lib.Async
import Mathlib.Data.List.Perm.Basic
import Mathlib.Data.List.Permutation
import Mathlib.Data.Int.Order.Basic

/-! Loops over an interval in windows.
The inclusive windows of an interval follow one another without a gap or an overlap.  A
counting loop with a positive step ends, and an invariant of its turns holds at its end. -/
namespace BpsProtocol
namespace Windows

open Async

/-- An inclusive range. -/
structure Window where
  first : ℤ
  last : ℤ
  deriving DecidableEq

namespace Window

def Has (w : Window) (n : ℤ) : Prop := w.first ≤ n ∧ n ≤ w.last

instance (w : Window) : DecidablePred w.Has := fun _ => inferInstanceAs (Decidable (_ ∧ _))

theorem has_iff {w : Window} {n : ℤ} : w.Has n ↔ w.first ≤ n ∧ n ≤ w.last := Iff.rfl

end Window

/-- Nonempty windows, each beginning after the one before, from `first` up to `last`; there is
none where the interval is empty. -/
inductive Tiles (last : ℤ) : ℤ → List Window → Prop
  | nil {first : ℤ} : last < first → Tiles last first []
  | cons {first : ℤ} {w : Window} {ws : List Window} : w.first = first → first ≤ w.last →
      w.last ≤ last → Tiles last (w.last+1) ws → Tiles last first (w::ws)

namespace Tiles

variable {first last n : ℤ} {w : Window} {ws : List Window}

theorem eq_nil_iff (h : Tiles last first ws) : ws = [] ↔ last < first := by
  cases h with
  | nil h => simp [h]
  | cons _ hw hl _ => simp; omega

theorem bounds (h : Tiles last first ws) : ∀ w ∈ ws, first ≤ w.first ∧ w.last ≤ last := by
  induction h with
  | nil => simp
  | cons hfirst hw hl _ ih =>
    rw [List.forall_mem_cons]
    refine ⟨⟨hfirst.ge,hl⟩,fun w hw' => ?_⟩
    have := ih w hw'
    omega

/-- Nothing outside the interval, and each number of it once. -/
theorem countP_has (h : Tiles last first ws) (n : ℤ) :
    ws.countP (fun w => w.Has n) = if first ≤ n ∧ n ≤ last then 1 else 0 := by
  induction h with
  | nil h =>
    have hn : ¬(_ ≤ n ∧ n ≤ last) := fun hn => absurd (hn.1.trans hn.2) (not_le.2 h)
    simp [hn]
  | @cons first w ws hfirst hw hl _ ih =>
    rw [List.countP_cons,ih]
    by_cases hhas : w.Has n
    · have hin : first ≤ n ∧ n ≤ last := by
        obtain ⟨h₁,h₂⟩ := hhas
        omega
      have hlater : ¬(w.last+1 ≤ n ∧ n ≤ last) := fun h => absurd hhas.2 (by omega)
      rw [if_neg hlater,if_pos hin,if_pos (decide_eq_true hhas)]
    · have hiff : first ≤ n ∧ n ≤ last ↔ w.last+1 ≤ n ∧ n ≤ last := by
        simp only [Window.Has,not_and,not_le] at hhas
        omega
      rw [if_neg (by simpa using hhas : ¬decide (w.Has n) = true),Nat.add_zero]
      exact if_congr hiff.symm rfl rfl

/-- What lies in the interval, window by window. -/
theorem flatMap_filter_perm {α : Type} (position : α → Option ℤ) (l : List α)
    (h : Tiles last first ws) :
    (ws.flatMap fun w => l.filter fun a => (position a).any fun n => w.Has n).Perm
      (l.filter fun a => (position a).any fun n => Window.Has ⟨first,last⟩ n) := by
  induction h with
  | nil h =>
    refine List.Perm.of_eq (List.filter_eq_nil_iff.2 fun a _ => ?_).symm
    cases position a with
    | none => simp
    | some n =>
      simp only [Option.any_some,decide_eq_true_eq]
      simp only [Window.has_iff]
      omega
  | @cons first w ws hfirst hw hl _ ih =>
    have hsplit := List.filter_append_perm
      (fun a => (position a).any fun n => decide (w.Has n))
      (l.filter fun a => (position a).any fun n => Window.Has ⟨first,last⟩ n)
    rw [List.filter_filter,List.filter_filter] at hsplit
    refine List.Perm.trans ?_ hsplit
    rw [List.flatMap_cons]
    refine List.Perm.append (List.Perm.of_eq ?_) (ih.trans (List.Perm.of_eq ?_))
    · refine List.filter_congr fun a _ => ?_
      cases position a with
      | none => rfl
      | some n =>
        rw [Bool.eq_iff_iff]
        simp only [Option.any_some,Bool.and_eq_true,decide_eq_true_eq]
        simp only [Window.has_iff]
        omega
    · refine List.filter_congr fun a _ => ?_
      cases position a with
      | none => rfl
      | some n =>
        rw [Bool.eq_iff_iff]
        simp only [Option.any_some,Bool.and_eq_true,decide_eq_true_eq,Bool.not_eq_true',
          decide_eq_false_iff_not]
        simp only [Window.has_iff]
        omega

end Tiles

/-- The windows of a loop whose turns begin `step` apart. -/
def windows (step last start : ℤ) : List Window :=
  if _h : 0 < step ∧ start ≤ last then
    ⟨start,min (start+step-1) last⟩::windows step last (start+step)
  else []
termination_by (last+1-start).toNat
decreasing_by omega

section Loop

variable {step last start : ℤ}

theorem windows_of_le (hstep : 0 < step) (hle : start ≤ last) :
    windows step last start =
      ⟨start,min (start+step-1) last⟩::windows step last (start+step) := by
  rw [windows,dif_pos ⟨hstep,hle⟩]

theorem windows_of_lt (hlt : last < start) : windows step last start = [] := by
  rw [windows,dif_neg]
  omega

theorem windows_tiles (hstep : 0 < step) (start : ℤ) :
    Tiles last start (windows step last start) := by
  induction start using windows.induct step last with
  | case1 start h ih =>
    rw [windows_of_le hstep h.2]
    refine .cons rfl (by simp only; omega) (by simp only; omega) ?_
    by_cases hlast : start+step ≤ last
    · rw [min_eq_left (by omega),show start+step-1+1 = start+step by omega]
      exact ih
    · rw [min_eq_right (by omega),windows_of_lt (by omega)]
      exact .nil (by simp only; omega)
  | case2 start h =>
    rw [windows_of_lt (by omega)]
    exact .nil (by omega)

/-- `for (let start = from; start <= last; start += step)`; nothing comes out where the fuel is
used up. -/
def forUpTo {I : Interface} {σ δ ε α : Type} (step last : ℤ) (body : ℤ → α → Prog I σ δ ε α) :
    ℕ → ℤ → α → Prog I σ δ ε (Option α)
  | 0, _, _ => pure none
  | fuel+1, start, a =>
    if start ≤ last then do
      let a ← body start a
      forUpTo step last body fuel (start+step) a
    else pure (some a)

/-- As many turns as the loop takes at most, and the one that ends it. -/
def turns (last start : ℤ) : ℕ := (last+1-start).toNat+1

variable {I : Interface} {σ δ ε α E : Type} {mon : Monitor I δ ε E} {crash : δ → List E → Prop}
  {honest : (q : I.Query) → Except ε (I.Answer q) → Prop}

/-- The loop rule: what holds before a turn holds before the next one, and the loop ends. -/
theorem safe_forUpTo {J : ℤ → α → σ → δ → List E → Prop}
    {Post : Except ε (Option α) → σ → δ → List E → Prop} {body : ℤ → α → Prog I σ δ ε α}
    (hstep : 0 < step)
    (hbody : ∀ start a s d l, start ≤ last → J start a s d l →
      Safe mon crash honest (fun r s d l => (∀ a, r = .ok a → J (start+step) a s d l) ∧
        ∀ e, r = .error e → Post (.error e) s d l) (body start a) s d l)
    (hend : ∀ start a s d l, last < start → J start a s d l → Post (.ok (some a)) s d l)
    {fuel : ℕ} (hfuel : turns last start ≤ fuel) {a : α} {s : σ} {d : δ} {l : List E}
    (h : J start a s d l) :
    Safe mon crash honest Post (forUpTo step last body fuel start a) s d l := by
  induction fuel generalizing start a s d l with
  | zero => simp [turns] at hfuel
  | succ fuel ih =>
    rw [forUpTo]
    by_cases hle : start ≤ last
    · rw [if_pos hle]
      refine Safe.bind ((hbody start a s d l hle h).mono fun r s d l hr => ?_)
      cases r with
      | ok a' =>
        refine ih ?_ (hr.1 a' rfl)
        simp only [turns] at hfuel ⊢
        omega
      | error e => exact hr.2 e rfl
    · rw [if_neg hle]
      exact hend start a s d l (by omega) h

/-- The loop ended: it asked for some of the windows, and for all of them where it returns. -/
structure Ended (ws : List Window) (G : List Window → α → Prop) (F : Prop)
    (r : Except ε (Option α)) (l : List Window) : Prop where
  asked : l <+: ws
  returned : ∀ o, r = .ok o → l = ws ∧ ∃ a, o = some a ∧ G ws a
  thrown : ∀ e, r = .error e → F

/-- The loop rule for turns that ask for one window each. -/
theorem safe_windows {mon : Monitor I δ ε Window} {crash : δ → List Window → Prop}
    {G : List Window → α → Prop} {F : Prop} {body : ℤ → α → Prog I σ δ ε α} {first : ℤ}
    (hstep : 0 < step)
    (hbody : ∀ start a s d asked, start ≤ last →
      asked ++ [⟨start,min (start+step-1) last⟩] <+: windows step last first → G asked a →
      Safe mon crash honest (fun r _ _ l => l = asked ++ [⟨start,min (start+step-1) last⟩] ∧
        (∀ a, r = .ok a → G l a) ∧ ∀ e, r = .error e → F) (body start a) s d asked)
    {fuel : ℕ} (hfuel : turns last first ≤ fuel) {a : α} {s : σ} {d : δ} (h : G [] a) :
    Safe mon crash honest (fun r _ _ => Ended (windows step last first) G F r)
      (forUpTo step last body fuel first a) s d [] := by
  refine safe_forUpTo (J := fun start a _ _ l =>
    l ++ windows step last start = windows step last first ∧ G l a) hstep ?_ ?_ hfuel
    ⟨List.nil_append _,h⟩
  · intro start a s d l hle hinv
    obtain ⟨hsplit,hgood⟩ := hinv
    rw [windows_of_le hstep hle,List.append_cons] at hsplit
    have hpre : l ++ [⟨start,min (start+step-1) last⟩] <+: windows step last first :=
      ⟨_,hsplit⟩
    refine (hbody start a s d l hle hpre hgood).mono fun r _ _ l' hr => ?_
    obtain ⟨rfl,hok,hthrown⟩ := hr
    refine ⟨fun a' ha => ⟨hsplit,hok a' ha⟩,fun e he => ⟨hpre,fun o ho => ?_,fun _ _ => ?_⟩⟩
    · cases ho
    · exact hthrown e he
  · intro start a s d l hlt hinv
    obtain ⟨hsplit,hgood⟩ := hinv
    rw [windows_of_lt hlt,List.append_nil] at hsplit
    subst hsplit
    refine ⟨List.prefix_refl _,fun o ho => ⟨rfl,a,(Except.ok.inj ho).symm,hgood⟩,fun e he => ?_⟩
    cases he

end Loop

end Windows
end BpsProtocol
