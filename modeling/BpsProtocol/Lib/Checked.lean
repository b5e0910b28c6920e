import Mathlib.Algebra.Order.Group.Nat
import Mathlib.Data.List.Forall2
import Mathlib.Tactic.Common

/-! Reverting computations over unsigned 256-bit words.
A call either returns or reverts with an error.  Words are natural numbers and the
arithmetic checks its bound, as a checked Solidity operation does. -/
namespace BpsProtocol
namespace Checked

variable {α β ε ε' : Type}

/-- `if (cond) revert E();` -/
def revertIf (c : Prop) [Decidable c] (e : ε) : Except ε Unit :=
  if c then .error e else .ok ()

@[simp] theorem revertIf_eq_ok {c : Prop} [Decidable c] {e : ε} {u : Unit} :
    revertIf c e = .ok u ↔ ¬c := by
  unfold revertIf
  split <;> simp_all

theorem revertIf_of_not {c : Prop} [Decidable c] {e : ε} (h : ¬c) :
    revertIf c e = .ok () := if_neg h

theorem bind_eq_ok {x : Except ε α} {f : α → Except ε β} {b : β} :
    (x >>= f) = .ok b ↔ ∃ a, x = .ok a ∧ f a = .ok b := by
  cases x <;> simp [bind,Except.bind]

@[simp] theorem ok_bind {a : α} {f : α → Except ε β} : (Except.ok a >>= f) = f a := rfl

@[simp] theorem error_bind {e : ε} {f : α → Except ε β} :
    ((.error e : Except ε α) >>= f) = .error e := rfl

@[simp] theorem pure_eq_ok {a b : α} : (pure a : Except ε α) = .ok b ↔ a = b := by
  simp [pure,Except.pure]

@[simp] theorem map_eq_ok {x : Except ε α} {f : α → β} {b : β} :
    (f <$> x) = .ok b ↔ ∃ a, x = .ok a ∧ f a = b := by
  cases x <;> simp [Functor.map,Except.map]

@[simp] theorem mapError_eq_ok {f : ε → ε'} {x : Except ε α} {a : α} :
    x.mapError f = .ok a ↔ x = .ok a := by
  cases x <;> simp [Except.mapError]

theorem toOption_eq_some {x : Except ε α} {a : α} : x.toOption = some a ↔ x = .ok a := by
  cases x <;> simp [Except.toOption]

/-- The result of a call that may revert. -/
def orRevert (e : ε) : Option α → Except ε α
  | some a => .ok a
  | none => .error e

@[simp] theorem orRevert_eq_ok {e : ε} {x : Option α} {a : α} :
    orRevert e x = .ok a ↔ x = some a := by
  cases x <;> simp [orRevert]

/-- `type(uint256).max + 1` -/
def wordBound : ℕ := 2^256

/-- `type(uint64).max + 1` -/
def uint64Bound : ℕ := 2^64

/-- Checked addition: reverts where the sum does not fit the word. -/
def add (e : ε) (a b : ℕ) : Except ε ℕ := do
  revertIf (wordBound ≤ a+b) e
  return a+b

/-- Checked subtraction: reverts where the difference is negative. -/
def sub (e : ε) (a b : ℕ) : Except ε ℕ := do
  revertIf (a < b) e
  return a-b

/-- `Math.mulDiv` with a positive denominator: the floor of the full product's quotient,
reverting where the quotient does not fit the word. -/
def mulDiv (e : ε) (a b d : ℕ) : Except ε ℕ := do
  revertIf (wordBound ≤ a*b/d) e
  return a*b/d

/-- `SafeCast.toUint64` -/
def toUint64 (e : ε) (a : ℕ) : Except ε ℕ := do
  revertIf (uint64Bound ≤ a) e
  return a

@[simp] theorem add_eq_ok {e : ε} {a b c : ℕ} :
    add e a b = .ok c ↔ a+b < wordBound ∧ a+b = c := by
  simp [add]

@[simp] theorem sub_eq_ok {e : ε} {a b c : ℕ} : sub e a b = .ok c ↔ b ≤ a ∧ a-b = c := by
  simp [sub]

@[simp] theorem mulDiv_eq_ok {e : ε} {a b d c : ℕ} :
    mulDiv e a b d = .ok c ↔ a*b/d < wordBound ∧ a*b/d = c := by
  simp [mulDiv]

@[simp] theorem toUint64_eq_ok {e : ε} {a c : ℕ} :
    toUint64 e a = .ok c ↔ a < uint64Bound ∧ a = c := by
  simp [toUint64]

section Errors

variable {x : Except ε α} {f : α → Except ε β} {e e' : ε} {a b d : ℕ}

/-- A sequence fails where its first failing part does. -/
theorem bind_eq_error :
    (x >>= f) = .error e ↔ x = .error e ∨ ∃ a, x = .ok a ∧ f a = .error e := by
  cases x <;> simp

/-- The sequencing rule for an error that no step raises. -/
theorem bind_ne_error (hx : x ≠ .error e) (hf : ∀ a, x = .ok a → f a ≠ .error e) :
    (x >>= f) ≠ .error e := by
  intro h
  cases bind_eq_error.1 h with
  | inl hfirst => exact hx hfirst
  | inr hrest =>
    obtain ⟨a,ha,hfa⟩ := hrest
    exact hf a ha hfa

theorem pure_eq_error {a : α} : (pure a : Except ε α) = .error e ↔ False :=
  ⟨nofun,False.elim⟩

theorem map_eq_error {f : α → β} : (f <$> x) = .error e ↔ x = .error e := by
  cases x <;> simp [Functor.map,Except.map]

theorem mapError_eq_error {g : ε' → ε} {y : Except ε' α} {e : ε} :
    y.mapError g = .error e ↔ ∃ e', y = .error e' ∧ g e' = e := by
  cases y <;> simp [Except.mapError]

theorem revertIf_eq_error {c : Prop} [Decidable c] : revertIf c e' = .error e ↔ c ∧ e' = e := by
  unfold revertIf
  split <;> simp_all

theorem orRevert_eq_error {x : Option α} : orRevert e' x = .error e ↔ x = none ∧ e' = e := by
  cases x <;> simp [orRevert]

theorem add_eq_error : add e' a b = .error e ↔ wordBound ≤ a+b ∧ e' = e := by
  simp [add,map_eq_error,revertIf_eq_error]

theorem sub_eq_error : sub e' a b = .error e ↔ a < b ∧ e' = e := by
  simp [sub,map_eq_error,revertIf_eq_error]

theorem mulDiv_eq_error : mulDiv e' a b d = .error e ↔ wordBound ≤ a*b/d ∧ e' = e := by
  simp [mulDiv,map_eq_error,revertIf_eq_error]

end Errors

theorem exists_eq_ok {x : Except ε α} (h : x.isOk = true) : ∃ a, x = .ok a := by
  cases x with
  | error e => cases h
  | ok a => exact ⟨a,rfl⟩

/-- A successful traversal is a success at every element. -/
theorem mapM_eq_ok {f : α → Except ε β} {xs : List α} {ys : List β} :
    xs.mapM f = .ok ys ↔ List.Forall₂ (fun x y => f x = .ok y) xs ys := by
  induction xs generalizing ys with
  | nil =>
    rw [List.mapM_nil,pure_eq_ok,List.forall₂_nil_left_iff]
    exact eq_comm
  | cons x xs ih =>
    simp only [List.mapM_cons,bind_eq_ok,pure_eq_ok,List.forall₂_cons_left_iff]
    constructor
    · rintro ⟨y,hy,rest,hrest,rfl⟩
      exact ⟨y,rest,hy,ih.1 hrest,rfl⟩
    · rintro ⟨y,rest,hy,hrest,rfl⟩
      exact ⟨y,hy,rest,ih.2 hrest,rfl⟩

theorem mapM_succeeds {f : α → Except ε β} {xs : List α} (h : ∀ x ∈ xs, ∃ y, f x = .ok y) :
    ∃ ys, xs.mapM f = .ok ys := by
  induction xs with
  | nil => exact ⟨[],by rw [List.mapM_nil,pure_eq_ok]⟩
  | cons x xs ih =>
    obtain ⟨y,hy⟩ := h x (by simp)
    obtain ⟨ys,hys⟩ := ih (fun z hz => h z (List.mem_cons_of_mem _ hz))
    exact ⟨y::ys,mapM_eq_ok.2 (.cons hy (mapM_eq_ok.1 hys))⟩

end Checked
end BpsProtocol
