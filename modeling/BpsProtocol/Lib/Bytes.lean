import Mathlib.Algebra.Group.Nat.Defs
import Mathlib.Data.List.Basic
import Mathlib.Tactic.Common

/-! Big-endian byte strings of fixed width. -/
namespace BpsProtocol

abbrev Bytes := List UInt8

namespace Bytes

/-- The low `width` bytes of a number, most significant first. -/
def bigEndian : ℕ → ℕ → Bytes
  | 0, _ => []
  | width+1, n => bigEndian width (n/256) ++ [UInt8.ofNat (n%256)]

@[simp] theorem bigEndian_length (width n : ℕ) : (bigEndian width n).length = width := by
  induction width generalizing n with
  | zero => rfl
  | succ width ih => simp [bigEndian,ih]

/-- Numbers that fit the width are told apart by their bytes. -/
theorem bigEndian_injective {width n m : ℕ} (hn : n < 256^width) (hm : m < 256^width)
    (h : bigEndian width n = bigEndian width m) : n = m := by
  induction width generalizing n m with
  | zero => simp at hn hm; omega
  | succ width ih =>
    obtain ⟨hhigh,hlow⟩ := List.append_inj' h rfl
    have hlow' : n%256 = m%256 := by
      have hb := congrArg UInt8.toNat (List.cons.inj hlow).1
      simpa [UInt8.toNat_ofNat'] using hb
    have hhigh' : n/256 = m/256 := by
      rw [Nat.pow_succ] at hn hm
      exact ih (Nat.div_lt_of_lt_mul (by omega)) (Nat.div_lt_of_lt_mul (by omega)) hhigh
    omega

/-- Codes of one fixed positive width are read back from their concatenation. -/
theorem flatMap_injective {α : Type} {code : α → Bytes} {width : ℕ} (hpos : 0 < width)
    (hlen : ∀ x, (code x).length = width) (hcode : ∀ x y, code x = code y → x = y)
    {xs ys : List α} (h : xs.flatMap code = ys.flatMap code) : xs = ys := by
  induction xs generalizing ys with
  | nil =>
    cases ys with
    | nil => rfl
    | cons y ys =>
      have hl := congrArg List.length h
      simp only [List.flatMap_nil,List.flatMap_cons,List.length_nil,List.length_append,hlen] at hl
      omega
  | cons x xs ih =>
    cases ys with
    | nil =>
      have hl := congrArg List.length h
      simp only [List.flatMap_nil,List.flatMap_cons,List.length_nil,List.length_append,hlen] at hl
      omega
    | cons y ys =>
      rw [List.flatMap_cons,List.flatMap_cons] at h
      obtain ⟨hx,hxs⟩ := List.append_inj h (by rw [hlen,hlen])
      rw [hcode x y hx,ih hxs]

end Bytes
end BpsProtocol
