import Mathlib.Data.List.Induction
import Mathlib.Tactic.Common
import Mathlib.Tactic.IntervalCases

/-! Hexadecimal text of fixed width, read in either letter case. -/
namespace BpsProtocol

abbrev Text := List Char

instance lawfulBEq_text : LawfulBEq Text := inferInstance

namespace HexText

def digitValue (c : Char) : ℕ :=
  if c.toNat < 58 then c.toNat-48 else if c.toNat < 71 then c.toNat-55 else c.toNat-87

/-- `[0-9a-fA-F]` -/
def isDigit (c : Char) : Bool :=
  (48 ≤ c.toNat && c.toNat ≤ 57) || (65 ≤ c.toNat && c.toNat ≤ 70) ||
    (97 ≤ c.toNat && c.toNat ≤ 102)

def toLowerCase (s : Text) : Text := s.map Char.toLower

def value (digits : Text) : ℕ := digits.foldl (fun acc c => 16*acc+digitValue c) 0

/-- The low `width` digits of a number in lower case, most significant first. -/
def write : ℕ → ℕ → Text
  | 0, _ => []
  | width+1, n => write width (n/16) ++ [Nat.digitChar (n%16)]

/-- A property of all hexadecimal digits is checked on the twenty-two of them. -/
theorem isDigit_induction {p : Char → Prop} [DecidablePred p]
    (h : "0123456789abcdefABCDEF".toList.all (fun c => decide (p c)) = true)
    {c : Char} (hc : isDigit c = true) : p c := by
  apply of_decide_eq_true
  apply List.all_eq_true.mp h
  have hofNat : Char.ofNat c.toNat = c := Char.ofNat_toNat c
  simp only [isDigit,Bool.or_eq_true,Bool.and_eq_true,decide_eq_true_eq] at hc
  generalize c.toNat = n at hc hofNat
  subst hofNat
  rcases hc with (⟨hl,hu⟩ | ⟨hl,hu⟩) | ⟨hl,hu⟩
  all_goals interval_cases n <;> decide

theorem digitValue_lt {c : Char} (hc : isDigit c = true) : digitValue c < 16 :=
  isDigit_induction (p := fun c => digitValue c < 16) (by decide) hc

theorem digitChar_digitValue {c : Char} (hc : isDigit c = true) :
    Nat.digitChar (digitValue c) = c.toLower :=
  isDigit_induction (p := fun c => Nat.digitChar (digitValue c) = c.toLower) (by decide) hc

theorem digitValue_digitChar {n : ℕ} (h : n < 16) : digitValue (Nat.digitChar n) = n := by
  interval_cases n <;> decide

theorem isDigit_digitChar {n : ℕ} (h : n < 16) : isDigit (Nat.digitChar n) = true := by
  interval_cases n <;> decide

theorem value_append (xs : Text) (c : Char) : value (xs ++ [c]) = 16*value xs+digitValue c := by
  simp [value,List.foldl_append]

@[simp] theorem write_length (width n : ℕ) : (write width n).length = width := by
  induction width generalizing n with
  | zero => rfl
  | succ width ih => simp [write,ih]

theorem isDigit_of_mem_write {width n : ℕ} : ∀ c ∈ write width n, isDigit c = true := by
  induction width generalizing n with
  | zero => simp [write]
  | succ width ih =>
    intro c hc
    rw [write,List.mem_append,List.mem_singleton] at hc
    rcases hc with hc | rfl
    · exact ih c hc
    · exact isDigit_digitChar (Nat.mod_lt n (by decide))

theorem value_lt {digits : Text} (h : ∀ c ∈ digits, isDigit c = true) :
    value digits < 16^digits.length := by
  induction digits using List.reverseRecOn with
  | nil => simp [value]
  | append_singleton xs c ih =>
    have hxs := ih (fun x hx => h x (List.mem_append_left _ hx))
    have hc := digitValue_lt (h c (by simp))
    rw [value_append,List.length_append,List.length_singleton,Nat.pow_succ]
    omega

theorem value_write {width n : ℕ} (h : n < 16^width) : value (write width n) = n := by
  induction width generalizing n with
  | zero =>
    rw [Nat.pow_zero] at h
    have hn : n = 0 := by omega
    rw [hn]
    rfl
  | succ width ih =>
    rw [Nat.pow_succ] at h
    rw [write,value_append,ih (by omega),digitValue_digitChar (Nat.mod_lt n (by decide))]
    omega

/-- Digits read in any case are written back in lower case. -/
theorem write_value {digits : Text} (h : ∀ c ∈ digits, isDigit c = true) :
    write digits.length (value digits) = toLowerCase digits := by
  induction digits using List.reverseRecOn with
  | nil => rfl
  | append_singleton xs c ih =>
    have hc := h c (by simp)
    have hlt := digitValue_lt hc
    rw [value_append,List.length_append,List.length_singleton,write,
      show (16*value xs+digitValue c)/16 = value xs by omega,
      show (16*value xs+digitValue c)%16 = digitValue c by omega,
      ih (fun x hx => h x (List.mem_append_left _ hx)),digitChar_digitValue hc]
    simp [toLowerCase]

end HexText
end BpsProtocol
