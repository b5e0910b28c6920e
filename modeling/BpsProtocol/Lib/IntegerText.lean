import BpsProtocol.Lib.DecimalText
import BpsProtocol.Lib.HexBytes
import Mathlib.Data.List.DropRight

/-! Integer literals as `BigInt(text)` reads them.
White space around the literal is dropped, nothing at all is zero, and a marker may name
the radix 16, 8 or 2; only a decimal literal has a sign. -/
namespace BpsProtocol
namespace IntegerText

open HexText

def isStrWhiteSpace (c : Char) : Bool :=
  (9 ≤ c.toNat && c.toNat ≤ 13) || c.toNat = 32 || c.toNat = 160 || c.toNat = 5760 ||
    (8192 ≤ c.toNat && c.toNat ≤ 8202) || c.toNat = 8232 || c.toNat = 8233 || c.toNat = 8239 ||
    c.toNat = 8287 || c.toNat = 12288 || c.toNat = 65279

def trim (t : Text) : Text := (t.dropWhile isStrWhiteSpace).rdropWhile isStrWhiteSpace

def isRadixDigit (radix : ℕ) (c : Char) : Bool := isDigit c && digitValue c < radix

def radixValue (radix : ℕ) (digits : Text) : ℕ :=
  digits.foldl (fun acc c => radix*acc+digitValue c) 0

def parseRadix (radix : ℕ) (digits : Text) : Option ℤ :=
  if digits ≠ [] ∧ digits.all (isRadixDigit radix) then some (radixValue radix digits) else none

/-- `0x`, `0o` and `0b`, in either case. -/
def radixOf (marker : Text) : Option ℕ :=
  if marker = ['0','x'] ∨ marker = ['0','X'] then some 16
  else if marker = ['0','o'] ∨ marker = ['0','O'] then some 8
  else if marker = ['0','b'] ∨ marker = ['0','B'] then some 2
  else none

def parseSigned : Text → Option ℤ
  | '-' :: digits => (parseRadix 10 digits).map Neg.neg
  | '+' :: digits => parseRadix 10 digits
  | digits => parseRadix 10 digits

def parseLiteral (t : Text) : Option ℤ :=
  if t = [] then some 0
  else
    match radixOf (t.take 2) with
    | some radix => parseRadix radix (t.drop 2)
    | none => parseSigned t

/-- `BigInt(text)`: no value where it throws. -/
def toBigInt (t : Text) : Option ℤ := parseLiteral (trim t)

example : toBigInt "  -12 ".toList = some (-12) := by decide

example : toBigInt "0x1f".toList = some 31 := by decide

/-! ## Text without white space -/

theorem trim_eq_self {t : Text} (h : ∀ c ∈ t, isStrWhiteSpace c = false) : trim t = t := by
  have hleft : t.dropWhile isStrWhiteSpace = t := by
    cases t with
    | nil => rfl
    | cons c t => rw [List.dropWhile_cons_of_neg (by simp [h c (by simp)])]
  rw [trim,hleft,List.rdropWhile_eq_self_iff]
  intro hne
  simp [h _ (List.getLast_mem hne)]

theorem isStrWhiteSpace_of_isDigit {c : Char} (h : isDigit c = true) :
    isStrWhiteSpace c = false :=
  isDigit_induction (p := fun c => isStrWhiteSpace c = false) (by decide) h

theorem isDigit_of_isRadixDigit {radix : ℕ} {c : Char} (h : isRadixDigit radix c = true) :
    isDigit c = true := (Bool.and_eq_true _ _ ▸ h).1

theorem toNat_of_isDigit {c : Char} (h : c.isDigit = true) : 48 ≤ c.toNat ∧ c.toNat ≤ 57 := by
  rw [Char.isDigit,Bool.and_eq_true,decide_eq_true_eq,decide_eq_true_eq] at h
  exact ⟨UInt32.le_iff_toNat_le.1 h.1,UInt32.le_iff_toNat_le.1 h.2⟩

theorem isRadixDigit_ten {c : Char} (h : c.isDigit = true) : isRadixDigit 10 c = true := by
  have hc := toNat_of_isDigit h
  have hdigit : isDigit c = true := by simp [isDigit,hc]
  have hvalue : digitValue c < 10 := by
    rw [digitValue,if_pos (by omega)]
    omega
  simp [isRadixDigit,hdigit,hvalue]

theorem parseRadix_eq_some {radix : ℕ} {digits : Text} {n : ℤ} :
    parseRadix radix digits = some n ↔
      (digits ≠ [] ∧ ∀ c ∈ digits, isRadixDigit radix c = true) ∧ n = radixValue radix digits := by
  simp only [parseRadix,List.all_eq_true]
  split
  · rename_i h
    rw [Option.some.injEq]
    exact ⟨fun hn => ⟨h,hn.symm⟩,fun hn => hn.2.symm⟩
  · rename_i h
    constructor
    · intro hn
      cases hn
    · intro hn
      exact absurd hn.1 h

theorem parseSigned_of_digit {c : Char} {t : Text} (h : isDigit c = true) :
    parseSigned (c::t) = parseRadix 10 (c::t) := by
  have hminus : c ≠ '-' := fun heq => by
    rw [heq] at h
    exact absurd h (by decide)
  have hplus : c ≠ '+' := fun heq => by
    rw [heq] at h
    exact absurd h (by decide)
  unfold parseSigned
  split
  · rename_i heq
    exact absurd (List.cons.inj heq).1 hminus
  · rename_i heq
    exact absurd (List.cons.inj heq).1 hplus
  · rfl

/-! ## Decimal numbers -/

theorem radixValue_toDigits (n : ℕ) : radixValue 10 (Nat.toDigits 10 n) = n := by
  have hall := @DecimalText.isDigit_toDigits n
  calc radixValue 10 (Nat.toDigits 10 n) = Nat.ofDigitChars 10 (Nat.toDigits 10 n) 0 := by
        rw [radixValue,Nat.ofDigitChars]
        apply List.foldl_ext
        intro acc c hc
        have hc' := toNat_of_isDigit (hall c hc)
        rw [digitValue,if_pos (by omega)]
        rfl
    _ = n := Nat.ofDigitChars_ten_toDigits

theorem parseRadix_toDigits (n : ℕ) : parseRadix 10 (Nat.toDigits 10 n) = some (n : ℤ) := by
  rw [parseRadix_eq_some,radixValue_toDigits]
  refine ⟨⟨Nat.toDigits_ne_nil,fun c hc => isRadixDigit_ten ?_⟩,rfl⟩
  exact DecimalText.isDigit_toDigits _ hc

/-- Decimal digits are read as the number they spell. -/
theorem toBigInt_radixValue {t : Text} (hne : t ≠ [])
    (hall : ∀ c ∈ t, isRadixDigit 10 c = true) : toBigInt t = some (radixValue 10 t : ℤ) := by
  have htrim : trim t = t := trim_eq_self fun c hc =>
    isStrWhiteSpace_of_isDigit (isDigit_of_isRadixDigit (hall c hc))
  have hparse := parseRadix_eq_some.2 ⟨⟨hne,hall⟩,rfl⟩
  rw [toBigInt,htrim]
  match t with
  | [] => exact absurd rfl hne
  | [c] =>
    rw [parseLiteral,if_neg (by simp),show radixOf (List.take 2 [c]) = none by simp [radixOf]]
    exact (parseSigned_of_digit (isDigit_of_isRadixDigit (hall c (by simp)))).trans hparse
  | c::d::t =>
    have hd : ∀ m, isRadixDigit 10 m = false → d ≠ m := fun m hm heq => by
      rw [← heq,hall d (by simp)] at hm
      cases hm
    have hmarker : radixOf (List.take 2 (c::d::t)) = none := by
      simp [radixOf,hd 'x' (by decide),hd 'X' (by decide),hd 'o' (by decide),hd 'O' (by decide),
        hd 'b' (by decide),hd 'B' (by decide)]
    rw [parseLiteral,if_neg (by simp),hmarker]
    exact (parseSigned_of_digit (isDigit_of_isRadixDigit (hall c (by simp)))).trans hparse

/-- A decimal number is read back. -/
theorem toBigInt_toDigits (n : ℕ) : toBigInt (Nat.toDigits 10 n) = some (n : ℤ) := by
  have hall : ∀ c ∈ Nat.toDigits 10 n, isRadixDigit 10 c = true := fun c hc =>
    isRadixDigit_ten (DecimalText.isDigit_toDigits _ hc)
  rw [toBigInt_radixValue Nat.toDigits_ne_nil hall,radixValue_toDigits]

theorem toBigInt_neg_toDigits (n : ℕ) : toBigInt ('-' :: Nat.toDigits 10 n) = some (-(n : ℤ)) := by
  have hall : ∀ c ∈ Nat.toDigits 10 n, isRadixDigit 10 c = true := fun c hc =>
    isRadixDigit_ten (DecimalText.isDigit_toDigits _ hc)
  have htrim : trim ('-' :: Nat.toDigits 10 n) = '-' :: Nat.toDigits 10 n := by
    apply trim_eq_self
    rw [List.forall_mem_cons]
    exact ⟨by decide,fun c hc => isStrWhiteSpace_of_isDigit (isDigit_of_isRadixDigit (hall c hc))⟩
  have hmarker : radixOf (List.take 2 ('-' :: Nat.toDigits 10 n)) = none := by
    simp [radixOf]
  rw [toBigInt,htrim,parseLiteral,if_neg (by simp),hmarker]
  change (parseRadix 10 (Nat.toDigits 10 n)).map Neg.neg = _
  rw [parseRadix_toDigits]
  rfl

/-! ## Hexadecimal digits -/

theorem toBigInt_hex {ds : Text} (hne : ds ≠ []) (h : ∀ c ∈ ds, isDigit c = true) :
    toBigInt ('0' :: 'x' :: ds) = some (value ds : ℤ) := by
  have htrim : trim ('0' :: 'x' :: ds) = '0' :: 'x' :: ds := by
    apply trim_eq_self
    rw [List.forall_mem_cons,List.forall_mem_cons]
    exact ⟨by decide,by decide,fun c hc => isStrWhiteSpace_of_isDigit (h c hc)⟩
  have hmarker : radixOf (List.take 2 ('0' :: 'x' :: ds)) = some 16 := rfl
  rw [toBigInt,htrim,parseLiteral,if_neg (by simp),hmarker]
  apply parseRadix_eq_some.2
  refine ⟨⟨hne,fun c hc => ?_⟩,rfl⟩
  simp [isRadixDigit,h c hc,digitValue_lt (h c hc)]

theorem radixValue_le {radix : ℕ} (hradix : radix ≤ 16) (ds : Text) :
    radixValue radix ds ≤ value ds := by
  induction ds using List.reverseRecOn with
  | nil => exact Nat.le_refl _
  | append_singleton ds c ih =>
    have hstep : radix*radixValue radix ds ≤ 16*value ds := Nat.mul_le_mul hradix ih
    rw [value_append,radixValue,List.foldl_append]
    exact Nat.add_le_add_right hstep _

theorem value_drop_le (k : ℕ) (ds : Text) : value (ds.drop k) ≤ value ds := by
  nth_rewrite 2 [← List.take_append_drop k ds]
  rw [value_append_text]
  exact Nat.le_add_left _ _

theorem radixOf_le {marker : Text} {radix : ℕ} (h : radixOf marker = some radix) :
    radix ≤ 16 := by
  unfold radixOf at h
  split at h
  · exact (Option.some.inj h).symm.le
  · split at h
    · have := Option.some.inj h
      omega
    · split at h
      · have := Option.some.inj h
        omega
      · cases h

/-- Whatever literal hexadecimal digits make, it is at most what they spell. -/
theorem toBigInt_le_value {t : Text} {n : ℤ} (h : ∀ c ∈ t, isDigit c = true)
    (hn : toBigInt t = some n) : n ≤ value t := by
  rw [toBigInt,trim_eq_self fun c hc => isStrWhiteSpace_of_isDigit (h c hc),parseLiteral] at hn
  split at hn
  · rename_i hnil
    rw [hnil]
    exact (Option.some.inj hn).symm.le
  · split at hn
    · rename_i radix hradix
      rw [(parseRadix_eq_some.1 hn).2]
      exact_mod_cast (radixValue_le (radixOf_le hradix) _).trans (value_drop_le 2 t)
    · cases t with
      | nil => cases hn
      | cons c t =>
        rw [parseSigned_of_digit (h c (by simp))] at hn
        rw [(parseRadix_eq_some.1 hn).2]
        exact_mod_cast radixValue_le (by decide) _

/-- After the first two characters of a literal come digits. -/
theorem isDigit_of_toBigInt {t : Text} {n : ℤ} (htrim : trim t = t)
    (hn : toBigInt t = some n) : ∀ c ∈ t.drop 2, isDigit c = true := by
  rw [toBigInt,htrim,parseLiteral] at hn
  split at hn
  · rename_i hnil
    simp [hnil]
  · split at hn
    · intro c hc
      exact isDigit_of_isRadixDigit ((parseRadix_eq_some.1 hn).1.2 c hc)
    · have hsigned : ∀ ds m, parseRadix 10 ds = some m → ∀ c ∈ ds, isDigit c = true :=
        fun ds m hm c hc => isDigit_of_isRadixDigit ((parseRadix_eq_some.1 hm).1.2 c hc)
      have htail : ∀ (x : Char) (ds : Text), ∀ c ∈ List.drop 2 (x::ds), c ∈ ds := fun x ds c hc =>
        List.mem_of_mem_drop (by rwa [List.drop_succ_cons] at hc)
      unfold parseSigned at hn
      split at hn
      · obtain ⟨m,hm,-⟩ := Option.map_eq_some_iff.1 hn
        exact fun c hc => hsigned _ m hm c (htail _ _ c hc)
      · exact fun c hc => hsigned _ n hn c (htail _ _ c hc)
      · exact fun c hc => hsigned _ n hn c (List.mem_of_mem_drop hc)

end IntegerText
end BpsProtocol
