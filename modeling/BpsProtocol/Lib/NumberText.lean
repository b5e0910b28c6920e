import BpsProtocol.Lib.Binary64
import BpsProtocol.Lib.DecimalText
import Mathlib.Data.List.DropRight

/-! The text of a number.
It has the fewest digits that round back to the number.  A reader gets the decimal back from
its layout, and rounding it gives the number, so different numbers have different texts. -/
namespace BpsProtocol
namespace NumberText

open Binary64

/-! ## Decimals -/

structure Decimal where
  significand : ℕ
  exponent : ℤ

def Decimal.value (d : Decimal) : ℚ := d.significand*(10 : ℚ)^d.exponent

/-- The number as a decimal; no double has more digits after the point. -/
def exact (q : ℚ) : Decimal := ⟨⌊q*10^1074⌋₊,-1074⟩

/-- A decimal of `k` digits that rounds to the number, the closest one first. -/
def candidate (q : ℚ) (k : ℕ) : Option Decimal :=
  let exponent := Int.log 10 q+1-k
  let scaled := q/(10 : ℚ)^exponent
  let low := ⌊scaled⌋₊
  ([(roundHalfEven scaled).toNat,low,low+1].map (⟨·,exponent⟩)).find?
    (fun d : Decimal => nearest d.value = q)

/-- The search from `k` digits on. -/
def search (q : ℚ) : ℕ → ℕ → Decimal
  | 0, _ => exact q
  | fuel+1, k =>
    match candidate q k with
    | some d => d
    | none => search q fuel (k+1)

/-- The shortest decimal that rounds to the number. -/
def shortest (q : ℚ) : Decimal := search q (Nat.toDigits 10 (exact q).significand).length 1

/-! ## Layout -/

/-- The digits as a number from one to ten. -/
def mantissa : Text → Text
  | d::e::digits => d :: '.' :: e::digits
  | digits => digits

/-- The digits with the point behind the `n`th. -/
def layout (digits : Text) (n : ℤ) : Text :=
  let k : ℤ := digits.length
  if k ≤ n ∧ n ≤ 21 then digits ++ List.replicate (n-k).toNat '0'
  else if 0 < n ∧ n ≤ 21 then digits.take n.toNat ++ '.' :: digits.drop n.toNat
  else if -6 < n ∧ n ≤ 0 then '0' :: '.' :: List.replicate (-n).toNat '0' ++ digits
  else mantissa digits ++ 'e' :: (if n-1 < 0 then '-' else '+') :: Nat.toDigits 10 (n-1).natAbs

def positive (q : ℚ) : Text :=
  let d := shortest q
  let digits := Nat.toDigits 10 d.significand
  layout (digits.rdropWhile (· = '0')) (digits.length+d.exponent)

/-- `Number::toString` of a finite number. -/
def text (x : Double) : Text :=
  if x.val = 0 then ['0'] else if x.val < 0 then '-' :: positive (-x.val) else positive x.val

/-- `String(x)` -/
def toText : Number → Text
  | .nan => "NaN".toList
  | .infinite negative => (if negative then "-Infinity" else "Infinity").toList
  | .finite x => text x

/-! ## Reading -/

def numeral (digits : Text) : ℕ := Nat.ofDigitChars 10 digits 0

/-- What is before and behind the first separator. -/
def split (sep : Char) (t : Text) : Text × Text :=
  (t.takeWhile (· ≠ sep),(t.dropWhile (· ≠ sep)).drop 1)

def readExponent : Text → ℤ
  | '-' :: digits => -numeral digits
  | _::digits => numeral digits
  | [] => 0

/-- The value of a decimal literal without a sign. -/
def read (t : Text) : ℚ :=
  let (significand,exponent) := split 'e' t
  let (whole,fraction) := split '.' significand
  numeral (whole ++ fraction)*(10 : ℚ)^(readExponent exponent-fraction.length)

section Reading

variable {a b digits : Text} {sep : Char} {k : ℕ} {n : ℤ}

theorem split_append (h : sep ∉ a) : split sep (a ++ sep::b) = (a,b) := by
  have hall : ∀ c ∈ a, decide (c ≠ sep) = true := by
    intro c hc
    exact decide_eq_true fun heq => h (heq ▸ hc)
  rw [split,List.takeWhile_append_of_pos hall,List.dropWhile_append_of_pos hall]
  simp

theorem split_of_notMem (h : sep ∉ a) : split sep a = (a,[]) := by
  have hall : ∀ c ∈ a, decide (c ≠ sep) = true := by
    intro c hc
    exact decide_eq_true fun heq => h (heq ▸ hc)
  rw [split,List.takeWhile_eq_self_iff.2 hall,List.dropWhile_eq_nil_iff.2 hall]
  rfl

theorem numeral_append_zeros (digits : Text) (k : ℕ) :
    numeral (digits ++ List.replicate k '0') = numeral digits*10^k := by
  rw [numeral,Nat.ofDigitChars_append,Nat.ofDigitChars_replicate_zero,mul_comm]
  rfl

theorem numeral_zeros_append (digits : Text) (k : ℕ) :
    numeral (List.replicate k '0' ++ digits) = numeral digits := by
  rw [numeral,Nat.ofDigitChars_append,Nat.ofDigitChars_replicate_zero,mul_zero]
  rfl

theorem numeral_toDigits (n : ℕ) : numeral (Nat.toDigits 10 n) = n :=
  Nat.ofDigitChars_ten_toDigits

theorem readExponent_sign (n : ℤ) :
    readExponent ((if n < 0 then '-' else '+')::Nat.toDigits 10 n.natAbs) = n := by
  by_cases h : n < 0
  · rw [if_pos h,readExponent,numeral_toDigits]
    omega
  · have hplus : readExponent ('+' :: Nat.toDigits 10 n.natAbs) = (n.natAbs : ℤ) := by
      rw [readExponent,numeral_toDigits]
      exact fun h => by cases h
    rw [if_neg h,hplus]
    omega

/-- A literal is read by its three parts. -/
theorem read_of_split {t significand exponent whole fraction : Text}
    (hexp : split 'e' t = (significand,exponent))
    (hpoint : split '.' significand = (whole,fraction)) :
    read t = numeral (whole ++ fraction)*(10 : ℚ)^(readExponent exponent-fraction.length) := by
  simp only [read,hexp,hpoint]

section Digits

variable (h : ∀ c ∈ digits, c.isDigit = true)

include h

theorem notMem_of_digits (hsep : sep.isDigit = false) : sep ∉ digits := fun hmem => by
  rw [h sep hmem] at hsep
  cases hsep

theorem read_digits : read digits = numeral digits := by
  rw [read_of_split (split_of_notMem (notMem_of_digits h (by decide)))
    (split_of_notMem (notMem_of_digits h (by decide)))]
  simp [readExponent]

/-- A point inside the digits. -/
theorem read_point {fraction : Text} (hfraction : ∀ c ∈ fraction, c.isDigit = true) :
    read (digits ++ '.' :: fraction) =
      numeral (digits ++ fraction)*(10 : ℚ)^(-fraction.length : ℤ) := by
  have hexp : 'e' ∉ digits ++ '.' :: fraction := by
    rw [List.mem_append,List.mem_cons,not_or,not_or]
    exact ⟨notMem_of_digits h (by decide),by decide,notMem_of_digits hfraction (by decide)⟩
  rw [read_of_split (split_of_notMem hexp) (split_append (notMem_of_digits h (by decide)))]
  simp [readExponent]

/-- One digit before the point, and the exponent behind the letter. -/
theorem read_mantissa (n : ℤ) : read (mantissa digits ++
      'e' :: (if n-1 < 0 then '-' else '+')::Nat.toDigits 10 (n-1).natAbs) =
    numeral digits*(10 : ℚ)^(n-digits.length) := by
  have hexponent := readExponent_sign (n-1)
  match digits with
  | [] =>
    rw [mantissa,read_of_split (split_append List.not_mem_nil) (split_of_notMem List.not_mem_nil)]
    · simp [numeral]
    · exact fun _ _ _ heq => by cases heq
  | [d] =>
    rw [mantissa,read_of_split (split_append (notMem_of_digits h (by decide)))
      (split_of_notMem (notMem_of_digits h (by decide))),hexponent]
    · simp
    · exact fun _ _ _ heq => by cases heq
  | d::d'::ds =>
    have hd : '.' ∉ [d] := by
      have hnot := notMem_of_digits h (by decide : ('.').isDigit = false)
      simp only [List.mem_cons,not_or] at hnot
      simpa using hnot.1
    have hexp : 'e' ∉ [d] ++ '.' :: d'::ds := by
      have hnot := notMem_of_digits h (by decide : ('e').isDigit = false)
      simp only [List.mem_cons,not_or] at hnot
      simpa using hnot
    refine Eq.trans (read_of_split (split_append hexp) (split_append hd)) ?_
    rw [hexponent]
    simp only [List.singleton_append,List.length_cons]
    congr 2
    push_cast
    omega

/-- Digits laid out around the point are read back. -/
theorem read_layout (n : ℤ) :
    read (layout digits n) = numeral digits*(10 : ℚ)^(n-digits.length) := by
  unfold layout
  dsimp only
  by_cases hwhole : digits.length ≤ n ∧ n ≤ 21
  · have hzeros : ∀ c ∈ digits ++ List.replicate (n-digits.length).toNat '0', c.isDigit = true := by
      intro c hc
      rcases List.mem_append.1 hc with hc | hc
      · exact h c hc
      · rw [List.eq_of_mem_replicate hc]
        decide
    obtain ⟨k,hk⟩ := Int.le.dest hwhole.1
    rw [if_pos hwhole,read_digits hzeros,numeral_append_zeros,← hk]
    simp
  by_cases hinside : 0 < n ∧ n ≤ 21
  · rw [if_neg hwhole,if_pos hinside,read_point (fun c hc => h c (List.mem_of_mem_take hc))
      (fun c hc => h c (List.mem_of_mem_drop hc)),List.take_append_drop,List.length_drop]
    congr 2
    omega
  by_cases hbefore : -6 < n ∧ n ≤ 0
  · have hfraction : ∀ c ∈ List.replicate (-n).toNat '0' ++ digits, c.isDigit = true := by
      intro c hc
      rcases List.mem_append.1 hc with hc | hc
      · rw [List.eq_of_mem_replicate hc]
        decide
      · exact h c hc
    have hread := @read_point ['0'] (List.forall_mem_singleton.2 rfl) _ hfraction
    rw [if_neg hwhole,if_neg hinside,if_pos hbefore]
    refine Eq.trans hread ?_
    rw [List.length_append,List.length_replicate]
    have hnumeral : numeral (['0'] ++ (List.replicate (-n).toNat '0' ++ digits)) = numeral digits := by
      rw [← List.append_assoc]
      exact numeral_zeros_append digits ((-n).toNat+1)
    rw [hnumeral]
    congr 2
    push_cast
    omega
  · rw [if_neg hwhole,if_neg hinside,if_neg hbefore]
    exact read_mantissa h n

end Digits

end Reading

section Shortest

variable {q : ℚ}

/-- A binary fraction is a decimal one with as many digits. -/
theorem exists_tenths {m e : ℤ} {p : ℕ} (he : -p ≤ e) :
    ∃ z : ℤ, (m : ℚ)*2^e*10^p = z := by
  obtain ⟨k,hk⟩ := Int.le.dest he
  have hten : (10 : ℚ)^p = 2^(p : ℤ)*5^p := by
    rw [zpow_natCast,← mul_pow]
    norm_num
  have htwo : (2 : ℚ)^e*2^(p : ℤ) = 2^k := by
    rw [← zpow_natCast,← zpow_add₀ two_ne_zero]
    congr 1
    omega
  refine ⟨m*2^k*5^p,?_⟩
  push_cast
  rw [hten,mul_assoc,← mul_assoc ((2 : ℚ)^e),htwo,mul_assoc]

theorem floor_tenths {p : ℕ} {z : ℤ} (hz : q*10^p = z) (hpos : 0 < q) :
    (⌊q*10^p⌋₊ : ℚ)*(10 : ℚ)^(-p : ℤ) = q := by
  have hten : (0 : ℚ) < 10^p := by positivity
  have hscaled : 0 < q*10^p := mul_pos hpos hten
  have hnonneg : 0 ≤ z := by
    rw [hz] at hscaled
    exact_mod_cast hscaled.le
  obtain ⟨s,rfl⟩ := Int.eq_ofNat_of_zero_le hnonneg
  rw [Int.cast_natCast] at hz
  rw [hz,Nat.floor_natCast,← hz,zpow_neg,zpow_natCast,mul_assoc,mul_inv_cancel₀ hten.ne',mul_one]

theorem exact_value (h : Representable q) (hpos : 0 < q) : (exact q).value = q := by
  obtain ⟨m,e,-,he,-,rfl⟩ := h
  obtain ⟨z,hz⟩ := @exists_tenths m e 1074 he
  exact floor_tenths hz hpos

theorem candidate_value {k : ℕ} {d : Decimal} (h : candidate q k = some d) :
    nearest d.value = q := by
  unfold candidate at h
  simpa using List.find?_some h

theorem search_value (h : Representable q) (hpos : 0 < q) (fuel k : ℕ) :
    nearest (search q fuel k).value = q := by
  induction fuel generalizing k with
  | zero => rw [search,exact_value h hpos,nearest_of_representable h]
  | succ fuel ih =>
    unfold search
    cases hcandidate : candidate q k with
    | some d => exact candidate_value hcandidate
    | none => exact ih (k+1)

/-- The decimal that is shown rounds back to the number. -/
theorem shortest_value (h : Representable q) (hpos : 0 < q) : nearest (shortest q).value = q :=
  search_value h hpos _ _

theorem significand_pos (h : Representable q) (hpos : 0 < q) : 0 < (shortest q).significand := by
  by_contra hzero
  have hvalue := shortest_value h hpos
  rw [Decimal.value,Nat.eq_zero_of_not_pos hzero,Nat.cast_zero,zero_mul,nearest_zero] at hvalue
  exact hpos.ne hvalue

end Shortest

section Text

variable {q : ℚ} {x y : Double}

/-- The digits that are shown, and the zeros that are not. -/
theorem toDigits_split (n : ℕ) : ∃ k, Nat.toDigits 10 n =
    (Nat.toDigits 10 n).rdropWhile (· = '0') ++ List.replicate k '0' := by
  have hzeros : (Nat.toDigits 10 n).rtakeWhile (· = '0') =
      List.replicate ((Nat.toDigits 10 n).rtakeWhile (· = '0')).length '0' := by
    refine List.eq_replicate_of_mem fun c hc => ?_
    simpa using List.mem_rtakeWhile_imp hc
  refine ⟨((Nat.toDigits 10 n).rtakeWhile (· = '0')).length,?_⟩
  rw [← hzeros,List.rdropWhile_append_rtakeWhile]

/-- The text of a positive number is read as a decimal that rounds to it. -/
theorem nearest_read_positive (h : Representable q) (hpos : 0 < q) :
    nearest (read (positive q)) = q := by
  have hvalue := shortest_value h hpos
  obtain ⟨k,hk⟩ := toDigits_split (shortest q).significand
  have hdigits : ∀ c ∈ (Nat.toDigits 10 (shortest q).significand).rdropWhile (· = '0'),
      c.isDigit = true := by
    intro c hc
    exact DecimalText.isDigit_toDigits c (by rw [hk]; exact List.mem_append_left _ hc)
  have hnumeral := numeral_toDigits (shortest q).significand
  have hlength := congrArg List.length hk
  rw [List.length_append,List.length_replicate] at hlength
  rw [hk,numeral_append_zeros] at hnumeral
  rw [Decimal.value] at hvalue
  refine Eq.trans (congrArg nearest ?_) hvalue
  have hten : (10 : ℚ) ≠ 0 := by norm_num
  refine Eq.trans (read_layout hdigits _) ?_
  have hcast : (numeral ((Nat.toDigits 10 (shortest q).significand).rdropWhile (· = '0')) : ℚ)*10^k =
      (shortest q).significand := by
    exact_mod_cast hnumeral
  rw [hlength,← hcast,mul_assoc]
  congr 1
  push_cast
  rw [← zpow_natCast,← zpow_add₀ hten]
  congr 1
  omega

/-- The characters of a number. -/
def isNumeric (c : Char) : Bool := c.isDigit || c ∈ ['.','e','+','-']

theorem layout_chars {digits : Text} (hdigits : ∀ c ∈ digits, c.isDigit = true)
    (hne : digits ≠ []) (n : ℤ) : (∃ c ∈ (layout digits n).head?, c.isDigit = true) ∧
      ∀ c ∈ layout digits n, isNumeric c = true := by
  have hnumeric : ∀ c ∈ digits, isNumeric c = true := fun c hc => by simp [isNumeric,hdigits c hc]
  have hzeros : ∀ k, ∀ c ∈ List.replicate k '0', isNumeric c = true := by
    intro k c hc
    rw [List.eq_of_mem_replicate hc]
    decide
  obtain ⟨d,ds,rfl⟩ := List.exists_cons_of_ne_nil hne
  have hd : d.isDigit = true := hdigits d List.mem_cons_self
  unfold layout
  dsimp only
  by_cases hwhole : (d::ds).length ≤ n ∧ n ≤ 21
  · rw [if_pos hwhole]
    refine ⟨⟨d,by simp,hd⟩,?_⟩
    simpa only [List.forall_mem_append] using ⟨hnumeric,hzeros _⟩
  by_cases hinside : 0 < n ∧ n ≤ 21
  · obtain ⟨k,hk⟩ : ∃ k, n.toNat = k+1 := ⟨n.toNat-1,by omega⟩
    rw [if_neg hwhole,if_pos hinside,hk,List.take_succ_cons,List.drop_succ_cons]
    refine ⟨⟨d,by simp,hd⟩,?_⟩
    rw [List.forall_mem_append,List.forall_mem_cons,List.forall_mem_cons]
    rw [List.forall_mem_cons] at hnumeric
    exact ⟨⟨hnumeric.1,fun c hc => hnumeric.2 c (List.mem_of_mem_take hc)⟩,by decide,
      fun c hc => hnumeric.2 c (List.mem_of_mem_drop hc)⟩
  by_cases hbefore : -6 < n ∧ n ≤ 0
  · rw [if_neg hwhole,if_neg hinside,if_pos hbefore]
    refine ⟨⟨'0',by simp,by decide⟩,?_⟩
    rw [List.cons_append,List.cons_append,List.forall_mem_cons,List.forall_mem_cons,
      List.forall_mem_append]
    exact ⟨by decide,by decide,hzeros _,hnumeric⟩
  · have hexponent : ∀ c ∈ Nat.toDigits 10 (n-1).natAbs, isNumeric c = true :=
      fun c hc => by simp [isNumeric,DecimalText.isDigit_toDigits c hc]
    have hsign : isNumeric (if n-1 < 0 then '-' else '+') = true := by split <;> decide
    have hmantissa : (∃ c ∈ (mantissa (d::ds)).head?, c.isDigit = true) ∧
        ∀ c ∈ mantissa (d::ds), isNumeric c = true := by
      cases ds with
      | nil => exact ⟨⟨d,rfl,hd⟩,hnumeric⟩
      | cons d' ds =>
        rw [List.forall_mem_cons] at hnumeric
        rw [mantissa,List.forall_mem_cons,List.forall_mem_cons]
        exact ⟨⟨d,rfl,hd⟩,hnumeric.1,by decide,hnumeric.2⟩
    obtain ⟨⟨c,hc,hfirst⟩,hall⟩ := hmantissa
    rw [if_neg hwhole,if_neg hinside,if_neg hbefore]
    constructor
    · exact ⟨c,by rw [List.head?_append,Option.mem_def.1 hc]; rfl,hfirst⟩
    · rw [List.forall_mem_append,List.forall_mem_cons,List.forall_mem_cons]
      exact ⟨hall,by decide,hsign,hexponent⟩

/-- A positive number starts with a digit. -/
theorem positive_chars (h : Representable q) (hpos : 0 < q) :
    (∃ c ∈ (positive q).head?, c.isDigit = true) ∧ ∀ c ∈ positive q, isNumeric c = true := by
  obtain ⟨k,hk⟩ := toDigits_split (shortest q).significand
  refine layout_chars (fun c hc => DecimalText.isDigit_toDigits c (by rw [hk]; exact List.mem_append_left _ hc))
    (fun hnil => ?_) _
  have hnumeral := numeral_toDigits (shortest q).significand
  rw [hk,hnil,numeral_append_zeros] at hnumeral
  have hsignificand := significand_pos h hpos
  simp [numeral] at hnumeral
  omega

theorem representable_neg (h : Representable q) : Representable (-q) := by
  obtain ⟨m,e,hm,hlow,hhigh,rfl⟩ := h
  exact ⟨-m,e,by rwa [abs_neg],hlow,hhigh,by push_cast; ring⟩

theorem positive_injective {q' : ℚ} (h : Representable q) (hpos : 0 < q) (h' : Representable q')
    (hpos' : 0 < q') (heq : positive q = positive q') : q = q' := by
  rw [← nearest_read_positive h hpos,heq,nearest_read_positive h' hpos']

/-- Zero, a negative and a positive number are told apart by the first character and by the
value that is read. -/
theorem text_cases (x : Double) : (x.val = 0 ∧ text x = ['0']) ∨
    (x.val < 0 ∧ text x = '-' :: positive (-x.val)) ∨
    (0 < x.val ∧ text x = positive x.val ∧ text x ≠ ['0'] ∧ ∀ t, text x ≠ '-' :: t) := by
  rcases lt_trichotomy x.val 0 with hneg | hzero | hpos
  · exact Or.inr (Or.inl ⟨hneg,by rw [text,if_neg hneg.ne,if_pos hneg]⟩)
  · exact Or.inl ⟨hzero,by rw [text,if_pos hzero]⟩
  · have htext : text x = positive x.val := by
      rw [text,if_neg hpos.ne',if_neg hpos.not_gt]
    refine Or.inr (Or.inr ⟨hpos,htext,fun heq => ?_,fun t heq => ?_⟩)
    · have hvalue := nearest_read_positive x.representable hpos
      have hzero : read ['0'] = 0 := by
        rw [read_digits (List.forall_mem_singleton.2 rfl)]
        rfl
      rw [← htext,heq,hzero,nearest_zero] at hvalue
      exact hpos.ne hvalue
    · obtain ⟨⟨c,hc,hdigit⟩,-⟩ := positive_chars x.representable hpos
      rw [← htext,heq] at hc
      obtain rfl : '-' = c := Option.some.inj hc
      exact absurd hdigit (by decide)

/-- Numbers of one text are equal. -/
theorem text_injective (h : text x = text y) : x = y := by
  apply Double.ext
  rcases text_cases x with ⟨hx,htx⟩ | ⟨hx,htx⟩ | ⟨hx,htx,hzx,hnx⟩ <;>
    rcases text_cases y with ⟨hy,hty⟩ | ⟨hy,hty⟩ | ⟨hy,hty,hzy,hny⟩
  · rw [hx,hy]
  · rw [htx,hty] at h
    cases h
  · exact absurd (h.symm.trans htx) hzy
  · rw [htx,hty] at h
    cases h
  · rw [htx,hty] at h
    have heq := positive_injective (representable_neg x.representable) (neg_pos.2 hx)
      (representable_neg y.representable) (neg_pos.2 hy) (List.cons.inj h).2
    exact neg_injective heq
  · exact absurd (h.symm.trans htx) (hny _)
  · exact absurd (h.trans hty) hzx
  · exact absurd (h.trans hty) (hnx _)
  · rw [htx,hty] at h
    exact positive_injective x.representable hx y.representable hy h

/-- A number starts with a digit or a minus sign. -/
theorem text_chars (x : Double) : (∃ c ∈ (text x).head?, c.isDigit = true ∨ c = '-') ∧
    ∀ c ∈ text x, isNumeric c = true := by
  rcases text_cases x with ⟨-,htext⟩ | ⟨hneg,htext⟩ | ⟨hpos,htext,-,-⟩
  · rw [htext]
    exact ⟨⟨'0',rfl,Or.inl (by decide)⟩,List.forall_mem_singleton.2 (by decide)⟩
  · rw [htext,List.forall_mem_cons]
    exact ⟨⟨'-',rfl,Or.inr rfl⟩,by decide,
      (positive_chars (representable_neg x.representable) (neg_pos.2 hneg)).2⟩
  · obtain ⟨⟨c,hc,hdigit⟩,hall⟩ := positive_chars x.representable hpos
    rw [htext]
    exact ⟨⟨c,hc,Or.inl hdigit⟩,hall⟩

end Text

end NumberText
end BpsProtocol
