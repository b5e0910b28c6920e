import Mathlib.Algebra.Order.Round
import Mathlib.Data.Int.Log
import Mathlib.Data.Rat.Floor
import Mathlib.Tactic.FieldSimp
import Mathlib.Tactic.Linarith
import Mathlib.Tactic.NormNum
import Mathlib.Tactic.Positivity

/-! Numbers in double precision.
A finite double is an integer of 53 bits times a power of two, as a rational number; the two
zeros, which compare equal, are one.  Rounding goes to the nearest double and to the even one
of two. -/
namespace BpsProtocol
namespace Binary64

/-- The finite doubles. -/
def Representable (q : ℚ) : Prop :=
  ∃ m e : ℤ, |m| < 2^53 ∧ -1074 ≤ e ∧ e ≤ 971 ∧ q = m*(2 : ℚ)^e

/-- The nearest integer, of two the even one. -/
def roundHalfEven (q : ℚ) : ℤ :=
  if q-⌊q⌋ < 1/2 then ⌊q⌋
  else if 1/2 < q-⌊q⌋ then ⌊q⌋+1
  else if ⌊q⌋%2 = 0 then ⌊q⌋ else ⌊q⌋+1

/-- The exponent of the last bit that is kept. -/
def lastBit (q : ℚ) : ℤ := max (Int.log 2 |q|-52) (-1074)

/-- The nearest double, where the exponent has no upper end. -/
def nearest (q : ℚ) : ℚ := roundHalfEven (q/(2 : ℚ)^lastBit q)*(2 : ℚ)^lastBit q

section Rounding

variable {q : ℚ} {m n : ℤ}

theorem roundHalfEven_intCast (n : ℤ) : roundHalfEven n = n := by
  simp [roundHalfEven]

theorem roundHalfEven_cases (q : ℚ) : roundHalfEven q = ⌊q⌋ ∨ roundHalfEven q = ⌊q⌋+1 ∧ (⌊q⌋ : ℚ) < q := by
  unfold roundHalfEven
  split_ifs with hlow hhigh heven
  · exact Or.inl rfl
  · exact Or.inr ⟨rfl,by linarith⟩
  · exact Or.inl rfl
  · exact Or.inr ⟨rfl,by linarith⟩

/-- Rounding does not pass an integer. -/
theorem le_roundHalfEven (h : (n : ℚ) ≤ q) : n ≤ roundHalfEven q := by
  have hfloor : n ≤ ⌊q⌋ := Int.le_floor.2 h
  rcases roundHalfEven_cases q with heq | ⟨heq,-⟩ <;> omega

theorem roundHalfEven_le (h : q ≤ n) : roundHalfEven q ≤ n := by
  have hfloor : ⌊q⌋ ≤ n := by exact_mod_cast (Int.floor_le q).trans h
  rcases roundHalfEven_cases q with heq | ⟨heq,hlt⟩
  · omega
  · have hstrict : ⌊q⌋ < n := by exact_mod_cast hlt.trans_le h
    omega

theorem abs_roundHalfEven_le (h : |q| ≤ n) : |roundHalfEven q| ≤ n := by
  obtain ⟨hlow,hhigh⟩ := abs_le.1 h
  exact abs_le.2 ⟨le_roundHalfEven (by simpa using hlow),roundHalfEven_le hhigh⟩

theorem le_abs_roundHalfEven (h : (n : ℚ) ≤ |q|) : n ≤ |roundHalfEven q| := by
  rcases le_abs.1 h with hle | hle
  · exact (le_roundHalfEven hle).trans (le_abs_self _)
  · have hneg : roundHalfEven q ≤ -n := roundHalfEven_le (by push_cast; linarith)
    exact (le_neg_of_le_neg hneg).trans (neg_le_abs _)

end Rounding

section Nearest

variable {q : ℚ} {n : ℤ}

theorem two_zpow_pos (e : ℤ) : (0 : ℚ) < 2^e := zpow_pos two_pos e

@[simp] theorem nearest_zero : nearest 0 = 0 := by
  have hzero : roundHalfEven 0 = 0 := by simpa using roundHalfEven_intCast 0
  simp [nearest,hzero]

/-- A whole number of last bits is not rounded. -/
theorem nearest_of_multiple (h : q/(2 : ℚ)^lastBit q = n) : nearest q = q := by
  rw [nearest,h,roundHalfEven_intCast,← h,div_mul_cancel₀ _ (two_zpow_pos _).ne']

/-- A double is its own nearest double. -/
theorem nearest_of_representable (h : Representable q) : nearest q = q := by
  obtain ⟨m,e,hm,he,-,rfl⟩ := h
  by_cases hzero : m = 0
  · subst hzero
    simp
  have hpos : 0 < |(m : ℚ)*2^e| := abs_pos.2 (mul_ne_zero (Int.cast_ne_zero.2 hzero)
    (two_zpow_pos e).ne')
  have habs : |(m : ℚ)*2^e| < ((2 : ℕ) : ℚ)^(53+e) := by
    rw [abs_mul,abs_of_pos (two_zpow_pos e),Nat.cast_ofNat,zpow_add₀ two_ne_zero]
    have hlt : |(m : ℚ)| < 2^(53 : ℤ) := by
      have hcast : ((|m| : ℤ) : ℚ) < ((2^53 : ℤ) : ℚ) := Int.cast_lt.2 hm
      rw [Int.cast_abs] at hcast
      exact hcast.trans_eq (by norm_num)
    exact mul_lt_mul_of_pos_right hlt (two_zpow_pos e)
  have hlog : Int.log 2 |(m : ℚ)*2^e| < 53+e := (Int.lt_zpow_iff_log_lt (by decide) hpos).1 habs
  have hlast : lastBit ((m : ℚ)*2^e) ≤ e := max_le (by omega) he
  obtain ⟨k,hk⟩ := Int.le.dest hlast
  apply nearest_of_multiple (n := m*2^k)
  rw [div_eq_iff (two_zpow_pos _).ne',Int.cast_mul,mul_assoc]
  congr 1
  push_cast
  rw [← zpow_natCast,← zpow_add₀ two_ne_zero]
  congr 1
  omega

/-- Integers of 53 bits are doubles. -/
theorem representable_intCast (h : |n| ≤ 2^53) : Representable n := by
  rcases h.lt_or_eq with hlt | heq
  · exact ⟨n,0,hlt,by decide,by decide,by simp⟩
  · rcases abs_eq (by decide : (0 : ℤ) ≤ 2^53) |>.1 heq with rfl | rfl
    · exact ⟨2^52,1,by decide,by decide,by decide,by norm_num⟩
    · exact ⟨-2^52,1,by decide,by decide,by decide,by norm_num⟩

/-- The last bit is the 53rd of the number, or that of the least doubles. -/
theorem div_lastBit_bounds (h : q ≠ 0) : |q/(2 : ℚ)^lastBit q| ≤ (2^53 : ℤ) ∧
    (-1074 < lastBit q → ((2^52 : ℤ) : ℚ) ≤ |q/(2 : ℚ)^lastBit q|) := by
  have hpos : 0 < |q| := abs_pos.2 h
  have hlow : (2 : ℚ)^Int.log 2 |q| ≤ |q| := by
    simpa using Int.zpow_log_le_self (R:=ℚ) (b:=2) (by decide) hpos
  have hhigh : |q| < (2 : ℚ)^(Int.log 2 |q|+1) := by
    simpa using Int.lt_zpow_succ_log_self (R:=ℚ) (b:=2) (by decide) |q|
  rw [abs_div,abs_of_pos (two_zpow_pos _)]
  constructor
  · rw [div_le_iff₀ (two_zpow_pos _)]
    have hlast : Int.log 2 |q|+1 ≤ 53+lastBit q := by
      have := le_max_left (Int.log 2 |q|-52) (-1074)
      unfold lastBit
      omega
    calc |q| ≤ (2 : ℚ)^(Int.log 2 |q|+1) := hhigh.le
      _ ≤ (2 : ℚ)^(53+lastBit q) := zpow_le_zpow_right₀ one_le_two hlast
      _ = ((2^53 : ℤ) : ℚ)*(2 : ℚ)^lastBit q := by
        rw [zpow_add₀ two_ne_zero]
        norm_num
  · intro hnormal
    rw [le_div_iff₀ (two_zpow_pos _)]
    have hlast : lastBit q = Int.log 2 |q|-52 := by
      unfold lastBit at hnormal ⊢
      omega
    calc ((2^52 : ℤ) : ℚ)*(2 : ℚ)^lastBit q = (2 : ℚ)^Int.log 2 |q| := by
          rw [hlast,zpow_sub₀ two_ne_zero]
          field_simp
          norm_num
      _ ≤ |q| := hlow

/-- What rounding gives is a double, unless it is too large. -/
theorem representable_nearest (h : |nearest q| < 2^1024) : Representable (nearest q) := by
  by_cases hzero : q = 0
  · subst hzero
    rw [nearest_zero]
    exact ⟨0,0,by decide,by decide,by decide,by simp⟩
  obtain ⟨hhigh,hlow⟩ := div_lastBit_bounds hzero
  have hmost := abs_roundHalfEven_le hhigh
  have habs : |nearest q| = (|roundHalfEven (q/(2 : ℚ)^lastBit q)| : ℤ)*(2 : ℚ)^lastBit q := by
    rw [nearest,abs_mul,abs_of_pos (two_zpow_pos _),Int.cast_abs]
  have hlast : -1074 ≤ lastBit q := le_max_right _ _
  -- a larger last bit makes the number too large
  have hbound : ∀ n : ℤ, ((2 : ℤ)^n.toNat ≤ |roundHalfEven (q/(2 : ℚ)^lastBit q)|) → 0 ≤ n →
      lastBit q < 1024-n := by
    intro n hn hn0
    by_contra hge
    have hcast : (2 : ℚ)^n ≤ (|roundHalfEven (q/(2 : ℚ)^lastBit q)| : ℤ) := by
      have hcast : (((2 : ℤ)^n.toNat : ℤ) : ℚ) ≤ _ := Int.cast_le.2 hn
      rw [Int.cast_pow,Int.cast_ofNat,← zpow_natCast,Int.toNat_of_nonneg hn0] at hcast
      exact hcast
    have hlarge : (2 : ℚ)^1024 ≤ |nearest q| := by
      calc (2 : ℚ)^1024 = (2 : ℚ)^(1024 : ℤ) := (zpow_natCast _ 1024).symm
        _ ≤ (2 : ℚ)^(n+lastBit q) := zpow_le_zpow_right₀ one_le_two (by omega)
        _ = (2 : ℚ)^n*(2 : ℚ)^lastBit q := zpow_add₀ two_ne_zero _ _
        _ ≤ |nearest q| := by
          rw [habs]
          exact mul_le_mul_of_nonneg_right hcast (two_zpow_pos _).le
    exact absurd h (not_lt.2 hlarge)
  rcases hmost.lt_or_eq with hlt | heq
  · refine ⟨_,lastBit q,hlt,hlast,?_,rfl⟩
    by_cases hnormal : -1074 < lastBit q
    · have := hbound 52 (le_abs_roundHalfEven (hlow hnormal)) (by decide)
      omega
    · omega
  · have hexponent := hbound 53 heq.ge (by decide)
    rcases abs_eq (by decide : (0 : ℤ) ≤ 2^53) |>.1 heq with hround | hround
    · refine ⟨2^52,lastBit q+1,by decide,by omega,by omega,?_⟩
      rw [nearest,hround,zpow_add₀ two_ne_zero]
      push_cast
      ring
    · refine ⟨-2^52,lastBit q+1,by decide,by omega,by omega,?_⟩
      rw [nearest,hround,zpow_add₀ two_ne_zero]
      push_cast
      ring

/-- Rounding does not pass `2^53` from above. -/
theorem le_nearest (h : (2 : ℚ)^53 ≤ q) : (2 : ℚ)^53 ≤ nearest q := by
  have hpos : 0 < q := (by norm_num : (0 : ℚ) < 2^53).trans_le h
  have hlog : 53 ≤ Int.log 2 |q| := by
    rw [abs_of_pos hpos]
    refine (Int.zpow_le_iff_le_log (by decide) hpos).1 ?_
    exact_mod_cast h
  have hlast : 1 ≤ lastBit q := by
    unfold lastBit
    omega
  have hround : (2^52 : ℤ) ≤ roundHalfEven (q/(2 : ℚ)^lastBit q) := by
    apply le_roundHalfEven
    have hlow := (div_lastBit_bounds hpos.ne').2 (by omega)
    rwa [abs_of_pos (div_pos hpos (two_zpow_pos _))] at hlow
  have hcast : ((2 : ℚ)^52) ≤ roundHalfEven (q/(2 : ℚ)^lastBit q) := by
    exact_mod_cast hround
  calc (2 : ℚ)^53 = 2^52*2^(1 : ℤ) := by norm_num
    _ ≤ 2^52*2^lastBit q :=
      mul_le_mul_of_nonneg_left (zpow_le_zpow_right₀ one_le_two hlast) (by positivity)
    _ ≤ nearest q := mul_le_mul_of_nonneg_right hcast (two_zpow_pos _).le

end Nearest

/-- A finite double. -/
structure Double where
  val : ℚ
  representable : Representable val

namespace Double

theorem ext {x y : Double} (h : x.val = y.val) : x = y := by
  cases x
  cases y
  congr

instance : DecidableEq Double := fun x y =>
  decidable_of_iff (x.val = y.val) ⟨ext,congrArg val⟩

/-- An integer of 53 bits. -/
def ofInt (n : ℤ) (h : |n| ≤ 2^53) : Double := ⟨n,representable_intCast h⟩

theorem one_exact : |(1 : ℤ)| ≤ 2^53 := by decide

end Double

/-- What a variable of type number holds. -/
inductive Number
  | nan
  | infinite (negative : Bool)
  | finite (x : Double)
  deriving DecidableEq

namespace Number

/-- The number nearest to a result. -/
def ofRat (q : ℚ) : Number :=
  if h : |nearest q| < 2^1024 then .finite ⟨nearest q,representable_nearest h⟩
  else .infinite (q < 0)

/-- `a === b` -/
def strictEq : Number → Number → Bool
  | .nan, _ => false
  | a, b => a = b

/-- `Number.isInteger` -/
def isInteger : Number → Bool
  | .finite x => x.val.den = 1
  | _ => false

/-- `a <= b` -/
def le : Number → Number → Bool
  | .nan, _ => false
  | _, .nan => false
  | .finite x, .finite y => x.val ≤ y.val
  | .infinite negative, .finite _ => negative
  | .finite _, .infinite negative => !negative
  | .infinite negative, .infinite negative' => negative || !negative'

/-- `a < b` -/
def lt (a b : Number) : Bool := le a b && !le b a

/-- `a - b` -/
def sub : Number → Number → Number
  | .finite x, .finite y => ofRat (x.val-y.val)
  | .infinite negative, .finite _ => .infinite negative
  | .finite _, .infinite negative => .infinite (!negative)
  | .infinite negative, .infinite negative' =>
    if negative = negative' then .nan else .infinite negative
  | _, _ => .nan

/-- The number is a whole one, exactly. -/
def Is (a : Number) (n : ℤ) : Prop := ∃ x : Double, a = .finite x ∧ x.val = n

theorem ofRat_representable {q : ℚ} (h : Representable q) (hlt : |q| < 2^1024) :
    ofRat q = .finite ⟨q,h⟩ := by
  have hself := nearest_of_representable h
  rw [ofRat,dif_pos (by rwa [hself])]
  congr

/-- Integers of 53 bits are not rounded. -/
theorem ofRat_intCast {n : ℤ} (h : |n| ≤ 2^53) : ofRat n = .finite (.ofInt n h) := by
  apply ofRat_representable
  have hcast : ((|n| : ℤ) : ℚ) ≤ ((2^53 : ℤ) : ℚ) := Int.cast_le.2 h
  rw [Int.cast_abs,Int.cast_pow,Int.cast_ofNat] at hcast
  exact hcast.trans_lt (pow_lt_pow_right₀ one_lt_two (by decide))

theorem is_ofRat {q : ℚ} {n : ℤ} (hq : q = n) (h : |n| ≤ 2^53) : (ofRat q).Is n :=
  ⟨.ofInt n h,hq ▸ ofRat_intCast h,rfl⟩

/-- A number that is rounded to a whole one. -/
theorem is_ofRat_of_nearest {q : ℚ} {n : ℤ} (hq : nearest q = n) (h : |(n : ℚ)| < 2^1024) :
    (ofRat q).Is n := by
  refine ⟨⟨nearest q,representable_nearest (by rwa [hq])⟩,?_,hq⟩
  rw [ofRat,dif_pos (by rwa [hq])]

namespace Is

variable {a b : Number} {m n : ℤ}

theorem isInteger (ha : a.Is m) : a.isInteger = true := by
  obtain ⟨x,rfl,hx⟩ := ha
  rw [Number.isInteger,hx]
  exact decide_eq_true (Rat.den_intCast m)

/-- Whole numbers are compared as integers. -/
theorem lt (ha : a.Is m) (hb : b.Is n) : a.lt b = decide (m < n) := by
  obtain ⟨x,rfl,hx⟩ := ha
  obtain ⟨y,rfl,hy⟩ := hb
  simp only [Number.lt,le,hx,hy,Int.cast_le]
  by_cases h : m < n
  · simp [h,h.le]
  · simp [h,not_lt.1 h]

theorem strictEq (ha : a.Is m) : a.strictEq a = true := by
  obtain ⟨x,rfl,-⟩ := ha
  simp [Number.strictEq]

end Is

end Number

end Binary64
end BpsProtocol
