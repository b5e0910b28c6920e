import Mathlib.Algebra.Order.Ring.Int
import Mathlib.Tactic.Linarith
import Mathlib.Tactic.Ring

/-! Amounts valued at an integer price, floored to a unit, under a cap.  A second amount
passes the cap at every price at which the first one does exactly when its excess, valued at
the highest such price, fits into what the floor leaves over. -/
namespace BpsProtocol
namespace FloorCap

/-- The value of an amount, in whole units, as a division that truncates. -/
def value (unit amount : ℕ) (price : ℤ) : ℤ := Int.tdiv (amount*price) unit

/-- A value of `bound` raw units is the first above the cap. -/
def bound (unit cap : ℕ) : ℕ := (cap+1)*unit

theorem value_le_iff {unit cap amount : ℕ} {price : ℤ} (hunit : 0 < unit) :
    value unit amount price ≤ cap ↔ amount*price < (bound unit cap : ℤ) := by
  have hu : (0 : ℤ) < unit := by exact_mod_cast hunit
  have hb : ((bound unit cap : ℕ) : ℤ) = (cap+1)*unit := by
    unfold bound
    push_cast
    ring
  unfold value
  rw [hb]
  cases le_total 0 (amount*price : ℤ) with
  | inl hpos =>
    rw [Int.tdiv_eq_ediv_of_nonneg hpos,← Int.lt_add_one_iff]
    exact Int.ediv_lt_iff_lt_mul hu
  | inr hneg =>
    have hneg' : 0 ≤ Int.tdiv (-(amount*price)) unit := Int.tdiv_nonneg (by linarith) hu.le
    rw [Int.neg_tdiv] at hneg'
    constructor
    · intro
      nlinarith
    · intro
      linarith [Int.natCast_nonneg cap]

/-- Every price that keeps `declared` below the bound keeps `owed` below it. -/
def Admits (bound declared owed : ℕ) : Prop :=
  ∀ price : ℤ, declared*price < (bound : ℤ) → owed*price < (bound : ℤ)

/-- The excess of `owed`, at the highest price that `declared` passes, stays in the remainder. -/
def Slack (bound declared owed : ℕ) : Prop :=
  (declared = 0 → owed = 0) ∧ (owed-declared)*((bound-1)/declared) ≤ (bound-1)%declared

instance (bound declared owed : ℕ) : Decidable (Slack bound declared owed) := instDecidableAnd

theorem Slack.of_le {b declared owed : ℕ} (h : owed ≤ declared) : Slack b declared owed := by
  refine ⟨fun hzero => by omega,?_⟩
  rw [Nat.sub_eq_zero_of_le h,Nat.zero_mul]
  exact Nat.zero_le _

section
variable {b declared owed : ℕ}

theorem Admits.eq_zero (h : Admits b declared owed) (hzero : declared = 0) (hb : 0 < b) :
    owed = 0 := by
  have hlt : (owed : ℤ)*b < b := h b (by rw [hzero]; simpa using hb)
  have hlt' : owed*b < 1*b := by rw [Nat.one_mul]; exact_mod_cast hlt
  exact Nat.lt_one_iff.mp (Nat.lt_of_mul_lt_mul_right hlt')

/-- The highest price that `declared` passes. -/
theorem mul_highest_lt (declared : ℕ) (hb : 0 < b) : declared*((b-1)/declared) < b := by
  have h := Nat.mul_div_le (b-1) declared
  omega

theorem Admits.slack (h : Admits b declared owed) (hb : 0 < b) : Slack b declared owed := by
  refine ⟨fun hzero => h.eq_zero hzero hb,?_⟩
  have hpass := mul_highest_lt declared hb
  have howed : owed*((b-1)/declared) < b := by
    exact_mod_cast h ((b-1)/declared : ℕ) (by exact_mod_cast hpass)
  have hsplit := Nat.div_add_mod (b-1) declared
  rw [Nat.sub_mul]
  omega

theorem Slack.mul_highest_lt (h : Slack b declared owed) (hb : 0 < b) :
    owed*((b-1)/declared) < b := by
  have hsplit := Nat.div_add_mod (b-1) declared
  have hexcess := h.2
  rw [Nat.sub_mul] at hexcess
  omega

theorem Slack.admits (h : Slack b declared owed) (hb : 0 < b) : Admits b declared owed := by
  intro price hprice
  cases le_total price 0 with
  | inl hneg =>
    have hb' : (0 : ℤ) < b := by exact_mod_cast hb
    nlinarith [Int.natCast_nonneg owed]
  | inr hpos =>
    obtain ⟨n,rfl⟩ := Int.eq_ofNat_of_zero_le hpos
    have hn : declared*n < b := by exact_mod_cast hprice
    have goal : owed*n < b := by
      by_cases hzero : declared = 0
      · rw [h.1 hzero,Nat.zero_mul]
        exact hb
      · have hle : n ≤ (b-1)/declared := by
          rw [Nat.le_div_iff_mul_le (Nat.pos_of_ne_zero hzero),Nat.mul_comm]
          omega
        calc
          owed*n ≤ owed*((b-1)/declared) := Nat.mul_le_mul_left owed hle
          _ < b := h.mul_highest_lt hb
    exact_mod_cast goal

theorem admits_iff_slack (hb : 0 < b) : Admits b declared owed ↔ Slack b declared owed :=
  ⟨fun h => h.slack hb,fun h => h.admits hb⟩

end

end FloorCap
end BpsProtocol
