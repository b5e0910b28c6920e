import Mathlib.Algebra.BigOperators.Group.List.Basic
import Mathlib.Algebra.Order.Group.Int.Sum
import Mathlib.Tactic.Linarith
import Mathlib.Tactic.Ring

/-! A pool shared out in proportion to weights, every share rounded down.
The total may be any positive number; what is left over is less than the number of shares as
soon as the weights reach it, and nothing is missing while they do not exceed it. -/
namespace BpsProtocol
namespace FloorShares

/-- The share of one weight. -/
def share (pool total weight : ℤ) : ℤ := pool*weight/total

variable {pool total : ℤ}

theorem share_mul_le (pool : ℤ) (htotal : 0 < total) (w : ℤ) : share pool total w*total ≤ pool*w :=
  Int.ediv_mul_le _ htotal.ne'

theorem lt_share_succ_mul (pool : ℤ) (htotal : 0 < total) (w : ℤ) :
    pool*w < (share pool total w+1)*total := by
  exact Int.lt_ediv_add_one_mul_self _ htotal

theorem share_nonneg (hpool : 0 ≤ pool) (htotal : 0 < total) {w : ℤ} (hw : 0 ≤ w) :
    0 ≤ share pool total w :=
  Int.ediv_nonneg (mul_nonneg hpool hw) htotal.le

/-- A larger weight never has the smaller share. -/
theorem share_mono (hpool : 0 ≤ pool) (htotal : 0 < total) {w w' : ℤ} (h : w ≤ w') :
    share pool total w ≤ share pool total w' :=
  Int.ediv_le_ediv htotal (mul_le_mul_of_nonneg_left h hpool)

theorem sum_shares_mul_le (pool : ℤ) (htotal : 0 < total) (ws : List ℤ) :
    (ws.map (share pool total)).sum*total ≤ pool*ws.sum := by
  induction ws with
  | nil => simp
  | cons w ws ih =>
    have hw := share_mul_le pool htotal w
    simp only [List.map_cons,List.sum_cons,add_mul,mul_add]
    omega

theorem mul_sum_le_sum_shares_mul (pool : ℤ) (htotal : 0 < total) (ws : List ℤ) :
    pool*ws.sum+ws.length ≤ ((ws.map (share pool total)).sum+ws.length)*total := by
  induction ws with
  | nil => simp
  | cons w ws ih =>
    have hw := lt_share_succ_mul pool htotal w
    simp only [List.map_cons,List.sum_cons,List.length_cons,Nat.cast_add,Nat.cast_one,add_mul,
      mul_add,one_mul] at ih hw ⊢
    omega

theorem sum_shares_le (hpool : 0 ≤ pool) (htotal : 0 < total) {ws : List ℤ}
    (hle : ws.sum ≤ total) : (ws.map (share pool total)).sum ≤ pool := by
  have h := sum_shares_mul_le pool htotal ws
  have hpool' : pool*ws.sum ≤ pool*total := mul_le_mul_of_nonneg_left hle hpool
  exact le_of_mul_le_mul_right (h.trans hpool') htotal

/-- The rounding loses less than one unit a share. -/
theorem pool_lt_sum_shares (hpool : 0 ≤ pool) (htotal : 0 < total) {ws : List ℤ}
    (hle : total ≤ ws.sum) : pool < (ws.map (share pool total)).sum+ws.length := by
  have h := mul_sum_le_sum_shares_mul pool htotal ws
  have hpool' : pool*total ≤ pool*ws.sum := mul_le_mul_of_nonneg_left hle hpool
  have hlength : 0 < (ws.length : ℤ) := by
    cases ws with
    | nil =>
      rw [List.sum_nil] at hle
      omega
    | cons w ws => simp
  exact lt_of_mul_lt_mul_right (by omega) htotal.le

/-- Something is shared out exactly where one weight alone is due a unit. -/
theorem sum_shares_pos_iff (hpool : 0 ≤ pool) (htotal : 0 < total) {ws : List ℤ}
    (hws : ∀ w ∈ ws, 0 ≤ w) :
    0 < (ws.map (share pool total)).sum ↔ ∃ w ∈ ws, total ≤ pool*w := by
  induction ws with
  | nil => simp
  | cons w ws ih =>
    rw [List.forall_mem_cons] at hws
    have hunit : 1 ≤ share pool total w ↔ total ≤ pool*w := by
      rw [share,Int.le_ediv_iff_mul_le htotal,one_mul]
    have hw := share_nonneg hpool htotal hws.1
    have hrest : 0 ≤ (ws.map (share pool total)).sum := List.sum_nonneg fun n hn => by
      obtain ⟨v,hv,rfl⟩ := List.mem_map.1 hn
      exact share_nonneg hpool htotal (hws.2 v hv)
    rw [List.map_cons,List.sum_cons,List.exists_mem_cons_iff,← ih hws.2,← hunit]
    omega

theorem share_one : share 1 total = fun x => x/total := by
  funext x
  rw [share,one_mul]

/-- The floors of some parts add up to no more than the floor of the whole. -/
theorem sum_floors_le (htotal : 0 < total) (xs : List ℤ) :
    (xs.map (fun x => x/total)).sum ≤ xs.sum/total := by
  have h := sum_shares_mul_le 1 htotal xs
  simp only [share_one,one_mul] at h
  exact Int.le_ediv_of_mul_le htotal h

/-- They miss less than one unit for each further part. -/
theorem floor_sum_le (htotal : 0 < total) (x : ℤ) (xs : List ℤ) :
    (x::xs).sum/total ≤ ((x::xs).map (fun x => x/total)).sum+xs.length := by
  have h := mul_sum_le_sum_shares_mul 1 htotal (x::xs)
  simp only [share_one,one_mul,List.length_cons] at h
  have hlt := Int.ediv_lt_of_lt_mul htotal (lt_of_lt_of_le (Int.lt_add_of_pos_right _
    (Int.natCast_pos.2 (Nat.succ_pos xs.length))) h)
  push_cast at hlt
  omega

end FloorShares
end BpsProtocol
