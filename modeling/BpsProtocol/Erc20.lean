import BpsProtocol.Lib.Checked
import BpsProtocol.Lib.Mapping
import Mathlib.Tactic

/-! The standard exact-transfer ERC-20 the contracts hold and move.
A token carries its own accounting: the balances sum to the supply and the supply
fits a word, so the unchecked additions of the implementation cannot wrap.  The
`Transfer` events are kept, newest first, because they say who paid whom. -/
namespace BpsProtocol

open Checked Mapping

/-- A 160-bit account address; `0` is `address(0)`. -/
abbrev Address := Fin (2^160)

instance neZero_address : NeZero (2^160) := ⟨by norm_num⟩

instance lawfulBEq_address : LawfulBEq Address := inferInstance

namespace Erc20

structure Transfer where
  source : Address
  target : Address
  value : ℕ
  deriving DecidableEq

inductive Error
  | invalidSender (sender : Address)
  | invalidReceiver (receiver : Address)
  | insufficientBalance (sender : Address) (balance needed : ℕ)
  | insufficientAllowance (spender : Address) (allowance needed : ℕ)
  | invalidApprover (approver : Address)
  | invalidSpender (spender : Address)
  | panic
  deriving DecidableEq

structure Token where
  balanceOf : Address → ℕ
  allowance : Address → Address → ℕ
  totalSupply : ℕ
  transfers : List Transfer
  sum_balances : ∑ a, balanceOf a = totalSupply
  supply_lt : totalSupply < wordBound

namespace Token

/-- `type(uint256).max`, the allowance that is never spent. -/
def infinite : ℕ := wordBound-1

/-- The token at deployment, before any mint. -/
def empty : Token where
  balanceOf := fun _ => 0
  allowance := fun _ _ => 0
  totalSupply := 0
  transfers := []
  sum_balances := Finset.sum_const_zero
  supply_lt := by norm_num [wordBound]

theorem balanceOf_le (t : Token) (a : Address) : t.balanceOf a ≤ t.totalSupply :=
  t.sum_balances ▸ le_sum t.balanceOf a

theorem balanceOf_lt (t : Token) (a : Address) : t.balanceOf a < wordBound :=
  (t.balanceOf_le a).trans_lt t.supply_lt

/-- `_update` between two accounts. -/
def move (t : Token) (source target : Address) (value : ℕ) (h : value ≤ t.balanceOf source) :
    Token where
  balanceOf :=
    let debited := set t.balanceOf source (t.balanceOf source-value)
    set debited target (debited target+value)
  allowance := t.allowance
  totalSupply := t.totalSupply
  transfers := ⟨source,target,value⟩::t.transfers
  sum_balances := by
    have hd := sum_set_add t.balanceOf source (t.balanceOf source-value)
    have hc := sum_set_add (set t.balanceOf source (t.balanceOf source-value)) target
      (set t.balanceOf source (t.balanceOf source-value) target+value)
    have hs := t.sum_balances
    dsimp only
    omega
  supply_lt := t.supply_lt

/-- `_update` from the zero address. -/
def minted (t : Token) (account : Address) (value : ℕ) (h : t.totalSupply+value < wordBound) :
    Token where
  balanceOf := set t.balanceOf account (t.balanceOf account+value)
  allowance := t.allowance
  totalSupply := t.totalSupply+value
  transfers := ⟨0,account,value⟩::t.transfers
  sum_balances := by
    have hc := sum_set_add t.balanceOf account (t.balanceOf account+value)
    have hs := t.sum_balances
    omega
  supply_lt := h

/-- `_update` to the zero address. -/
def burned (t : Token) (account : Address) (value : ℕ) (h : value ≤ t.balanceOf account) :
    Token where
  balanceOf := set t.balanceOf account (t.balanceOf account-value)
  allowance := t.allowance
  totalSupply := t.totalSupply-value
  transfers := ⟨account,0,value⟩::t.transfers
  sum_balances := by
    have hd := sum_set_add t.balanceOf account (t.balanceOf account-value)
    have hs := t.sum_balances
    have hb := t.balanceOf_le account
    omega
  supply_lt := (Nat.sub_le _ _).trans_lt t.supply_lt

def transfer (t : Token) (owner target : Address) (value : ℕ) : Except Error Token := do
  revertIf (owner = 0) (.invalidSender owner)
  revertIf (target = 0) (.invalidReceiver target)
  if h : value ≤ t.balanceOf owner then .ok (t.move owner target value h)
  else .error (.insufficientBalance owner (t.balanceOf owner) value)

def approve (t : Token) (owner spender : Address) (value : ℕ) : Except Error Token := do
  revertIf (owner = 0) (.invalidApprover owner)
  revertIf (spender = 0) (.invalidSpender spender)
  return { t with allowance := set₂ t.allowance owner spender value }

def spendAllowance (t : Token) (owner spender : Address) (value : ℕ) : Except Error Token :=
  let current := t.allowance owner spender
  if current < infinite then do
    revertIf (current < value) (.insufficientAllowance spender current value)
    t.approve owner spender (current-value)
  else .ok t

def transferFrom (t : Token) (spender owner target : Address) (value : ℕ) :
    Except Error Token := do
  let t ← t.spendAllowance owner spender value
  t.transfer owner target value

def mint (t : Token) (account : Address) (value : ℕ) : Except Error Token := do
  revertIf (account = 0) (.invalidReceiver account)
  if h : t.totalSupply+value < wordBound then .ok (t.minted account value h) else .error .panic

def burn (t : Token) (account : Address) (value : ℕ) : Except Error Token := do
  revertIf (account = 0) (.invalidSender account)
  if h : value ≤ t.balanceOf account then .ok (t.burned account value h)
  else .error (.insufficientBalance account (t.balanceOf account) value)

/-- The nonzero payments out of an account among some events. -/
def outflowsOf (a : Address) (events : List Transfer) : List (Address × ℕ) :=
  events.filterMap fun x =>
    if x.source = a ∧ 0 < x.value then some (x.target,x.value) else none

/-- The nonzero payments out of an account, newest first. -/
def outflows (t : Token) (a : Address) : List (Address × ℕ) := outflowsOf a t.transfers

/-- What an account paid and was paid so far. -/
def sent (t : Token) (a : Address) : ℕ :=
  (t.transfers.map fun x => if x.source = a then x.value else 0).sum

def received (t : Token) (a : Address) : ℕ :=
  (t.transfers.map fun x => if x.target = a then x.value else 0).sum

/-- What an account paid another one so far. -/
def paidTo (t : Token) (a target : Address) : ℕ :=
  ((t.outflows a).map fun p => if p.1 = target then p.2 else 0).sum

/-- What one successful transfer does, whether or not the two accounts are the same. -/
structure Moved (t t' : Token) (source target : Address) (value : ℕ) : Prop where
  covered : value ≤ t.balanceOf source
  balances : ∀ a, t'.balanceOf a + (if a = source then value else 0) =
    t.balanceOf a + (if a = target then value else 0)
  totalSupply : t'.totalSupply = t.totalSupply
  transfers : t'.transfers = ⟨source,target,value⟩::t.transfers

theorem move_moved (t : Token) (source target : Address) (value : ℕ)
    (h : value ≤ t.balanceOf source) : Moved t (t.move source target value h) source target value where
  covered := h
  balances a := by
    simp only [move,set_apply]
    split_ifs <;> simp_all
  totalSupply := rfl
  transfers := rfl

variable {t t' : Token} {owner spender source target : Address} {value : ℕ}

theorem transfer_ok (h : t.transfer owner target value = .ok t') :
    owner ≠ 0 ∧ target ≠ 0 ∧ t'.allowance = t.allowance ∧ Moved t t' owner target value := by
  simp only [transfer,bind_eq_ok,revertIf_eq_ok,exists_const] at h
  obtain ⟨ho,ht,h⟩ := h
  split at h
  · rename_i hv
    cases h
    exact ⟨ho,ht,rfl,move_moved t owner target value hv⟩
  · cases h

theorem transfer_succeeds (ho : owner ≠ 0) (ht : target ≠ 0) (hv : value ≤ t.balanceOf owner) :
    ∃ t', t.transfer owner target value = .ok t' := by
  simp [transfer,revertIf_of_not,ho,ht,hv]

theorem approve_ok (h : t.approve owner spender value = .ok t') :
    owner ≠ 0 ∧ spender ≠ 0 ∧ t' = { t with allowance := set₂ t.allowance owner spender value } := by
  simp only [approve,bind_eq_ok,revertIf_eq_ok,exists_const,pure_eq_ok] at h
  exact ⟨h.1,h.2.1,h.2.2.symm⟩

theorem approve_succeeds (ho : owner ≠ 0) (hs : spender ≠ 0) :
    t.approve owner spender value =
      .ok { t with allowance := set₂ t.allowance owner spender value } := by
  simp [approve,revertIf_of_not,ho,hs,pure,Except.pure]

/-- Spending an allowance touches no balance, and only that one allowance, downwards. -/
theorem spendAllowance_ok (h : t.spendAllowance owner spender value = .ok t') :
    (value ≤ t.allowance owner spender ∨ infinite ≤ t.allowance owner spender) ∧
    ∃ f, t' = { t with allowance := f } ∧ (∀ o s, f o s ≤ t.allowance o s) ∧
      ∀ o s, o ≠ owner ∨ s ≠ spender → f o s = t.allowance o s := by
  simp only [spendAllowance] at h
  split at h
  · simp only [bind_eq_ok,revertIf_eq_ok,exists_const] at h
    obtain ⟨hv,h⟩ := h
    obtain ⟨-,-,rfl⟩ := approve_ok h
    refine ⟨Or.inl (by omega),_,rfl,fun o s => ?_,fun o s hne => ?_⟩
    · rw [set₂_apply]
      split
      · rename_i hos
        rw [hos.1,hos.2]
        exact Nat.sub_le _ _
      · exact le_rfl
    · rw [set₂_apply,if_neg (by tauto)]
  · cases h
    exact ⟨Or.inr (by omega),_,rfl,fun _ _ => le_rfl,fun _ _ _ => rfl⟩

theorem transferFrom_ok (h : t.transferFrom spender owner target value = .ok t') :
    owner ≠ 0 ∧ target ≠ 0 ∧ value ≤ t.allowance owner spender ∧
    (∀ o s, t'.allowance o s ≤ t.allowance o s) ∧
    (∀ o s, o ≠ owner ∨ s ≠ spender → t'.allowance o s = t.allowance o s) ∧
    Moved t t' owner target value := by
  simp only [transferFrom,bind_eq_ok] at h
  obtain ⟨u,hu,h⟩ := h
  obtain ⟨hv,f,rfl,hle,hother⟩ := spendAllowance_ok hu
  obtain ⟨ho,ht,ha,hm⟩ := transfer_ok h
  have hb := t.balanceOf_lt owner
  have hc : value ≤ t.balanceOf owner := hm.covered
  refine ⟨ho,ht,?_,?_,?_,hm.covered,hm.balances,hm.totalSupply,hm.transfers⟩
  · rcases hv with hv | hv
    · exact hv
    · unfold infinite at hv
      omega
  · rw [ha]; exact hle
  · rw [ha]; exact hother

theorem transferFrom_succeeds (ho : owner ≠ 0) (hs : spender ≠ 0) (ht : target ≠ 0)
    (ha : value ≤ t.allowance owner spender) (hv : value ≤ t.balanceOf owner) :
    ∃ t', t.transferFrom spender owner target value = .ok t' := by
  by_cases hi : t.allowance owner spender < infinite
  · simp only [transferFrom,spendAllowance,if_pos hi,revertIf_of_not (Nat.not_lt.mpr ha),ok_bind,
      approve_succeeds ho hs]
    exact transfer_succeeds ho ht hv
  · simp only [transferFrom,spendAllowance,if_neg hi,ok_bind]
    exact transfer_succeeds ho ht hv

theorem mint_ok (h : t.mint target value = .ok t') :
    target ≠ 0 ∧ t'.allowance = t.allowance ∧ t'.totalSupply = t.totalSupply+value ∧
    (∀ a, t'.balanceOf a = t.balanceOf a + (if a = target then value else 0)) ∧
    t'.transfers = ⟨0,target,value⟩::t.transfers := by
  simp only [mint,bind_eq_ok,revertIf_eq_ok,exists_const] at h
  obtain ⟨ht,h⟩ := h
  split at h
  · cases h
    refine ⟨ht,rfl,rfl,fun a => ?_,rfl⟩
    simp only [minted,set_apply]
    split <;> simp_all
  · cases h

theorem burn_ok (h : t.burn owner value = .ok t') :
    owner ≠ 0 ∧ value ≤ t.balanceOf owner ∧ t'.allowance = t.allowance ∧
    t'.totalSupply + value = t.totalSupply ∧
    (∀ a, t'.balanceOf a + (if a = owner then value else 0) = t.balanceOf a) ∧
    t'.transfers = ⟨owner,0,value⟩::t.transfers := by
  simp only [burn,bind_eq_ok,revertIf_eq_ok,exists_const] at h
  obtain ⟨ho,h⟩ := h
  split at h
  · rename_i hv
    cases h
    have hb := t.balanceOf_le owner
    refine ⟨ho,hv,rfl,by simp only [burned]; omega,fun a => ?_,rfl⟩
    simp only [burned,set_apply]
    split
    · subst_vars; omega
    · omega
  · cases h

theorem outflowsOf_cons (a : Address) (x : Transfer) (events : List Transfer) :
    outflowsOf a (x::events) =
      if x.source = a ∧ 0 < x.value then (x.target,x.value)::outflowsOf a events
      else outflowsOf a events := by
  unfold outflowsOf
  rw [List.filterMap_cons]
  split_ifs <;> rfl

theorem sent_eq_sum_outflows (t : Token) (a : Address) :
    t.sent a = ((t.outflows a).map Prod.snd).sum := by
  unfold sent outflows
  induction t.transfers with
  | nil => rfl
  | cons x events ih =>
    rw [outflowsOf_cons,List.map_cons,List.sum_cons,ih]
    by_cases hs : x.source = a
    · by_cases hv : 0 < x.value
      · simp [hs,hv]
      · simp [hs,Nat.eq_zero_of_not_pos hv]
    · simp [hs]

/-- Below the infinite allowance, what is spent is taken off. -/
theorem spendAllowance_spent (hlt : t.allowance owner spender < infinite)
    (h : t.spendAllowance owner spender value = .ok t') :
    t'.allowance owner spender+value = t.allowance owner spender := by
  simp only [spendAllowance,if_pos hlt,bind_eq_ok,revertIf_eq_ok,exists_const] at h
  obtain ⟨hv,h⟩ := h
  obtain ⟨-,-,rfl⟩ := approve_ok h
  show set₂ t.allowance owner spender (t.allowance owner spender-value) owner spender+value = _
  rw [set₂_apply,if_pos ⟨rfl,rfl⟩]
  omega

/-- An account that approved nobody; nobody else can debit it. -/
def Closed (t : Token) (a : Address) : Prop := ∀ s, t.allowance a s = 0

namespace Moved

variable (hm : Moved t t' source target value)
include hm

theorem outflows_other {a : Address} (ha : a ≠ source ∨ value = 0) :
    t'.outflows a = t.outflows a := by
  unfold outflows
  rw [hm.transfers,outflowsOf_cons,if_neg]
  rintro ⟨hs,hv⟩
  rcases ha with ha | ha
  · exact ha hs.symm
  · exact absurd ha (by simpa using hv.ne')

theorem outflows_source (hv : 0 < value) :
    t'.outflows source = (target,value)::t.outflows source := by
  unfold outflows
  rw [hm.transfers,outflowsOf_cons,if_pos ⟨rfl,hv⟩]

theorem paidTo_eq (a b : Address) :
    t'.paidTo a b = t.paidTo a b + (if a = source ∧ b = target then value else 0) := by
  by_cases ha : a = source ∧ 0 < value
  · obtain ⟨rfl,hv⟩ := ha
    simp only [paidTo,hm.outflows_source hv,List.map_cons,List.sum_cons,true_and,
      eq_comm (a := target)]
    exact Nat.add_comm _ _
  · have hother : a ≠ source ∨ value = 0 := by
      by_cases hs : a = source
      · exact Or.inr (Nat.eq_zero_of_not_pos fun hv => ha ⟨hs,hv⟩)
      · exact Or.inl hs
    rw [paidTo,hm.outflows_other hother]
    rcases hother with hother | rfl
    · simp [paidTo,hother]
    · simp [paidTo]

theorem sent_eq (a : Address) : t'.sent a = t.sent a + (if a = source then value else 0) := by
  simp only [sent,hm.transfers,List.map_cons,List.sum_cons,eq_comm (a := source)]
  exact Nat.add_comm _ _

theorem received_eq (a : Address) :
    t'.received a = t.received a + (if a = target then value else 0) := by
  simp only [received,hm.transfers,List.map_cons,List.sum_cons,eq_comm (a := target)]
  exact Nat.add_comm _ _

end Moved
end Token

/-- The calls that accounts outside the protocol may make on a token.  `mint` stands for
whatever creates supply there (an issuer, a wrapped deposit). -/
inductive Call
  | transfer (sender target : Address) (value : ℕ)
  | approve (sender spender : Address) (value : ℕ)
  | transferFrom (sender owner target : Address) (value : ℕ)
  | mint (sender target : Address) (value : ℕ)
  | burn (sender : Address) (value : ℕ)

namespace Call

def sender : Call → Address
  | transfer s _ _ => s
  | approve s _ _ => s
  | transferFrom s _ _ _ => s
  | mint s _ _ => s
  | burn s _ => s

def exec : Call → Token → Except Error Token
  | transfer s target value, t => t.transfer s target value
  | approve s spender value, t => t.approve s spender value
  | transferFrom s owner target value, t => t.transferFrom s owner target value
  | mint _ target value, t => t.mint target value
  | burn s value, t => t.burn s value

/-- What another account's call leaves of a closed account: it is still closed, it holds
no less, and it paid nothing. -/
structure Kept (a : Address) (t t' : Token) : Prop where
  closed : t'.Closed a
  balance : t.balanceOf a ≤ t'.balanceOf a
  outflows : t'.outflows a = t.outflows a

theorem Kept.refl {a : Address} {t : Token} (h : t.Closed a) : Kept a t t :=
  ⟨h,le_rfl,rfl⟩

theorem Kept.trans {a : Address} {t u v : Token} (h : Kept a t u) (h' : Kept a u v) :
    Kept a t v :=
  ⟨h'.closed,h.balance.trans h'.balance,h'.outflows.trans h.outflows⟩

theorem Kept.paidTo {a target : Address} {t t' : Token} (h : Kept a t t') :
    t'.paidTo a target = t.paidTo a target := by
  rw [Token.paidTo,h.outflows,Token.paidTo]

theorem Kept.sent {a : Address} {t t' : Token} (h : Kept a t t') : t'.sent a = t.sent a := by
  rw [Token.sent_eq_sum_outflows,h.outflows,← Token.sent_eq_sum_outflows]

/-- The calls of the others never raise what an account allows. -/
theorem exec_allowance_le {a : Address} {t t' : Token} {c : Call} (hc : c.sender ≠ a)
    (h : c.exec t = .ok t') (s : Address) : t'.allowance a s ≤ t.allowance a s := by
  cases c with
  | transfer sender target value => rw [(Token.transfer_ok h).2.2.1]
  | approve sender spender value =>
    obtain ⟨-,-,rfl⟩ := Token.approve_ok h
    show set₂ t.allowance sender spender value a s ≤ t.allowance a s
    rw [set₂_apply,if_neg (fun e => hc e.1.symm)]
  | transferFrom sender owner target value => exact (Token.transferFrom_ok h).2.2.2.1 a s
  | mint sender target value => rw [(Token.mint_ok h).2.1]
  | burn sender value => rw [(Token.burn_ok h).2.2.1]

/-- Custody: a closed account loses nothing to the calls of the others. -/
theorem exec_kept {a : Address} {t t' : Token} {c : Call} (ha : a ≠ 0) (hc : c.sender ≠ a)
    (hclosed : t.Closed a) (h : c.exec t = .ok t') : Kept a t t' := by
  have hclosed' : t'.Closed a := fun s =>
    Nat.le_zero.mp ((exec_allowance_le hc h s).trans (hclosed s).le)
  cases c with
  | transfer s target value =>
    obtain ⟨-,-,-,hm⟩ := Token.transfer_ok h
    have hs : a ≠ s := fun e => hc e.symm
    refine ⟨hclosed',?_,hm.outflows_other (Or.inl hs)⟩
    have hb := hm.balances a
    rw [if_neg hs] at hb
    omega
  | approve s spender value =>
    obtain ⟨-,-,rfl⟩ := Token.approve_ok h
    exact ⟨hclosed',le_rfl,rfl⟩
  | transferFrom s owner target value =>
    obtain ⟨-,-,hv,-,-,hm⟩ := Token.transferFrom_ok h
    -- a closed owner can only be debited by zero
    have hz : a ≠ owner ∨ value = 0 := by
      by_cases ho : a = owner
      · right
        have h0 := hclosed s
        rw [ho] at h0
        omega
      · exact Or.inl ho
    refine ⟨hclosed',?_,hm.outflows_other hz⟩
    have hb := hm.balances a
    rcases hz with ho | h0
    · rw [if_neg ho] at hb
      omega
    · subst h0
      simp only [ite_self] at hb
      omega
  | mint s target value =>
    obtain ⟨-,-,-,hbal,htr⟩ := Token.mint_ok h
    refine ⟨hclosed',by rw [hbal]; exact Nat.le_add_right _ _,?_⟩
    unfold Token.outflows
    rw [htr,Token.outflowsOf_cons,if_neg (fun e => ha e.1.symm)]
  | burn s value =>
    obtain ⟨-,-,-,-,hbal,htr⟩ := Token.burn_ok h
    have hs : a ≠ s := fun e => hc e.symm
    refine ⟨hclosed',?_,?_⟩
    · have hb := hbal a
      rw [if_neg hs] at hb
      omega
    · unfold Token.outflows
      rw [htr,Token.outflowsOf_cons,if_neg (fun e => hs e.1.symm)]

/-- What the spender's budget leaves of an account: nobody else may debit it, what it pays
is taken off the budget, and it loses no more than it pays. -/
structure Spent (a spender : Address) (t t' : Token) : Prop where
  others : ∀ s, s ≠ spender → t'.allowance a s = 0
  bounded : t'.allowance a spender ≤ t.allowance a spender
  budget : t.allowance a spender < Token.infinite →
    t'.sent a+t'.allowance a spender ≤ t.sent a+t.allowance a spender
  net : t.balanceOf a+t.sent a ≤ t'.balanceOf a+t'.sent a

theorem Spent.refl {a spender : Address} {t : Token}
    (h : ∀ s, s ≠ spender → t.allowance a s = 0) : Spent a spender t t :=
  ⟨h,le_rfl,fun _ => le_rfl,le_rfl⟩

theorem Spent.trans {a spender : Address} {t u v : Token} (h : Spent a spender t u)
    (h' : Spent a spender u v) : Spent a spender t v :=
  ⟨h'.others,h'.bounded.trans h.bounded,
    fun hlt => (h'.budget (h.bounded.trans_lt hlt)).trans (h.budget hlt),h.net.trans h'.net⟩

theorem exec_spent {a spender : Address} {t t' : Token} {c : Call} (ha : a ≠ 0)
    (hc : c.sender ≠ a) (hothers : ∀ s, s ≠ spender → t.allowance a s = 0)
    (h : c.exec t = .ok t') : Spent a spender t t' := by
  have hle := exec_allowance_le hc h
  have hothers' : ∀ s, s ≠ spender → t'.allowance a s = 0 := fun s hs =>
    Nat.le_zero.mp ((hle s).trans (hothers s hs).le)
  have hle' := hle spender
  cases c with
  | transfer s target value =>
    obtain ⟨-,-,-,hm⟩ := Token.transfer_ok h
    have hs : a ≠ s := fun e => hc e.symm
    have hsent := hm.sent_eq a
    have hb := hm.balances a
    rw [if_neg hs] at hsent hb
    exact ⟨hothers',hle',fun _ => by omega,by omega⟩
  | approve s x value =>
    obtain ⟨-,-,rfl⟩ := Token.approve_ok h
    exact ⟨hothers',hle',fun _ => Nat.add_le_add_left hle' _,le_rfl⟩
  | transferFrom s owner target value =>
    have hspend := h
    simp only [exec,Token.transferFrom,bind_eq_ok] at hspend
    obtain ⟨u,hu,hu'⟩ := hspend
    have hallow := (Token.transfer_ok hu').2.2.1
    obtain ⟨-,-,hv,-,-,hm⟩ := Token.transferFrom_ok h
    have hsent := hm.sent_eq a
    have hb := hm.balances a
    refine ⟨hothers',hle',fun hlt => ?_,by omega⟩
    by_cases ho : a = owner
    · subst ho
      rw [if_pos rfl] at hsent
      by_cases hs : s = spender
      · subst hs
        have hspent := Token.spendAllowance_spent hlt hu
        rw [hallow]
        omega
      · rw [hothers s hs] at hv
        omega
    · rw [if_neg ho] at hsent
      omega
  | mint s target value =>
    obtain ⟨-,-,-,hbal,htr⟩ := Token.mint_ok h
    have hsent : t'.sent a = t.sent a := by simp [Token.sent,htr,ha.symm]
    have hb := hbal a
    exact ⟨hothers',hle',fun _ => by omega,by omega⟩
  | burn s value =>
    obtain ⟨-,-,-,-,hbal,htr⟩ := Token.burn_ok h
    have hs : a ≠ s := fun e => hc e.symm
    have hsent : t'.sent a = t.sent a := by simp [Token.sent,htr,hs.symm]
    have hb := hbal a
    rw [if_neg hs] at hb
    exact ⟨hothers',hle',fun _ => by omega,by omega⟩

end Call
end Erc20
end BpsProtocol
