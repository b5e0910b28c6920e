import BpsProtocol.Erc20

/-! All tokens side by side, each at its own address. -/
namespace BpsProtocol

open Checked Mapping Erc20

abbrev Ledger := Address → Token

namespace Ledger

def transfer (l : Ledger) (asset owner target : Address) (value : ℕ) :
    Except Erc20.Error Ledger := do
  let t ← (l asset).transfer owner target value
  return set l asset t

def transferFrom (l : Ledger) (asset spender owner target : Address) (value : ℕ) :
    Except Erc20.Error Ledger := do
  let t ← (l asset).transferFrom spender owner target value
  return set l asset t

/-- A transfer that is only made when there is something to pay. -/
def transferPositive (l : Ledger) (asset owner target : Address) (value : ℕ) :
    Except Erc20.Error Ledger :=
  if 0 < value then l.transfer asset owner target value else .ok l

def approve (l : Ledger) (asset owner spender : Address) (value : ℕ) :
    Except Erc20.Error Ledger := do
  let t ← (l asset).approve owner spender value
  return set l asset t

def burn (l : Ledger) (asset owner : Address) (value : ℕ) : Except Erc20.Error Ledger := do
  let t ← (l asset).burn owner value
  return set l asset t

def call (l : Ledger) (asset : Address) (c : Erc20.Call) : Except Erc20.Error Ledger := do
  let t ← c.exec (l asset)
  return set l asset t

/-- Nobody may spend for this account, in any token. -/
def Closed (l : Ledger) (a : Address) : Prop := ∀ asset, (l asset).Closed a

/-- What one payment does to the ledger. -/
structure Paid (l l' : Ledger) (asset source target : Address) (value : ℕ) : Prop where
  target_ne_zero : target ≠ 0
  moved : Token.Moved (l asset) (l' asset) source target value
  allowance_le : ∀ o s, (l' asset).allowance o s ≤ (l asset).allowance o s
  others : ∀ x, x ≠ asset → l' x = l x

variable {l l' : Ledger} {asset spender owner source target : Address} {value : ℕ}

theorem transfer_ok (h : l.transfer asset owner target value = .ok l') :
    owner ≠ 0 ∧ (∀ o s, (l' asset).allowance o s = (l asset).allowance o s) ∧
    Paid l l' asset owner target value := by
  simp only [transfer,bind_eq_ok,pure_eq_ok] at h
  obtain ⟨t,ht,rfl⟩ := h
  obtain ⟨ho,hz,ha,hm⟩ := Token.transfer_ok ht
  refine ⟨ho,fun o s => by simp [ha],hz,by simpa using hm,fun o s => by simp [ha],?_⟩
  exact fun x hx => set_other _ hx

theorem transfer_succeeds (ho : owner ≠ 0) (ht : target ≠ 0)
    (hv : value ≤ (l asset).balanceOf owner) : ∃ l', l.transfer asset owner target value = .ok l' := by
  obtain ⟨t,h⟩ := Token.transfer_succeeds ho ht hv
  exact ⟨set l asset t,by simp [transfer,h,pure,Except.pure]⟩

theorem transferPositive_ok (h : l.transferPositive asset owner target value = .ok l') :
    (0 < value ∧ l.transfer asset owner target value = .ok l') ∨ (value = 0 ∧ l' = l) := by
  unfold transferPositive at h
  split at h
  · exact Or.inl ⟨‹_›,h⟩
  · cases h
    exact Or.inr ⟨by omega,rfl⟩

theorem transferFrom_ok (h : l.transferFrom asset spender owner target value = .ok l') :
    owner ≠ 0 ∧ value ≤ (l asset).allowance owner spender ∧
    (∀ o s, o ≠ owner ∨ s ≠ spender → (l' asset).allowance o s = (l asset).allowance o s) ∧
    Paid l l' asset owner target value := by
  simp only [transferFrom,bind_eq_ok,pure_eq_ok] at h
  obtain ⟨t,ht,rfl⟩ := h
  obtain ⟨ho,hz,hv,hle,hother,hm⟩ := Token.transferFrom_ok ht
  refine ⟨ho,hv,by simpa using hother,hz,by simpa using hm,by simpa using hle,?_⟩
  exact fun x hx => set_other _ hx

theorem transferFrom_succeeds (ho : owner ≠ 0) (hs : spender ≠ 0) (ht : target ≠ 0)
    (ha : value ≤ (l asset).allowance owner spender) (hv : value ≤ (l asset).balanceOf owner) :
    ∃ l', l.transferFrom asset spender owner target value = .ok l' := by
  obtain ⟨t,h⟩ := Token.transferFrom_succeeds ho hs ht ha hv
  exact ⟨set l asset t,by simp [transferFrom,h,pure,Except.pure]⟩

theorem Paid.closed {a : Address} (h : Paid l l' asset source target value) (hc : l.Closed a) :
    l'.Closed a := by
  intro x s
  by_cases hx : x = asset
  · subst hx
    exact Nat.le_zero.mp ((h.allowance_le a s).trans (hc x s).le)
  · rw [h.others x hx]
    exact hc x s

theorem Paid.outflows_other {a : Address} (h : Paid l l' asset source target value)
    (ha : a ≠ source ∨ value = 0) (x : Address) : (l' x).outflows a = (l x).outflows a := by
  by_cases hx : x = asset
  · subst hx
    exact h.moved.outflows_other ha
  · rw [h.others x hx]

theorem Paid.outflows_source (h : Paid l l' asset source target value) (hv : 0 < value)
    (x : Address) : (l' x).outflows source =
      if asset = x then (target,value)::(l x).outflows source else (l x).outflows source := by
  by_cases hx : asset = x
  · subst hx
    rw [if_pos rfl]
    exact h.moved.outflows_source hv
  · rw [if_neg hx,h.others x (Ne.symm hx)]

/-- The balance of one account after a payment, in additive form. -/
theorem Paid.balance (h : Paid l l' asset source target value) (x a : Address) :
    (l' x).balanceOf a + (if x = asset ∧ a = source then value else 0) =
      (l x).balanceOf a + (if x = asset ∧ a = target then value else 0) := by
  by_cases hx : x = asset
  · subst hx
    simpa using h.moved.balances a
  · rw [h.others x hx]
    simp [hx]

theorem call_allowance_le {a : Address} {c : Erc20.Call} (hc : c.sender ≠ a)
    (h : l.call asset c = .ok l') (x s : Address) :
    (l' x).allowance a s ≤ (l x).allowance a s := by
  simp only [call,bind_eq_ok,pure_eq_ok] at h
  obtain ⟨t,ht,rfl⟩ := h
  by_cases hx : x = asset
  · subst hx
    simpa using Call.exec_allowance_le hc ht s
  · rw [set_other t hx]

/-- Custody over all tokens: the calls of the others on one token. -/
theorem call_kept {a : Address} {c : Erc20.Call} (ha : a ≠ 0) (hc : c.sender ≠ a)
    (hclosed : l.Closed a) (h : l.call asset c = .ok l') : ∀ x, Call.Kept a (l x) (l' x) := by
  simp only [call,bind_eq_ok,pure_eq_ok] at h
  obtain ⟨t,ht,rfl⟩ := h
  intro x
  by_cases hx : x = asset
  · subst hx
    simpa using Call.exec_kept ha hc (hclosed x) ht
  · rw [set_other t hx]
    exact Call.Kept.refl (hclosed x)

theorem approve_ok (h : l.approve asset owner spender value = .ok l') :
    l' = set l asset { l asset with allowance := set₂ (l asset).allowance owner spender value } := by
  simp only [approve,bind_eq_ok,pure_eq_ok] at h
  obtain ⟨t,ht,rfl⟩ := h
  rw [(Token.approve_ok ht).2.2]

/-- Approving changes one allowance of the owner and nothing else. -/
theorem approve_frame (h : l.approve asset owner spender value = .ok l') :
    (∀ x, (l' x).balanceOf = (l x).balanceOf ∧ (l' x).totalSupply = (l x).totalSupply ∧
      (l' x).transfers = (l x).transfers) ∧
    ∀ x o s, (l' x).allowance o s =
      if x = asset ∧ o = owner ∧ s = spender then value else (l x).allowance o s := by
  rw [approve_ok h]
  constructor
  · intro x
    rw [set_apply]
    split
    · rename_i hx
      subst hx
      exact ⟨rfl,rfl,rfl⟩
    · exact ⟨rfl,rfl,rfl⟩
  · intro x o s
    by_cases hx : x = asset
    · subst hx
      simp [set₂_apply]
    · simp [set_other _ hx,hx]

/-- What burning does to the ledger. -/
structure Burned (l l' : Ledger) (asset owner : Address) (value : ℕ) : Prop where
  covered : value ≤ (l asset).balanceOf owner
  allowance : ∀ x, (l' x).allowance = (l x).allowance
  supply : (l' asset).totalSupply+value = (l asset).totalSupply
  balance : ∀ x a, (l' x).balanceOf a + (if x = asset ∧ a = owner then value else 0) =
    (l x).balanceOf a
  transfers : (l' asset).transfers = ⟨owner,0,value⟩::(l asset).transfers
  others : ∀ x, x ≠ asset → l' x = l x

theorem burn_ok (h : l.burn asset owner value = .ok l') : Burned l l' asset owner value := by
  simp only [burn,bind_eq_ok,pure_eq_ok] at h
  obtain ⟨t,ht,rfl⟩ := h
  obtain ⟨-,hcov,hallow,hsupply,hbal,htr⟩ := Token.burn_ok ht
  refine ⟨hcov,fun x => ?_,by simpa using hsupply,fun x a => ?_,by simpa using htr,
    fun x hx => set_other _ hx⟩
  · by_cases hx : x = asset
    · subst hx
      simpa using hallow
    · rw [set_other _ hx]
  · by_cases hx : x = asset
    · subst hx
      simpa using hbal a
    · simp [set_other _ hx,hx]

/-- An account that paid nothing meanwhile; what it was paid is what it gained. -/
structure Bystander (a : Address) (l l' : Ledger) : Prop where
  sent : ∀ x, (l' x).sent a = (l x).sent a
  received_le : ∀ x, (l x).received a ≤ (l' x).received a
  flow : ∀ x, (l' x).balanceOf a + (l x).received a = (l x).balanceOf a + (l' x).received a

namespace Bystander

variable {a : Address}

theorem refl (a : Address) (l : Ledger) : Bystander a l l :=
  ⟨fun _ => rfl,fun _ => le_rfl,fun _ => rfl⟩

theorem trans {l'' : Ledger} (h : Bystander a l l') (h' : Bystander a l' l'') :
    Bystander a l l'' := by
  refine ⟨fun x => (h'.sent x).trans (h.sent x),fun x => (h.received_le x).trans (h'.received_le x),
    fun x => ?_⟩
  have h1 := h.flow x
  have h2 := h'.flow x
  omega

theorem balance_le (h : Bystander a l l') (x : Address) :
    (l x).balanceOf a ≤ (l' x).balanceOf a := by
  have h1 := h.flow x
  have h2 := h.received_le x
  omega

theorem of_paid (h : Paid l l' asset source target value) (ha : a ≠ source) : Bystander a l l' := by
  refine ⟨fun x => ?_,fun x => ?_,fun x => ?_⟩ <;> by_cases hx : x = asset
  · subst hx
    rw [h.moved.sent_eq a,if_neg ha,Nat.add_zero]
  · rw [h.others x hx]
  · subst hx
    rw [h.moved.received_eq a]
    omega
  · rw [h.others x hx]
  · subst hx
    have hb := h.moved.balances a
    rw [h.moved.received_eq a]
    rw [if_neg ha] at hb
    omega
  · rw [h.others x hx]

theorem of_approve (h : l.approve asset owner spender value = .ok l') : Bystander a l l' := by
  have hf := (approve_frame h).1
  refine ⟨fun x => ?_,fun x => ?_,fun x => ?_⟩ <;>
    simp only [Token.sent,Token.received,(hf x).1,(hf x).2.2,le_rfl]

theorem of_burned (h : Burned l l' asset owner value) (ha : a ≠ owner) (h0 : a ≠ 0) :
    Bystander a l l' := by
  have ha' : ¬owner = a := fun e => ha e.symm
  have h0' : ¬0 = a := fun e => h0 e.symm
  have hr : ∀ x, (l' x).received a = (l x).received a := by
    intro x
    by_cases hx : x = asset
    · subst hx
      simp [Token.received,h.transfers,h0']
    · rw [h.others x hx]
  refine ⟨fun x => ?_,fun x => (hr x).ge,fun x => ?_⟩
  · by_cases hx : x = asset
    · subst hx
      simp [Token.sent,h.transfers,ha']
    · rw [h.others x hx]
  · have hb := h.balance x a
    simp only [ha,and_false,if_false,Nat.add_zero] at hb
    rw [hr,hb]

end Bystander

end Ledger
end BpsProtocol
