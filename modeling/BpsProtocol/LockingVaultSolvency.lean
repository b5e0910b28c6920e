import BpsProtocol.LockingVault

/-! Solvency and exit of the locking vault.
Each entry point is described once, by the fields it changes.  The accounting invariant
is derived from these descriptions and holds of every run; a matured position can always
be withdrawn because every other operation kept the sums. -/
namespace BpsProtocol
namespace LockingVault

open Checked Mapping Erc20

/-- What a position still holds in the vault. -/
def LockPosition.outstanding (p : LockPosition) : ℕ :=
  if p.withdrawn = true then 0 else p.principal

/-- The position a lock of the current block starts as. -/
def LockPosition.created (block : Block) (amount duration multiplierBps : ℕ) : LockPosition where
  principal := amount
  startTime := block.timestamp
  duration := duration
  unlockTime := block.timestamp+duration
  multiplierBps := multiplierBps
  policyVersion := policyVersionU16
  withdrawnAt := 0
  exists_ := true
  withdrawn := false

/-- The recipients and amounts of the announced withdrawals, newest first. -/
def withdrawals (logs : List Log) : List (Address × ℕ) :=
  logs.filterMap fun l => match l.event with
    | .lockWithdrawn account _ principal _ _ => some (account,principal)
    | _ => none

/-- The amounts announced as paid out for one position. -/
def payouts (logs : List Log) (account : Address) (lockId : ℕ) : List ℕ :=
  logs.filterMap fun l => match l.event with
    | .lockWithdrawn a id principal _ _ => if a = account ∧ id = lockId then some principal else none
    | _ => none

/-- The storage change of a successful `_recordLock`. -/
structure Recorded (block : Block) (v v' : Storage) (account : Address)
    (lockId amount duration multiplierBps : ℕ) : Prop where
  fits : block.timestamp+duration < uint64Bound
  ownership : v'.ownership = v.ownership
  positions : v'.positions = set₂ v.positions account lockId
    (.created block amount duration multiplierBps)
  lockCount : v'.lockCount = set v.lockCount account (lockId+1)
  lockedPrincipal : v'.lockedPrincipal =
    set v.lockedPrincipal account (v.lockedPrincipal account+amount)
  totalLockedPrincipal : v'.totalLockedPrincipal = v.totalLockedPrincipal+amount
  emergencyExitEnabled : v'.emergencyExitEnabled = v.emergencyExitEnabled
  emergencyExitEnabledAt : v'.emergencyExitEnabledAt = v.emergencyExitEnabledAt
  logs : v'.logs = ⟨block.number,.lockCreated account lockId amount block.timestamp duration
    (block.timestamp+duration) multiplierBps policyVersionU16⟩::v.logs

theorem recordLock_ok {block : Block} {v v' : Storage} {account : Address}
    {lockId amount duration multiplierBps : ℕ}
    (h : recordLock block v account lockId amount duration multiplierBps = .ok v') :
    Recorded block v v' account lockId amount duration multiplierBps := by
  simp only [recordLock,timestampUint64,bind_eq_ok,toUint64_eq_ok,revertIf_eq_ok,add_eq_ok,
    exists_const,pure_eq_ok] at h
  obtain ⟨_,⟨-,rfl⟩,hfit,_,⟨-,rfl⟩,_,⟨-,rfl⟩,_,⟨-,rfl⟩,rfl⟩ := h
  exact ⟨by omega,rfl,rfl,rfl,rfl,rfl,rfl,rfl,rfl⟩

/-- What a successful `createLock` did. -/
structure Locked (here : Address) (w w' : World) (sender : Address) (lockId amount duration : ℕ) :
    Prop where
  open_ : w.vault.emergencyExitEnabled = false
  amount_pos : 0 < amount
  sender_ne_zero : sender ≠ 0
  lockId_eq : lockId = w.vault.lockCount sender
  block : w'.block = w.block
  paid : w.bps.transferFrom here sender here amount = .ok w'.bps
  received : w'.bps.balanceOf here = w.bps.balanceOf here+amount
  recorded : ∃ multiplierBps, policyMultiplierBps duration = .ok multiplierBps ∧
    Recorded w.block w.vault w'.vault sender lockId amount duration multiplierBps

theorem createLock_ok {here : Address} {w w' : World} {sender : Address}
    {amount duration lockId : ℕ}
    (h : createLock here w sender amount duration = .ok (lockId,w')) :
    Locked here w w' sender lockId amount duration := by
  simp only [createLock,bind_eq_ok,revertIf_eq_ok,mapError_eq_ok,sub_eq_ok,exists_const,
    pure_eq_ok] at h
  obtain ⟨hopen,hamount,-,m,hm,t,ht,r,⟨hle,rfl⟩,hreceived,v,hv,he⟩ := h
  obtain ⟨rfl,rfl⟩ := Prod.mk.inj he
  have hsender := (Token.transferFrom_ok ht).1
  exact ⟨by simpa using hopen,by omega,hsender,rfl,rfl,ht,by dsimp only; omega,m,hm,recordLock_ok hv⟩

/-- What a successful `withdraw` did. -/
structure Withdrew (here : Address) (w w' : World) (sender : Address) (lockId : ℕ) : Prop where
  exists_ : (w.vault.positions sender lockId).exists_ = true
  unwithdrawn : (w.vault.positions sender lockId).withdrawn = false
  due : w.vault.emergencyExitEnabled = true ∨
    (w.vault.positions sender lockId).unlockTime ≤ w.block.timestamp
  fits : w.block.timestamp < uint64Bound
  block : w'.block = w.block
  paid : w.bps.transfer here sender (w.vault.positions sender lockId).principal = .ok w'.bps
  ownership : w'.vault.ownership = w.vault.ownership
  positions : w'.vault.positions = set₂ w.vault.positions sender lockId
    { w.vault.positions sender lockId with withdrawn := true, withdrawnAt := w.block.timestamp }
  lockCount : w'.vault.lockCount = w.vault.lockCount
  lockedPrincipal_le : (w.vault.positions sender lockId).principal ≤ w.vault.lockedPrincipal sender
  lockedPrincipal : w'.vault.lockedPrincipal = set w.vault.lockedPrincipal sender
    (w.vault.lockedPrincipal sender-(w.vault.positions sender lockId).principal)
  totalLockedPrincipal : w'.vault.totalLockedPrincipal+(w.vault.positions sender lockId).principal =
    w.vault.totalLockedPrincipal
  emergencyExitEnabled : w'.vault.emergencyExitEnabled = w.vault.emergencyExitEnabled
  emergencyExitEnabledAt : w'.vault.emergencyExitEnabledAt = w.vault.emergencyExitEnabledAt
  logs : w'.vault.logs = ⟨w.block.number,.lockWithdrawn sender lockId
    (w.vault.positions sender lockId).principal w.block.timestamp
    w.vault.emergencyExitEnabled⟩::w.vault.logs

theorem withdraw_ok {here : Address} {w w' : World} {sender : Address} {lockId : ℕ}
    (h : withdraw here w sender lockId = .ok w') : Withdrew here w w' sender lockId := by
  simp only [withdraw,timestampUint64,bind_eq_ok,revertIf_eq_ok,mapError_eq_ok,toUint64_eq_ok,
    sub_eq_ok,exists_const,pure_eq_ok] at h
  obtain ⟨hexists,hwith,hdue,_,⟨hfits,rfl⟩,_,⟨hlocked,rfl⟩,_,⟨htotal,rfl⟩,t,ht,rfl⟩ := h
  refine ⟨by simpa using hexists,by simpa using hwith,?_,hfits,rfl,ht,rfl,rfl,rfl,hlocked,rfl,
    Nat.sub_add_cancel htotal,rfl,rfl,rfl⟩
  cases hx : w.vault.emergencyExitEnabled
  · exact Or.inr (by simpa [hx] using hdue)
  · exact Or.inl rfl

theorem enableEmergencyExit_ok {w w' : World} {sender : Address}
    (h : enableEmergencyExit w sender = .ok w') :
    w.vault.emergencyExitEnabled = false ∧ w.vault.ownership.owner = sender ∧
    w' = { w with vault := { w.vault with
      emergencyExitEnabled := true
      emergencyExitEnabledAt := w.block.timestamp
      logs := ⟨w.block.number,.emergencyExitEnabled sender w.block.timestamp⟩::w.vault.logs } } := by
  simp only [enableEmergencyExit,timestampUint64,bind_eq_ok,revertIf_eq_ok,mapError_eq_ok,
    toUint64_eq_ok,Ownable.checkOwner_eq_ok,exists_const,pure_eq_ok] at h
  obtain ⟨howner,hdis,_,⟨-,rfl⟩,rfl⟩ := h
  exact ⟨by simpa using hdis,howner,rfl⟩

/-- The accounting invariant of the vault. -/
structure Solvent (here : Address) (w : World) : Prop where
  here_ne_zero : here ≠ 0
  closed : w.bps.Closed here
  exists_iff : ∀ a id, (w.vault.positions a id).exists_ = true ↔ id < w.vault.lockCount a
  unwithdrawn_of_unset : ∀ a id, (w.vault.positions a id).exists_ = false →
    (w.vault.positions a id).withdrawn = false
  principal_pos : ∀ a id, (w.vault.positions a id).exists_ = true →
    a ≠ 0 ∧ 0 < (w.vault.positions a id).principal
  locked : ∀ a, w.vault.lockedPrincipal a =
    ∑ id ∈ Finset.range (w.vault.lockCount a), (w.vault.positions a id).outstanding
  total : w.vault.totalLockedPrincipal = ∑ a, w.vault.lockedPrincipal a
  covered : w.vault.totalLockedPrincipal ≤ w.bps.balanceOf here
  paid : w.bps.outflows here = withdrawals w.vault.logs
  paidOnce : ∀ a id, payouts w.vault.logs a id =
    if (w.vault.positions a id).withdrawn = true then [(w.vault.positions a id).principal] else []

variable {here : Address} {w w' : World}

theorem Initial.solvent (h : Initial here w) : Solvent here w := by
  obtain ⟨o,ho⟩ := h.storage
  refine ⟨h.here_ne_zero,h.closed,?_,?_,?_,?_,?_,?_,?_,?_⟩ <;>
    simp [ho,Storage.deployed,LockPosition.unset,h.unspent,withdrawals,payouts]

/-- A lock adds its principal to the sums of its account and of the vault. -/
theorem Locked.solvent {sender : Address} {lockId amount duration : ℕ} (hs : Solvent here w)
    (h : Locked here w w' sender lockId amount duration) : Solvent here w' := by
  obtain ⟨m,-,hr⟩ := h.recorded
  obtain ⟨-,-,hallow,hle,-,hm⟩ := Token.transferFrom_ok h.paid
  have hid := h.lockId_eq
  have hfresh : (w.vault.positions sender lockId).exists_ = false := by
    have hx := hs.exists_iff sender lockId
    cases he : (w.vault.positions sender lockId).exists_
    · rfl
    · exact absurd (hx.mp he) (by omega)
  -- the vault is not the sender: a closed account cannot fund a positive amount
  have hhere : here ≠ sender := by
    rintro rfl
    have h0 := hs.closed here
    have hp := h.amount_pos
    omega
  refine ⟨hs.here_ne_zero,?_,?_,?_,?_,?_,?_,?_,?_,?_⟩
  · exact fun x => Nat.le_zero.mp ((hle here x).trans (hs.closed x).le)
  · intro a id
    rw [hr.positions,hr.lockCount,set₂_apply,set_apply]
    by_cases ha : a = sender
    · subst ha
      by_cases hi : id = lockId
      · subst hi; simp [LockPosition.created]
      · simp only [hi,and_false,if_false,if_true,hs.exists_iff]
        omega
    · simp only [ha,false_and,if_false,hs.exists_iff]
  · intro a id
    rw [hr.positions,set₂_apply]
    split
    · simp [LockPosition.created]
    · exact hs.unwithdrawn_of_unset a id
  · intro a id
    rw [hr.positions,set₂_apply]
    split
    · rename_i hk
      intro _
      exact ⟨hk.1 ▸ h.sender_ne_zero,h.amount_pos⟩
    · exact hs.principal_pos a id
  · intro a
    rw [hr.lockedPrincipal,hr.lockCount,hr.positions,set_apply,set_apply]
    by_cases ha : a = sender
    · subst ha
      rw [if_pos rfl,if_pos rfl,hs.locked a,Finset.sum_range_succ,← hid]
      congr 1
      · apply Finset.sum_congr rfl
        intro id hi
        rw [set₂_apply,if_neg]
        have := Finset.mem_range.mp hi
        omega
      · simp [set₂_apply,LockPosition.outstanding,LockPosition.created]
    · rw [if_neg ha,if_neg ha,hs.locked a]
      apply Finset.sum_congr rfl
      intro id _
      rw [set₂_apply,if_neg (fun hk => ha hk.1)]
  · have hsum := sum_set_add w.vault.lockedPrincipal sender (w.vault.lockedPrincipal sender+amount)
    have ht := hs.total
    rw [hr.totalLockedPrincipal,hr.lockedPrincipal]
    omega
  · have hc := hs.covered
    rw [hr.totalLockedPrincipal,h.received]
    omega
  · rw [hm.outflows_other (Or.inl hhere),hs.paid,hr.logs]
    rfl
  · intro a id
    have hp : payouts w'.vault.logs a id = payouts w.vault.logs a id := by rw [hr.logs]; rfl
    rw [hp,hs.paidOnce,hr.positions,set₂_apply]
    by_cases hk : a = sender ∧ id = lockId
    · obtain ⟨rfl,rfl⟩ := hk
      simp [LockPosition.created,hs.unwithdrawn_of_unset _ _ hfresh]
    · rw [if_neg hk]

/-- A withdrawal takes its principal off the same sums and pays it to the position's account. -/
theorem Withdrew.solvent {sender : Address} {lockId : ℕ} (hs : Solvent here w)
    (h : Withdrew here w w' sender lockId) : Solvent here w' := by
  obtain ⟨-,-,hallow,hm⟩ := Token.transfer_ok h.paid
  have hpos := (hs.principal_pos sender lockId h.exists_).2
  have hlt := (hs.exists_iff sender lockId).mp h.exists_
  refine ⟨hs.here_ne_zero,?_,?_,?_,?_,?_,?_,?_,?_,?_⟩
  · exact fun x => by rw [hallow]; exact hs.closed x
  · intro a id
    rw [h.positions,h.lockCount,set₂_apply]
    split
    · rename_i hk
      obtain ⟨rfl,rfl⟩ := hk
      simp [h.exists_,hlt]
    · exact hs.exists_iff a id
  · intro a id
    rw [h.positions,set₂_apply]
    split
    · intro he
      simp [h.exists_] at he
    · exact hs.unwithdrawn_of_unset a id
  · intro a id
    rw [h.positions,set₂_apply]
    split
    · rename_i hk
      obtain ⟨rfl,rfl⟩ := hk
      intro _
      exact hs.principal_pos _ _ h.exists_
    · exact hs.principal_pos a id
  · intro a
    rw [h.lockedPrincipal,h.lockCount,h.positions,set_apply]
    by_cases ha : a = sender
    · subst ha
      have hsum := sum_add_of_agree (f := fun id => (w.vault.positions a id).outstanding)
        (g := fun id => (set₂ w.vault.positions a lockId
          { w.vault.positions a lockId with withdrawn := true, withdrawnAt := w.block.timestamp }
          a id).outstanding)
        (Finset.mem_range.mpr hlt) (fun id _ hi => by rw [set₂_apply,if_neg (fun hk => hi hk.2)])
      have hl := hs.locked a
      simp only [set₂_apply,and_self,if_true,LockPosition.outstanding,h.unwithdrawn] at hsum hl ⊢
      simp only [Bool.false_eq_true,if_false] at hsum
      omega
    · rw [if_neg ha,hs.locked a]
      apply Finset.sum_congr rfl
      intro id _
      rw [set₂_apply,if_neg (fun hk => ha hk.1)]
  · have hsum := sum_set_add w.vault.lockedPrincipal sender
      (w.vault.lockedPrincipal sender-(w.vault.positions sender lockId).principal)
    have ht := hs.total
    have hle := h.lockedPrincipal_le
    have htot := h.totalLockedPrincipal
    rw [h.lockedPrincipal]
    omega
  · have hc := hs.covered
    have htot := h.totalLockedPrincipal
    have hb := hm.balances here
    rw [if_pos rfl] at hb
    omega
  · rw [hm.outflows_source hpos,hs.paid,h.logs]
    rfl
  · intro a id
    have hp : payouts w'.vault.logs a id = if a = sender ∧ id = lockId
        then (w.vault.positions sender lockId).principal::payouts w.vault.logs a id
        else payouts w.vault.logs a id := by
      rw [h.logs]
      unfold payouts
      rw [List.filterMap_cons]
      simp only [eq_comm (a := sender),eq_comm (a := lockId)]
      split_ifs <;> rfl
    rw [hp,hs.paidOnce,h.positions,set₂_apply]
    by_cases hk : a = sender ∧ id = lockId
    · obtain ⟨rfl,rfl⟩ := hk
      simp [h.unwithdrawn]
    · rw [if_neg hk,if_neg hk]

/-- The calls of other accounts on the token cannot touch the vault's custody. -/
theorem Solvent.of_kept {t : Token} (hs : Solvent here w) (hk : Call.Kept here w.bps t) :
    Solvent here { w with bps := t } :=
  ⟨hs.here_ne_zero,hk.closed,hs.exists_iff,hs.unwithdrawn_of_unset,hs.principal_pos,hs.locked,
    hs.total,hs.covered.trans hk.balance,hk.outflows.trans hs.paid,hs.paidOnce⟩

/-- What a successful transaction did, by its kind. -/
theorem exec_cases {tx : Tx} (h : exec here w tx = .ok w') :
    (∃ elapsed, tx = .newBlock elapsed ∧
      w' = { w with block := ⟨w.block.number+1,w.block.timestamp+elapsed⟩ }) ∨
    (∃ sender amount duration, tx = .createLock sender amount duration ∧
      Locked here w w' sender (w.vault.lockCount sender) amount duration) ∨
    (∃ sender lockId, tx = .withdraw sender lockId ∧ Withdrew here w w' sender lockId) ∨
    (∃ sender, tx = .enableEmergencyExit sender ∧ w.vault.emergencyExitEnabled = false ∧
      w' = { w with vault := { w.vault with
        emergencyExitEnabled := true
        emergencyExitEnabledAt := w.block.timestamp
        logs := ⟨w.block.number,
          .emergencyExitEnabled sender w.block.timestamp⟩::w.vault.logs } }) ∨
    (∃ sender call o, tx = .ownership sender call ∧
      w' = { w with vault := { w.vault with ownership := o } }) ∨
    (∃ call t, tx = .token call ∧ call.sender ≠ here ∧ call.exec w.bps = .ok t ∧
      w' = { w with bps := t }) := by
  cases tx with
  | newBlock elapsed => exact Or.inl ⟨elapsed,rfl,by simpa [exec,eq_comm] using h⟩
  | createLock sender amount duration =>
    simp only [exec,bind_eq_ok,pure_eq_ok] at h
    obtain ⟨⟨id,u⟩,hl,rfl⟩ := h
    have hl' := createLock_ok hl
    exact Or.inr (Or.inl ⟨sender,amount,duration,rfl,hl'.lockId_eq ▸ hl'⟩)
  | withdraw sender lockId => exact Or.inr (Or.inr (Or.inl ⟨sender,lockId,rfl,withdraw_ok h⟩))
  | enableEmergencyExit sender =>
    obtain ⟨hd,-,hw⟩ := enableEmergencyExit_ok h
    exact Or.inr (Or.inr (Or.inr (Or.inl ⟨sender,rfl,hd,hw⟩)))
  | ownership sender call =>
    simp only [exec,bind_eq_ok,mapError_eq_ok,pure_eq_ok] at h
    obtain ⟨o,-,rfl⟩ := h
    exact Or.inr (Or.inr (Or.inr (Or.inr (Or.inl ⟨sender,call,o,rfl,rfl⟩))))
  | token call =>
    simp only [exec,bind_eq_ok,revertIf_eq_ok,mapError_eq_ok,exists_const,pure_eq_ok] at h
    obtain ⟨hne,t,ht,rfl⟩ := h
    exact Or.inr (Or.inr (Or.inr (Or.inr (Or.inr ⟨call,t,rfl,hne,ht,rfl⟩))))

theorem exec_solvent {tx : Tx} (hs : Solvent here w) (h : exec here w tx = .ok w') :
    Solvent here w' := by
  rcases exec_cases h with ⟨_,-,rfl⟩ | ⟨_,_,_,-,hl⟩ | ⟨_,_,-,hw⟩ | ⟨_,-,-,rfl⟩ | ⟨_,_,_,-,rfl⟩ |
    ⟨call,t,-,hne,ht,rfl⟩
  · exact { hs with }
  · exact hl.solvent hs
  · exact hw.solvent hs
  · exact { hs with }
  · exact { hs with }
  · exact hs.of_kept (Call.exec_kept hs.here_ne_zero hne hs.closed ht)

theorem Reachable.solvent (h : Reachable here w) : Solvent here w :=
  Machine.Reachable.invariant (fun _ hi => hi.solvent) (fun _ _ _ hs hx => exec_solvent hs hx) h

theorem positionWeightAt_unset {v : Storage} {a : Address} {id t : ℕ}
    (h : (v.positions a id).exists_ = false) : positionWeightAt v a id t = .ok 0 := by
  simp [positionWeightAt,h]

/-- A due position's owner can always withdraw it, as long as the clock fits the 64 bits
in which the vault records it. -/
theorem Solvent.withdraw_succeeds {a : Address} {id : ℕ} (hs : Solvent here w)
    (hexists : (w.vault.positions a id).exists_ = true)
    (hwith : (w.vault.positions a id).withdrawn = false)
    (hdue : (w.vault.positions a id).unlockTime ≤ w.block.timestamp ∨
      w.vault.emergencyExitEnabled = true)
    (hfits : w.block.timestamp < uint64Bound) : ∃ w', withdraw here w a id = .ok w' := by
  have hid := (hs.exists_iff a id).mp hexists
  have hlocked : (w.vault.positions a id).principal ≤ w.vault.lockedPrincipal a := by
    rw [hs.locked a]
    have hle := Finset.single_le_sum
      (f := fun i => (w.vault.positions a i).outstanding) (fun _ _ => Nat.zero_le _)
      (Finset.mem_range.mpr hid)
    simpa [LockPosition.outstanding,hwith] using hle
  have htotal : (w.vault.positions a id).principal ≤ w.vault.totalLockedPrincipal :=
    hlocked.trans (hs.total ▸ le_sum w.vault.lockedPrincipal a)
  obtain ⟨t,ht⟩ := Token.transfer_succeeds hs.here_ne_zero (hs.principal_pos a id hexists).1
    (htotal.trans hs.covered)
  have hnotDue : ¬(w.vault.emergencyExitEnabled = false ∧
      w.block.timestamp < (w.vault.positions a id).unlockTime) := by
    rintro ⟨hd,hlt⟩
    rcases hdue with hdue | hdue
    · omega
    · simp [hd] at hdue
  simp only [withdraw,timestampUint64,toUint64,sub,hexists,hwith,Bool.true_eq_false,
    Bool.false_eq_true,revertIf_of_not hnotDue,revertIf_of_not (Nat.not_le.mpr hfits),
    revertIf_of_not (Nat.not_lt.mpr hlocked),revertIf_of_not (Nat.not_lt.mpr htotal),
    revertIf_of_not not_false,ok_bind,pure,Except.pure,ht,Except.mapError]
  exact ⟨_,rfl⟩

/-- In every reachable state the counters are the sums over the unwithdrawn positions, the
vault holds what it owes, every payout was one position's principal to its account, and a
due position can be withdrawn. -/
theorem lockingVault_solvent_and_exitable (h : Reachable here w) :
    (∀ a id, (w.vault.positions a id).exists_ = true ↔ id < w.vault.lockCount a) ∧
    (∀ a, w.vault.lockedPrincipal a = ∑ id ∈ Finset.range (w.vault.lockCount a) with
      (w.vault.positions a id).withdrawn = false, (w.vault.positions a id).principal) ∧
    w.vault.totalLockedPrincipal = ∑ a, w.vault.lockedPrincipal a ∧
    w.vault.totalLockedPrincipal ≤ w.bps.balanceOf here ∧
    w.bps.outflows here = withdrawals w.vault.logs ∧
    (∀ a id, payouts w.vault.logs a id =
      if (w.vault.positions a id).withdrawn = true then [(w.vault.positions a id).principal]
      else []) ∧
    ∀ a id, (w.vault.positions a id).exists_ = true → (w.vault.positions a id).withdrawn = false →
      ((w.vault.positions a id).unlockTime ≤ w.block.timestamp ∨
        w.vault.emergencyExitEnabled = true) →
      w.block.timestamp < uint64Bound → ∃ w', withdraw here w a id = .ok w' := by
  have hs := h.solvent
  refine ⟨hs.exists_iff,fun a => ?_,hs.total,hs.covered,hs.paid,hs.paidOnce,
    fun a id he hw hd hf => hs.withdraw_succeeds he hw hd hf⟩
  rw [hs.locked a,Finset.sum_filter]
  apply Finset.sum_congr rfl
  intro id _
  unfold LockPosition.outstanding
  cases (w.vault.positions a id).withdrawn <;> rfl

/-- One lock of a week, and some time after it. -/
def oneLock (elapsed : ℕ) : World :=
  Machine.run (exec 100) ⟨⟨0,0⟩,Token.empty,.deployed 9⟩
    [.token (.mint 2 1 500),.token (.approve 1 100 500),.createLock 1 200 duration7d,
      .newBlock elapsed]

theorem oneLock_reachable (elapsed : ℕ) : Reachable 100 (oneLock elapsed) :=
  (Machine.Reachable.of_init ⟨by decide,⟨9,rfl⟩,fun _ => rfl,rfl⟩).run _

theorem oneLock_matured_exitable : ∃ w', withdraw 100 (oneLock duration7d) 1 0 = .ok w' :=
  (lockingVault_solvent_and_exitable (oneLock_reachable duration7d)).2.2.2.2.2.2 1 0
    (by decide) (by decide) (Or.inl (by decide)) (by decide)

/-- Without a bound on the clock a due position need not be withdrawable: `withdraw` casts
the timestamp to 64 bits and reverts beyond them. -/
theorem withdraw_reverts_past_uint64 :
    ¬∀ (here : Address) (w : World) (a : Address) (id : ℕ), Reachable here w →
      (w.vault.positions a id).exists_ = true → (w.vault.positions a id).withdrawn = false →
      ((w.vault.positions a id).unlockTime ≤ w.block.timestamp ∨
        w.vault.emergencyExitEnabled = true) → ∃ w', withdraw here w a id = .ok w' := by
  intro h
  obtain ⟨w',hw⟩ := h 100 (oneLock uint64Bound) 1 0 (oneLock_reachable uint64Bound) (by decide)
    (by decide) (Or.inl (by decide))
  exact absurd (withdraw_ok hw).fits (by decide)

end LockingVault
end BpsProtocol
