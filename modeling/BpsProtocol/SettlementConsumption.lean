import BpsProtocol.GuardedExecutorSafety

/-! What a settlement takes from the executor.
Nothing after the router's call compares the WETH the executor holds with what it held
before: a settlement consumes exactly its amount just when the router took its whole
allowance and paid no WETH back. -/
namespace BpsProtocol
namespace GuardedExecutor

open Checked Mapping Erc20

section Metered

variable {t t' u : Token} {a spender : Address}

/-- The flows of one account while nobody but one spender may debit it: what the spender
took and what is left for it are its allowance, and the balance follows the payments. -/
structure Metered (a spender : Address) (t t' : Token) : Prop where
  others : ∀ s, s ≠ spender → t'.allowance a s = 0
  finite : t'.allowance a spender < Token.infinite
  spent : t'.sent a+t'.allowance a spender = t.sent a+t.allowance a spender
  balance : t'.balanceOf a+t'.sent a+t.received a = t.balanceOf a+t.sent a+t'.received a
  received : t.received a ≤ t'.received a

theorem Metered.refl (hothers : ∀ s, s ≠ spender → t.allowance a s = 0)
    (hfinite : t.allowance a spender < Token.infinite) : Metered a spender t t :=
  ⟨hothers,hfinite,rfl,rfl,le_rfl⟩

theorem Metered.trans (h : Metered a spender t t') (h' : Metered a spender t' u) :
    Metered a spender t u := by
  have hspent := h.spent
  have hspent' := h'.spent
  have hbalance := h.balance
  have hbalance' := h'.balance
  exact ⟨h'.others,h'.finite,by omega,by omega,h.received.trans h'.received⟩

/-- A payment moves the sums of what an account paid and was paid with its balance. -/
theorem metered_of_moved {source target : Address} {value : ℕ} (hm : Token.Moved t t' source target value)
    (hothers : ∀ s, s ≠ spender → t'.allowance a s = 0)
    (hfinite : t'.allowance a spender < Token.infinite)
    (hspent : t'.allowance a spender+(if a = source then value else 0) = t.allowance a spender) :
    Metered a spender t t' := by
  have hsent := hm.sent_eq a
  have hreceived := hm.received_eq a
  have hbalance := hm.balances a
  exact ⟨hothers,hfinite,by omega,by omega,by omega⟩

theorem exec_metered {c : Erc20.Call} (ha : a ≠ 0) (hc : c.sender ≠ a)
    (hothers : ∀ s, s ≠ spender → t.allowance a s = 0)
    (hfinite : t.allowance a spender < Token.infinite) (h : c.exec t = .ok t') :
    Metered a spender t t' := by
  have hle := Call.exec_allowance_le hc h
  have hothers' : ∀ s, s ≠ spender → t'.allowance a s = 0 := fun s hs =>
    Nat.le_zero.mp ((hle s).trans (hothers s hs).le)
  have hfinite' := (hle spender).trans_lt hfinite
  cases c with
  | transfer s target value =>
    obtain ⟨-,-,hallow,hm⟩ := Token.transfer_ok h
    refine metered_of_moved hm hothers' hfinite' ?_
    rw [hallow,if_neg (fun e => hc e.symm)]
    rfl
  | approve s x value =>
    obtain ⟨-,-,rfl⟩ := Token.approve_ok h
    have hs : a ≠ s := fun e => hc e.symm
    have hsame : set₂ t.allowance s x value a spender = t.allowance a spender := by
      rw [set₂_apply,if_neg (fun e => hs e.1)]
    exact ⟨hothers',hfinite',congrArg (t.sent a+·) hsame,rfl,le_rfl⟩
  | transferFrom s owner target value =>
    have hspend := h
    simp only [Call.exec,Token.transferFrom,bind_eq_ok] at hspend
    obtain ⟨v,hv,hv'⟩ := hspend
    have hallow := (Token.transfer_ok hv').2.2.1
    obtain ⟨-,-,hcovered,-,hsame,hm⟩ := Token.transferFrom_ok h
    refine metered_of_moved hm hothers' hfinite' ?_
    by_cases ho : a = owner
    · subst ho
      by_cases hs : s = spender
      · subst hs
        rw [if_pos rfl,hallow]
        exact Token.spendAllowance_spent hfinite hv
      · rw [hothers s hs] at hcovered
        rw [if_pos rfl,Nat.le_zero.mp hcovered,hsame a spender (Or.inr (Ne.symm hs))]
        rfl
    · rw [if_neg ho,hsame a spender (Or.inl ho)]
      rfl
  | mint s target value =>
    obtain ⟨-,hallow,-,hbal,htr⟩ := Token.mint_ok h
    have hsent : t'.sent a = t.sent a := by simp [Token.sent,htr,ha.symm]
    have hreceived : t'.received a = t.received a+(if a = target then value else 0) := by
      simp only [Token.received,htr,List.map_cons,List.sum_cons,eq_comm (a := target)]
      exact Nat.add_comm _ _
    have hb := hbal a
    exact ⟨hothers',hfinite',by rw [hsent,hallow],by omega,by omega⟩
  | burn s value =>
    obtain ⟨-,-,hallow,-,hbal,htr⟩ := Token.burn_ok h
    have hs : a ≠ s := fun e => hc e.symm
    have hsent : t'.sent a = t.sent a := by simp [Token.sent,htr,hs.symm]
    have hreceived : t'.received a = t.received a := by simp [Token.received,htr,ha.symm]
    have hb := hbal a
    rw [if_neg hs] at hb
    exact ⟨hothers',hfinite',by rw [hsent,hallow],by omega,hreceived.ge⟩

end Metered

variable {d : Deployment} {w w' : World} {sender router : Address} {p : SettlementParams}
  {b : Behaviour} {received : ℕ} {digest : Bytes32}

/-- The world once the router, allowed exactly the amount, has been called. -/
def called (d : Deployment) (b : Behaviour) (w : World) (p : SettlementParams) :
    Except Error World := do
  let tokens ← (w.tokens.approve d.weth d.here p.target p.sellAmount).mapError .token
  return Machine.run (outside d)
    { w with tokens, executor := w.executor.consume p.intentDigest p.nonce } b.steps

/-- The router takes its whole allowance, and no WETH reaches the executor meanwhile. -/
def TakesAll (d : Deployment) (b : Behaviour) (w : World) (p : SettlementParams) : Prop :=
  ∃ u, called d b w p = .ok u ∧ (u.tokens d.weth).allowance d.here p.target = 0 ∧
    (u.tokens d.weth).received d.here = (w.tokens d.weth).received d.here

theorem run_metered (h0 : d.here ≠ 0)
    (hothers : ∀ r, r ≠ router → (w.tokens d.weth).allowance d.here r = 0)
    (hfinite : (w.tokens d.weth).allowance d.here router < Token.infinite)
    (steps : List Outside) :
    Metered d.here router (w.tokens d.weth)
      ((Machine.run (outside d) w steps).tokens d.weth) := by
  refine Machine.run_preserves
    (I := fun u : World => Metered d.here router (w.tokens d.weth) (u.tokens d.weth))
    (fun u step u' hu hstep => ?_) (.refl hothers hfinite) steps
  rcases outside_token hstep d.weth with heq | ⟨call,hne,hcall⟩
  · rw [heq]
    exact hu
  · exact hu.trans (exec_metered h0 hne hu.others hu.finite hcall)

/-- The balances of a settlement: what the router took and what it left of its allowance
are the amount sold. -/
theorem settle_flow (h0 : d.here ≠ 0) (hclosed : w.tokens.Closed d.here)
    (hsell : p.sellAmount < Token.infinite)
    (h : settle d b { w with executor := w.executor.consume p.intentDigest p.nonce } p
      p.intentDigest p.target = .ok (received,w')) :
    ∃ u, called d b w p = .ok u ∧
      (w.tokens d.weth).received d.here ≤ (u.tokens d.weth).received d.here ∧
      (w'.tokens d.weth).balanceOf d.here+p.sellAmount+(w.tokens d.weth).received d.here =
        (w.tokens d.weth).balanceOf d.here+(u.tokens d.weth).allowance d.here p.target+
          (u.tokens d.weth).received d.here := by
  simp only [settle,bind_eq_ok,revertIf_eq_ok,mapError_eq_ok,exists_const,pure_eq_ok] at h
  obtain ⟨-,tokens,happrove,-,_,-,-,tokens',hclear,-,he⟩ := h
  obtain ⟨-,rfl⟩ := Prod.mk.inj he
  obtain ⟨hf,ha⟩ := Ledger.approve_frame happrove
  obtain ⟨hf',-⟩ := Ledger.approve_frame hclear
  have hallow : (tokens d.weth).allowance d.here p.target = p.sellAmount := by
    rw [ha,if_pos ⟨rfl,rfl,rfl⟩]
  let allowed : World := ⟨w.timestamp,tokens,w.chain,w.executor.consume p.intentDigest p.nonce⟩
  have hm : Metered d.here p.target (allowed.tokens d.weth)
      ((Machine.run (outside d) allowed b.steps).tokens d.weth) := run_metered h0
    (fun r hr => by
      show (tokens d.weth).allowance d.here r = 0
      rw [ha,if_neg (fun hk => hr hk.2.2)]
      exact hclosed _ r)
    (by
      show (tokens d.weth).allowance d.here p.target < Token.infinite
      rw [hallow]
      exact hsell) b.steps
  have hreceived : (tokens d.weth).received d.here = (w.tokens d.weth).received d.here := by
    unfold Token.received
    rw [(hf d.weth).2.2]
  refine ⟨_,?_,hreceived.ge.trans hm.received,?_⟩
  · simp only [called,happrove,Except.mapError]
    rfl
  · have hspent := hm.spent
    have hbalance := hm.balance
    dsimp only [allowed] at hspent hbalance ⊢
    rw [(hf' d.weth).1]
    rw [hallow] at hspent
    rw [(hf d.weth).1,hreceived] at hbalance
    omega

/-- The amount an event reports as sold. -/
def Event.sold : Event → Option ℕ
  | .settlementExecuted _ _ _ _ _ sellAmount _ _ => some sellAmount
  | _ => none

theorem settle_reported (h : settle d b w p digest router = .ok (received,w')) :
    w'.executor.events.head?.bind Event.sold = some p.sellAmount := by
  simp only [settle,bind_eq_ok,revertIf_eq_ok,mapError_eq_ok,exists_const,pure_eq_ok] at h
  obtain ⟨-,_,-,-,_,-,-,_,-,-,he⟩ := h
  obtain ⟨-,rfl⟩ := Prod.mk.inj he
  rfl

/-- A settlement always reports its full amount as sold, and the executor holds exactly
that much less WETH if and only if the router took its whole allowance while no WETH
reached the executor. -/
theorem weth_consumed_iff (h : Reachable d w)
    (hs : executeSettlement d b w sender p = .ok (received,w')) :
    w'.executor.events.head?.bind Event.sold = some p.sellAmount ∧
    ((w'.tokens d.weth).balanceOf d.here+p.sellAmount = (w.tokens d.weth).balanceOf d.here ↔
      TakesAll d b w p) := by
  have hg := h.guarded
  obtain ⟨router,henv,hsettle⟩ := executeSettlement_ok hs
  have hsell := henv.amount_lt hg.cap
  obtain ⟨-,rfl⟩ := henv.registry
  obtain ⟨u,hu,hmore,hflow⟩ := settle_flow hg.here_ne_zero hg.closed hsell hsettle
  refine ⟨settle_reported hsettle,?_⟩
  constructor
  · intro heq
    exact ⟨u,hu,by omega,by omega⟩
  · rintro ⟨v,hv,hzero,hsame⟩
    cases hu.symm.trans hv
    omega

/-- Balance and reported sale after a settlement through a router. -/
def settledThrough (b : Behaviour) : Option (ℕ × Option ℕ) :=
  match executeSettlement sample b sampleStart 9 sampleParams with
  | .ok (_,w') => some ((w'.tokens 40).balanceOf 80,w'.executor.events.head?.bind Event.sold)
  | .error _ => none

theorem sampleRouter_consumes : ∃ received w',
    executeSettlement sample sampleRouter sampleStart 9 sampleParams = .ok (received,w') ∧
    w'.executor.events.head?.bind Event.sold = some sampleParams.sellAmount ∧
    (w'.tokens 40).balanceOf 80+1000 = (sampleStart.tokens 40).balanceOf 80 ∧
    TakesAll sample sampleRouter sampleStart sampleParams := by
  have hrun : settledThrough sampleRouter = some (3000,some 1000) := by decide +kernel
  have hfunds : (sampleStart.tokens 40).balanceOf 80 = 4000 := by decide +kernel
  unfold settledThrough at hrun
  split at hrun
  · rename_i received w' hok
    obtain ⟨hbalance,-⟩ := Prod.mk.inj (Option.some.inj hrun)
    obtain ⟨hsold,htakes⟩ := weth_consumed_iff sampleStart_reachable hok
    have hpaid : (w'.tokens 40).balanceOf 80+1000 = (sampleStart.tokens 40).balanceOf 80 := by
      rw [hbalance,hfunds]
    exact ⟨received,w',hok,hsold,hpaid,htakes.1 hpaid⟩
  · cases hrun

/-- A router that leaves a tenth of its allowance and still pays the minimum. -/
def sparingRouter : Behaviour :=
  ⟨[.token 40 (.transferFrom 71 80 71 900),.token 50 (.mint 71 80 101)],true⟩

/-- The settlement through it succeeds and reports `1000` sold; the executor paid `900`. -/
theorem sparingRouter_retains : Reachable sample sampleStart ∧
    ∃ received w', executeSettlement sample sparingRouter sampleStart 9 sampleParams =
        .ok (received,w') ∧
      w'.executor.events.head?.bind Event.sold = some sampleParams.sellAmount ∧
      (w'.tokens 40).balanceOf 80+sampleParams.sellAmount ≠ (sampleStart.tokens 40).balanceOf 80 := by
  refine ⟨sampleStart_reachable,?_⟩
  have hrun : settledThrough sparingRouter = some (3100,some 1000) := by decide +kernel
  have hfunds : (sampleStart.tokens 40).balanceOf 80 = 4000 := by decide +kernel
  unfold settledThrough at hrun
  split at hrun
  · rename_i received w' hok
    obtain ⟨hbalance,hsold⟩ := Prod.mk.inj (Option.some.inj hrun)
    refine ⟨received,w',hok,hsold,?_⟩
    rw [hbalance,hfunds]
    decide
  · cases hrun

end GuardedExecutor
end BpsProtocol
