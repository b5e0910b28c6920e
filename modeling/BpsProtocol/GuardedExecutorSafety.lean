import BpsProtocol.GuardedExecutor

/-! Safety of the guarded executor over whole runs.
The replay marks grow with the settlements alone, the cap never passes its ceiling, and the
executor allows nobody between two transactions, whatever the called routers do. -/
namespace BpsProtocol
namespace GuardedExecutor

open Checked Mapping Erc20 Ownable

def Event.settlement : Event → Option (Bytes32 × Uint256)
  | .settlementExecuted digest nonce _ _ _ _ _ _ => some (digest,nonce)
  | _ => none

/-- Digest and nonce of each settlement so far, newest first. -/
def Storage.settlements (e : Storage) : List (Bytes32 × Uint256) :=
  e.events.filterMap Event.settlement

/-- What everything but a settlement keeps of the executor. -/
structure SameReplay (d : Deployment) (e e' : Storage) : Prop where
  consumedDigest : e'.consumedDigest = e.consumedDigest
  usedNonce : e'.usedNonce = e.usedNonce
  settlements : e'.settlements = e.settlements
  cap : e.maxSellAmount d.weth ≤ canaryMaxSellWeth → e'.maxSellAmount d.weth ≤ canaryMaxSellWeth

theorem SameReplay.refl (d : Deployment) (e : Storage) : SameReplay d e e :=
  ⟨rfl,rfl,rfl,id⟩

theorem SameReplay.trans {d : Deployment} {e e' e'' : Storage} (h : SameReplay d e e')
    (h' : SameReplay d e' e'') : SameReplay d e e'' :=
  ⟨h'.consumedDigest.trans h.consumedDigest,h'.usedNonce.trans h.usedNonce,
    h'.settlements.trans h.settlements,fun hc => h'.cap (h.cap hc)⟩

theorem settlements_emit {e : Storage} {event : Event} (h : event.settlement = none) :
    (e.emit event).settlements = e.settlements :=
  List.filterMap_cons_none h

variable {d : Deployment} {w w' : World} {e e' : Storage} {chain : Chain} {sender router : Address}
  {p : SettlementParams} {b : Behaviour} {received : ℕ} {digest : Bytes32}

/-- No setter touches the replay marks, and the one that sets the cap checks the ceiling. -/
theorem AdminCall.exec_sameReplay {call : AdminCall} (h : call.exec d chain e sender = .ok e') :
    SameReplay d e e' := by
  cases call with
  | setApprovedRouterCode codeHash selector =>
    simp only [exec,GuardedExecutor.setApprovedRouterCode,bind_eq_ok,revertIf_eq_ok,exists_const,
      pure_eq_ok] at h
    obtain ⟨_,-,-,-,rfl⟩ := h
    exact ⟨rfl,rfl,settlements_emit rfl,id⟩
  | setTokenPairAllowed sellToken buyToken allowed =>
    simp only [exec,GuardedExecutor.setTokenPairAllowed,bind_eq_ok,revertIf_eq_ok,exists_const,
      pure_eq_ok] at h
    obtain ⟨_,-,-,rfl⟩ := h
    exact ⟨rfl,rfl,settlements_emit rfl,id⟩
  | setMaxSellAmount sellToken maxAmount =>
    simp only [exec,GuardedExecutor.setMaxSellAmount,bind_eq_ok,revertIf_eq_ok,exists_const,
      pure_eq_ok] at h
    obtain ⟨_,-,hweth,hcap,rfl⟩ := h
    refine ⟨rfl,rfl,settlements_emit rfl,fun _ => ?_⟩
    show set e.maxSellAmount sellToken maxAmount d.weth ≤ canaryMaxSellWeth
    rw [not_not.mp hweth,set_same]
    exact Nat.le_of_not_lt hcap
  | setPriceGuard priceGuard =>
    simp only [exec,GuardedExecutor.setPriceGuard,bind_eq_ok,revertIf_eq_ok,exists_const,
      pure_eq_ok] at h
    obtain ⟨_,-,-,-,rfl⟩ := h
    exact ⟨rfl,rfl,settlements_emit rfl,id⟩
  | pause =>
    simp only [exec,GuardedExecutor.pause,bind_eq_ok,revertIf_eq_ok,exists_const,pure_eq_ok] at h
    obtain ⟨_,-,-,rfl⟩ := h
    exact ⟨rfl,rfl,rfl,id⟩
  | unpause =>
    simp only [exec,GuardedExecutor.unpause,bind_eq_ok,revertIf_eq_ok,exists_const,pure_eq_ok] at h
    obtain ⟨_,-,-,-,rfl⟩ := h
    exact ⟨rfl,rfl,rfl,id⟩
  | ownership call =>
    simp only [exec,changeOwnership] at h
    split at h
    · simp only [bind_eq_ok,revertIf_eq_ok,exists_const,pure_eq_ok] at h
      obtain ⟨_,-,-,_,-,rfl⟩ := h
      exact ⟨rfl,rfl,rfl,id⟩
    · simp only [bind_eq_ok,pure_eq_ok] at h
      obtain ⟨_,-,rfl⟩ := h
      exact ⟨rfl,rfl,rfl,id⟩

/-- An outside step calls one token for another account, or leaves the tokens alone. -/
theorem outside_token {step : Outside} (h : outside d w step = .ok w') (x : Address) :
    w'.tokens x = w.tokens x ∨
      ∃ call : Erc20.Call, call.sender ≠ d.here ∧ call.exec (w.tokens x) = .ok (w'.tokens x) := by
  cases step with
  | token asset call =>
    simp only [outside,Ledger.call,bind_eq_ok,revertIf_eq_ok,mapError_eq_ok,exists_const,
      pure_eq_ok] at h
    obtain ⟨hout,_,⟨t,ht,rfl⟩,rfl⟩ := h
    have hne : call.sender ≠ d.here := fun e => hout (by simp [e])
    by_cases hx : x = asset
    · subst hx
      exact Or.inr ⟨call,hne,by simpa using ht⟩
    · exact Or.inl (set_other t hx)
  | admin sender call =>
    simp only [outside,bind_eq_ok,revertIf_eq_ok,exists_const,pure_eq_ok] at h
    obtain ⟨-,_,-,rfl⟩ := h
    exact Or.inl rfl
  | chain chain =>
    cases h
    exact Or.inl rfl

theorem outside_sameReplay {step : Outside} (h : outside d w step = .ok w') :
    SameReplay d w.executor w'.executor := by
  cases step with
  | token asset call =>
    simp only [outside,bind_eq_ok,revertIf_eq_ok,exists_const,pure_eq_ok] at h
    obtain ⟨-,_,-,rfl⟩ := h
    exact .refl d _
  | admin sender call =>
    simp only [outside,bind_eq_ok,revertIf_eq_ok,exists_const,pure_eq_ok] at h
    obtain ⟨-,_,hcall,rfl⟩ := h
    exact AdminCall.exec_sameReplay hcall
  | chain chain =>
    cases h
    exact .refl d _

/-- What a router's call leaves of the executor, when only that router is allowed anything. -/
structure Called (d : Deployment) (router : Address) (w w' : World) : Prop where
  replay : SameReplay d w.executor w'.executor
  kept : ∀ x, x ≠ d.weth → Call.Kept d.here (w.tokens x) (w'.tokens x)
  spent : Call.Spent d.here router (w.tokens d.weth) (w'.tokens d.weth)

theorem outside_called (h0 : d.here ≠ 0) {u : World} (hs : Called d router u w) {step : Outside}
    (h : outside d w step = .ok w') : Called d router u w' := by
  refine ⟨hs.replay.trans (outside_sameReplay h),fun x hx => ?_,?_⟩
  · rcases outside_token h x with heq | ⟨call,hne,hcall⟩
    · rw [heq]
      exact hs.kept x hx
    · exact (hs.kept x hx).trans (Call.exec_kept h0 hne (hs.kept x hx).closed hcall)
  · rcases outside_token h d.weth with heq | ⟨call,hne,hcall⟩
    · rw [heq]
      exact hs.spent
    · exact hs.spent.trans (Call.exec_spent h0 hne hs.spent.others hcall)

theorem run_called (h0 : d.here ≠ 0) (hclosed : ∀ x, x ≠ d.weth → (w.tokens x).Closed d.here)
    (hweth : ∀ r, r ≠ router → (w.tokens d.weth).allowance d.here r = 0) (steps : List Outside) :
    Called d router w (Machine.run (outside d) w steps) :=
  Machine.run_preserves (I := Called d router w) (fun _ _ _ hs h => outside_called h0 hs h)
    ⟨.refl d _,fun x hx => .refl (hclosed x hx),.refl hweth⟩ steps

/-- What a settlement did to the balances, the allowances and the books. -/
structure Settled (d : Deployment) (w w' : World) (p : SettlementParams) (digest : Bytes32) :
    Prop where
  sold : (w.tokens d.weth).balanceOf d.here ≤
    (w'.tokens d.weth).balanceOf d.here+p.sellAmount
  bought : (w.tokens d.stockToken).balanceOf d.here+p.minBuyAmount ≤
    (w'.tokens d.stockToken).balanceOf d.here
  closed : w'.tokens.Closed d.here
  consumedDigest : w'.executor.consumedDigest = set w.executor.consumedDigest digest true
  usedNonce : w'.executor.usedNonce = set w.executor.usedNonce p.nonce true
  settlements : w'.executor.settlements = (digest,p.nonce)::w.executor.settlements
  cap : w.executor.maxSellAmount d.weth ≤ canaryMaxSellWeth →
    w'.executor.maxSellAmount d.weth ≤ canaryMaxSellWeth

theorem settle_ok (h0 : d.here ≠ 0) (hclosed : w.tokens.Closed d.here)
    (hsell : p.sellAmount < Token.infinite)
    (h : settle d b { w with executor := w.executor.consume digest p.nonce } p digest router =
      .ok (received,w')) : Settled d w w' p digest := by
  simp only [settle,bind_eq_ok,revertIf_eq_ok,mapError_eq_ok,sub_eq_ok,exists_const,
    pure_eq_ok] at h
  obtain ⟨-,tokens,happrove,-,_,⟨hle,rfl⟩,hmin,tokens',hclear,-,he⟩ := h
  obtain ⟨-,rfl⟩ := Prod.mk.inj he
  obtain ⟨hf,ha⟩ := Ledger.approve_frame happrove
  obtain ⟨hf',ha'⟩ := Ledger.approve_frame hclear
  have hcalled : ∀ steps, Called d router
      ⟨w.timestamp,tokens,w.chain,w.executor.consume digest p.nonce⟩
      (Machine.run (outside d)
        ⟨w.timestamp,tokens,w.chain,w.executor.consume digest p.nonce⟩ steps) := run_called h0
    (fun x hx r => by
      show (tokens x).allowance d.here r = 0
      rw [ha,if_neg (fun hk => hx hk.1)]
      exact hclosed x r)
    (fun r hr => by
      show (tokens d.weth).allowance d.here r = 0
      rw [ha,if_neg (fun hk => hr hk.2.2)]
      exact hclosed _ r)
  replace hcalled := hcalled b.steps
  have hallow : (tokens d.weth).allowance d.here router = p.sellAmount := by
    rw [ha,if_pos ⟨rfl,rfl,rfl⟩]
  have hbudget := hcalled.spent.budget (by dsimp only; rw [hallow]; exact hsell)
  have hnet := hcalled.spent.net
  dsimp only at hbudget hnet hle hmin
  rw [hallow] at hbudget
  rw [(hf d.weth).1] at hnet
  refine ⟨?_,?_,fun x r => ?_,hcalled.replay.consumedDigest,hcalled.replay.usedNonce,?_,
    hcalled.replay.cap⟩
  · dsimp only
    rw [(hf' d.weth).1]
    omega
  · dsimp only
    rw [(hf' d.stockToken).1]
    omega
  · show (tokens' x).allowance d.here r = 0
    rw [ha']
    split
    · rfl
    · rename_i hk
      by_cases hx : x = d.weth
      · subst hx
        exact hcalled.spent.others r (fun hr => hk ⟨rfl,rfl,hr⟩)
      · exact (hcalled.kept x hx).closed r
  · exact congrArg _ hcalled.replay.settlements

/-- The envelope of a settlement, at the time and in the configuration it is made. -/
structure Envelope (d : Deployment) (w : World) (sender : Address) (p : SettlementParams)
    (router : Address) : Prop where
  owner : w.executor.ownership.owner = sender
  unpaused : w.executor.paused = false
  chain : w.chain.chainId = robinhoodChainId
  direction : p.sellToken = d.weth ∧ p.buyToken = d.stockToken
  pair : w.executor.pairAllowed d.weth d.stockToken = true
  amount : 0 < p.sellAmount ∧ p.sellAmount ≤ w.executor.maxSellAmount d.weth
  minimum : 0 < p.minBuyAmount
  fees : p.platformFeeBps ≤ maxPlatformFeeBps ∧ p.integratorFeePresent = false ∧
    p.slippageBps ≤ maxSlippageBps
  deadline : w.timestamp ≤ p.deadline ∧ p.deadline ≤ w.timestamp+maxDeadlineHorizonSec
  registry : w.chain.ownerOf swapRouterFeatureId = some router ∧ p.target = router
  codeHash : w.executor.approvedRouterCodeHash ≠ 0 ∧
    d.keccak256 (w.chain.code router) = w.executor.approvedRouterCodeHash
  selector : w.executor.approvedSelector ≠ 0 ∧
    leadingSelector p.callData = w.executor.approvedSelector ∧ p.selector = w.executor.approvedSelector
  callData : d.keccak256 p.callData = p.calldataHash
  digest : digestFor d w.chain.chainId p = p.intentDigest
  price : w.executor.priceGuard ≠ 0 ∧ w.chain.check w.executor.priceGuard d.weth d.stockToken
    p.sellAmount p.minBuyAmount maxPriceDeviationBps = true
  fresh : w.executor.consumedDigest p.intentDigest = false ∧ w.executor.usedNonce p.nonce = false

theorem executeSettlement_ok (h : executeSettlement d b w sender p = .ok (received,w')) :
    ∃ router, Envelope d w sender p router ∧
      settle d b { w with executor := w.executor.consume p.intentDigest p.nonce } p p.intentDigest
        router = .ok (received,w') := by
  simp only [executeSettlement,onlyOwner,checkRequest,lockRouter,bind_eq_ok,revertIf_eq_ok,
    mapError_eq_ok,checkOwner_eq_ok,orRevert_eq_ok,exists_const,pure_eq_ok] at h
  obtain ⟨howner,hpaused,⟨hchain,hguard,hcode,hdirection,hpair,hamount,-,hcap,hfee,hintegrator,
    hslippage,hdeadline,hhorizon,-,hcalldata,hleading,hselector⟩,hdigest,hconsumed,hused,router,
    ⟨_,hregistry,-,htarget,-,-,hcodehash,rfl⟩,hprice,hsettle⟩ := h
  rw [not_or] at hcode hdirection hamount hdeadline
  have hd := not_not.mp hdigest
  rw [hd] at hconsumed hsettle
  refine ⟨_,⟨howner,by simpa using hpaused,not_not.mp hchain,
    ⟨not_not.mp hdirection.1,not_not.mp hdirection.2⟩,by simpa using hpair,
    ⟨Nat.pos_of_ne_zero hamount.1,Nat.le_of_not_lt hcap⟩,Nat.pos_of_ne_zero hamount.2,
    ⟨Nat.le_of_not_lt hfee,by simpa using hintegrator,Nat.le_of_not_lt hslippage⟩,
    ⟨Nat.le_of_not_lt hdeadline.2,by omega⟩,⟨hregistry,not_not.mp htarget⟩,
    ⟨hcode.1,not_not.mp hcodehash⟩,
    ⟨hcode.2,(not_not.mp hleading).trans (not_not.mp hselector),not_not.mp hselector⟩,
    not_not.mp hcalldata,hd,⟨hguard,by simpa using hprice⟩,
    ⟨by simpa using hconsumed,by simpa using hused⟩⟩,hsettle⟩

/-- The errors of a deadline are raised by the checks on the request alone. -/
theorem executeSettlement_deadline {e : Error}
    (he : e = .missingOrExpiredDeadline ∨ e = .deadlineTooFar)
    (h : executeSettlement d b w sender p = .error e) : checkRequest d w p = .error e := by
  have hsettle : ∀ w digest router, settle d b w p digest router ≠ .error e := by
    intro w digest router
    rcases he with rfl | rfl <;>
      simp [settle,bind_eq_error,revertIf_eq_error,mapError_eq_error,sub_eq_error,map_eq_error]
  have hlock : lockRouter d w p ≠ .error e := by
    rcases he with rfl | rfl <;>
      simp [lockRouter,bind_eq_error,revertIf_eq_error,orRevert_eq_error,map_eq_error]
  simp only [executeSettlement,onlyOwner,bind_eq_error,revertIf_eq_error,mapError_eq_error] at h
  rcases he with rfl | rfl <;> simp_all

theorem executeSettlement_ne_expired (hpos : 0 < p.deadline) (hle : w.timestamp ≤ p.deadline) :
    executeSettlement d b w sender p ≠ .error .missingOrExpiredDeadline := by
  intro h
  have hcheck := executeSettlement_deadline (Or.inl rfl) h
  simp [checkRequest,bind_eq_error,revertIf_eq_error] at hcheck
  omega

theorem executeSettlement_ne_tooFar (hle : p.deadline ≤ w.timestamp+maxDeadlineHorizonSec) :
    executeSettlement d b w sender p ≠ .error .deadlineTooFar := by
  intro h
  have hcheck := executeSettlement_deadline (Or.inr rfl) h
  simp [checkRequest,bind_eq_error,revertIf_eq_error] at hcheck
  omega

/-- No amount within the cap is the infinite allowance. -/
theorem Envelope.amount_lt (h : Envelope d w sender p router)
    (hcap : w.executor.maxSellAmount d.weth ≤ canaryMaxSellWeth) : p.sellAmount < Token.infinite := by
  have hle := h.amount.2.trans hcap
  have hlt : canaryMaxSellWeth < Token.infinite := by
    unfold canaryMaxSellWeth Token.infinite wordBound
    norm_num
  omega

/-- The invariant of every run: the marks are exactly those of the settlements made. -/
structure Guarded (d : Deployment) (w : World) : Prop where
  here_ne_zero : d.here ≠ 0
  closed : w.tokens.Closed d.here
  cap : w.executor.maxSellAmount d.weth ≤ canaryMaxSellWeth
  digests : ∀ digest, w.executor.consumedDigest digest = true ↔
    digest ∈ w.executor.settlements.map Prod.fst
  nonces : ∀ nonce, w.executor.usedNonce nonce = true ↔
    nonce ∈ w.executor.settlements.map Prod.snd
  digests_nodup : (w.executor.settlements.map Prod.fst).Nodup
  nonces_nodup : (w.executor.settlements.map Prod.snd).Nodup

theorem Initial.guarded (h : Initial d w) : Guarded d w := by
  obtain ⟨controller,-,he⟩ := h.executor
  refine ⟨h.here_ne_zero,h.closed,?_,?_,?_,?_,?_⟩ <;>
    simp [he,Storage.deployed,Storage.settlements]

/-- A step that makes no settlement keeps the invariant. -/
theorem Guarded.of_sameReplay (hs : Guarded d w) (hr : SameReplay d w.executor w'.executor)
    (hclosed : w'.tokens.Closed d.here) : Guarded d w' := by
  refine ⟨hs.here_ne_zero,hclosed,hr.cap hs.cap,?_,?_,?_,?_⟩
  · rw [hr.consumedDigest,hr.settlements]
    exact hs.digests
  · rw [hr.usedNonce,hr.settlements]
    exact hs.nonces
  · rw [hr.settlements]
    exact hs.digests_nodup
  · rw [hr.settlements]
    exact hs.nonces_nodup

theorem Settled.guarded (hs : Guarded d w) (h : Settled d w w' p digest)
    (hdigest : w.executor.consumedDigest digest = false)
    (hnonce : w.executor.usedNonce p.nonce = false) : Guarded d w' := by
  have hd : digest ∉ w.executor.settlements.map Prod.fst := fun hm => by
    rw [(hs.digests digest).mpr hm] at hdigest
    cases hdigest
  have hn : p.nonce ∉ w.executor.settlements.map Prod.snd := fun hm => by
    rw [(hs.nonces p.nonce).mpr hm] at hnonce
    cases hnonce
  refine ⟨hs.here_ne_zero,h.closed,h.cap hs.cap,fun x => ?_,fun x => ?_,?_,?_⟩
  · rw [h.consumedDigest,h.settlements,set_apply,List.map_cons,List.mem_cons,← hs.digests x]
    split <;> simp_all
  · rw [h.usedNonce,h.settlements,set_apply,List.map_cons,List.mem_cons,← hs.nonces x]
    split <;> simp_all
  · rw [h.settlements]
    exact List.nodup_cons.mpr ⟨hd,hs.digests_nodup⟩
  · rw [h.settlements]
    exact List.nodup_cons.mpr ⟨hn,hs.nonces_nodup⟩

/-- What a successful settlement from a guarded state did. -/
theorem executeSettlement_settled (hs : Guarded d w)
    (h : executeSettlement d b w sender p = .ok (received,w')) :
    ∃ router, Envelope d w sender p router ∧ Settled d w w' p p.intentDigest := by
  obtain ⟨router,henv,hsettle⟩ := executeSettlement_ok h
  exact ⟨router,henv,settle_ok hs.here_ne_zero hs.closed (henv.amount_lt hs.cap) hsettle⟩

theorem recover_ok {token : Address} {amount : ℕ} (hclosed : w.tokens.Closed d.here)
    (h : recover d w sender token amount = .ok w') :
    SameReplay d w.executor w'.executor ∧ w'.tokens.Closed d.here := by
  simp only [recover,bind_eq_ok,mapError_eq_ok,pure_eq_ok] at h
  obtain ⟨_,-,tokens,ht,rfl⟩ := h
  exact ⟨⟨rfl,rfl,settlements_emit rfl,id⟩,(Ledger.transfer_ok ht).2.2.closed hclosed⟩

theorem outside_closed {step : Outside} (h0 : d.here ≠ 0) (hclosed : w.tokens.Closed d.here)
    (h : outside d w step = .ok w') : w'.tokens.Closed d.here := by
  intro x
  rcases outside_token h x with heq | ⟨call,hne,hcall⟩
  · rw [heq]
    exact hclosed x
  · exact (Call.exec_kept h0 hne (hclosed x) hcall).closed

/-- The step lemma; a settlement adds itself to the list, everything else leaves it. -/
theorem exec_guarded {tx : Tx} (hs : Guarded d w) (h : exec d w tx = .ok w') :
    Guarded d w' ∧ w.executor.settlements <:+ w'.executor.settlements := by
  cases tx with
  | elapse seconds =>
    cases h
    exact ⟨{ hs with },List.suffix_refl _⟩
  | outside step =>
    have hr := outside_sameReplay h
    refine ⟨hs.of_sameReplay hr (outside_closed hs.here_ne_zero hs.closed h),?_⟩
    rw [hr.settlements]
  | recover sender token amount =>
    obtain ⟨hr,hclosed⟩ := recover_ok hs.closed h
    refine ⟨hs.of_sameReplay hr hclosed,?_⟩
    rw [hr.settlements]
  | executeSettlement sender params router =>
    simp only [exec,bind_eq_ok,pure_eq_ok] at h
    obtain ⟨⟨received,u⟩,hu,rfl⟩ := h
    obtain ⟨r,henv,hset⟩ := executeSettlement_settled hs hu
    refine ⟨hset.guarded hs henv.fresh.1 henv.fresh.2,?_⟩
    dsimp only
    rw [hset.settlements]
    exact List.suffix_cons _ _

theorem Reachable.guarded (h : Reachable d w) : Guarded d w :=
  Machine.Reachable.invariant (fun _ hi => hi.guarded)
    (fun _ _ _ hs hx => (exec_guarded hs hx).1) h

/-- Along every run the settlements made so far have pairwise different digests and pairwise
different nonces, and none is ever forgotten.  Each further settlement either fails and
leaves the world as it was, or satisfies the whole envelope of its own time, sells at most
its amount, buys at least its minimum and leaves no allowance to anyone. -/
theorem settlements_guarded (h : Reachable d w) :
    (w.executor.settlements.map Prod.fst).Nodup ∧ (w.executor.settlements.map Prod.snd).Nodup ∧
    (∀ txs, w.executor.settlements <:+ (Machine.run (exec d) w txs).executor.settlements) ∧
    w.executor.maxSellAmount d.weth ≤ canaryMaxSellWeth ∧
    ∀ sender p b,
      (∃ e, executeSettlement d b w sender p = .error e ∧
        Machine.commit (exec d) w (.executeSettlement sender p b) = w) ∨
      ∃ received w' router, executeSettlement d b w sender p = .ok (received,w') ∧
        Machine.commit (exec d) w (.executeSettlement sender p b) = w' ∧
        Envelope d w sender p router ∧ Settled d w w' p p.intentDigest := by
  have hs := h.guarded
  refine ⟨hs.digests_nodup,hs.nonces_nodup,fun txs => ?_,hs.cap,fun sender p b => ?_⟩
  · exact Machine.run_related (I := Guarded d)
      (R := fun a b : World => a.executor.settlements <:+ b.executor.settlements)
      (fun _ => List.suffix_refl _) (fun _ _ _ hab hbc => hab.trans hbc)
      (fun _ _ _ hi hx => exec_guarded hi hx) hs txs
  · cases hx : executeSettlement d b w sender p with
    | error e =>
      refine Or.inl ⟨e,rfl,Machine.commit_error (e := e) ?_⟩
      simp only [exec,hx,error_bind]
    | ok result =>
      obtain ⟨received,w'⟩ := result
      obtain ⟨router,henv,hset⟩ := executeSettlement_settled hs hx
      refine Or.inr ⟨received,w',router,rfl,Machine.commit_ok ?_,henv,hset⟩
      simp only [exec,hx,ok_bind]
      rfl

/-- An executor for runs on fixed inputs: WETH is token `40`, the stock token `50`, the
registry `70` names the router `71`, and `9` controls. -/
def sample : Deployment := ⟨80,40,50,70,MerkleProof.toyHash,by decide,by decide⟩

def sampleChain : Chain :=
  ⟨4663,fun _ => some 71,fun a => if a = 71 then [7] else [8],fun _ _ _ _ _ _ => true⟩

def sampleRequest : SettlementParams where
  sellToken := 40
  buyToken := 50
  sellAmount := 1000
  minBuyAmount := 100
  target := 71
  selector := 0x01020304
  callData := [1,2,3,4,5]
  platformFeeBps := 5
  integratorFeePresent := false
  slippageBps := 100
  nonce := 1
  deadline := 300
  intentDigest := 0
  calldataHash := sample.keccak256 [1,2,3,4,5]

def sampleParams : SettlementParams :=
  { sampleRequest with intentDigest := digestFor sample 4663 sampleRequest }

/-- A router that takes all it is allowed and pays `101` units, and whose attempt to pause
the executor fails. -/
def sampleRouter : Behaviour :=
  ⟨[.token 40 (.transferFrom 71 80 71 1000),.admin 71 .pause,.token 50 (.mint 71 80 101)],true⟩

/-- The executor, configured and funded. -/
def sampleStart : World :=
  Machine.run (exec sample) ⟨0,fun _ => Token.empty,sampleChain,.deployed 9⟩
    [.outside (.admin 9 (.setApprovedRouterCode (sample.keccak256 [7]) 0x01020304)),
      .outside (.admin 9 (.setTokenPairAllowed 40 50 true)),
      .outside (.admin 9 (.setMaxSellAmount 40 5000)),.outside (.admin 9 (.setPriceGuard 72)),
      .outside (.admin 9 .unpause),.outside (.token 40 (.mint 2 80 4000))]

theorem sampleStart_reachable : Reachable sample sampleStart :=
  (Machine.Reachable.of_init ⟨by decide,⟨9,by decide,rfl⟩,fun _ _ => rfl⟩).run _

theorem sample_settled : ∃ received w' router,
    executeSettlement sample sampleRouter sampleStart 9 sampleParams = .ok (received,w') ∧
    Machine.commit (exec sample) sampleStart (.executeSettlement 9 sampleParams sampleRouter) = w' ∧
    Envelope sample sampleStart 9 sampleParams router ∧
    Settled sample sampleStart w' sampleParams sampleParams.intentDigest := by
  have hok : (executeSettlement sample sampleRouter sampleStart 9 sampleParams).isOk = true := by
    decide +kernel
  rcases (settlements_guarded sampleStart_reachable).2.2.2.2 9 sampleParams sampleRouter with
    ⟨e,he,-⟩ | h
  · rw [he] at hok
    cases hok
  · exact h

end GuardedExecutor
end BpsProtocol
