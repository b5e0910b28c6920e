import BpsProtocol.RialtoAdapter
import BpsProtocol.StockVaultAccounting

/-! Safety of an acquisition through the settlement adapter, against any quote and router.
The adapter checks what the router took and brought, the vault checks what the adapter took
and brought.  Together they leave one outcome for each acquisition that does not revert. -/
namespace BpsProtocol
namespace RialtoAdapter

open Checked Mapping Erc20

variable {s : System} {a : Deployment} {vault : StockVault.Deployment} {call : Router}
  {timestamp wethAmountIn minStockOut deadline acquired : ℕ} {sender stockToken router : Address}
  {executionData : Option RialtoExecution} {ex : RialtoExecution} {l l' : Ledger}
  {others others' : Chain × List LowLevelCall}

/-- The only target that passes is the one the registry names now, and it is none of the
contracts that the acquisition itself trusts. -/
structure Locked (a : Deployment) (chain : Chain) (stockToken : Address) (ex : RialtoExecution)
    (router : Address) : Prop where
  registry : chain.ownerOf swapRouterFeatureId = some router
  target : ex.target = router
  code : chain.hasCode router = true
  outside : router ∉ [a.routerRegistry,a.stockAcquisitionVault,a.here,a.weth,stockToken]

theorem lockRouter_ok {chain : Chain} (h : lockRouter a chain stockToken ex = .ok router) :
    Locked a chain stockToken ex router := by
  simp only [lockRouter,bind_eq_ok,revertIf_eq_ok,orRevert_eq_ok,exists_const,pure_eq_ok] at h
  obtain ⟨r,hr,-,htarget,hcode,hout,rfl⟩ := h
  exact ⟨hr,not_not.mp htarget,by simpa using hcode,hout⟩

/-- What a completed `acquireStock` did, beside what the vault checks again. -/
structure Executed (a : Deployment) (timestamp : ℕ) (stockToken : Address)
    (executionData : Option RialtoExecution) (others : Chain × List LowLevelCall) (l' : Ledger)
    (others' : Chain × List LowLevelCall) (ex : RialtoExecution) (router : Address) : Prop where
  decoded : executionData = some ex
  fresh : timestamp ≤ ex.quoteDeadline
  selector : 4 ≤ ex.callData.length
  locked : Locked a others.1 stockToken ex router
  calls : others'.2 = ⟨router,ex.callData⟩::others.2
  cleared : (l' a.weth).allowance a.here router = 0

theorem executeQuote_ok {wethBefore stockBefore : ℕ}
    (h : executeQuote a call stockToken wethAmountIn minStockOut wethBefore stockBefore router ex l
      others = .ok (acquired,(l',others'))) :
    others'.2 = ⟨router,ex.callData⟩::others.2 ∧ (l' a.weth).allowance a.here router = 0 := by
  simp only [executeQuote,bind_eq_ok,revertIf_eq_ok,mapError_eq_ok,sub_eq_ok,orRevert_eq_ok,
    exists_const,pure_eq_ok] at h
  obtain ⟨_,-,⟨_,_⟩,-,_,-,_,-,-,-,hremaining,he⟩ := h
  obtain ⟨-,hchain⟩ := Prod.mk.inj he
  obtain ⟨rfl,rfl⟩ := Prod.mk.inj hchain
  exact ⟨rfl,not_not.mp hremaining⟩

theorem acquireStock_ok
    (h : acquireStock a vault call timestamp sender stockToken wethAmountIn minStockOut deadline
      executionData l others = .ok (acquired,(l',others'))) :
    ∃ ex router, Executed a timestamp stockToken executionData others l' others' ex router := by
  simp only [acquireStock,bind_eq_ok,revertIf_eq_ok,mapError_eq_ok,sub_eq_ok,orRevert_eq_ok,
    exists_const,pure_eq_ok] at h
  obtain ⟨-,-,hinvalid,-,-,-,ex,hex,hfresh,hselector,router,hlock,l₁,-,_,-,-,⟨r,l₂,o⟩,hquote,l₃,
    htransfer,-,he⟩ := h
  obtain ⟨rfl,hchain⟩ := Prod.mk.inj he
  obtain ⟨rfl,rfl⟩ := Prod.mk.inj hchain
  obtain ⟨hcalls,hcleared⟩ := executeQuote_ok hquote
  obtain ⟨-,-,hpaid⟩ := Ledger.transfer_ok htransfer
  refine ⟨ex,router,hex,by omega,by omega,lockRouter_ok hlock,hcalls,?_⟩
  rw [hpaid.others a.weth (Ne.symm hinvalid)]
  exact hcleared

/-- What a successful acquisition did: it consumed exactly its input, credited at least the
minimum of the chosen token and of no other, left the adapter as it was and no allowance
behind, and called the registry's router once and nothing else. -/
structure Settled (s : System) (w w' : World) (stockToken : Address)
    (wethAmountIn minStockOut acquired : ℕ) (executionData : Option RialtoExecution)
    (router : Address) : Prop where
  payload : ∃ ex, executionData = some ex ∧ ex.target = router ∧
    w.timestamp ≤ ex.quoteDeadline ∧ w'.others.2 = ⟨router,ex.callData⟩::w.others.2
  registry : w.others.1.ownerOf swapRouterFeatureId = some router
  approved : s.vault.isApprovedStockToken stockToken = true
  minimum : minStockOut ≤ acquired
  wethSpent : (w'.tokens s.vault.weth).balanceOf s.vault.here+wethAmountIn =
    (w.tokens s.vault.weth).balanceOf s.vault.here
  stock : (w'.tokens stockToken).balanceOf s.vault.here+
      (acquired-StockVault.distributionShare acquired) =
    (w.tokens stockToken).balanceOf s.vault.here+acquired
  credited : w'.stock.totalStockAcquired = set w.stock.totalStockAcquired stockToken
    (w.stock.totalStockAcquired stockToken+acquired)
  adapterWeth : (w'.tokens s.vault.weth).balanceOf s.adapter.here =
    (w.tokens s.vault.weth).balanceOf s.adapter.here
  adapterStock : (w'.tokens stockToken).balanceOf s.adapter.here =
    (w.tokens stockToken).balanceOf s.adapter.here
  routerAllowance : (w'.tokens s.vault.weth).allowance s.adapter.here router = 0
  adapterAllowance : (w'.tokens s.vault.weth).allowance s.vault.here s.adapter.here = 0

/-- A payment of the vault to the reserve, if there is anything to pay, leaves the other
tokens and the adapter's balance as they were. -/
theorem transferPositive_balances {target : Address} {amount : ℕ} (hne : target ≠ s.vault.here)
    (h : l.transferPositive stockToken s.vault.here target amount = .ok l') :
    (∀ x, x ≠ stockToken → l' x = l x) ∧
    (l' stockToken).balanceOf s.vault.here+amount = (l stockToken).balanceOf s.vault.here ∧
    ∀ b, b ≠ s.vault.here → b ≠ target → (l' stockToken).balanceOf b = (l stockToken).balanceOf b := by
  rcases Ledger.transferPositive_ok h with ⟨-,h⟩ | ⟨rfl,rfl⟩
  · obtain ⟨-,-,hp⟩ := Ledger.transfer_ok h
    have hb := hp.moved.balances s.vault.here
    rw [if_pos rfl,if_neg (Ne.symm hne)] at hb
    refine ⟨hp.others,hb,fun b hb₁ hb₂ => ?_⟩
    have hbal := hp.moved.balances b
    rwa [if_neg hb₁,if_neg hb₂] at hbal
  · exact ⟨fun _ _ => rfl,rfl,fun _ _ _ => rfl⟩

theorem executeAcquisition_ok {w w' : World}
    (h : executeAcquisition s call w sender stockToken wethAmountIn minStockOut deadline
      executionData = .ok (acquired,w')) :
    ∃ router, Settled s w w' stockToken wethAmountIn minStockOut acquired executionData router := by
  have ha := StockVault.executeAcquisition_ok h
  obtain ⟨tokens,hconv,hreserve⟩ := ha.converted
  obtain ⟨approved,called,happrove,hcall,hclear⟩ := hconv.called
  unfold asAdapter at hcall
  split at hcall
  · cases hcall
  rename_i result hacquire
  cases hcall
  obtain ⟨ex,router,hex⟩ := acquireStock_ok hacquire
  have hweth := StockVault.approved_ne_weth ha.approved
  have hreserve_ne : s.vault.reserveRecipient ≠ s.vault.here := fun e =>
    s.vault.reserve_distinct (by simp [e])
  have hadapter_vault : s.adapter.here ≠ s.vault.here := by
    rw [← s.adapter_here]
    exact fun e => s.vault.adapter_distinct (by simp [e])
  have hadapter_reserve : s.adapter.here ≠ s.vault.reserveRecipient := by
    rw [← s.adapter_here]
    exact fun e => s.vault.reserve_distinct (by simp [← e])
  obtain ⟨hother,hvault,hbystander⟩ := transferPositive_balances hreserve_ne hreserve
  have hw : w'.tokens s.vault.weth = tokens s.vault.weth := hother _ (Ne.symm hweth)
  have hallow := (Ledger.approve_frame hclear).2 s.vault.weth
  refine ⟨router,⟨ex,hex.decoded,hex.locked.target,hex.fresh,hex.calls⟩,hex.locked.registry,
    ha.approved,hconv.minimum,?_,?_,ha.totalStockAcquired,?_,?_,?_,?_⟩
  · rw [hw]
    exact hconv.weth
  · rw [hvault]
    exact hconv.stock
  · rw [hw,← s.adapter_here]
    exact hconv.adapterWeth
  · rw [hbystander _ hadapter_vault hadapter_reserve,← s.adapter_here]
    exact hconv.adapterStock
  · rw [hw,hallow,if_neg (fun e => hadapter_vault e.2.1),← s.weth]
    exact hex.cleared
  · rw [hw,hallow,if_pos ⟨rfl,rfl,s.adapter_here.symm⟩]

/-- For every payload and every behaviour of the router, an acquisition either reverts and
leaves the world as it was, or it settled. -/
theorem executeAcquisition_reverted_or_settled (s : System) (call : Router) (w : World)
    (sender stockToken : Address) (wethAmountIn minStockOut deadline : ℕ)
    (executionData : Option RialtoExecution) :
    (∃ e, executeAcquisition s call w sender stockToken wethAmountIn minStockOut deadline
        executionData = .error e ∧
      Machine.commit (exec s) w (.executeAcquisition sender stockToken wethAmountIn minStockOut
        deadline executionData call) = w) ∨
    ∃ acquired w' router,
      executeAcquisition s call w sender stockToken wethAmountIn minStockOut deadline
        executionData = .ok (acquired,w') ∧
      Machine.commit (exec s) w (.executeAcquisition sender stockToken wethAmountIn minStockOut
        deadline executionData call) = w' ∧
      Settled s w w' stockToken wethAmountIn minStockOut acquired executionData router := by
  cases h : executeAcquisition s call w sender stockToken wethAmountIn minStockOut deadline
    executionData with
  | error e =>
    refine Or.inl ⟨e,rfl,Machine.commit_error (e := e) ?_⟩
    simp only [exec,h,error_bind]
  | ok result =>
    obtain ⟨acquired,w'⟩ := result
    obtain ⟨router,hsettled⟩ := executeAcquisition_ok h
    refine Or.inr ⟨acquired,w',router,rfl,Machine.commit_ok ?_,hsettled⟩
    simp only [exec,h,ok_bind]
    rfl

/-- The vault and the adapter for runs on fixed inputs: WETH is token `40`, the one stock
token `50`, the registry `70` names the router `71`. -/
def sample : System where
  vault := StockVault.sample
  adapter := ⟨41,201,40,70,by decide,by decide⟩
  adapter_here := rfl
  vault_here := rfl
  weth := rfl

/-- A router that takes all it is allowed and pays `101` units of stock. -/
def sampleRouter : Router := fun _ chain =>
  match chain.1.transferFrom 40 71 41 71 1000 with
  | .error _ => none
  | .ok tokens => match tokens.call 50 (.mint 71 41 101) with
    | .error _ => none
    | .ok tokens => some (tokens,chain.2)

def sampleStart : World :=
  Machine.run (exec sample)
    ⟨0,fun _ => Token.empty,(⟨fun _ => some 71,fun _ => true⟩,[]),.deployed⟩
    [.token 40 (.mint 2 201 1000),.token 40 (.mint 2 41 5)]

example : (executeAcquisition sample sampleRouter sampleStart 200 50 1000 100 0
    (some ⟨71,[1,2,3,4],0⟩)).toOption.map Prod.fst = some 101 := by decide +kernel

example : (executeAcquisition sample sampleRouter sampleStart 200 50 1000 100 0
    (some ⟨72,[1,2,3,4],0⟩)).isOk = false := by decide +kernel

end RialtoAdapter
end BpsProtocol
