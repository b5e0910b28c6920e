import BpsProtocol.FeedAcceptance
import BpsProtocol.Manifest
import BpsProtocol.SnapshotPipeline
import BpsProtocol.TradeRouterSteps

/-! `buildTradePreview`: what the application shows of a trade before it is confirmed.
A buy is split from its input, as the router does.  A sell is split from the proceeds, for
which the expected output of the user stands in where the request gives none. -/
namespace BpsProtocol
namespace Trading

open Checked Binary64 HexText Shared LeafEncoding Manifest Eligibility

def BPS_DENOMINATOR : ℤ := 10000
def BUY_STOCK_BPS : ℤ := 200
def BUY_BURN_BPS : ℤ := 100
def SELL_STOCK_BPS : ℤ := 200
def SELL_BURN_BPS : ℤ := 200

structure TradeAllocation where
  gross : ℤ
  stockBudget : ℤ
  burnBudget : ℤ
  userAmount : ℤ
  totalProtocolBps : ℤ
  deriving DecidableEq

inductive PreviewError
  | noLiveDeployment
  | wrongChain
  | zeroInput
  | slippageOutOfRange
  | notAnInteger
  | negativeInput
  | negativeProceeds
  | encoding
  deriving DecidableEq

/-- Division of bigints truncates toward zero. -/
def floorBps (amount bps : ℤ) : ℤ := (amount*bps).tdiv BPS_DENOMINATOR

def buyAllocation (grossWeth : ℤ) : Except PreviewError TradeAllocation := do
  revertIf (grossWeth < 0) .negativeInput
  let stockBudget := floorBps grossWeth BUY_STOCK_BPS
  let burnBudget := floorBps grossWeth BUY_BURN_BPS
  let userAmount := grossWeth-stockBudget-burnBudget
  return { gross := grossWeth, stockBudget, burnBudget, userAmount, totalProtocolBps := 300 }

def sellAllocation (actualWethProceeds : ℤ) : Except PreviewError TradeAllocation := do
  revertIf (actualWethProceeds < 0) .negativeProceeds
  let stockBudget := floorBps actualWethProceeds SELL_STOCK_BPS
  let burnBudget := floorBps actualWethProceeds SELL_BURN_BPS
  let userAmount := actualWethProceeds-stockBudget-burnBudget
  return { gross := actualWethProceeds, stockBudget, burnBudget, userAmount
           totalProtocolBps := 400 }

inductive TradeDirection
  | buy
  | sell
  deriving DecidableEq

structure TradeRequest where
  direction : TradeDirection
  amountIn : ℤ
  expectedUserOut : ℤ
  expectedWethProceeds : Option ℤ
  slippageBps : Number
  recipient : Text
  nowSec : ℤ
  ttlSec : ℤ
  poolFee : Option Number

inductive AllowanceToken
  | weth
  | bps
  deriving DecidableEq

/-- The calls of the router that a preview encodes, by their typed arguments. -/
inductive Calldata
  | buyExactWethForBps (grossWethInput minimumUserBpsOutput minimumBurnBpsOutput : ℕ)
      (recipient : Address) (deadline : ℕ)
  | sellExactBpsForWeth
      (grossBpsInput minimumGrossWethOutput minimumUserWethOutput minimumBurnBpsOutput : ℕ)
      (recipient : Address) (deadline : ℕ)
  deriving DecidableEq

structure TradePreview where
  direction : TradeDirection
  chainId : Number
  target : Text
  amountIn : ℤ
  minUserOut : ℤ
  allocation : TradeAllocation
  stockAcquisitionFunding : ℤ
  bpsBurnComponent : ℤ
  totalDeductions : ℤ
  totalProtocolBps : ℤ
  deadline : ℤ
  allowanceToken : AllowanceToken
  allowanceAmount : ℤ
  poolFee : Option Number
  calldata : Calldata
  deriving DecidableEq

/-- `BigInt` throws on a number that is no integer. -/
def applySlippage (amount : ℤ) (slippageBps : Number) : Except PreviewError ℤ := do
  revertIf (slippageBps.lt (.ofRat 0) = true ∨ (Number.ofRat 10000).lt slippageBps = true)
    .slippageOutOfRange
  let kept ← orRevert .notAnInteger
    (FeedAcceptance.bigIntOf ((Number.ofRat 10000).sub slippageBps))
  return (amount*kept).tdiv 10000

variable (keccak256 : Hash)

/-- An address argument; no value where viem throws. -/
def addressArgument (address : Text) : Option Address := do
  let _ ← viemAddress keccak256 address
  addressOf address

open SnapshotPipeline in
/-- `encodeFunctionData` of a buy. -/
def encodeBuy (req : TradeRequest) (minUserOut deadline : ℤ) : Option Calldata := do
  let amountIn ← uintArgument 256 req.amountIn
  let minUserOut ← uintArgument 256 minUserOut
  let recipient ← addressArgument keccak256 req.recipient
  let deadline ← uintArgument 256 deadline
  return .buyExactWethForBps amountIn minUserOut 0 recipient deadline

open SnapshotPipeline in
/-- `encodeFunctionData` of a sell. -/
def encodeSell (req : TradeRequest) (minUserOut deadline : ℤ) : Option Calldata := do
  let amountIn ← uintArgument 256 req.amountIn
  let minUserOut ← uintArgument 256 minUserOut
  let recipient ← addressArgument keccak256 req.recipient
  let deadline ← uintArgument 256 deadline
  return .sellExactBpsForWeth amountIn 0 minUserOut 0 recipient deadline

def buildTradePreview (req : TradeRequest) : DeploymentState → Except PreviewError TradePreview
  | .live deployment => do
    revertIf (Number.strictEq deployment.chainId (.ofRat ROBINHOOD_CHAIN_ID) = false) .wrongChain
    revertIf (req.amountIn ≤ 0) .zeroInput
    let target := deployment.addresses .tradeRouter
    let deadline := req.nowSec+req.ttlSec
    let minUserOut ← applySlippage req.expectedUserOut req.slippageBps
    match req.direction with
    | .buy => do
      let allocation ← buyAllocation req.amountIn
      let calldata ← orRevert .encoding (encodeBuy keccak256 req minUserOut deadline)
      return {
        direction := .buy
        chainId := deployment.chainId
        target
        amountIn := req.amountIn
        minUserOut
        allocation
        stockAcquisitionFunding := allocation.stockBudget
        bpsBurnComponent := allocation.burnBudget
        totalDeductions := allocation.stockBudget+allocation.burnBudget
        totalProtocolBps := allocation.totalProtocolBps
        deadline
        allowanceToken := .weth
        allowanceAmount := req.amountIn
        poolFee := req.poolFee
        calldata }
    | .sell => do
      let proceeds := req.expectedWethProceeds.getD req.expectedUserOut
      let allocation ← sellAllocation proceeds
      let calldata ← orRevert .encoding (encodeSell keccak256 req minUserOut deadline)
      return {
        direction := .sell
        chainId := deployment.chainId
        target
        amountIn := req.amountIn
        minUserOut
        allocation
        stockAcquisitionFunding := allocation.stockBudget
        bpsBurnComponent := allocation.burnBudget
        totalDeductions := allocation.stockBudget+allocation.burnBudget
        totalProtocolBps := allocation.totalProtocolBps
        deadline
        allowanceToken := .bps
        allowanceAmount := req.amountIn
        poolFee := req.poolFee
        calldata }
  | _ => .error .noLiveDeployment

/-- Whole basis points are taken off exactly. -/
theorem applySlippage_ofInt {amount n : ℤ} {h : |n| ≤ 2^53} (hnonneg : 0 ≤ n) (hle : n ≤ 10000) :
    applySlippage amount (.finite (.ofInt n h)) = .ok ((amount*(10000-n)).tdiv 10000) := by
  have hzero : Number.ofRat 0 = .finite (.ofInt 0 (by decide)) := by
    exact_mod_cast Number.ofRat_intCast (n := 0) (by decide)
  have hfull : Number.ofRat 10000 = .finite (.ofInt 10000 (by decide)) := by
    exact_mod_cast Number.ofRat_intCast (n := 10000) (by decide)
  have hkept : (Number.ofRat 10000).sub (.finite (.ofInt n h)) =
      .finite (.ofInt (10000-n) (by rw [abs_le] at h ⊢; omega)) := by
    rw [hfull,Number.sub,← Number.ofRat_intCast]
    congr 1
    simp [Double.ofInt]
  have hlow : Number.lt (.finite (.ofInt n h)) (.ofRat 0) = false := by
    rw [hzero]
    simp only [Number.lt,Number.le,Double.ofInt,Int.cast_le,Bool.and_eq_false_iff,
      Bool.not_eq_false',decide_eq_true_eq]
    exact .inr hnonneg
  have hhigh : Number.lt (.ofRat 10000) (.finite (.ofInt n h)) = false := by
    rw [hfull]
    simp only [Number.lt,Number.le,Double.ofInt,Int.cast_le,Bool.and_eq_false_iff,
      Bool.not_eq_false',decide_eq_true_eq]
    exact .inr hle
  have hint : ∀ m hm, FeedAcceptance.bigIntOf (.finite (.ofInt m hm)) = some m := by
    simp [FeedAcceptance.bigIntOf,Double.ofInt]
  rw [applySlippage,revertIf_of_not (by simp [hlow,hhigh]),ok_bind,hkept,hint]
  rfl

/-! ## What the router computes -/

/-- The WETH side of a trade and its three shares. -/
structure RouterTrade where
  gross : ℕ
  stockBudget : ℕ
  burnBudget : ℕ
  userAmount : ℕ
  deriving DecidableEq

def stockBps : TradeDirection → ℕ
  | .buy => TradeRouter.buyStockBps
  | .sell => TradeRouter.sellStockBps

def burnBps : TradeDirection → ℕ
  | .buy => TradeRouter.buyBurnBps
  | .sell => TradeRouter.sellBurnBps

/-- The shares are those that the router computes for the WETH side. -/
structure RouterTrade.Computed (direction : TradeDirection) (t : RouterTrade) : Prop where
  gross_lt : t.gross < wordBound
  split : TradeRouter.Split t.gross (stockBps direction) (burnBps direction) t.stockBudget
    t.burnBudget t.userAmount

/-- The trade that the router announces. -/
def RouterTrade.announced : TradeRouter.Event → Option (TradeDirection × RouterTrade)
  | .officialBuy _ _ _ gross stockBudget burnBudget user _ _ _ _ =>
    some (.buy,⟨gross,stockBudget,burnBudget,user⟩)
  | .officialSell _ _ _ _ gross stockBudget burnBudget user _ _ _ =>
    some (.sell,⟨gross,stockBudget,burnBudget,user⟩)
  | _ => none

/-- A buy of the requested input, or a sell with the expected output of the user. -/
structure Describes (req : TradeRequest) (t : RouterTrade) : Prop where
  computed : t.Computed req.direction
  buys : req.direction = .buy → (t.gross : ℤ) = req.amountIn
  sells : req.direction = .sell → (t.userAmount : ℤ) = req.expectedUserOut

/-- The preview's shares are those of the trade and add up to its WETH side. -/
structure Shows (p : TradePreview) (t : RouterTrade) : Prop where
  stock : p.stockAcquisitionFunding = t.stockBudget
  burn : p.bpsBurnComponent = t.burnBudget
  user : p.allocation.userAmount = t.userAmount
  total : p.stockAcquisitionFunding+p.bpsBurnComponent+p.allocation.userAmount = t.gross

/-- The WETH that the preview splits. -/
def splitOf (req : TradeRequest) : ℤ :=
  match req.direction with
  | .buy => req.amountIn
  | .sell => req.expectedWethProceeds.getD req.expectedUserOut

/-- The proceeds leave the user what is expected; without a number of their own for them,
that is so where a fiftieth of the expectation is less than one. -/
def Exact (req : TradeRequest) : Prop :=
  req.direction = .sell → match req.expectedWethProceeds with
    | none => req.expectedUserOut < 50
    | some w => w < 2^256 ∧ req.expectedUserOut = w-2*(w/50)

/-- No two sells leave the user what is expected. -/
def Unambiguous (req : TradeRequest) : Prop :=
  req.direction = .sell → req.expectedUserOut < 48 ∨ 2 ≤ req.expectedUserOut%48 ∨
    2^256 ≤ req.expectedUserOut/48*50+req.expectedUserOut%48

variable {keccak256} {req : TradeRequest} {dep : DeploymentState} {p : TradePreview}

/-- The transaction that submits the call. -/
def Calldata.sentBy (sender : Address) : Calldata → TradeRouter.Trade
  | .buyExactWethForBps gross minUser minBurn recipient deadline =>
    .buy sender gross minUser minBurn recipient deadline
  | .sellExactBpsForWeth gross minGross minUser minBurn recipient deadline =>
    .sell sender gross minGross minUser minBurn recipient deadline

/-- The call trades the requested input in the requested direction. -/
def Calldata.Trades (req : TradeRequest) : Calldata → Prop
  | .buyExactWethForBps gross _ _ _ _ => req.direction = .buy ∧ (gross : ℤ) = req.amountIn
  | .sellExactBpsForWeth gross _ _ _ _ _ => req.direction = .sell ∧ (gross : ℤ) = req.amountIn

/-- What a preview says of the shares, and of the call. -/
structure Previewed (req : TradeRequest) (p : TradePreview) : Prop where
  positive : 0 < req.amountIn
  amount_lt : req.amountIn < 2^256
  nonneg : 0 ≤ splitOf req
  stock : p.stockAcquisitionFunding = splitOf req*stockBps req.direction/10000
  burn : p.bpsBurnComponent = splitOf req*burnBps req.direction/10000
  user : p.allocation.userAmount =
    splitOf req-p.stockAcquisitionFunding-p.bpsBurnComponent
  trades : p.calldata.Trades req

theorem floorBps_of_nonneg {amount bps : ℤ} (h : 0 ≤ amount) (hbps : 0 ≤ bps) :
    floorBps amount bps = amount*bps/10000 :=
  Int.tdiv_eq_ediv_of_nonneg (mul_nonneg h hbps)

theorem uintArgument_lt {bits n : ℕ} {z : ℤ} (h : SnapshotPipeline.uintArgument bits z = some n) :
    0 ≤ z ∧ z < 2^bits ∧ n = z.toNat := by
  unfold SnapshotPipeline.uintArgument at h
  split at h
  · next hz => exact ⟨hz.1,hz.2,(Option.some.inj h).symm⟩
  · cases h

theorem buildTradePreview_previewed (h : buildTradePreview keccak256 req dep = .ok p) :
    Previewed req p := by
  cases dep with
  | invalid errors => cases h
  | notLive reason mode isFixture sourceCommit => cases h
  | live l =>
    simp only [buildTradePreview,bind_eq_ok,revertIf_eq_ok,exists_const,not_le] at h
    obtain ⟨-,hpos,minUserOut,-,h⟩ := h
    cases hdir : req.direction with
    | buy =>
      simp only [hdir,bind_eq_ok,orRevert_eq_ok,pure_eq_ok,buyAllocation,revertIf_eq_ok,
        exists_const,not_lt] at h
      obtain ⟨a,⟨hneg,rfl⟩,c,hc,rfl⟩ := h
      simp only [encodeBuy,Option.bind_eq_bind,Option.bind_eq_some_iff,Option.pure_def,
        Option.some.injEq] at hc
      obtain ⟨n,hn,m,-,r,-,d,-,rfl⟩ := hc
      obtain ⟨hzero,hlt,hn⟩ := uintArgument_lt hn
      have htrades : (n : ℤ) = req.amountIn := by omega
      have hsplit : splitOf req = req.amountIn := by simp [splitOf,hdir]
      refine ⟨hpos,hlt,hsplit ▸ hneg,?_,?_,?_,hdir,htrades⟩
      · rw [hsplit,hdir]
        exact floorBps_of_nonneg hneg (by decide)
      · rw [hsplit,hdir]
        exact floorBps_of_nonneg hneg (by decide)
      · rw [hsplit]
    | sell =>
      simp only [hdir,bind_eq_ok,orRevert_eq_ok,pure_eq_ok,sellAllocation,revertIf_eq_ok,
        exists_const,not_lt] at h
      obtain ⟨a,⟨hneg,rfl⟩,c,hc,rfl⟩ := h
      simp only [encodeSell,Option.bind_eq_bind,Option.bind_eq_some_iff,Option.pure_def,
        Option.some.injEq] at hc
      obtain ⟨n,hn,m,-,r,-,d,-,rfl⟩ := hc
      obtain ⟨hzero,hlt,hn⟩ := uintArgument_lt hn
      have htrades : (n : ℤ) = req.amountIn := by omega
      have hsplit : splitOf req = req.expectedWethProceeds.getD req.expectedUserOut := by
        simp [splitOf,hdir]
      rw [← hsplit] at hneg
      refine ⟨hpos,hlt,hneg,?_,?_,?_,hdir,htrades⟩
      · rw [hdir,hsplit]
        exact floorBps_of_nonneg (hsplit ▸ hneg) (by decide)
      · rw [hdir,hsplit]
        exact floorBps_of_nonneg (hsplit ▸ hneg) (by decide)
      · rw [hsplit]

/-- A computed trade shares out what it splits as the preview does. -/
theorem RouterTrade.Computed.shares {direction : TradeDirection} {t : RouterTrade}
    (h : t.Computed direction) : (t.stockBudget : ℤ) = (t.gross : ℤ)*stockBps direction/10000 ∧
      (t.burnBudget : ℤ) = (t.gross : ℤ)*burnBps direction/10000 ∧
      (t.userAmount : ℤ) = t.gross-t.stockBudget-t.burnBudget := by
  have hstock := h.split.stockBudget_eq
  have hburn := h.split.burnBudget_eq
  have htotal := h.split.total
  simp only [TradeRouter.bpsDenominator] at hstock hburn
  refine ⟨by rw [hstock]; push_cast; rfl,by rw [hburn]; push_cast; rfl,by omega⟩

/-- The trade whose WETH side is the split one is the only one that the preview shows. -/
theorem Previewed.shows_iff (h : Previewed req p) {t : RouterTrade}
    (ht : t.Computed req.direction) : Shows p t ↔ (t.gross : ℤ) = splitOf req := by
  obtain ⟨hstock,hburn,huser⟩ := ht.shares
  have hsplit := h.user
  refine ⟨fun hs => ?_,fun hgross => ?_⟩
  · have htotal := hs.total
    omega
  · rw [hgross,← h.stock] at hstock
    rw [hgross,← h.burn] at hburn
    exact ⟨hstock.symm,hburn.symm,by omega,by omega⟩

theorem exists_computed (direction : TradeDirection) {w : ℕ} (hlt : w < wordBound) :
    ∃ t : RouterTrade, t.Computed direction ∧ t.gross = w := by
  refine ⟨⟨w,w*stockBps direction/10000,w*burnBps direction/10000,
    w-w*stockBps direction/10000-w*burnBps direction/10000⟩,⟨hlt,rfl,rfl,?_⟩,rfl⟩
  have hbound : w*stockBps direction/10000+w*burnBps direction/10000 ≤ w := by
    cases direction <;> simp only [stockBps,burnBps,TradeRouter.buyStockBps,TradeRouter.buyBurnBps,
      TradeRouter.sellStockBps,TradeRouter.sellBurnBps] <;> omega
  dsimp only
  omega

/-- The net of a sell. -/
theorem RouterTrade.Computed.sell_user {t : RouterTrade} (h : t.Computed .sell) :
    t.userAmount = t.gross-2*(t.gross/50) := by
  have hstock := h.split.stockBudget_eq
  have hburn := h.split.burnBudget_eq
  have htotal := h.split.total
  simp only [stockBps,burnBps,TradeRouter.sellStockBps,TradeRouter.sellBurnBps,
    TradeRouter.bpsDenominator] at hstock hburn
  omega

theorem Describes.gross_eq {t t' : RouterTrade} (hs : Unambiguous req) (h : Describes req t)
    (h' : Describes req t') : t.gross = t'.gross := by
  cases hdir : req.direction with
  | buy => exact_mod_cast (h.buys hdir).trans (h'.buys hdir).symm
  | sell =>
    have hu := h.sells hdir
    have hu' := h'.sells hdir
    have hlt := h.computed.gross_lt
    have hlt' := h'.computed.gross_lt
    rw [(hdir ▸ h.computed : t.Computed .sell).sell_user] at hu
    rw [(hdir ▸ h'.computed : t'.Computed .sell).sell_user] at hu'
    have huniq := hs hdir
    simp only [wordBound] at hlt hlt'
    omega

/-- A trade whose WETH side is the split one is described exactly where the request is exact. -/
theorem describes_iff {t : RouterTrade} (ht : t.Computed req.direction)
    (hgross : (t.gross : ℤ) = splitOf req) : Describes req t ↔ Exact req := by
  have hlt := ht.gross_lt
  simp only [wordBound] at hlt
  cases hdir : req.direction with
  | buy =>
    have hno : req.direction ≠ .sell := fun hsell => absurd (hdir.symm.trans hsell) (by decide)
    exact ⟨fun _ hsell => absurd hsell hno,fun _ =>
      ⟨ht,fun _ => by rw [hgross,splitOf,hdir],fun hsell => absurd hsell hno⟩⟩
  | sell =>
    have huser := (hdir ▸ ht : t.Computed .sell).sell_user
    simp only [splitOf,hdir] at hgross
    have hiff : Describes req t ↔ (t.userAmount : ℤ) = req.expectedUserOut :=
      ⟨fun hd => hd.sells hdir,fun hu =>
        ⟨ht,fun hbuy => absurd (hdir.symm.trans hbuy) (by decide),fun _ => hu⟩⟩
    rw [hiff]
    cases hproceeds : req.expectedWethProceeds with
    | none =>
      simp only [hproceeds,Option.getD_none] at hgross
      simp only [Exact,hdir,hproceeds,forall_const]
      omega
    | some w =>
      simp only [hproceeds,Option.getD_some] at hgross
      simp only [Exact,hdir,hproceeds,forall_const]
      omega

theorem Previewed.splitOf_lt (h : Previewed req p) (hexact : Exact req) : splitOf req < 2^256 := by
  cases hdir : req.direction with
  | buy => simpa [splitOf,hdir] using h.amount_lt
  | sell =>
    have hsell := hexact hdir
    cases hproceeds : req.expectedWethProceeds with
    | none =>
      simp only [hproceeds] at hsell
      simp only [splitOf,hdir,hproceeds,Option.getD_none]
      omega
    | some w =>
      simp only [hproceeds] at hsell
      simpa [splitOf,hdir,hproceeds] using hsell.1

/-- The preview shows a described trade exactly where the request is exact. -/
theorem Previewed.shows_described_iff (h : Previewed req p) :
    (∃ t, Describes req t ∧ Shows p t) ↔ Exact req := by
  refine ⟨fun hs => ?_,fun hexact => ?_⟩
  · obtain ⟨t,hd,hshows⟩ := hs
    exact (describes_iff hd.computed ((h.shows_iff hd.computed).1 hshows)).1 hd
  · have hlt := h.splitOf_lt hexact
    have hnonneg := h.nonneg
    obtain ⟨t,ht,hgross⟩ := exists_computed req.direction
      (show (splitOf req).toNat < wordBound by simp only [wordBound]; omega)
    have hgross' : (t.gross : ℤ) = splitOf req := by omega
    exact ⟨t,(describes_iff ht hgross').2 hexact,(h.shows_iff ht).2 hgross'⟩

/-- A sell of given net can have two grosses, two apart. -/
theorem exists_twins {u : ℤ} (hu : 48 ≤ u) (hmod : u%48 < 2) (hlt : u/48*50+u%48 < 2^256) :
    ∃ t t' : RouterTrade, t.Computed .sell ∧ t'.Computed .sell ∧ (t.userAmount : ℤ) = u ∧
      (t'.userAmount : ℤ) = u ∧ t.gross ≠ t'.gross := by
  obtain ⟨t,ht,hg⟩ := exists_computed .sell
    (show (u/48*50+u%48).toNat < wordBound by simp only [wordBound]; omega)
  obtain ⟨t',ht',hg'⟩ := exists_computed .sell
    (show (u/48*50+u%48-2).toNat < wordBound by simp only [wordBound]; omega)
  have huser := ht.sell_user
  have huser' := ht'.sell_user
  exact ⟨t,t',ht,ht',by omega,by omega,by omega⟩

theorem Previewed.shows_all_iff (h : Previewed req p) :
    ((∃ t, Describes req t) ∧ ∀ t, Describes req t → Shows p t) ↔
      Exact req ∧ Unambiguous req := by
  refine ⟨fun hs => ?_,fun hs => ?_⟩
  · obtain ⟨⟨t,hd⟩,hall⟩ := hs
    refine ⟨h.shows_described_iff.1 ⟨t,hd,hall t hd⟩,fun hdir => ?_⟩
    by_contra hno
    simp only [not_or,not_lt,not_le] at hno
    obtain ⟨t₁,t₂,h₁,h₂,hu₁,hu₂,hne⟩ := exists_twins hno.1 hno.2.1 hno.2.2
    have hdesc : ∀ t' : RouterTrade, t'.Computed .sell → (t'.userAmount : ℤ) = req.expectedUserOut →
        (t'.gross : ℤ) = splitOf req := fun t' ht' hu' => by
      have hcomputed : t'.Computed req.direction := hdir ▸ ht'
      exact (h.shows_iff hcomputed).1 (hall t' ⟨hcomputed,fun hbuy =>
        absurd (hdir.symm.trans hbuy) (by decide),fun _ => hu'⟩)
    have hg₁ := hdesc t₁ h₁ hu₁
    have hg₂ := hdesc t₂ h₂ hu₂
    omega
  · obtain ⟨hexact,huniq⟩ := hs
    obtain ⟨t,hd,hshows⟩ := h.shows_described_iff.2 hexact
    refine ⟨⟨t,hd⟩,fun t' hd' => (h.shows_iff hd'.computed).2 ?_⟩
    rw [hd'.gross_eq huniq hd]
    exact (h.shows_iff hd.computed).1 hshows

/-- What a swap pays fits the word, as the balance that it ends in does. -/
theorem received_lt {γ : Type} {d : TradeRouter.Deployment} {swapExactInput : TradeRouter.Adapter γ}
    {w w' : TradeRouter.World γ} {tokenIn tokenOut recipient : Address}
    {amountIn minOut deadline received : ℕ}
    (h : TradeRouter.Swapped d swapExactInput w w' tokenIn tokenOut amountIn minOut recipient
      deadline received) : received < wordBound := by
  rcases h.swap with ⟨-,hzero,-⟩ | hcalled
  · simp [hzero,wordBound]
  · have hbalance := (w'.tokens tokenOut).balanceOf_lt recipient
    have houtput := hcalled.output
    omega

/-- A run of the previewed call announces a computed trade, and for a buy the described one. -/
theorem Previewed.run (h : Previewed req p) {γ : Type} {d : TradeRouter.Deployment}
    {swapExactInput : TradeRouter.Adapter γ} {w w' : TradeRouter.World γ} {sender : Address}
    (hrun : (p.calldata.sentBy sender).exec d swapExactInput w = .ok w') :
    ∃ t : RouterTrade, t.Computed req.direction ∧
      (w'.router.events.head?.bind RouterTrade.announced) = some (req.direction,t) ∧
      (req.direction = .buy → Describes req t) := by
  have htrades := h.trades
  have hamount := h.amount_lt
  cases hcall : p.calldata with
  | buyExactWethForBps gross minUser minBurn recipient deadline =>
    simp only [hcall,Calldata.Trades] at htrades
    obtain ⟨hdir,hgross⟩ := htrades
    simp only [hcall,Calldata.sentBy,TradeRouter.Trade.exec,bind_eq_ok,pure_eq_ok] at hrun
    obtain ⟨⟨⟨out,burned⟩,w₁⟩,hbuy,rfl⟩ := hrun
    obtain ⟨stock,burn,user,l,u,v,hsplit,-,-,-,-,hrouter⟩ :=
      (TradeRouter.buyExactWethForBps_ok hbuy).steps
    have hcomputed : RouterTrade.Computed req.direction ⟨gross,stock,burn,user⟩ := by
      rw [hdir]
      exact ⟨by simp only [wordBound]; omega,hsplit⟩
    refine ⟨⟨gross,stock,burn,user⟩,hcomputed,by simp [hrouter,RouterTrade.announced,hdir],fun _ =>
      ⟨hcomputed,fun _ => hgross,fun hsell => absurd (hdir.symm.trans hsell) (by decide)⟩⟩
  | sellExactBpsForWeth gross minGross minUser minBurn recipient deadline =>
    simp only [hcall,Calldata.Trades] at htrades
    obtain ⟨hdir,hgross⟩ := htrades
    simp only [hcall,Calldata.sentBy,TradeRouter.Trade.exec,bind_eq_ok,pure_eq_ok] at hrun
    obtain ⟨⟨⟨proceeds,out,burned⟩,w₁⟩,hsell,rfl⟩ := hrun
    obtain ⟨stock,burn,l,u,v,x,hsplit,-,hswap,-,-,-,hrouter⟩ :=
      (TradeRouter.sellExactBpsForWeth_ok hsell).steps
    refine ⟨⟨proceeds,stock,burn,out⟩,?_,by simp [hrouter,RouterTrade.announced,hdir],fun hbuy =>
      absurd (hdir.symm.trans hbuy) (by decide)⟩
    rw [hdir]
    exact ⟨received_lt hswap,hsplit⟩

/-- The preview shows what the router computes exactly where the request's proceeds leave the
user the expected output. -/
theorem buildTradePreview_parity_iff (h : buildTradePreview keccak256 req dep = .ok p) :
    ((∃ t, Describes req t ∧ Shows p t) ↔ Exact req) ∧
    (((∃ t, Describes req t) ∧ ∀ t, Describes req t → Shows p t) ↔ Exact req ∧ Unambiguous req) ∧
    ∀ (γ : Type) (d : TradeRouter.Deployment) (swapExactInput : TradeRouter.Adapter γ)
      (w w' : TradeRouter.World γ) (sender : Address),
      (p.calldata.sentBy sender).exec d swapExactInput w = .ok w' →
      ∃ t : RouterTrade, t.Computed req.direction ∧
        (w'.router.events.head?.bind RouterTrade.announced) = some (req.direction,t) ∧
        (req.direction = .buy → Describes req t) :=
  have hp := buildTradePreview_previewed h
  ⟨hp.shows_described_iff,hp.shows_all_iff,fun _ _ _ _ _ _ hrun => hp.run hrun⟩

/-- A sell that expects 100 and gives no proceeds. -/
def netQuote : TradeRequest where
  direction := .sell
  amountIn := 1000
  expectedUserOut := 100
  expectedWethProceeds := none
  slippageBps := .finite (.ofInt 100 (by decide))
  recipient := addressText 9
  nowSec := 1000
  ttlSec := 300
  poolFee := none

def sampleDeployment : DeploymentState :=
  .live {
    mode := .production
    isFixture := false
    sourceCommit := []
    chainId := .ofRat ROBINHOOD_CHAIN_ID
    addresses := fun _ => addressText 77
    requiredCodeAddresses := []
    writesEnabled := true }

/-- The same sell with the proceeds that leave the user 100. -/
def grossQuote : TradeRequest := { netQuote with expectedWethProceeds := some 104 }

/-- The preview of such a sell, up to its allocation. -/
def quotePreview (allocation : TradeAllocation) : TradePreview where
  direction := .sell
  chainId := .ofRat ROBINHOOD_CHAIN_ID
  target := addressText 77
  amountIn := 1000
  minUserOut := 99
  allocation := allocation
  stockAcquisitionFunding := allocation.stockBudget
  bpsBurnComponent := allocation.burnBudget
  totalDeductions := allocation.stockBudget+allocation.burnBudget
  totalProtocolBps := allocation.totalProtocolBps
  deadline := 1300
  allowanceToken := .bps
  allowanceAmount := 1000
  poolFee := none
  calldata := .sellExactBpsForWeth 1000 0 99 0 9 1300

theorem quote_previewed (proceeds : Option ℤ) (allocation : TradeAllocation)
    (h : sellAllocation (proceeds.getD 100) = .ok allocation) :
    buildTradePreview MerkleProof.toyHash { netQuote with expectedWethProceeds := proceeds }
      sampleDeployment = .ok (quotePreview allocation) := by
  have hchain : Number.strictEq (.ofRat ROBINHOOD_CHAIN_ID) (.ofRat ROBINHOOD_CHAIN_ID) = true := by
    have hfinite : Number.ofRat ROBINHOOD_CHAIN_ID = .finite (.ofInt 4663 (by decide)) := by
      exact_mod_cast Number.ofRat_intCast (n := 4663) (by decide)
    simp [hfinite,Number.strictEq]
  have hslippage : applySlippage netQuote.expectedUserOut netQuote.slippageBps = .ok 99 :=
    applySlippage_ofInt (by decide) (by decide)
  have hcalldata : encodeSell MerkleProof.toyHash
      { netQuote with expectedWethProceeds := proceeds } 99 1300 =
        some (.sellExactBpsForWeth 1000 0 99 0 9 1300) := by
    change encodeSell MerkleProof.toyHash netQuote 99 1300 = _
    decide +kernel
  rw [sampleDeployment,buildTradePreview,revertIf_of_not (by simp [hchain]),ok_bind,
    revertIf_of_not (show ¬netQuote.amountIn ≤ 0 by decide),ok_bind]
  change (applySlippage netQuote.expectedUserOut netQuote.slippageBps >>= fun minUserOut => _) = _
  rw [hslippage,ok_bind]
  change (sellAllocation (proceeds.getD 100) >>= fun allocation => orRevert .encoding
    (encodeSell MerkleProof.toyHash { netQuote with expectedWethProceeds := proceeds } 99 1300) >>=
      fun calldata => _) = _
  rw [h,ok_bind,hcalldata]
  rfl

theorem grossQuote_parity :
    (∃ t, Describes grossQuote t ∧ Shows (quotePreview ⟨104,2,2,100,400⟩) t) ∧
    ¬∃ t, Describes netQuote t ∧ Shows (quotePreview ⟨100,2,2,96,400⟩) t := by
  have hgross := (buildTradePreview_parity_iff (quote_previewed (some 104)
    ⟨104,2,2,100,400⟩ (by decide))).1
  have hnet := (buildTradePreview_parity_iff (quote_previewed none
    ⟨100,2,2,96,400⟩ (by decide))).1
  refine ⟨hgross.2 fun _ => ⟨by decide,by decide⟩,fun hshown => ?_⟩
  have hexact : (100 : ℤ) < 50 := hnet.1 hshown rfl
  omega

/-- The preview deducts 4 from 100, while the router, which leaves a user 100 of 104,
deducts 4 from 104. -/
theorem netQuote_unlike_router :
    ¬∀ (keccak256 : Hash) (req : TradeRequest) (dep : DeploymentState) (p : TradePreview),
      buildTradePreview keccak256 req dep = .ok p → ∃ t, Describes req t ∧ Shows p t := by
  intro h
  have hpreviewed : buildTradePreview MerkleProof.toyHash netQuote sampleDeployment =
      .ok (quotePreview ⟨100,2,2,96,400⟩) := quote_previewed none _ (by decide)
  have hexact : (100 : ℤ) < 50 :=
    (buildTradePreview_previewed hpreviewed).shows_described_iff.1 (h _ _ _ _ hpreviewed) rfl
  omega

end Trading
end BpsProtocol
