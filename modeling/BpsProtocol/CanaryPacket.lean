import BpsProtocol.MerkleProof

/-! The bound packet of the canary operator and the checks of one mined step.
After binding, the operator runs on one immutable object: its steps, addresses and
expectations.  The checks compare a transaction and its receipt with a step of it; they
refuse with a reason, or throw where the source reads a field that is not there. -/
namespace BpsProtocol
namespace Canary

open Checked MerkleProof

/-- A string that the operator compares. -/
abbrev Text := List Char

def toLowerCase (t : Text) : Text := t.map Char.toLower

/-- `_utf8ToHex` -/
def utf8 (s : String) : Bytes := s.toList.map fun c => UInt8.ofNat c.toNat

/-! ## The bound object -/

/-- `SLOTS` -/
inductive Slot
  | canaryToken
  | lockingVault
  | claimManager
  | rialtoAdapter
  | coordinator
  | stockVault
  | uniswapAdapter
  | tradeRouter
  deriving DecidableEq

def Slot.name : Slot → String
  | canaryToken => "canaryToken"
  | lockingVault => "lockingVault"
  | claimManager => "claimManager"
  | rialtoAdapter => "rialtoAdapter"
  | coordinator => "coordinator"
  | stockVault => "stockVault"
  | uniswapAdapter => "uniswapAdapter"
  | tradeRouter => "tradeRouter"

inductive PostconditionType
  | deploy
  | approve
  | createPool
  | initializePool
  | mint
  | buy
  | sell
  | lock
  | unknown
  deriving DecidableEq

inductive Phase
  | aDeploy
  | other (name : Text)
  deriving DecidableEq

/-- The bounds of a recovery step on what the wallet may adjust. -/
structure GasCeilings where
  gasLimitCeiling : ℕ
  maxFeeCeilingWei : ℕ
  maxPriorityCeilingWei : ℕ
  maxGasCostCeilingWei : ℕ
  deriving DecidableEq

/-- What binding attaches to a deploy step. -/
structure Deployment where
  slot : Slot
  predictedCreationAddress : Address
  expectedRuntimeHash : Bytes32
  deriving DecidableEq

structure Step where
  index : ℕ
  phase : Phase
  label : Text
  postconditionType : PostconditionType
  signer : Address
  nonce : ℕ
  target : Option Address
  value : ℕ
  dataOrInitCode : Bytes
  gasLimit : ℕ
  maxFeePerGas : ℕ
  maxPriorityFeePerGas : ℕ
  gasCeilings : Option GasCeilings
  deployment : Option Deployment
  deriving DecidableEq

/-- `st.maxGasCostWei` -/
def Step.maxGasCostWei (t : Step) : ℕ := t.gasLimit*t.maxFeePerGas

structure LpExpectation where
  token0 : Address
  token1 : Address
  feeTier : ℕ
  tickSpacing : ℤ
  sqrtPriceX96 : ℕ
  tick : ℤ
  tickLower : ℤ
  tickUpper : ℤ
  amount0Used : ℕ
  amount1Used : ℕ
  amount0Min : ℕ
  amount1Min : ℕ
  poolLiquidityAfter : ℕ
  positionOwner : Address
  deriving DecidableEq

structure BuyExpectation where
  tradeId : ℕ
  trader : Address
  recipient : Address
  adapter : Address
  stockBudgetRecipient : Address
  grossWethInput : ℕ
  stockBudget : ℕ
  burnBudget : ℕ
  userWethBudget : ℕ
  userBpsOutput : ℕ
  bpsBurned : ℕ
  minimumUserBpsOutput : ℕ
  deriving DecidableEq

structure SellExpectation where
  tradeId : ℕ
  trader : Address
  recipient : Address
  adapter : Address
  stockBudgetRecipient : Address
  grossBpsInput : ℕ
  grossWethOutput : ℕ
  stockBudget : ℕ
  burnBudget : ℕ
  userWethOutput : ℕ
  bpsBurned : ℕ
  minimumGrossWethOutput : ℕ
  minimumUserWethOutput : ℕ
  deriving DecidableEq

structure LockExpectation where
  account : Address
  lockId : ℕ
  principal : ℕ
  duration : ℕ
  multiplierBps : ℕ
  policyVersion : ℕ
  deriving DecidableEq

structure Dependency where
  address : Address
  runtimeCodeHash : Bytes32
  codeBytes : ℕ
  deriving DecidableEq

structure Flags where
  broadcastReady : Bool
  liveWritesApproved : Bool
  executionAuthorized : Bool
  fundingAuthorized : Bool
  deriving DecidableEq

/-- The single runtime data source of a bound operator. -/
structure Runtime where
  keccak256 : Hash
  execDigest : Text
  steps : List Step
  addr : Slot → Address
  deployer : Address
  tester : Address
  factory : Address
  npm : Address
  nvda : Address
  pool : Address
  canaryTokenSymbol : Text
  lp : LpExpectation
  buy : BuyExpectation
  sell : SellExpectation
  lock : LockExpectation
  dependencies : List Dependency
  expiresAtUtc : Option ℕ
  exposurePrincipalWei : ℕ
  exposureGasWei : ℕ
  capMicro : ℕ
  authFlags : Flags
  signableHash : Step → Bytes32
  receiptPolls : ℕ
  hasPriceProvider : Bool

/-! ## Answers of the chain -/

structure ChainTx where
  chainId : Option ℕ
  source : Address
  target : Option Address
  nonce : ℕ
  type : ℕ
  value : ℕ
  input : Bytes
  gas : ℕ
  maxFeePerGas : Option ℕ
  maxPriorityFeePerGas : Option ℕ
  accessList : List Address
  blobVersionedHashes : Option (List Bytes32)
  maxFeePerBlobGas : Option ℕ
  deriving DecidableEq

structure Log where
  address : Address
  topics : List Bytes32
  data : Bytes
  deriving DecidableEq

structure Receipt where
  transactionHash : Text
  status : ℕ
  contractAddress : Option Address
  logs : List Log
  deriving DecidableEq

/-! ## Checks -/

inductive Fault
  | refused (reason : String)
  | thrown (message : String)

abbrev Check := Except Fault

/-- `if (c) return { ok: false, reason };` -/
def refuseIf (c : Prop) [Decidable c] (reason : String) : Check Unit := revertIf c (.refused reason)

@[simp] theorem refuseIf_eq_ok {c : Prop} [Decidable c] {reason : String} {u : Unit} :
    refuseIf c reason = .ok u ↔ ¬c := revertIf_eq_ok

/-- A value that the source uses without a check. -/
def orThrow {α : Type} (message : String) : Option α → Check α := orRevert (.thrown message)

@[simp] theorem orThrow_eq_ok {α : Type} {message : String} {x : Option α} {a : α} :
    orThrow message x = .ok a ↔ x = some a := orRevert_eq_ok

/-- A value that is tested before its use. -/
def orRefuse {α : Type} (reason : String) : Option α → Check α := orRevert (.refused reason)

@[simp] theorem orRefuse_eq_ok {α : Type} {reason : String} {x : Option α} {a : α} :
    orRefuse reason x = .ok a ↔ x = some a := orRevert_eq_ok

/-! ## Words -/

def natOf (bs : Bytes) : ℕ := bs.foldl (fun n b => 256*n + b.toNat) 0

/-- ``BigInt("0x" + …)`` -/
def bigInt (bs : Bytes) : Check ℕ :=
  if bs = [] then .error (.thrown "Cannot convert 0x to a BigInt") else .ok (natOf bs)

/-- `getAddress` of twenty bytes. -/
def addressOf (bs : Bytes) : Check Address :=
  if bs.length = 20 then .ok (Fin.ofNat (2^160) (natOf bs))
  else .error (.thrown "invalid address")

/-- `_calldataWord` -/
def calldataWord (data : Bytes) (i : ℕ) : Bytes := (data.drop (4+32*i)).take 32

def calldataAddr (data : Bytes) (i : ℕ) : Check Address := addressOf ((calldataWord data i).drop 12)

def calldataUint (data : Bytes) (i : ℕ) : Check ℕ := bigInt (calldataWord data i)

/-- The address in an indexed topic. -/
def topicAddr (topic : Bytes32) : Address := Fin.ofNat (2^160) topic.val

/-- `_asAddr` -/
def asAddr (n : ℕ) : Check Address :=
  if h : n < 2^160 then .ok ⟨n,h⟩ else .error (.thrown "invalid address")

/-- `_asI24` -/
def asI24 (n : ℕ) : ℤ := if 2^255 ≤ n then (n : ℤ) - 2^256 else n

/-! ## Events -/

structure Event where
  topics : List Bytes32
  d : List ℕ

def Event.topic (ev : Event) (i : ℕ) : Check Bytes32 := orThrow "missing topic" ev.topics[i]?

/-- A decoded word; the decoder yields one for every non-indexed parameter. -/
def Event.word (ev : Event) (i : ℕ) : ℕ := ev.d[i]?.getD 0

def dataWords (data : Bytes) (indexed : List Bool) : Check (List ℕ) :=
  (List.range (indexed.count false)).mapM fun i => bigInt ((data.drop (32*i)).take 32)

/-- `_decodeEvent`: the first log of the emitter with the topic of the signature. -/
def decodeEvent (keccak256 : Hash) (emitter : Address) (sig : String) (indexed : List Bool) :
    List Log → Check (Option Event)
  | [] => .ok none
  | lg::logs =>
    if lg.address ≠ emitter then decodeEvent keccak256 emitter sig indexed logs
    else do
      let topic ← orThrow "missing topic" lg.topics[0]?
      if topic ≠ keccak256 (utf8 sig) then decodeEvent keccak256 emitter sig indexed logs
      else do
        let d ← dataWords lg.data indexed
        return some ⟨lg.topics,d⟩

namespace EVSIG

def erc20Approval := "Approval(address,address,uint256)"
def erc721Transfer := "Transfer(address,address,uint256)"
def poolCreated := "PoolCreated(address,address,uint24,int24,address)"
def poolInitialize := "Initialize(uint160,int24)"
def increaseLiquidity := "IncreaseLiquidity(uint256,uint128,uint256,uint256)"
def officialBuy := "OfficialBuy(uint256,address,address,uint256,uint256,uint256,uint256,uint256,uint256,address,address)"
def officialSell := "OfficialSell(uint256,address,address,uint256,uint256,uint256,uint256,uint256,uint256,address,address)"
def lockCreated := "LockCreated(address,uint256,uint256,uint64,uint32,uint64,uint16,uint16)"

end EVSIG

/-- The logs that read as ERC-721 transfers of the position manager. -/
def Runtime.isPositionTransfer (R : Runtime) (lg : Log) : Bool :=
  lg.address = R.npm && lg.topics.length = 4 &&
    lg.topics[0]? = some (R.keccak256 (utf8 EVSIG.erc721Transfer))

/-! ## Receipt postconditions -/

/-- What a postcondition reports of a step. -/
inductive Finding
  | deployed (address : Address)
  | allowance (amount : ℕ)
  | pool (address : Address)
  | sqrtPriceX96 (price : ℕ)
  | position (tokenId liquidity : ℕ)
  | userBpsOutput (amount : ℕ)
  | userWethOutput (amount : ℕ)
  | locked (principal unlockTime : ℕ)

namespace Runtime

variable (R : Runtime)

def deployPostcondition (t : Step) (rc : Receipt) : Check Finding := do
  let created ← orThrow "invalid address" rc.contractAddress
  let deployment ← orThrow "invalid address" t.deployment
  refuseIf (created ≠ deployment.predictedCreationAddress) "deploy address"
  return .deployed created

def approvePostcondition (t : Step) (rc : Receipt) : Check Finding := do
  let spender ← calldataAddr t.dataOrInitCode 0
  let amount ← calldataUint t.dataOrInitCode 1
  let target ← orThrow "invalid address" t.target
  let found ← decodeEvent R.keccak256 target EVSIG.erc20Approval [true,true,false] rc.logs
  let ev ← orRefuse "no Approval event" found
  refuseIf (topicAddr (← ev.topic 1) ≠ t.signer) "approval owner != signer"
  refuseIf (topicAddr (← ev.topic 2) ≠ spender) "approval spender"
  refuseIf (ev.word 0 ≠ amount) "approval amount"
  return .allowance (ev.word 0)

def createPoolPostcondition (rc : Receipt) : Check Finding := do
  let found ← decodeEvent R.keccak256 R.factory EVSIG.poolCreated [true,true,true,false,false] rc.logs
  let ev ← orRefuse "no PoolCreated" found
  refuseIf (topicAddr (← ev.topic 1) ≠ R.lp.token0) "PoolCreated token0/token1"
  refuseIf (topicAddr (← ev.topic 2) ≠ R.lp.token1) "PoolCreated token0/token1"
  refuseIf ((← ev.topic 3).val ≠ R.lp.feeTier) "PoolCreated fee"
  refuseIf (asI24 (ev.word 0) ≠ R.lp.tickSpacing) "PoolCreated tickSpacing"
  let pool ← asAddr (ev.word 1)
  refuseIf (pool ≠ R.pool) "PoolCreated pool"
  return .pool pool

def initializePostcondition (rc : Receipt) : Check Finding := do
  let found ← decodeEvent R.keccak256 R.pool EVSIG.poolInitialize [false,false] rc.logs
  let ev ← orRefuse "no Initialize" found
  refuseIf (ev.word 0 ≠ R.lp.sqrtPriceX96) "Initialize sqrtPriceX96"
  refuseIf (asI24 (ev.word 1) ≠ R.lp.tick) "Initialize tick"
  return .sqrtPriceX96 (ev.word 0)

def mintPostcondition (t : Step) (rc : Receipt) : Check Finding := do
  let d := t.dataOrInitCode
  refuseIf ((← calldataAddr d 0) ≠ R.lp.token0) "mint calldata token0/1"
  refuseIf ((← calldataAddr d 1) ≠ R.lp.token1) "mint calldata token0/1"
  refuseIf ((← calldataUint d 2) ≠ R.lp.feeTier) "mint calldata fee"
  refuseIf (asI24 (← calldataUint d 3) ≠ R.lp.tickLower) "mint calldata ticks"
  refuseIf (asI24 (← calldataUint d 4) ≠ R.lp.tickUpper) "mint calldata ticks"
  refuseIf ((← calldataUint d 7) ≠ R.lp.amount0Min) "mint calldata minimums"
  refuseIf ((← calldataUint d 8) ≠ R.lp.amount1Min) "mint calldata minimums"
  refuseIf ((← calldataAddr d 9) ≠ R.lp.positionOwner) "mint calldata recipient"
  let found ← decodeEvent R.keccak256 R.npm EVSIG.increaseLiquidity [true,false,false,false] rc.logs
  let inc ← orRefuse "no IncreaseLiquidity/Transfer" found
  let transfer ← orRefuse "no IncreaseLiquidity/Transfer"
    (rc.logs.filter R.isPositionTransfer).getLast?
  let tokenId ← orThrow "missing topic" transfer.topics[3]?
  let recipient ← orThrow "missing topic" transfer.topics[2]?
  refuseIf ((← inc.topic 1) ≠ tokenId) "mint tokenId mismatch Transfer vs IncreaseLiquidity"
  refuseIf (topicAddr recipient ≠ R.lp.positionOwner) "mint NFT recipient"
  refuseIf (inc.word 0 ≠ R.lp.poolLiquidityAfter) "mint liquidity"
  refuseIf (inc.word 1 ≠ R.lp.amount0Used ∨ inc.word 2 ≠ R.lp.amount1Used) "mint amounts used"
  refuseIf (inc.word 1 < R.lp.amount0Min ∨ inc.word 2 < R.lp.amount1Min) "mint amounts < minimum"
  return .position tokenId.val (inc.word 0)

/-- The parameters of both trade events: three indexed, eight in the data. -/
def tradeIndexed : List Bool :=
  [true,true,true,false,false,false,false,false,false,false,false]

def buyPostcondition (rc : Receipt) : Check Finding := do
  let bu := R.buy
  let found ← decodeEvent R.keccak256 (R.addr .tradeRouter) EVSIG.officialBuy tradeIndexed rc.logs
  let ev ← orRefuse "no OfficialBuy" found
  let tradeId ← orRefuse "buy tradeId" ev.topics[1]?
  refuseIf (tradeId.val ≠ bu.tradeId) "buy tradeId"
  refuseIf (topicAddr (← ev.topic 2) ≠ bu.trader) "buy trader"
  refuseIf (topicAddr (← ev.topic 3) ≠ bu.recipient) "buy recipient"
  refuseIf (ev.word 0 ≠ bu.grossWethInput ∨ ev.word 1 ≠ bu.stockBudget ∨
    ev.word 2 ≠ bu.burnBudget ∨ ev.word 3 ≠ bu.userWethBudget ∨ ev.word 4 ≠ bu.userBpsOutput ∨
    ev.word 5 ≠ bu.bpsBurned) "buy accounting amounts"
  refuseIf ((← asAddr (ev.word 6)) ≠ bu.adapter) "buy adapter/stockBudgetRecipient"
  refuseIf ((← asAddr (ev.word 7)) ≠ bu.stockBudgetRecipient) "buy adapter/stockBudgetRecipient"
  refuseIf (ev.word 4 < bu.minimumUserBpsOutput) "buy < minimum"
  return .userBpsOutput (ev.word 4)

def sellPostcondition (rc : Receipt) : Check Finding := do
  let se := R.sell
  let found ← decodeEvent R.keccak256 (R.addr .tradeRouter) EVSIG.officialSell tradeIndexed rc.logs
  let ev ← orRefuse "no OfficialSell" found
  let tradeId ← orRefuse "sell tradeId" ev.topics[1]?
  refuseIf (tradeId.val ≠ se.tradeId) "sell tradeId"
  refuseIf (topicAddr (← ev.topic 2) ≠ se.trader) "sell trader"
  refuseIf (topicAddr (← ev.topic 3) ≠ se.recipient) "sell recipient"
  refuseIf (ev.word 0 ≠ se.grossBpsInput ∨ ev.word 1 ≠ se.grossWethOutput ∨
    ev.word 2 ≠ se.stockBudget ∨ ev.word 3 ≠ se.burnBudget ∨ ev.word 4 ≠ se.userWethOutput ∨
    ev.word 5 ≠ se.bpsBurned) "sell accounting amounts"
  refuseIf ((← asAddr (ev.word 6)) ≠ se.adapter) "sell adapter/stockBudgetRecipient"
  refuseIf ((← asAddr (ev.word 7)) ≠ se.stockBudgetRecipient) "sell adapter/stockBudgetRecipient"
  refuseIf (ev.word 1 < se.minimumGrossWethOutput ∨ ev.word 4 < se.minimumUserWethOutput)
    "sell < minimum"
  return .userWethOutput (ev.word 4)

def lockPostcondition (rc : Receipt) : Check Finding := do
  let lk := R.lock
  let found ← decodeEvent R.keccak256 (R.addr .lockingVault) EVSIG.lockCreated
    [true,true,false,false,false,false,false,false] rc.logs
  let ev ← orRefuse "no LockCreated" found
  refuseIf (topicAddr (← ev.topic 1) ≠ lk.account) "lock account"
  refuseIf ((← ev.topic 2).val ≠ lk.lockId) "lock lockId"
  refuseIf (ev.word 0 ≠ lk.principal) "lock principal"
  refuseIf (ev.word 2 ≠ lk.duration) "lock duration"
  -- the start is the time of mining, so only the distance to the unlock is bound
  refuseIf (ev.word 1 + ev.word 2 ≠ ev.word 3) "lock event unlock != start+duration"
  refuseIf (ev.word 4 ≠ lk.multiplierBps) "lock multiplierBps"
  refuseIf (ev.word 5 ≠ lk.policyVersion) "lock policyVersion"
  return .locked (ev.word 0) (ev.word 3)

/-- `_receiptPostcondition` -/
def receiptPostcondition (i : ℕ) (rc : Receipt) : Check Finding := do
  let t ← orThrow "undefined step" R.steps[i]?
  match t.postconditionType with
  | .deploy => deployPostcondition t rc
  | .approve => R.approvePostcondition t rc
  | .createPool => R.createPoolPostcondition rc
  | .initializePool => R.initializePostcondition rc
  | .mint => R.mintPostcondition t rc
  | .buy => R.buyPostcondition rc
  | .sell => R.sellPostcondition rc
  | .lock => R.lockPostcondition rc
  | .unknown => .error (.refused "no postcondition for type unknown")

end Runtime

/-! ## The shared transaction verifier, but for its requests -/

namespace Step

/-- The target field: equal where the step has one, absent in a creation. -/
def checkTarget (t : Step) (otx : ChainTx) : Check Unit :=
  match t.target, otx.target with
  | some a, some b => refuseIf (b ≠ a) "tx fields differ from packet"
  | some _, none => .error (.thrown "invalid address")
  | none, b => refuseIf (b ≠ none) "tx fields differ from packet"

/-- A recovery step tolerates an absent chain id; a present one must be the bound one. -/
def checkChainId (t : Step) (otx : ChainTx) : Check Unit :=
  match otx.chainId with
  | none => refuseIf (t.gasCeilings = none) "missing chainId (no default permitted)"
  | some c => refuseIf (c ≠ 4663) "tx-response chainId present and != 4663"

/-- The gas fields: exact, or within the ceilings of a recovery step. -/
def checkGas (t : Step) (gl mf mp : ℕ) : Check Unit :=
  match t.gasCeilings with
  | none =>
    refuseIf (gl ≠ t.gasLimit ∨ mf ≠ t.maxFeePerGas ∨ mp ≠ t.maxPriorityFeePerGas)
      "gas fields differ from packet"
  | some g => do
    refuseIf (g.gasLimitCeiling < gl) "gasLimit exceeds ceiling (2x reviewed)"
    refuseIf (g.maxFeeCeilingWei < mf) "maxFeePerGas exceeds reviewed maximum"
    refuseIf (g.maxPriorityCeilingWei < mp) "maxPriorityFeePerGas exceeds reviewed maximum"
    refuseIf (mf < mp) "maxPriorityFeePerGas > maxFeePerGas"
    refuseIf (g.maxGasCostCeilingWei < gl*mf)
      "gasLimit*maxFeePerGas exceeds the step's reviewed maxGasCostWei"

/-- The fields of a transaction, in the order in which the verifier reads them. -/
def checkTx (t : Step) (otx : ChainTx) : Check Unit := do
  t.checkChainId otx
  refuseIf (otx.source ≠ t.signer ∨ otx.nonce ≠ t.nonce ∨ otx.type ≠ 2)
    "tx fields differ from packet"
  t.checkTarget otx
  refuseIf (otx.value ≠ 0 ∨ otx.input ≠ t.dataOrInitCode) "tx fields differ from packet"
  refuseIf (otx.accessList ≠ []) "unexpected non-empty access list"
  refuseIf (otx.blobVersionedHashes ≠ none ∨ otx.maxFeePerBlobGas ≠ none)
    "unexpected blob fields"
  let mf ← orThrow "Cannot convert undefined to a BigInt" otx.maxFeePerGas
  let mp ← orThrow "Cannot convert undefined to a BigInt" otx.maxPriorityFeePerGas
  t.checkGas otx.gas mf mp

/-- A deploy step creates its predicted address. -/
def checkCreated (t : Step) (rc : Receipt) : Check Unit :=
  if t.phase = .aDeploy then do
    let created ← orThrow "invalid address" rc.contractAddress
    let deployment ← orThrow "invalid address" t.deployment
    refuseIf (created ≠ deployment.predictedCreationAddress) "deployed address != predicted"
  else .ok ()

def checkReceipt (t : Step) (txHash : Text) (rc : Receipt) : Check Unit := do
  refuseIf (toLowerCase rc.transactionHash ≠ toLowerCase txHash) "receipt hash mismatch"
  refuseIf (rc.status ≠ 1) "receipt reverted"
  t.checkCreated rc

end Step

end Canary
end BpsProtocol
