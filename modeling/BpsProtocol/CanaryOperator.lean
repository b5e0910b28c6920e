import BpsProtocol.CanaryPacket
import BpsProtocol.Lib.Tabs

/-! The canary execution operator after binding.
Its methods are asynchronous programs over the fields of one instance and four durable
records.  Every request to the wallet or the chain is an await; one of them,
`eth_sendTransaction`, names the step that it is made for, which only the observer reads. -/
namespace BpsProtocol
namespace Canary

open Checked MerkleProof Async

/-! ## Durable and volatile state -/

structure Entry where
  digest : Text
  step : ℕ
  txHash : Text
  receiptStatus : Text
  verified : Bool
  deriving DecidableEq

structure Pending where
  digest : Text
  step : ℕ
  txHash : Text
  deriving DecidableEq

structure Intent where
  digest : Text
  step : ℕ
  signer : Address
  nonce : ℕ
  signableTxHash : Bytes32
  deriving DecidableEq

structure Halt where
  reason : String
  uncertainSend : Option Intent
  deriving DecidableEq

/-- The four records of one digest.  An array with a hole is read back with a null entry. -/
structure Storage where
  halt : Option Halt
  journal : List (Option Entry)
  pending : Option Pending
  intent : Option Intent
  deriving DecidableEq

def Storage.empty : Storage :=
  { halt := none
    journal := []
    pending := none
    intent := none }

/-- The fields of an instance that its methods change. -/
structure Memory where
  connected : Bool
  reconciled : Bool
  halted : Bool
  haltReason : Option String
  uncertainSend : Option Intent
  journal : List (Option Entry)
  pending : Option Pending
  intent : Option Intent
  current : ℕ

/-! ## Requests -/

inductive BlockTag
  | latest
  | pending
  deriving DecidableEq

structure CallTx where
  source : Option Address
  target : Option Address
  data : Bytes
  deriving DecidableEq

structure SendTx where
  source : Address
  target : Option Address
  value : ℕ
  data : Bytes
  gas : ℕ
  maxFeePerGas : ℕ
  maxPriorityFeePerGas : ℕ
  type : ℕ
  nonce : ℕ
  chainId : ℕ
  deriving DecidableEq

inductive Query
  | chainId
  | accounts
  | getTransactionCount (account : Address) (tag : BlockTag)
  | getCode (account : Address)
  | getBlockByNumber
  | getBalance (account : Address)
  | call (tx : CallTx)
  | estimateGas (tx : CallTx)
  | price
  | getTransactionByHash (txHash : Text)
  | getTransactionReceipt (txHash : Text)
  | sleep
  | sendTransaction (step : ℕ) (tx : SendTx)

structure Price where
  coinbaseMicroUsd : Option ℤ
  krakenMicroUsd : Option ℤ
  coinbaseAgeS : Option ℤ
  krakenAgeS : Option ℤ

structure Head where
  baseFeePerGas : ℕ
  timestamp : ℕ

/-- A request that the transaction is sent. -/
def Query.IsSend : Query → Prop
  | .sendTransaction _ _ => True
  | _ => False

abbrev Answer : Query → Type
  | .chainId => ℕ
  | .accounts => List Address
  | .getTransactionCount _ _ => ℕ
  | .getCode _ => Bytes
  | .getBlockByNumber => Head
  | .getBalance _ => ℕ
  | .call _ => Bytes
  | .estimateGas _ => ℕ
  | .price => Option Price
  | .getTransactionByHash _ => Option ChainTx
  | .getTransactionReceipt _ => Option Receipt
  | .sleep => Unit
  | .sendTransaction _ _ => Text

abbrev Rpc : Interface := ⟨Query,Answer⟩

/-- An exception: of the provider, or of the code itself. -/
structure Failure where
  code : Option ℤ
  message : Text
  deriving DecidableEq

/-- `e.code === 4001 || /user rejected|user denied/i.test(e.message)` -/
def Failure.isUserRejected (e : Failure) : Bool :=
  e.code = some 4001 || decide ("user rejected".toList <:+: toLowerCase e.message) ||
    decide ("user denied".toList <:+: toLowerCase e.message)

def typeError (message : String) : Failure := ⟨none,message.toList⟩

/-- The object that a method returns. -/
structure Outcome where
  ok : Bool
  halted : Bool := false
  isPending : Bool := false
  done : Bool := false
  userRejected : Bool := false
  uncertainSend : Bool := false
  reason : Option String := none
  step : Option ℕ := none
  current : Option ℕ := none
  txHash : Option Text := none
  pendingUnresolved : Bool := false
  pendingResolved : Bool := false
  postcondition : Option Finding := none

def refusal (reason : String) : Outcome := { ok := false,reason := some reason }

abbrev Program (α : Type) := Prog Rpc Memory Storage Failure α

/-- `await this._req(…)` -/
def req (q : Query) : Program (Answer q) := Prog.await (I := Rpc) q

/-- `_req` inside a `try`. -/
def tryReq (q : Query) : Program (Except Failure (Answer q)) := Prog.attempt (I := Rpc) q

/-- A check inside a program: a refusal is a value, an exception is thrown. -/
def runCheck {α : Type} (c : Check α) : Program (Except String α) :=
  match c with
  | .ok a => pure (.ok a)
  | .error (.refused reason) => pure (.error reason)
  | .error (.thrown message) => Prog.throw (typeError message)

/-! ## Storage writes -/

def setHalt (h : Option Halt) : Program Bool := Prog.write fun d => { d with halt := h }

def setJournal (j : List (Option Entry)) : Program Bool := Prog.write fun d => { d with journal := j }

def setPending (p : Option Pending) : Program Bool := Prog.write fun d => { d with pending := p }

def setIntent (i : Option Intent) : Program Bool := Prog.write fun d => { d with intent := i }

/-- `_persistHalt`: the write is not read back. -/
def persistHalt (reason : String) (uncertainSend : Option Intent) : Program Unit := do
  Prog.modify fun s =>
    { s with halted := true,haltReason := some reason,uncertainSend := uncertainSend }
  let _ ← setHalt (some ⟨reason,uncertainSend⟩)
  return ()

/-- `_halt` -/
def halt (reason : String) : Program Outcome := do
  let s ← Prog.get
  persistHalt reason s.uncertainSend
  return { ok := false,halted := true,reason := some reason }

/-! ## Chain reads -/

def selector (keccak256 : Hash) (sig : String) : Bytes := (wordBytes (keccak256 (utf8 sig))).take 4

def encAddr (a : Address) : Bytes := wordBytes (addressWord a)

def encUint (n : ℕ) : Bytes := Bytes.bigEndian 32 n

/-- The conditions are awaited from the left as far as they hold. -/
def allTrue : List (Program Bool) → Program Bool
  | [] => pure true
  | p::ps => do if ← p then allTrue ps else return false

/-- The first refusal of a list of checks ends it. -/
def inOrder : List (Program (Except String Unit)) → Program (Except String Unit)
  | [] => pure (.ok ())
  | p::ps => do
    match ← p with
    | .ok () => inOrder ps
    | .error reason => return .error reason

def expect (c : Prop) [Decidable c] (reason : String) : Except String Unit :=
  if c then .ok () else .error reason

/-- A conversion that the source does without a check. -/
def orFail {α : Type} (c : Check α) : Program α :=
  match c with
  | .ok a => pure a
  | .error (.refused message) => Prog.throw (typeError message)
  | .error (.thrown message) => Prog.throw (typeError message)

namespace Runtime

variable (R : Runtime)

/-- `_call` -/
def call (target : Address) (sig : String) (args : List Bytes) : Program Bytes :=
  req (.call ⟨none,some target,selector R.keccak256 sig ++ args.flatten⟩)

def callAddr (target : Address) (sig : String) (args : List Bytes) : Program Address := do
  let r ← R.call target sig args
  orFail (addressOf (r.drop (r.length-20)))

def callUint (target : Address) (sig : String) (args : List Bytes) : Program ℕ := do
  let r ← R.call target sig args
  orFail (bigInt (r.take 32))

def callBool (target : Address) (sig : String) (args : List Bytes) : Program Bool := do
  let r ← R.call target sig args
  let n ← orFail (bigInt r)
  return n = 1

def callString (target : Address) (sig : String) : Program Text := do
  let r ← R.call target sig []
  let len ← orFail (bigInt ((r.drop 32).take 32))
  return ((r.drop 64).take len).map fun b => Char.ofNat b.toNat

/-! ## Exposure -/

/-- The price that `_exposureGate` uses: the higher of two well-formed fresh ones. -/
def higherPrice (pr : Option Price) : Except String ℤ :=
  match pr with
  | none => .error "malformed price data"
  | some pr =>
    match pr.coinbaseMicroUsd, pr.krakenMicroUsd with
    | some coinbase, some kraken =>
      if pr.coinbaseAgeS.any (· ≤ 300) && pr.krakenAgeS.any (· ≤ 300) then
        .ok (if kraken < coinbase then coinbase else kraken)
      else .error "stale price"
    | _, _ => .error "malformed price data"

structure Exposure where
  ok : Bool
  exposureMicro : ℤ
  higher : ℤ

/-- The bound total in micro-dollars against the cap; the division truncates. -/
def exposureAt (higher : ℤ) : Exposure :=
  let wei : ℤ := (R.exposurePrincipalWei : ℤ) + R.exposureGasWei
  let micro := Int.tdiv (wei*higher) (10^18)
  ⟨micro ≤ R.capMicro,micro,higher⟩

/-- `_exposureGate` -/
def exposureGate : Program (Except String Exposure) :=
  if R.hasPriceProvider then do
    match ← tryReq .price with
    | .ok pr => return (higherPrice pr).map R.exposureAt
    | .error _ => return .error "price fetch failed"
  else return .error "no price provider"

/-! ## The shared verifier -/

/-- `_assertChain` -/
def assertChain : Program Bool := do
  match ← tryReq .chainId with
  | .ok c => return (c : ℕ) = 4663
  | .error _ => return false

/-- `!boundary || await this._assertChain(provider)` -/
def boundaryHolds (t : Step) : Program Bool :=
  if t.gasCeilings.isSome then assertChain else pure true

def pollReceipt (txHash : Text) : ℕ → Program (Option Receipt)
  | 0 => pure none
  | polls+1 => do
    match ← req (.getTransactionReceipt txHash) with
    | some rc => return some rc
    | none => do
      req .sleep
      pollReceipt txHash polls

/-- `_verifyTxAndReceipt` -/
def verifyTxAndReceipt (t : Option Step) (txHash : Text) :
    Program (Except String (ChainTx × Receipt)) :=
  match t with
  | none => Prog.throw (typeError "undefined step")
  | some t => do
    if ← boundaryHolds t then
      match ← req (.getTransactionByHash txHash) with
      | none => return .error "transaction lookup returned null"
      | some otx =>
        match ← runCheck (t.checkTx otx) with
        | .error reason => return .error reason
        | .ok _ =>
          match ← pollReceipt txHash R.receiptPolls with
          | none => return .error "receipt timeout"
          | some rc =>
            match ← runCheck (t.checkReceipt txHash rc) with
            | .error reason => return .error reason
            | .ok _ => return .ok (otx,rc)
    else return .error "provider chain != 4663 at verify boundary"

/-- The verifier and then the receipt postcondition of one step. -/
def verifyStep (i : ℕ) (txHash : Text) (verifyText postText : String) :
    Program (Except String (Finding × Receipt)) := do
  match ← R.verifyTxAndReceipt R.steps[i]? txHash with
  | .error reason => return .error (verifyText ++ reason)
  | .ok (_,rc) =>
    match ← runCheck (R.receiptPostcondition i rc) with
    | .error reason => return .error (postText ++ reason)
    | .ok found => return .ok (found,rc)

/-! ## The cumulative checkpoint -/

/-- `this.journal.find(x => x.step === step)` -/
def findEntry (step : ℕ) : List (Option Entry) → Check (Option Entry)
  | [] => .ok none
  | none::_ => .error (.thrown "null entry")
  | some e::js => if e.step = step then .ok (some e) else findEntry step js

/-- The token id of the first position transfer of a receipt. -/
def tokenIdOf (rc : Receipt) : Option ℕ :=
  ((rc.logs.find? R.isPositionTransfer).bind fun lg => lg.topics[3]?).map Fin.val

def mintStep : Option Step := R.steps.find? fun t => t.postconditionType = .mint

/-- `_mintTokenId` -/
def mintTokenId : Program (Option ℕ) := do
  let t ← orFail (orThrow "undefined step" R.mintStep)
  let s ← Prog.get
  match ← orFail (findEntry t.index s.journal) with
  | none => return none
  | some j =>
    match ← req (.getTransactionReceipt j.txHash) with
    | none => return none
    | some rc => return R.tokenIdOf rc

def checkCode (t : Step) : Program (Except String Unit) :=
  if t.phase = .aDeploy then do
    let deployment ← orFail (orThrow "undefined deployment" t.deployment)
    let code ← req (.getCode deployment.predictedCreationAddress)
    if code = [] then return .error ("missing code " ++ deployment.slot.name)
    else
      return expect (R.keccak256 code = deployment.expectedRuntimeHash)
        ("runtime code hash " ++ deployment.slot.name)
  else pure (.ok ())

/-- `W` -/
def reads (target : Address) (sig : String) (expected : Address) : Program Bool := do
  let a ← R.callAddr target sig []
  return a = expected

def completed (upto : ℕ) (pcType : PostconditionType) : Bool :=
  (R.steps.take (upto+1)).any fun t => t.postconditionType = pcType

def deployed (upto : ℕ) (slot : Slot) : Bool :=
  (R.steps.take (upto+1)).any fun t => t.deployment.any (·.slot = slot)

def checkWhen (c : Bool) (p : Program (Except String Unit)) : Program (Except String Unit) :=
  if c then p else pure (.ok ())

def checkSymbol : Program (Except String Unit) := do
  let sym ← R.callString (R.addr .canaryToken) "symbol()"
  return expect (sym = R.canaryTokenSymbol) "symbol"

def checkVault : Program (Except String Unit) := do
  let wired ← allTrue
    [R.reads (R.addr .lockingVault) "owner()" R.deployer,
      R.reads (R.addr .lockingVault) "bpsToken()" (R.addr .canaryToken)]
  return expect (wired = true) "vault wiring"

def checkStockVault : Program (Except String Unit) := do
  let nvda ← R.callBool (R.addr .stockVault) "isApprovedStockToken(address)" [encAddr R.nvda]
  let wired ← allTrue
    [R.reads (R.addr .stockVault) "acquisitionExecutor()" (R.addr .coordinator),
      R.reads (R.addr .stockVault) "reserveRecipient()" R.deployer,pure nvda]
  return expect (wired = true) "vault immutables/NVDA"

def checkRouter : Program (Except String Unit) := do
  let wired ← allTrue
    [R.reads (R.addr .tradeRouter) "owner()" R.deployer,
      R.reads (R.addr .tradeRouter) "bpsToken()" (R.addr .canaryToken),
      R.reads (R.addr .tradeRouter) "swapAdapter()" (R.addr .uniswapAdapter),
      R.reads (R.addr .tradeRouter) "stockBudgetRecipient()" (R.addr .stockVault)]
  return expect (wired = true) "router wiring"

def checkPool : Program (Except String Unit) := do
  let p ← R.callAddr R.factory "getPool(address,address,uint24)"
    [encAddr R.lp.token0,encAddr R.lp.token1,encUint R.lp.feeTier]
  return expect (p = R.pool) "pool getPool"

/-- The `n`-th word of a result. -/
def resultWord (pos : Bytes) (n : ℕ) : Bytes := (pos.drop (32*n)).take 32

/-- The owner and the position of the token, against the bound expectations. -/
def checkOwned (tid : ℕ) : Program (Except String Unit) := do
  let owner ← R.callAddr R.npm "ownerOf(uint256)" [encUint tid]
  if owner ≠ R.lp.positionOwner then return .error "LP NFT owner"
  else do
    let pos ← R.call R.npm "positions(uint256)" [encUint tid]
    let token0 ← orFail (addressOf ((resultWord pos 2).drop 12))
    let token1 ← orFail (addressOf ((resultWord pos 3).drop 12))
    let fee ← orFail (bigInt (resultWord pos 4))
    let tickLower ← orFail (bigInt (resultWord pos 5))
    let tickUpper ← orFail (bigInt (resultWord pos 6))
    let liquidity ← orFail (bigInt (resultWord pos 7))
    return do
      expect (token0 = R.lp.token0 ∧ token1 = R.lp.token1) "position token0/token1"
      expect (fee = R.lp.feeTier ∧ asI24 tickLower = R.lp.tickLower ∧
        asI24 tickUpper = R.lp.tickUpper) "position fee/ticks"
      expect (liquidity = R.lp.poolLiquidityAfter) "position liquidity"

/-- The minted token, from the receipt at hand or from the journaled one. -/
def positionToken (upto : ℕ) (mintRc : Option Receipt) : Program (Option ℕ) :=
  match mintRc with
  | some rc =>
    if R.mintStep.any (·.index = upto) then pure (R.tokenIdOf rc) else R.mintTokenId
  | none => R.mintTokenId

def checkPosition (upto : ℕ) (mintRc : Option Receipt) : Program (Except String Unit) := do
  match ← R.positionToken upto mintRc with
  | none => return .error "mint tokenId (checkpoint)"
  | some tid => R.checkOwned tid

def checkLockedPrincipal : Program (Except String Unit) := do
  let principal ← R.callUint (R.addr .lockingVault) "lockedPrincipal(address)" [encAddr R.tester]
  return expect (principal = R.lock.principal) "lockedPrincipal"

/-- `_cumulativeCheckpoint` -/
def cumulativeCheckpoint (upto : ℕ) (mintRc : Option Receipt) : Program (Except String Unit) :=
  inOrder ((R.steps.take (upto+1)).map R.checkCode ++
    [checkWhen (R.deployed upto .canaryToken) R.checkSymbol,
      checkWhen (R.deployed upto .lockingVault) R.checkVault,
      checkWhen (R.deployed upto .stockVault) R.checkStockVault,
      checkWhen (R.deployed upto .tradeRouter) R.checkRouter,
      checkWhen (R.completed upto .createPool) R.checkPool,
      checkWhen (R.completed upto .mint) (R.checkPosition upto mintRc),
      checkWhen (R.completed upto .lock) R.checkLockedPrincipal])

/-! ## Preconditions -/

def dependenciesUnchanged : List Dependency → Program Bool
  | [] => pure true
  | rec::recs => do
    let code : Bytes ← req (.getCode rec.address)
    let rest ← dependenciesUnchanged recs
    return (decide (R.keccak256 code = rec.runtimeCodeHash) && code.length = rec.codeBytes) && rest

def createEmpty (t : Step) : Program Bool :=
  if t.phase = .aDeploy then do
    let deployment ← orFail (orThrow "undefined deployment" t.deployment)
    let code : Bytes ← req (.getCode deployment.predictedCreationAddress)
    return code = []
  else pure true

def callTx (t : Step) : CallTx := ⟨some t.signer,t.target,t.dataOrInitCode⟩

/-- `_buildSendTx` -/
def buildSendTx (t : Step) : SendTx :=
  { source := t.signer
    target := t.target
    value := 0
    data := t.dataOrInitCode
    gas := t.gasLimit
    maxFeePerGas := t.maxFeePerGas
    maxPriorityFeePerGas := t.maxPriorityFeePerGas
    type := 2
    nonce := t.nonce
    chainId := 4663 }

structure Ready where
  step : ℕ
  gates : List (String × Bool)
  exposure : Except String Exposure
  tx : SendTx

/-- The gates of one step, each by its name. -/
def gates (i : ℕ) (t : Step) (now : ℕ) :
    Program (List (String × Bool) × Except String Exposure) := do
  let chain : ℕ ← req .chainId
  let accts : List Address ← req .accounts
  let nLatest : ℕ ← req (.getTransactionCount t.signer .latest)
  let nPending : ℕ ← req (.getTransactionCount t.signer .pending)
  let s ← Prog.get
  let dep ← R.dependenciesUnchanged R.dependencies
  let empty ← createEmpty t
  let head : Head ← req .getBlockByNumber
  let balance : ℕ ← req (.getBalance t.signer)
  let sim ← tryReq (.call (callTx t))
  let est : Except Failure ℕ ← tryReq (.estimateGas (callTx t))
  let exposure ← R.exposureGate
  let flags := R.authFlags
  return ([("notExpired",R.expiresAtUtc.any (now ≤ ·)),
      ("correctChain",chain = 4663),
      ("accountSelected",accts.head? = some t.signer),
      ("nonceLatestMatches",nLatest = t.nonce),
      ("noncePendingMatches",nPending = t.nonce),
      ("priorStepsVerified",s.journal.length = i),
      ("dependencyHashesUnchanged",dep),
      ("predictedCreateEmpty",empty),
      ("baseFeeInBounds",head.baseFeePerGas + t.maxPriorityFeePerGas ≤ t.maxFeePerGas),
      ("ethSufficient",t.maxGasCostWei ≤ balance),
      ("simulationNoRevert",sim.toOption.isSome),
      ("gasEstimateWithinLimit",est.toOption.any (· ≤ t.gasLimit)),
      ("freshExposureWithinCap",exposure.toOption.any (·.ok)),
      ("authorizationEnabled",flags.broadcastReady && flags.liveWritesApproved &&
        flags.executionAuthorized && flags.fundingAuthorized)],exposure)

def failedGates (gs : List (String × Bool)) : List String :=
  (gs.filter fun g => !g.2).map Prod.fst

def preconditions (now : ℕ) : Program (Except Outcome Ready) := do
  let s ← Prog.get
  if s.halted then return .error { ok := false,halted := true,reason := s.haltReason }
  else if s.uncertainSend.isSome then
    return .error { refusal "uncertain send pending — reconciliation required" with halted := true }
  else if s.connected = false then return .error (refusal "not connected")
  else if s.reconciled = false then
    return .error (refusal "not reconciled — run reconcile() after Connect")
  else if s.pending.isSome then
    return .error { refusal "a transaction is pending; reconcile first" with isPending := true }
  else
    match R.steps[s.current]? with
    | none => return .error { ok := false,done := true }
    | some t => do
      let (gs,exposure) ← R.gates s.current t now
      if failedGates gs = [] then return .ok ⟨s.current,gs,exposure,buildSendTx t⟩
      else do
        let o ← halt (s!"precondition failed at step {s.current}: " ++
          ",".intercalate (failedGates gs))
        return .error o

/-! ## Sending -/

def intentOf (i : ℕ) (t : Step) : Intent :=
  { digest := R.execDigest
    step := i
    signer := t.signer
    nonce := t.nonce
    signableTxHash := R.signableHash t }

/-- `_persistHalt` with the intent of the running call. -/
def uncertain (reason : String) (intent : Intent) (txHash : Option Text) : Program Outcome := do
  persistHalt reason (some intent)
  return { ok := false,halted := true,uncertainSend := true,txHash := txHash }

/-- The wallet rejected: the intent is cleared, and an uncleared one halts. -/
def clearRejected (intent : Intent) : Program Outcome := do
  if ← setIntent none then
    Prog.modify fun s => { s with intent := none }
    let s ← Prog.get
    return { ok := false,userRejected := true,step := some s.current }
  else
    uncertain "failed to clear a rejected-send intent — reconciliation required (no blind retry)"
      intent none

/-- The wallet returned a hash: the pending record replaces the intent. -/
def recordPending (intent : Intent) (txHash : Text) : Program Outcome := do
  let s ← Prog.get
  let pending : Pending := ⟨R.execDigest,s.current,txHash⟩
  if ← setPending (some pending) then
    Prog.modify fun s => { s with pending := some pending }
    let s ← Prog.get
    return { ok := true,step := some s.current,txHash := some txHash }
  else
    uncertain "failed to durably record the returned tx hash — reconciliation required"
      intent (some txHash)

/-- The wallet call and what follows each of its answers. -/
def invokeWallet (i : ℕ) (t : Step) (intent : Intent) : Program Outcome := do
  match ← tryReq (.sendTransaction i (buildSendTx t)) with
  | .error e =>
    if e.isUserRejected then clearRejected intent
    else
      uncertain "unknown provider error after eth_sendTransaction invoked (no blind retry)"
        intent none
  | .ok txHash =>
    if ← boundaryHolds t then R.recordPending intent txHash
    else
      uncertain "provider chain != 4663 immediately after tx hash returned" intent (some txHash)

/-- `sendCurrent` after its preconditions. -/
def sendStep : Program Outcome := do
  let s ← Prog.get
  match R.steps[s.current]? with
  | none => Prog.throw (typeError "undefined step")
  | some t => do
    let i := s.current
    if ← boundaryHolds t then
      let s ← Prog.get
      let intent := R.intentOf s.current t
      if ← setIntent (some intent) then
        Prog.modify fun s => { s with intent := some intent }
        if ← boundaryHolds t then R.invokeWallet i t intent
        else do
          let _ ← setIntent none
          Prog.modify fun s => { s with intent := none }
          return refusal "provider chain != 4663 immediately before eth_sendTransaction"
      else return refusal "storage unavailable — refusing to invoke wallet"
    else return refusal "provider chain != 4663 immediately before intent persistence"

def sendCurrent (now : ℕ) : Program Outcome := do
  let s ← Prog.get
  if s.halted || s.uncertainSend.isSome then
    return { refusal (s.haltReason.getD "uncertain send") with halted := true }
  else if !(s.connected && s.reconciled) then
    return refusal "states not ready (bound/connected/reconciled)"
  else if s.pending.isSome then return { ok := false,isPending := true }
  else
    match ← R.preconditions now with
    | .error pre => return pre
    | .ok _ => R.sendStep

/-! ## Verifying and reconciling -/

def entryOf (i : ℕ) (txHash : Text) : Entry :=
  { digest := R.execDigest
    step := i
    txHash := txHash
    receiptStatus := "success".toList
    verified := true }

/-- The journal write of a verified step, and the records that it supersedes. -/
def journalStep (i : ℕ) (txHash : Text) (found : Finding) : Program Outcome := do
  let s ← Prog.get
  let nextJournal := s.journal ++ [some (R.entryOf i txHash)]
  if ← setJournal nextJournal then
    Prog.modify fun s => { s with journal := nextJournal }
    let _ ← setPending none
    Prog.modify fun s => { s with pending := none }
    let _ ← setIntent none
    Prog.modify fun s => { s with intent := none,current := s.current+1 }
    let s ← Prog.get
    return {
      ok := true
      step := some i
      txHash := some txHash
      done := R.steps.length ≤ s.current
      postcondition := some found }
  else return refusal s!"failed to durably journal step {i} — pending retained"

def verifyPending (i : ℕ) (txHash : Text) : Program Outcome := do
  match ← R.verifyStep i txHash s!"verify at step {i}: " s!"postcondition at step {i}: " with
  | .error reason => halt reason
  | .ok (found,rc) =>
    match ← R.cumulativeCheckpoint i (some rc) with
    | .error reason => halt (s!"checkpoint at step {i}: " ++ reason)
    | .ok _ => R.journalStep i txHash found

def verifyAfterHash (txHash : Text) : Program Outcome := do
  let s ← Prog.get
  if s.halted then return { ok := false,halted := true,reason := s.haltReason }
  else
    match s.pending with
    | none => halt "verifyAfterHash for a non-pending hash"
    | some p =>
      if toLowerCase p.txHash = toLowerCase txHash then R.verifyPending s.current txHash
      else halt "verifyAfterHash for a non-pending hash"

/-- The journal loop of `reconcile` from entry `k`; `left` steps of the packet remain.  The
length is read again in every round. -/
def verifyJournal (k left : ℕ) : Program (Except String Unit) := do
  let s ← Prog.get
  match s.journal[k]? with
  | none => return .ok ()
  | some none => Prog.throw (typeError "null entry")
  | some (some j) =>
    if j.digest = R.execDigest ∧ j.step = k then
      match left with
      | 0 => Prog.throw (typeError "undefined step")
      | left+1 =>
        match ← R.verifyStep k j.txHash s!"journal verify at step {k}: "
            s!"journal postcondition at step {k}: " with
        | .error reason => return .error reason
        | .ok _ => verifyJournal (k+1) left
    else return .error s!"journal step/digest mismatch at {k}"

def restartCheckpoint : Program (Except String Unit) := do
  let s ← Prog.get
  if s.journal = [] then return .ok ()
  else R.cumulativeCheckpoint (s.journal.length-1) none

/-- A pending record of a journaled step is stale. -/
def dropStalePending : Program Unit := do
  let s ← Prog.get
  if s.pending.any (·.step < s.journal.length) then
    let _ ← setPending none
    Prog.modify fun s => { s with pending := none }
  else pure ()

/-- The end of `reconcile`: a pending record is looked up and verified. -/
def resumePending : Program Outcome := do
  let s ← Prog.get
  match s.pending with
  | none => return { ok := true,current := some s.current }
  | some p =>
    match ← req (.getTransactionByHash p.txHash) with
    | none => do
      Prog.modify fun s => { s with reconciled := false }
      let s ← Prog.get
      return { ok := true,current := some s.current,pendingUnresolved := true }
    | some _ => do
      let s ← Prog.get
      match s.pending with
      | none => Prog.throw (typeError "null pending")
      | some p => do
        let v ← R.verifyAfterHash p.txHash
        if v.ok then
          Prog.modify fun s => { s with reconciled := true }
          let s ← Prog.get
          return { ok := true,current := some s.current,pendingResolved := true }
        else return v

/-- `reconcile` once the journal is verified. -/
def finishReconcile : Program Outcome := do
  Prog.modify fun s => { s with current := s.journal.length,reconciled := true }
  dropStalePending
  R.resumePending

def reconcile : Program Outcome := do
  let s ← Prog.get
  if s.connected = false then return refusal "not connected"
  else if s.halted && s.uncertainSend.isNone then
    return { ok := false,halted := true,reason := s.haltReason }
  else if s.uncertainSend.isSome then
    return { refusal "uncertain send — supply a tx hash to resolve" with
      halted := true,uncertainSend := true }
  else
    match ← R.verifyJournal 0 R.steps.length with
    | .error reason => halt reason
    | .ok _ =>
      match ← R.restartCheckpoint with
      | .error reason => halt ("restart checkpoint: " ++ reason)
      | .ok _ => R.finishReconcile

/-- `next[step] = entry` on a copy; an assignment past the end leaves holes. -/
def setEntry (journal : List (Option Entry)) (step : ℕ) (e : Entry) : List (Option Entry) :=
  if step < journal.length then journal.set step (some e)
  else journal ++ List.replicate (step-journal.length) none ++ [some e]

/-- `resolveUncertainSend` once the supplied hash is verified. -/
def journalResolved (step : ℕ) (txHash : Text) : Program Outcome := do
  let s ← Prog.get
  let next := setEntry s.journal step (R.entryOf step txHash)
  if ← setJournal next then
    Prog.modify fun s => { s with journal := next }
    let clearedIntent ← setIntent none
    let clearedHalt ← setHalt none
    if clearedIntent && clearedHalt then
      Prog.modify fun s =>
        { s with
          uncertainSend := none
          intent := none
          halted := false
          haltReason := none
          current := s.journal.length }
      return { ok := true,step := some step }
    else
      return { refusal "resolved+journalled but failed to clear durable halt/intent" with
        halted := true }
  else
    return { refusal "failed to durably journal during uncertain-send resolution" with
      halted := true }

def resolveUncertainSend (txHash : Text) : Program Outcome := do
  let s ← Prog.get
  match s.uncertainSend with
  | none => return refusal "no uncertain send"
  | some u =>
    match ← R.verifyStep u.step txHash "supplied tx does not reconcile: " "postcondition: " with
    | .error reason => return refusal reason
    | .ok _ => R.journalResolved u.step txHash

def markConnected : Program Outcome := do
  let s ← Prog.get
  if s.halted then return { ok := false,halted := true,reason := s.haltReason }
  else do
    let chain : ℕ ← req .chainId
    if chain ≠ 4663 then return refusal "wrong chain (need 4663/0x1237)"
    else do
      let accts : List Address ← req .accounts
      if accts = [] then return refusal "no account exposed"
      else do
        Prog.modify fun s => { s with connected := true }
        return { ok := true }

end Runtime

/-! ## The application -/

/-- A journal that has the step; a null entry throws. -/
def journaled (journal : List (Option Entry)) (step : ℕ) : Except Failure Bool :=
  match Runtime.findEntry step journal with
  | .ok found => .ok found.isSome
  | .error _ => .error (typeError "null entry")

/-- What the constructor reads back, before it looks at the intent. -/
def loaded (d : Storage) : Memory :=
  { connected := false
    reconciled := false
    halted := d.halt.isSome
    haltReason := d.halt.map Halt.reason
    uncertainSend := d.halt.bind Halt.uncertainSend
    journal := d.journal
    pending := d.pending
    intent := d.intent
    current := 0 }

/-- `constructor`: an intent without a journal entry or a pending record is an uncertain
send. -/
def construct (d : Storage) : Except Failure Memory :=
  match d.intent, (loaded d).uncertainSend with
  | some intent, none => do
    if (← journaled d.journal intent.step) || d.pending.any (·.step = intent.step) then
      return loaded d
    else
      return { loaded d with
        halted := true
        haltReason := some "in-flight send intent persisted with no confirmed tx hash"
        uncertainSend := some intent }
  | _, _ => .ok (loaded d)

inductive Method
  | markConnected
  | preconditions (now : ℕ)
  | sendCurrent (now : ℕ)
  | verifyAfterHash (txHash : Text)
  | reconcile
  | resolveUncertainSend (txHash : Text)

def Runtime.method (R : Runtime) : Method → Program Outcome
  | .markConnected => Runtime.markConnected
  | .preconditions now => do
    match ← R.preconditions now with
    | .error pre => return pre
    | .ok ready => return { ok := true,step := some ready.step }
  | .sendCurrent now => R.sendCurrent now
  | .verifyAfterHash txHash => R.verifyAfterHash txHash
  | .reconcile => R.reconcile
  | .resolveUncertainSend txHash => R.resolveUncertainSend txHash

def Runtime.app (R : Runtime) : App Rpc Memory Storage Failure Outcome Method :=
  ⟨construct,R.method⟩

/-! ## What an observer of the wallet sees -/

/-- `eth_sendTransaction` invoked for a step, with the journal stored at that moment, or a
rejection by the user that the code recognised. -/
inductive SendEvent
  | invoked (step : ℕ) (journal : List (Option Entry))
  | rejected (step : ℕ)
  deriving DecidableEq

def sends : Monitor Rpc Storage Failure SendEvent where
  issued
    | .sendTransaction step _, d => [.invoked step d.journal]
    | _, _ => []
  answered
    | .sendTransaction step _, .error e => if e.isUserRejected then [.rejected step] else []
    | _, _ => []

end Canary
end BpsProtocol
