import BpsProtocol.Eligibility
import BpsProtocol.FeedAcceptance
import BpsProtocol.GuardedSettlement
import BpsProtocol.Lib.Guarded

/-! `evaluateCanaryReadiness`: the preflight of the canary.
Every read goes through a reader whose calls may reject.  A read inside a `try` becomes a
failed check; the code of the sequencer feed and of the controller are read outside of one. -/
namespace BpsProtocol
namespace CanaryPreflight

open Guarded HexText Shared Binary64 NumberText FeedAcceptance PriceGuard
open Eligibility (ROBINHOOD_CHAIN_ID)

/-! ## What is thrown -/

/-- What a promise rejects with: an `Error`, or a value with or without a string form.  An
error may lack a string for its message. -/
inductive Reason
  | error (name : Text) (message : Option Text)
  | other (text : Option Text)
  deriving DecidableEq

/-- An `Error` with a message, as viem throws it. -/
structure Fault where
  name : Text
  message : Text

def Fault.reason (f : Fault) : Reason := .error f.name (some f.message)

def noSplit : Reason :=
  .error "TypeError".toList (some "e.message.split is not a function".toList)

def noPrimitive : Reason :=
  .error "TypeError".toList (some "Cannot convert object to primitive value".toList)

/-- The rendering of a reason, which throws for one that has none. -/
def short : Reason → Except Reason Text
  | .error name (some message) =>
    .ok (name ++ ": ".toList ++ (message.takeWhile (· ≠ '\n')).take 120)
  | .error _ none => .error noSplit
  | .other (some text) => .ok (text.take 120)
  | .other none => .error noPrimitive

/-! ## What is read -/

inductive View
  | ownerOf
  | decimals
  | description
  | symbol
  | latestRoundData
  | oraclePaused
  | paused

@[reducible] def View.Result : View → Type
  | ownerOf => Text
  | decimals => ℕ
  | description => Text
  | symbol => Text
  | latestRoundData => Round
  | oraclePaused => Bool
  | paused => Bool

/-- The functions of viem that the preflight calls. -/
structure Viem where
  encodeFunctionData : View → Text
  decodeFunctionResult : (v : View) → Text → Except Fault v.Result
  keccak256 : Text → Except Fault Text

/-- The answers of a reader.  A call is told apart by the part of the evaluation that makes it;
no part asks the same twice, so that an answer may be anything at any call. -/
structure ChainReader where
  getChainId : Except Reason Number
  getCode : (part address : Text) → Except Reason Text
  call : (part target data : Text) → Except Reason Text

def ROUTER_PART : Text := "router".toList
def ORACLE_PART : Text := "nvda-oracle".toList
def SEQUENCER_PART : Text := "sequencer".toList
def CONTROLLER_PART : Text := "controller".toList
def EXECUTOR_PART : Text := "executor".toList

structure CanaryPreflightConfig where
  controller : Option Text
  executor : Option Text
  sequencerFeed : Text
  maxWethFeedAgeSec : Number
  maxNvdaFeedAgeSec : Number
  canaryCapWei : ℤ
  nowSec : Number
  qex1Consumed : Bool
  expectedRouterCodeHash : Option Text

def ETH_USD_FEED : Text := "0x78F3556b67E17Df817D51Ef5a990cDaF09E8d3A9".toList
def NVDA_USD_FEED : Text := "0x379EC4f7C378F34a1B47E4F3cbeBCbAC3E8E9F15".toList
def ETH_USD_FEED_DESCRIPTION : Text := "ETH / USD".toList
def NVDA_USD_FEED_DESCRIPTION : Text := "RHNVDA / USD".toList
def EXPECTED_TOKEN_DECIMALS : Number := .ofRat 18
def WETH_SYMBOL : Text := "WETH".toList
def NVDA_SYMBOL : Text := "NVDA".toList
def ROUTER_CODE_HASH : Text :=
  "0xa7041268d6f20802f420b5c71e84a991dc797f27cb474265598b89e43ef27611".toList
def OPAQUE_SETTLEMENT_SELECTOR : Text := "0x77963966".toList
def EXPECTED_SETTLEMENT_SELECTOR : Text := "0x77963966".toList
def CANARY_MAX_SELL_WETH : ℤ := 1000000000000000
def MAX_FEED_AGE_CEILING_SEC : Number := .ofRat 900
def FLAG_CONTROLLER_REQUIRED : Text := "CONTROLLER_REQUIRED".toList
def FLAG_NVDA_STALE_MARKET_CLOSED : Text := "NVDA_FEED_STALE_MARKET_CLOSED".toList
def FLAG_ETH_FEED_STALE : Text := "ETH_USD_FEED_STALE".toList
def ZERO_ADDRESS : Text := "0x0000000000000000000000000000000000000000".toList
def DEAD_ADDRESS : Text := "0x000000000000000000000000000000000000dead".toList

def eqAddr (a b : Text) : Bool := toLowerCase a = toLowerCase b

def isZeroOrDead (a : Text) : Bool := eqAddr a ZERO_ADDRESS || eqAddr a DEAD_ADDRESS

/-- `!!code && code !== "0x"` -/
def hasCode (code : Text) : Bool := code ≠ [] ∧ code ≠ "0x".toList

def ageOk (age : Number) : Bool :=
  age.isInteger && (Number.ofRat 0).lt age && age.le MAX_FEED_AGE_CEILING_SEC

/-! ## The evaluation -/

/-- The variables of the evaluation. -/
structure Progress where
  checks : List CheckResult
  flags : List Text
  chainId : Option Number
  routerHashOk : Bool
  executionLocked : Bool

abbrev Check := Program Reason Progress

def add (id : Text) (ok : Bool) (detail : Text) : Check Unit :=
  modify fun p => { p with checks := p.checks ++ [⟨id,ok,detail⟩] }

def flag (f : Text) : Check Unit :=
  modify fun p => if f ∈ p.flags then p else { p with flags := p.flags ++ [f] }

section Evaluation

variable (viem : Viem) (reader : ChainReader) (config : CanaryPreflightConfig)

def readView (part target : Text) (v : View) : Except Reason v.Result := do
  let ret ← reader.call part target (viem.encodeFunctionData v)
  (viem.decodeFunctionResult v ret).mapError Fault.reason

def chainCheck : Check Unit :=
  tryCatch
    (do
      let chainId ← awaited reader.getChainId
      modify fun p => { p with chainId := some chainId }
      add "chain-id".toList (Number.strictEq chainId (.ofRat ROBINHOOD_CHAIN_ID))
        ("chainId=".toList ++ toText chainId ++ " (expected ".toList ++
          toText (.ofRat ROBINHOOD_CHAIN_ID) ++ ")".toList))
    fun e => do
      let reason ← awaited (short e)
      add "chain-id".toList false ("chainId read failed: ".toList ++ reason)

def selectorOk : Bool := eqAddr OPAQUE_SETTLEMENT_SELECTOR EXPECTED_SETTLEMENT_SELECTOR

def selectorCheck : Check Unit :=
  add "settlement-selector".toList selectorOk ("selector=".toList ++ OPAQUE_SETTLEMENT_SELECTOR ++
    " (expected ".toList ++ EXPECTED_SETTLEMENT_SELECTOR ++ ")".toList)

def codeCheck (id addr : Text) : Check Unit :=
  tryCatch
    (do
      let code ← awaited (reader.getCode id addr)
      add id (hasCode code) (addr ++ " code present=".toList ++ boolText (hasCode code)))
    fun e => do
      let reason ← awaited (short e)
      add id false (addr ++ " getCode failed: ".toList ++ reason)

def routerCheck : Check Unit :=
  tryCatch
    (do
      let router ← awaited (readView viem reader ROUTER_PART
        GuardedSettlement.OFFICIAL_REGISTRY .ownerOf)
      if isZeroOrDead router then
        add "router-owner".toList false
          "ownerOf(2) returned zero/dead router (feature 2 paused/uninitialized)".toList
      else do
        add "router-owner".toList true
          ("router=".toList ++ router ++ " (feature 2 active/unpaused)".toList)
        let code ← awaited (reader.getCode ROUTER_PART router)
        if !hasCode code then
          add "router-code-hash".toList false ("router ".toList ++ router ++ " has no code".toList)
        else do
          let expected := config.expectedRouterCodeHash.getD ROUTER_CODE_HASH
          let hash ← awaited ((viem.keccak256 code).mapError Fault.reason)
          modify fun p => { p with routerHashOk := eqAddr hash expected }
          add "router-code-hash".toList (eqAddr hash expected) ("router codeHash ".toList ++
            (if eqAddr hash expected then "matches pin" else "MISMATCH").toList))
    fun e => do
      let reason ← awaited (short e)
      add "router-owner".toList false ("ownerOf(2) failed: ".toList ++ reason)

def pairingCheck : Check Unit := do
  let p ← get
  add "selector-codehash-pairing".toList (selectorOk && p.routerHashOk)
    ("approved selector paired with pinned router code hash = ".toList ++
      boolText (selectorOk && p.routerHashOk))

def tokenCheck (id addr expectedSymbol : Text) : Check Unit :=
  tryCatch
    (do
      let code ← awaited (reader.getCode id addr)
      if !hasCode code then add (id ++ "-token".toList) false (addr ++ " has no code".toList)
      else do
        let decimals ← awaited (readView viem reader id addr .decimals)
        let dec := Number.ofRat (decimals : ℕ)
        add (id ++ "-token-decimals".toList) (Number.strictEq dec EXPECTED_TOKEN_DECIMALS)
          (addr ++ " decimals=".toList ++ toText dec ++ " (expected ".toList ++
            toText EXPECTED_TOKEN_DECIMALS ++ ")".toList)
        let sym ← awaited (readView viem reader id addr .symbol)
        add (id ++ "-token-symbol".toList) (sym = expectedSymbol) ("symbol=".toList ++
          Json.quote sym ++ " (expected ".toList ++ Json.quote expectedSymbol ++ ")".toList))
    fun e => do
      let reason ← awaited (short e)
      add (id ++ "-token".toList) false (addr ++ " token check failed: ".toList ++ reason)

/-- A finished check. -/
def addCheck (c : CheckResult) : Check Unit := add c.id c.ok c.detail

def feedCheck (id addr expectedDescription : Text) (maxAgeSec : Number) (staleFlagToken : Text) :
    Check Unit :=
  tryCatch
    (do
      let code ← awaited (reader.getCode id addr)
      if !hasCode code then add (id ++ "-feed".toList) false (addr ++ " has no code".toList)
      else do
        let decimals ← awaited (readView viem reader id addr .decimals)
        addCheck (decimalsCheck id (.ofRat (decimals : ℕ)))
        let description ← awaited (readView viem reader id addr .description)
        addCheck (descriptionCheck id description expectedDescription)
        let round ← awaited (readView viem reader id addr .latestRoundData)
        let report := roundReport id round config.nowSec maxAgeSec staleFlagToken
        report.checks.forM addCheck
        report.flags.forM flag)
    fun e => do
      let reason ← awaited (short e)
      addCheck (failedCheck id addr reason)

def oracleCheck : Check Unit :=
  tryCatch
    (do
      let paused ← awaited (readView viem reader ORACLE_PART GuardedSettlement.NVDA
        .oraclePaused)
      add "nvda-oracle-not-paused".toList (paused = false) ("oraclePaused=".toList ++
        boolText paused))
    fun e => do
      let reason ← awaited (short e)
      add "nvda-oracle-not-paused".toList false ("oraclePaused read failed: ".toList ++ reason)

def sequencerCheck : Check Unit :=
  if eqAddr config.sequencerFeed ZERO_ADDRESS then
    add "sequencer-policy".toList true ("no sequencer feed configured (none officially " ++
      "published); dual-feed freshness enforced").toList
  else do
    -- no `try` here
    let code ← awaited (reader.getCode SEQUENCER_PART config.sequencerFeed)
    add "sequencer-policy".toList (hasCode code) ("sequencer feed ".toList ++
      config.sequencerFeed ++ " code present=".toList ++ boolText (hasCode code))

def controllerCheck : Check Unit :=
  match config.controller with
  | none => do
    add "controller".toList false
      (FLAG_CONTROLLER_REQUIRED ++ ": no controller address supplied".toList)
    flag FLAG_CONTROLLER_REQUIRED
  | some controller =>
    if isZeroOrDead controller then add "controller".toList false "controller is zero/dead".toList
    else do
      -- nor here
      let code ← awaited (reader.getCode CONTROLLER_PART controller)
      add "controller".toList (hasCode code)
        ("controller code present=".toList ++ boolText (hasCode code))

def capCheck : Check Unit :=
  add "canary-cap".toList
    (0 < config.canaryCapWei ∧ config.canaryCapWei ≤ CANARY_MAX_SELL_WETH)
    ("cap=".toList ++ toString10 config.canaryCapWei ++ " wei (must be 0<cap<=".toList ++
      toString10 CANARY_MAX_SELL_WETH ++ ")".toList)

def agePolicyCheck : Check Unit :=
  add "feed-age-policy".toList (ageOk config.maxWethFeedAgeSec && ageOk config.maxNvdaFeedAgeSec)
    ("maxWethAge=".toList ++ toText config.maxWethFeedAgeSec ++ "s maxNvdaAge=".toList ++
      toText config.maxNvdaFeedAgeSec ++ "s (must be 0<age<=".toList ++
      toText MAX_FEED_AGE_CEILING_SEC ++ ")".toList)

def lockCheck : Check Unit :=
  match config.executor with
  | none => add "execution-locked".toList true
      "executor not yet deployed (execution not possible)".toList
  | some executor =>
    tryCatch
      (do
        let code ← awaited (reader.getCode EXECUTOR_PART executor)
        if !hasCode code then
          add "execution-locked".toList true
            "executor address has no code yet (execution not possible)".toList
        else do
          let paused ← awaited (readView viem reader EXECUTOR_PART executor .paused)
          modify fun p => { p with executionLocked := paused = true }
          add "execution-locked".toList (paused = true)
            ("executor paused=".toList ++ boolText paused))
      fun e => do
        modify fun p => { p with executionLocked := false }
        let reason ← awaited (short e)
        add "execution-locked".toList false
          ("executor paused() read failed: ".toList ++ reason)

def qex1Check : Check Unit :=
  add "qex1-consumed".toList (config.qex1Consumed = true)
    ("QEX1_CONSUMED=".toList ++ boolText config.qex1Consumed)

def allChecks : Check Unit := do
  chainCheck reader
  selectorCheck
  codeCheck reader "registry-code".toList GuardedSettlement.OFFICIAL_REGISTRY
  routerCheck viem reader config
  pairingCheck
  tokenCheck viem reader "weth".toList GuardedSettlement.WETH WETH_SYMBOL
  tokenCheck viem reader "nvda".toList GuardedSettlement.NVDA NVDA_SYMBOL
  feedCheck viem reader config "eth-usd".toList ETH_USD_FEED ETH_USD_FEED_DESCRIPTION
    config.maxWethFeedAgeSec FLAG_ETH_FEED_STALE
  feedCheck viem reader config "nvda-usd".toList NVDA_USD_FEED NVDA_USD_FEED_DESCRIPTION
    config.maxNvdaFeedAgeSec FLAG_NVDA_STALE_MARKET_CLOSED
  oracleCheck viem reader
  sequencerCheck reader config
  controllerCheck reader config
  capCheck config
  agePolicyCheck config
  lockCheck viem reader config
  qex1Check config

inductive CanaryStatus
  | buildReadyExecutionLocked
  | notReady
  deriving DecidableEq

structure CanaryReadinessReport where
  status : CanaryStatus
  executionLocked : Bool
  chainId : Option Number
  checks : List CheckResult
  failed : List Text
  flags : List Text

def Progress.report (p : Progress) : CanaryReadinessReport :=
  let failed := (p.checks.filter fun c => !c.ok).map CheckResult.id
  { status := if failed.length = 0 ∧ p.executionLocked = true then .buildReadyExecutionLocked
      else .notReady
    executionLocked := p.executionLocked
    chainId := p.chainId
    checks := p.checks
    failed
    flags := p.flags }

/-- The report, or what the promise rejects with. -/
def evaluateCanaryReadiness : Except Reason CanaryReadinessReport :=
  let r := (allChecks viem reader config).run ⟨[],[],none,false,true⟩
  r.1.map fun _ => r.2.report

end Evaluation

end CanaryPreflight
end BpsProtocol
