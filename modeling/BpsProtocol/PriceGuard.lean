import BpsProtocol.Erc20
import BpsProtocol.MerkleProof
import BpsProtocol.Lib.CeilDiv

/-! `ChainlinkSettlementPriceGuard`: a settlement's minimum against two price feeds.
Everything is read anew at each check and compared with what was pinned at construction;
the floor is computed by three divisions that round up. -/
namespace BpsProtocol
namespace PriceGuard

open Checked MerkleProof

def robinhoodChainId : ℕ := 4663
def maxFeedAgeCeilingSec : ℕ := 900
def maxDeviationCeilingBps : ℕ := 100

structure Round where
  roundId : ℕ
  answer : ℤ
  startedAt : ℕ
  updatedAt : ℕ
  answeredInRound : ℕ

/-- The views of an aggregator; each may revert. -/
structure Feed where
  decimals : Option ℕ
  description : Option Bytes
  latestRoundData : Option Round

/-- What the guard reads of the chain. -/
structure Chain where
  chainId : ℕ
  timestamp : ℕ
  code : Address → Bytes
  feed : Address → Feed
  tokenDecimals : Address → Option ℕ
  oraclePaused : Address → Option Bool

inductive Error
  | wrongChain (chainId : ℕ)
  | zeroAddress
  | notAContract (target : Address)
  | badConfiguration
  | wrongPair
  | zeroAmount
  | feedDecimalsChanged (feed : Address)
  | feedIdentityChanged (feed : Address)
  | invalidAnswer (feed : Address) (answer : ℤ)
  | invalidTimestamp (feed : Address) (updatedAt : ℕ)
  | incompleteRound (feed : Address)
  | staleFeed (feed : Address) (age maxAge : ℕ)
  | stockOracleGloballyPaused
  | sequencerDown
  | sequencerGraceNotElapsed (sinceUp grace : ℕ)
  | minBuyBelowOracleFloor (floorAmount minBuyAmount : ℕ)
  | viewReverted
  | panic
  deriving DecidableEq

/-- The constructor's arguments. -/
structure Config where
  wethToken : Address
  nvdaToken : Address
  wethUsdFeed : Address
  nvdaUsdFeed : Address
  sequencerUptimeFeed : Address
  sequencerRecoveryGraceSec : ℕ
  maxWethFeedAgeSec : ℕ
  maxNvdaFeedAgeSec : ℕ

/-- A constructed guard, with what the constructor pinned. -/
structure Guard extends Config where
  wethFeedDecimals : ℕ
  nvdaFeedDecimals : ℕ
  wethTokenDecimals : ℕ
  nvdaTokenDecimals : ℕ
  wethFeedDescriptionHash : Bytes32
  nvdaFeedDescriptionHash : Bytes32
  nonzero : 0 ∉ [wethToken,nvdaToken,wethUsdFeed,nvdaUsdFeed]
  ages : ∀ age ∈ [maxWethFeedAgeSec,maxNvdaFeedAgeSec], 0 < age ∧ age ≤ maxFeedAgeCeilingSec
  distinct : wethToken ≠ nvdaToken ∧ wethUsdFeed ≠ nvdaUsdFeed ∧ wethToken ≠ wethUsdFeed ∧
    nvdaToken ≠ nvdaUsdFeed
  decimals : ∀ k ∈ [wethFeedDecimals,nvdaFeedDecimals,wethTokenDecimals,nvdaTokenDecimals],
    0 < k ∧ k ≤ 18

def requireCode (chain : Chain) (target : Address) : Except Error Unit :=
  revertIf ((chain.code target).length = 0) (.notAContract target)

/-- What the constructor reads of the feeds and tokens, and its last checks. -/
def pin (keccak256 : Hash) (chain : Chain) (c : Config)
    (nonzero : 0 ∉ [c.wethToken,c.nvdaToken,c.wethUsdFeed,c.nvdaUsdFeed])
    (ages : ∀ age ∈ [c.maxWethFeedAgeSec,c.maxNvdaFeedAgeSec],
      0 < age ∧ age ≤ maxFeedAgeCeilingSec)
    (distinct : c.wethToken ≠ c.nvdaToken ∧ c.wethUsdFeed ≠ c.nvdaUsdFeed ∧
      c.wethToken ≠ c.wethUsdFeed ∧ c.nvdaToken ≠ c.nvdaUsdFeed) : Except Error Guard := do
  let wethFeedDecimals ← orRevert .viewReverted (chain.feed c.wethUsdFeed).decimals
  let nvdaFeedDecimals ← orRevert .viewReverted (chain.feed c.nvdaUsdFeed).decimals
  let wethTokenDecimals ← orRevert .viewReverted (chain.tokenDecimals c.wethToken)
  let nvdaTokenDecimals ← orRevert .viewReverted (chain.tokenDecimals c.nvdaToken)
  let wethDescription ← orRevert .viewReverted (chain.feed c.wethUsdFeed).description
  let nvdaDescription ← orRevert .viewReverted (chain.feed c.nvdaUsdFeed).description
  if decimals : ∀ k ∈ [wethFeedDecimals,nvdaFeedDecimals,wethTokenDecimals,nvdaTokenDecimals],
      0 < k ∧ k ≤ 18 then do
    let _ ← orRevert .viewReverted (chain.oraclePaused c.nvdaToken)
    return {
      toConfig := c
      wethFeedDecimals,nvdaFeedDecimals,wethTokenDecimals,nvdaTokenDecimals
      wethFeedDescriptionHash := keccak256 wethDescription
      nvdaFeedDescriptionHash := keccak256 nvdaDescription
      nonzero,ages,distinct,decimals }
  else
    .error .badConfiguration

/-- `constructor` -/
def construct (keccak256 : Hash) (chain : Chain) (c : Config) : Except Error Guard := do
  revertIf (chain.chainId ≠ robinhoodChainId) (.wrongChain chain.chainId)
  if nonzero : 0 ∉ [c.wethToken,c.nvdaToken,c.wethUsdFeed,c.nvdaUsdFeed] then do
    requireCode chain c.wethToken
    requireCode chain c.nvdaToken
    requireCode chain c.wethUsdFeed
    requireCode chain c.nvdaUsdFeed
    revertIf (c.sequencerUptimeFeed ≠ 0 ∧ (chain.code c.sequencerUptimeFeed).length = 0)
      (.notAContract c.sequencerUptimeFeed)
    if h : (∀ age ∈ [c.maxWethFeedAgeSec,c.maxNvdaFeedAgeSec],
        0 < age ∧ age ≤ maxFeedAgeCeilingSec) ∧
        c.wethToken ≠ c.nvdaToken ∧ c.wethUsdFeed ≠ c.nvdaUsdFeed ∧
          c.wethToken ≠ c.wethUsdFeed ∧ c.nvdaToken ≠ c.nvdaUsdFeed then
      pin keccak256 chain c nonzero h.1 h.2
    else
      .error .badConfiguration
  else
    .error .zeroAddress

/-- `_readFreshAnswer` -/
def readFreshAnswer (keccak256 : Hash) (chain : Chain) (feed : Address) (expectedDecimals : ℕ)
    (expectedDescriptionHash : Bytes32) (maxAge : ℕ) : Except Error ℕ := do
  let decimals ← orRevert .viewReverted (chain.feed feed).decimals
  revertIf (decimals ≠ expectedDecimals) (.feedDecimalsChanged feed)
  let description ← orRevert .viewReverted (chain.feed feed).description
  revertIf (keccak256 description ≠ expectedDescriptionHash) (.feedIdentityChanged feed)
  let round ← orRevert .viewReverted (chain.feed feed).latestRoundData
  revertIf (round.roundId = 0) (.incompleteRound feed)
  revertIf (round.answer ≤ 0) (.invalidAnswer feed round.answer)
  revertIf (round.updatedAt = 0) (.invalidTimestamp feed round.updatedAt)
  revertIf (chain.timestamp < round.updatedAt) (.invalidTimestamp feed round.updatedAt)
  revertIf (round.answeredInRound < round.roundId) (.incompleteRound feed)
  let age := chain.timestamp-round.updatedAt
  revertIf (maxAge < age) (.staleFeed feed age maxAge)
  return round.answer.toNat

/-- `_checkSequencer` -/
def checkSequencer (g : Guard) (chain : Chain) : Except Error Unit :=
  if g.sequencerUptimeFeed = 0 then .ok () else do
    let round ← orRevert .viewReverted (chain.feed g.sequencerUptimeFeed).latestRoundData
    revertIf (round.answer ≠ 0) .sequencerDown
    let sinceUp ← sub .panic chain.timestamp round.startedAt
    revertIf (sinceUp < g.sequencerRecoveryGraceSec)
      (.sequencerGraceNotElapsed sinceUp g.sequencerRecoveryGraceSec)

/-- The two readings of a check. -/
def readAnswers (keccak256 : Hash) (g : Guard) (chain : Chain) : Except Error (ℕ × ℕ) := do
  let wethUsd ← readFreshAnswer keccak256 chain g.wethUsdFeed g.wethFeedDecimals
    g.wethFeedDescriptionHash g.maxWethFeedAgeSec
  let nvdaUsd ← readFreshAnswer keccak256 chain g.nvdaUsdFeed g.nvdaFeedDecimals
    g.nvdaFeedDescriptionHash g.maxNvdaFeedAgeSec
  return (wethUsd,nvdaUsd)

def deviation (maxDeviationBps : ℕ) : ℕ :=
  if maxDeviationBps < maxDeviationCeilingBps then maxDeviationBps else maxDeviationCeilingBps

/-- The least acceptable minimum: the fair output, reduced by the deviation. -/
def oracleFloor (g : Guard) (sellAmount wethUsd nvdaUsd maxDeviationBps : ℕ) :
    Except Error ℕ := do
  let usdScaled ← mulDivCeil .panic sellAmount wethUsd (10^g.wethTokenDecimals)
  let denominator ← mul .panic (10^g.wethFeedDecimals) nvdaUsd
  let fairOut ← mulDivCeil .panic usdScaled (10^(g.nvdaFeedDecimals+g.nvdaTokenDecimals))
    denominator
  mulDivCeil .panic fairOut (10000-deviation maxDeviationBps) 10000

/-- What a check asks before it reads a price. -/
def gate (g : Guard) (chain : Chain) (sellToken buyToken : Address)
    (sellAmount minBuyAmount : ℕ) : Except Error Unit := do
  revertIf (chain.chainId ≠ robinhoodChainId) (.wrongChain chain.chainId)
  revertIf (sellToken ≠ g.wethToken ∨ buyToken ≠ g.nvdaToken) .wrongPair
  revertIf (sellAmount = 0 ∨ minBuyAmount = 0) .zeroAmount
  checkSequencer g chain
  let paused ← orRevert .viewReverted (chain.oraclePaused g.nvdaToken)
  revertIf (paused = true) .stockOracleGloballyPaused

def check (keccak256 : Hash) (g : Guard) (chain : Chain) (sellToken buyToken : Address)
    (sellAmount minBuyAmount maxDeviationBps : ℕ) : Except Error Unit := do
  gate g chain sellToken buyToken sellAmount minBuyAmount
  let (wethUsd,nvdaUsd) ← readAnswers keccak256 g chain
  let floorAmount ← oracleFloor g sellAmount wethUsd nvdaUsd maxDeviationBps
  revertIf (minBuyAmount < floorAmount) (.minBuyBelowOracleFloor floorAmount minBuyAmount)

end PriceGuard
end BpsProtocol
