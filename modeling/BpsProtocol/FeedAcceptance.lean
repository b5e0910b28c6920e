import BpsProtocol.AcquisitionPriceFloor
import BpsProtocol.Lib.Json

/-! The three off-chain validators of a price feed.
`evaluateFeed` of the web app reads neither the round's number nor who answered it, and lets a
reading of the future pass.  `feedCheck` of the preflight turns the time into a number, which
is exact below `2^53`. -/
namespace BpsProtocol
namespace FeedAcceptance

open Checked HexText Shared Binary64 NumberText PriceGuard MerkleProof

/-! ## `evaluateFeed` -/

structure FeedConfig where
  decimals : Number
  heartbeatSec : Number
  multiplier : Number

structure FeedReading where
  hasCode : Bool
  answer : ℤ
  decimals : Number
  updatedAtSec : ℤ
  oraclePaused : Bool

structure SequencerStatus where
  up : Bool
  changedAtSec : ℤ
  gracePeriodSec : ℤ

inductive OracleRejection
  | feedNoCode
  | decimalsMismatch
  | nonPositivePrice
  | stale
  | oraclePaused
  | sequencerDown
  | sequencerGracePeriod
  deriving DecidableEq

/-- A verdict that is not ok, or what `BigInt` throws for a number that is not whole. -/
inductive OracleError
  | rejected (reason : OracleRejection)
  | rangeError
  deriving DecidableEq

/-- `BigInt(n)` -/
def bigIntOf : Number → Option ℤ
  | .finite x => if x.val.den = 1 then some x.val.num else none
  | _ => none

def evaluateFeed (config : FeedConfig) (reading : FeedReading) (sequencer : SequencerStatus)
    (nowSec : ℤ) : Except OracleError ℤ := do
  revertIf (sequencer.up = false) (.rejected .sequencerDown)
  revertIf (nowSec-sequencer.changedAtSec ≤ sequencer.gracePeriodSec)
    (.rejected .sequencerGracePeriod)
  revertIf (reading.hasCode = false) (.rejected .feedNoCode)
  revertIf (Number.strictEq reading.decimals config.decimals = false) (.rejected .decimalsMismatch)
  revertIf (reading.oraclePaused = true) (.rejected .oraclePaused)
  revertIf (reading.answer ≤ 0) (.rejected .nonPositivePrice)
  let heartbeat ← orRevert .rangeError (bigIntOf config.heartbeatSec)
  revertIf (heartbeat < nowSec-reading.updatedAtSec) (.rejected .stale)
  let multiplier ← orRevert .rangeError (bigIntOf config.multiplier)
  return reading.answer*multiplier

/-- `readFeed`, where the calls return: a round as a reading. -/
def readFeed (code : Bytes) (decimals : ℕ) (round : Round) (oraclePaused : Bool) : FeedReading :=
  if code.length = 0 then ⟨false,0,.ofRat 0,0,false⟩
  else ⟨true,round.answer,.ofRat decimals,round.updatedAt,oraclePaused⟩

/-! ## `feedCheck` -/

def EXPECTED_FEED_DECIMALS : Number := .ofRat 8

structure CheckResult where
  id : Text
  ok : Bool
  detail : Text
  deriving DecidableEq

/-- What `add` and `flag` were called with. -/
structure FeedReport where
  checks : List CheckResult
  flags : List Text
  deriving DecidableEq

/-- The views that the preflight reads; each may fail with a text. -/
structure FeedViews where
  code : Except Text (Option Text)
  decimals : Except Text Number
  description : Except Text Text
  latestRoundData : Except Text Round

def boolText (b : Bool) : Text := (if b then "true" else "false").toList

def decimalsCheck (id : Text) (decimals : Number) : CheckResult where
  id := id ++ "-feed-decimals".toList
  ok := Number.strictEq decimals EXPECTED_FEED_DECIMALS
  detail := "decimals=".toList ++ toText decimals ++ " (expected ".toList ++
    toText EXPECTED_FEED_DECIMALS ++ ")".toList

def descriptionCheck (id description expectedDescription : Text) : CheckResult where
  id := id ++ "-feed-description".toList
  ok := description = expectedDescription
  detail := "description=".toList ++ Json.quote description ++ " (expected ".toList ++
    Json.quote expectedDescription ++ ")".toList

def failedCheck (id addr e : Text) : CheckResult :=
  ⟨id ++ "-feed".toList,false,addr ++ " feed check failed: ".toList ++ e⟩

def isFresh (ts nowSec maxAgeSec : Number) : Bool :=
  Number.lt (.ofRat 0) ts && Number.le ts nowSec && Number.le (Number.sub nowSec ts) maxAgeSec

/-- The checks of a round. -/
def roundReport (id : Text) (round : Round) (nowSec maxAgeSec : Number) (staleFlagToken : Text) :
    FeedReport :=
  let positive := decide (0 < round.answer)
  let completeRound := decide (round.roundId ≠ 0 ∧ round.roundId ≤ round.answeredInRound)
  let ts := Number.ofRat round.updatedAt
  let fresh := isFresh ts nowSec maxAgeSec
  { checks := [
      ⟨id ++ "-feed-answer".toList,positive,"answer>0=".toList ++ boolText positive⟩,
      ⟨id ++ "-feed-round".toList,completeRound,
        "roundId!=0 && answeredInRound>=roundId = ".toList ++ boolText completeRound⟩,
      ⟨id ++ "-feed-fresh".toList,fresh,"age=".toList ++ toText (Number.sub nowSec ts) ++
        "s (max ".toList ++ toText maxAgeSec ++ "s)".toList⟩]
    flags := if !fresh && Number.lt (.ofRat 0) ts && Number.le ts nowSec then [staleFlagToken]
      else [] }

def feedCheck (views : FeedViews) (nowSec : Number) (id addr expectedDescription : Text)
    (maxAgeSec : Number) (staleFlagToken : Text) : FeedReport :=
  match views.code with
  | .error e => ⟨[failedCheck id addr e],[]⟩
  | .ok code =>
    if code.getD [] ∈ [[],"0x".toList] then
      ⟨[⟨id ++ "-feed".toList,false,addr ++ " has no code".toList⟩],[]⟩
    else match views.decimals with
    | .error e => ⟨[failedCheck id addr e],[]⟩
    | .ok decimals => match views.description with
      | .error e => ⟨[decimalsCheck id decimals,failedCheck id addr e],[]⟩
      | .ok description =>
        let checks := [decimalsCheck id decimals,descriptionCheck id description expectedDescription]
        match views.latestRoundData with
        | .error e => ⟨checks ++ [failedCheck id addr e],[]⟩
        | .ok round =>
          let report := roundReport id round nowSec maxAgeSec staleFlagToken
          ⟨checks ++ report.checks,report.flags⟩

/-- No check of the report failed. -/
def FeedReport.Passed (r : FeedReport) : Prop := ∀ c ∈ r.checks, c.ok = true

/-! ## The on-chain rule -/

section Rule

variable {keccak256 : Hash} {chain : Chain} {feed : Address} {round : Round}
  {expectedDecimals maxAge now : ℕ} {description : Bytes}

/-- The freshness and validity rule of `_readFreshAnswer`. -/
structure Fresh (round : Round) (now maxAge : ℕ) : Prop where
  positive : 0 < round.answer
  numbered : round.roundId ≠ 0
  complete : round.roundId ≤ round.answeredInRound
  dated : 0 < round.updatedAt
  past : round.updatedAt ≤ now
  young : now-round.updatedAt ≤ maxAge

/-- A feed of the pinned identity is read where the round obeys the rule. -/
theorem readFreshAnswer_isOk (hdecimals : (chain.feed feed).decimals = some expectedDecimals)
    (hdescription : (chain.feed feed).description = some description)
    (hround : (chain.feed feed).latestRoundData = some round) :
    (readFreshAnswer keccak256 chain feed expectedDecimals (keccak256 description) maxAge).isOk =
      true ↔ Fresh round chain.timestamp maxAge := by
  have hok : (readFreshAnswer keccak256 chain feed expectedDecimals (keccak256 description)
      maxAge).isOk = true ↔ ∃ a, readFreshAnswer keccak256 chain feed expectedDecimals
        (keccak256 description) maxAge = .ok a := by
    constructor
    · exact exists_eq_ok
    · rintro ⟨a,ha⟩
      rw [ha]
      rfl
  rw [hok]
  simp only [readFreshAnswer,hdecimals,hdescription,hround,bind_eq_ok,revertIf_eq_ok,
    orRevert_eq_ok,Option.some.injEq,exists_const,exists_eq_left',pure_eq_ok,exists_and_left]
  constructor
  · rintro ⟨-,-,hnumbered,hpositive,hdated,hpast,hcomplete,hyoung,-⟩
    exact ⟨by omega,hnumbered,by omega,by omega,by omega,by omega⟩
  · intro h
    exact ⟨by simp,by simp,h.numbered,by have := h.positive; omega,by have := h.dated; omega,
      by have := h.past; omega,by have := h.complete; omega,by have := h.young; omega,_,rfl⟩

end Rule

section OffChain

variable {round : Round} {now maxAge : ℕ}

/-- A reading of the web app says nothing of the round, and its age may be negative. -/
theorem evaluateFeed_fresh {config : FeedConfig} {sequencer : SequencerStatus} {code : Bytes}
    {decimals : ℕ} {oraclePaused : Bool} {price : ℤ} (hage : config.heartbeatSec.Is maxAge)
    (h : evaluateFeed config (readFeed code decimals round oraclePaused) sequencer now = .ok price) :
    Fresh round now maxAge ↔ round.roundId ≠ 0 ∧ round.roundId ≤ round.answeredInRound ∧
      0 < round.updatedAt ∧ round.updatedAt ≤ now := by
  simp only [evaluateFeed,bind_eq_ok,revertIf_eq_ok,orRevert_eq_ok,exists_const,pure_eq_ok,
    not_le,not_lt] at h
  obtain ⟨-,-,hcode,-,-,hpositive,heartbeat,hheartbeat,hyoung,-⟩ := h
  have hread : readFeed code decimals round oraclePaused =
      ⟨true,round.answer,.ofRat decimals,round.updatedAt,oraclePaused⟩ := by
    unfold readFeed at hcode ⊢
    split at hcode
    · exact absurd rfl hcode
    · rename_i hne
      rw [if_neg hne]
  rw [hread] at hpositive hyoung
  obtain ⟨x,hx,hval⟩ := hage
  have hwhole : heartbeat = maxAge := by
    rw [hx,bigIntOf,hval] at hheartbeat
    simpa using hheartbeat.symm
  constructor
  · intro hfresh
    exact ⟨hfresh.numbered,hfresh.complete,hfresh.dated,hfresh.past⟩
  · rintro ⟨hnumbered,hcomplete,hdated,hpast⟩
    refine ⟨hpositive,hnumbered,hcomplete,hdated,hpast,?_⟩
    have hyoung : (now : ℤ)-round.updatedAt ≤ heartbeat := hyoung
    omega

/-- An observation of a round, which is complete when it is answered. -/
structure Observes (f : AcquisitionPrice.UsdPriceObservation) (round : Round) : Prop where
  answer : f.answer = round.answer
  roundId : f.roundId = round.roundId
  updatedAt : f.updatedAtSec = round.updatedAt
  complete : f.roundComplete = decide (round.roundId ≤ round.answeredInRound)

theorem checkFeed_fresh {f g : AcquisitionPrice.UsdPriceObservation} {asset identity : Text}
    {semantics : AcquisitionPrice.PriceSemantics} {which : String} (hf : Observes f round)
    (h : AcquisitionPrice.checkFeed (some f) asset identity semantics which now maxAge = .ok g) :
    Fresh round now maxAge := by
  obtain ⟨heq,hanswer,hround,hcomplete,hupdated,hpast,hyoung⟩ := AcquisitionPrice.checkFeed_ok h
  obtain rfl := Option.some.inj heq
  rw [hf.answer] at hanswer
  rw [hf.roundId] at hround
  rw [hf.complete,decide_eq_true_eq] at hcomplete
  rw [hf.updatedAt] at hupdated hpast hyoung
  exact ⟨hanswer,by omega,hcomplete,by omega,by omega,by omega⟩

/-- Below `2^53` the comparison of numbers is that of the whole numbers. -/
theorem isFresh_iff {t : ℕ} {nowSec maxAgeSec : Number} (hnow : nowSec.Is now)
    (hmaxAge : maxAgeSec.Is maxAge) (hsmall : now < 2^53)
    (h : isFresh (.ofRat t) nowSec maxAgeSec = true) : t ≤ now ∧ now-t ≤ maxAge := by
  obtain ⟨x,rfl,hx⟩ := hnow
  obtain ⟨m,rfl,hm⟩ := hmaxAge
  simp only [isFresh,Bool.and_eq_true] at h
  obtain ⟨⟨-,hpast⟩,hyoung⟩ := h
  have ht : t < 2^53 := by
    by_contra hlarge
    have hcast : (2 : ℚ)^53 ≤ t := by exact_mod_cast not_lt.1 hlarge
    have hnearest := le_nearest hcast
    have hsmall' : (now : ℚ) < 2^53 := by exact_mod_cast hsmall
    unfold Number.ofRat at hpast
    split at hpast
    · have hle : nearest t ≤ x.val := by simpa [Number.le] using hpast
      rw [hx,Int.cast_natCast] at hle
      linarith
    · simp [Number.le] at hpast
      linarith
  have habs : |(t : ℤ)| ≤ 2^53 := by
    rw [abs_of_nonneg (Int.natCast_nonneg t)]
    omega
  have hexact := Number.ofRat_intCast habs
  rw [Int.cast_natCast] at hexact
  rw [hexact] at hpast hyoung
  have hle : t ≤ now := by
    have hle : ((t : ℤ) : ℚ) ≤ x.val := by simpa [Number.le,Double.ofInt] using hpast
    rw [hx] at hle
    exact_mod_cast hle
  have habs' : |(now-t : ℤ)| ≤ 2^53 := by
    rw [abs_of_nonneg (by omega)]
    omega
  have hage := Number.ofRat_intCast habs'
  have hsub : Number.sub (.finite x) (.finite (.ofInt t habs)) = .finite (.ofInt (now-t) habs') := by
    rw [← hage]
    simp [Number.sub,Double.ofInt,hx]
  rw [hsub] at hyoung
  have hle' : ((now-t : ℤ) : ℚ) ≤ m.val := of_decide_eq_true hyoung
  rw [hm] at hle'
  have hage : (now-t : ℤ) ≤ maxAge := by exact_mod_cast hle'
  omega

/-- A positive number is not rounded from zero. -/
theorem isFresh_pos {t : ℕ} {nowSec maxAgeSec : Number}
    (h : isFresh (.ofRat t) nowSec maxAgeSec = true) : 0 < t := by
  by_contra hzero
  obtain rfl : t = 0 := by omega
  simp [isFresh,Number.lt] at h

theorem feedCheck_passed {views : FeedViews} {nowSec maxAgeSec : Number}
    {id addr expectedDescription staleFlagToken : Text} (hround : views.latestRoundData = .ok round)
    (h : (feedCheck views nowSec id addr expectedDescription maxAgeSec staleFlagToken).Passed) :
    0 < round.answer ∧ round.roundId ≠ 0 ∧ round.roundId ≤ round.answeredInRound ∧
      isFresh (.ofRat round.updatedAt) nowSec maxAgeSec = true := by
  unfold feedCheck FeedReport.Passed at h
  split at h
  · simp [failedCheck] at h
  · split at h
    · simp at h
    · split at h
      · simp [failedCheck] at h
      · split at h
        · simp [failedCheck] at h
        · simp only [hround,roundReport,List.forall_mem_append,List.forall_mem_cons] at h
          obtain ⟨-,hpositive,hcomplete,hfresh,-⟩ := h
          rw [decide_eq_true_eq] at hpositive hcomplete
          exact ⟨hpositive,hcomplete.1,hcomplete.2,hfresh⟩

theorem feedCheck_fresh {views : FeedViews} {nowSec maxAgeSec : Number}
    {id addr expectedDescription staleFlagToken : Text} (hround : views.latestRoundData = .ok round)
    (hnow : nowSec.Is now) (hmaxAge : maxAgeSec.Is maxAge)
    (h : (feedCheck views nowSec id addr expectedDescription maxAgeSec staleFlagToken).Passed) :
    Fresh round now maxAge ↔
      now < 2^53 ∨ round.updatedAt ≤ now ∧ now-round.updatedAt ≤ maxAge := by
  obtain ⟨hpositive,hnumbered,hcomplete,hfresh⟩ := feedCheck_passed hround h
  have hdated := isFresh_pos hfresh
  constructor
  · intro hrule
    exact Or.inr ⟨hrule.past,hrule.young⟩
  · rintro (hsmall | ⟨hpast,hyoung⟩)
    · obtain ⟨hpast,hyoung⟩ := isFresh_iff hnow hmaxAge hsmall hfresh
      exact ⟨hpositive,hnumbered,hcomplete,hdated,hpast,hyoung⟩
    · exact ⟨hpositive,hnumbered,hcomplete,hdated,hpast,hyoung⟩

/-- A reading that a validator accepted is accepted on chain at the same time and for the same
maximum age.  For `checkFeed` this always holds.  For `evaluateFeed` it holds where the round
is complete and its time positive and not in the future.  For `feedCheck` it holds below `2^53`
seconds, and from there on where the whole numbers compare as their roundings do. -/
theorem offChain_refines_onChain_iff {keccak256 : Hash} {chain : Chain} {feed : Address}
    {expectedDecimals : ℕ} {description : Bytes}
    (hdecimals : (chain.feed feed).decimals = some expectedDecimals)
    (hdescription : (chain.feed feed).description = some description)
    (hround : (chain.feed feed).latestRoundData = some round) :
    (∀ config sequencer code decimals oraclePaused price, Number.Is config.heartbeatSec maxAge →
      evaluateFeed config (readFeed code decimals round oraclePaused) sequencer chain.timestamp =
        .ok price →
      ((readFreshAnswer keccak256 chain feed expectedDecimals (keccak256 description) maxAge).isOk =
          true ↔
        round.roundId ≠ 0 ∧ round.roundId ≤ round.answeredInRound ∧ 0 < round.updatedAt ∧
          round.updatedAt ≤ chain.timestamp)) ∧
    (∀ f g asset identity semantics which, Observes f round →
      AcquisitionPrice.checkFeed (some f) asset identity semantics which chain.timestamp maxAge =
        .ok g →
      (readFreshAnswer keccak256 chain feed expectedDecimals (keccak256 description) maxAge).isOk =
        true) ∧
    ∀ views nowSec maxAgeSec id addr expectedDescription staleFlagToken,
      views.latestRoundData = .ok round → Number.Is nowSec chain.timestamp →
      Number.Is maxAgeSec maxAge →
      (feedCheck views nowSec id addr expectedDescription maxAgeSec staleFlagToken).Passed →
      ((readFreshAnswer keccak256 chain feed expectedDecimals (keccak256 description) maxAge).isOk =
          true ↔
        chain.timestamp < 2^53 ∨
          round.updatedAt ≤ chain.timestamp ∧ chain.timestamp-round.updatedAt ≤ maxAge) := by
  rw [readFreshAnswer_isOk hdecimals hdescription hround]
  refine ⟨?_,?_,?_⟩
  · intro config sequencer code decimals oraclePaused price hage h
    exact evaluateFeed_fresh hage h
  · intro f g asset identity semantics which hf h
    exact checkFeed_fresh hf h
  · intro views nowSec maxAgeSec id addr expectedDescription staleFlagToken hviews hnow hmaxAge h
    exact feedCheck_fresh hviews hnow hmaxAge h

/-- A feed whose last round is dated a thousand seconds ahead. -/
def aheadRound : Round := ⟨1,300000000000,900,2000,1⟩

def aheadChain : Chain := { sampleChain with
  feed := fun _ => ⟨some 8,some [3],some aheadRound⟩ }

theorem heartbeat_exact : |(900 : ℤ)| ≤ 2^53 := by decide

def aheadConfig : FeedConfig :=
  ⟨.ofRat (8 : ℕ),.finite (.ofInt 900 heartbeat_exact),.finite (.ofInt 1 Double.one_exact)⟩

theorem aheadRound_evaluated :
    evaluateFeed aheadConfig (readFeed [1] 8 aheadRound false) ⟨true,0,0⟩ aheadChain.timestamp =
      .ok 300000000000 := by
  have hread : readFeed [1] 8 aheadRound false =
      ⟨true,300000000000,.ofRat (8 : ℕ),2000,false⟩ := by simp [readFeed,aheadRound]
  have hexact : Number.ofRat (8 : ℕ) = .finite (.ofInt 8 (by decide)) :=
    Number.ofRat_intCast (by decide)
  rw [hread,aheadConfig,hexact]
  decide +kernel

/-- A round of fifty seconds ago. -/
def recentRound : Round := { aheadRound with updatedAt := 950 }

def recentChain : Chain := { sampleChain with
  feed := fun _ => ⟨some 8,some [3],some recentRound⟩ }

theorem recentRound_evaluated :
    evaluateFeed aheadConfig (readFeed [1] 8 recentRound false) ⟨true,0,0⟩
      recentChain.timestamp = .ok 300000000000 := by
  have hread : readFeed [1] 8 recentRound false =
      ⟨true,300000000000,.ofRat (8 : ℕ),950,false⟩ := by simp [readFeed,recentRound,aheadRound]
  have hexact : Number.ofRat (8 : ℕ) = .finite (.ofInt 8 (by decide)) :=
    Number.ofRat_intCast (by decide)
  rw [hread,aheadConfig,hexact]
  decide +kernel

theorem recentRound_fresh :
    (readFreshAnswer toyHash recentChain 3 8 (toyHash [3]) 900).isOk = true ∧
    ¬(readFreshAnswer toyHash aheadChain 3 8 (toyHash [3]) 900).isOk = true := by
  constructor
  · refine ((offChain_refines_onChain_iff rfl rfl rfl).1 aheadConfig ⟨true,0,0⟩ [1] 8 false
      300000000000 ⟨_,rfl,rfl⟩ recentRound_evaluated).2 ?_
    decide +kernel
  · intro hfresh
    have hdated := ((offChain_refines_onChain_iff rfl rfl rfl).1 aheadConfig ⟨true,0,0⟩ [1] 8 false
      300000000000 ⟨_,rfl,rfl⟩ aheadRound_evaluated).1 hfresh
    exact absurd hdated.2.2.2 (by decide +kernel)

/-- The web app accepts it, the guard does not. -/
theorem aheadRound_accepted_off_chain_only :
    ¬∀ (keccak256 : Hash) (chain : Chain) (feed : Address) (expectedDecimals maxAge : ℕ)
      (description : Bytes) (round : Round) (config : FeedConfig) (sequencer : SequencerStatus)
      (code : Bytes) (decimals : ℕ) (oraclePaused : Bool) (price : ℤ),
      (chain.feed feed).decimals = some expectedDecimals →
      (chain.feed feed).description = some description →
      (chain.feed feed).latestRoundData = some round → Number.Is config.heartbeatSec maxAge →
      evaluateFeed config (readFeed code decimals round oraclePaused) sequencer chain.timestamp =
        .ok price →
      (readFreshAnswer keccak256 chain feed expectedDecimals (keccak256 description) maxAge).isOk =
        true := by
  intro h
  have haccepted := h toyHash aheadChain 3 8 900 [3] aheadRound aheadConfig ⟨true,0,0⟩ [1] 8 false
    300000000000 rfl rfl rfl ⟨_,rfl,rfl⟩ aheadRound_evaluated
  have hrefused : (readFreshAnswer toyHash aheadChain 3 8 (toyHash [3]) 900).isOk = false := by
    decide +kernel
  rw [hrefused] at haccepted
  cases haccepted

end OffChain

end FeedAcceptance
end BpsProtocol
