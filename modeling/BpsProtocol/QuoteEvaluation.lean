import BpsProtocol.Lib.TwoRuns
import BpsProtocol.QuoteRegistry

/-! The evaluation of one quote, which executes nothing.
The quote is fetched, validated against an empty policy and classified; the report shows neither
the key nor the identifier of the quote nor its calldata. -/
namespace BpsProtocol
namespace QuoteEvaluation
open Checked Utf16 JsonSyntax JsonParse Binary64 QuoteClient QuoteStructural TwoRuns
open JsonValue (Value)

/-! ## The status of the boundary -/

inductive RialtoBoundaryStatus
  | quoteNotObserved
  | quoteObserved
  | quoteStructurallyValid
  | priceGuardPassed
  | settlementNotExecuted
  | settlementExecutedLocalForkOnly
  | mainnetSettlementConfirmed
  deriving DecidableEq

structure SettlementReceiptProof where
  txHash : JsString
  blockNumber : ℤ
  blockHash : JsString
  acquisitionId : ℤ
  stockReceivedRaw : ℤ

structure BoundaryObservation where
  quoteObserved : Bool
  structuralValidationPassed : Bool
  priceGuardPassed : Bool
  localForkSettlementPassed : Bool
  mainnetReceipt : Option SettlementReceiptProof

structure BoundaryStatusView where
  status : RialtoBoundaryStatus
  legalEligibility : String
  note : String

/-- `HASH_RE` -/
def isHash (s : JsString) : Bool := isHexOf 64 s

def SettlementReceiptProof.isValid (p : SettlementReceiptProof) : Bool :=
  isHash p.txHash && isHash p.blockHash && 0 < p.blockNumber && 0 < p.acquisitionId &&
    0 < p.stockReceivedRaw

def LEGAL_ELIGIBILITY : String := "UNRESOLVED — NOT ESTABLISHED BY THIS BOUNDARY"

/-- The status that needs no receipt. -/
def observedStatus (obs : BoundaryObservation) : RialtoBoundaryStatus :=
  if obs.quoteObserved && obs.structuralValidationPassed then
    if obs.localForkSettlementPassed then .settlementExecutedLocalForkOnly
    else if obs.priceGuardPassed then .priceGuardPassed
    else .quoteStructurallyValid
  else if obs.quoteObserved then .quoteObserved
  else .quoteNotObserved

def statusNote : RialtoBoundaryStatus → String
  | .settlementExecutedLocalForkOnly =>
    "settlement demonstrated on a local fork only — NOT mainnet"
  | .mainnetSettlementConfirmed =>
    "mainnet settlement receipt proof supplied by caller; technical status only, no legal claim"
  | _ => "settlement not executed"

def classifyBoundary (obs : BoundaryObservation) : BoundaryStatusView :=
  match obs.mainnetReceipt with
  | none => ⟨observedStatus obs,LEGAL_ELIGIBILITY,statusNote (observedStatus obs)⟩
  | some p =>
    if p.isValid then
      ⟨.mainnetSettlementConfirmed,LEGAL_ELIGIBILITY,statusNote .mainnetSettlementConfirmed⟩
    else
      ⟨observedStatus obs,LEGAL_ELIGIBILITY,
        "mainnet receipt proof was malformed and was ignored (fail toward lesser state)"⟩

/-! ## The report -/

/-- The code of what was thrown. -/
inductive ErrorCode (Code : Type)
  | known (code : Code)
  | unknown
  deriving DecidableEq

def fetchCode : QuoteError → ErrorCode RialtoQuoteErrorCode
  | .rialto code _ => .known code
  | _ => .unknown

def structuralCode : ExecutionError → ErrorCode QuoteExecutionErrorCode
  | .execution code _ => .known code
  | .library => .unknown

inductive Stage
  | fetch
  | structural
  | done
  deriving DecidableEq

structure RequestView where
  chainId : Number
  origin : JsString
  sellToken : JsString
  buyToken : JsString
  taker : JsString
  sellAmountDecimal : JsString
  slippageBps : Number
  settlementModeRequested : String
  integratorFeeRequested : Bool

structure StructuralView where
  passed : Bool
  errorCode : Option (ErrorCode QuoteExecutionErrorCode)
  note : String

structure RouterReconciliation where
  observedTarget : JsString
  operatorSuppliedRouter : Option JsString
  officialRegistry : String
  feature2 : String
  feature3 : String
  authoritative : Bool
  note : String

structure QuoteEvalReport where
  ok : Bool
  stage : Stage
  request : RequestView
  quote : Option RialtoQuoteMeta
  structural : StructuralView
  routerReconciliation : Option RouterReconciliation
  governance : List (String × String)
  boundaryStatus : RialtoBoundaryStatus
  fetchErrorCode : Option (ErrorCode RialtoQuoteErrorCode)
  note : String

def OFFICIAL_RIALTO_ROUTER_REGISTRY : String := "0x71a120CbBf3Ce7cD910a3c50fF77aFc62735687E"

def GOVERNANCE : List (String × String) :=
  [("qex1","Isolated Rialto Quote-Evaluation Exception — GET /quote testing only; not " ++
      "acquisition/execution"),
    ("d2","Founder read-only-key preference PRESERVED; currently unavailable via Rialto " ++
      "dashboard (QEX-1 is a bounded exception, not an erasure)"),
    ("d3","COUNSEL-PENDING — production possession/use of the bundled (execution-capable) " ++
      "credential"),
    ("d5","OPEN — settlement mode is a quote-evaluation input only; NOT settled by this CLI"),
    ("d6","OPEN — quote taker and the observed router/selector are CANDIDATES only; NOT pinned"),
    ("d8","OPEN — slippage deferred (operator-supplied test value only)"),
    ("d21","OPEN — allowance-mode replay / obligation-on-retrieval unresolved"),
    ("d22b","OPEN — price-guard trust model / guarded executor not implemented"),
    ("d23","OPEN — legal eligibility counsel-pending"),
    ("d24","STANDS — no acquisition, funding, allowance, simulation, deployment, or execution " ++
      "authorized")]

def NON_EXECUTING_NOTE : String :=
  "GET /quote evaluation only — no signing, funding, allowance, Permit2 signature, or " ++
    "submission performed"

def requestView (config : RialtoQuoteConfig) (request : RialtoQuoteRequest) : RequestView where
  chainId := .ofRat 4663
  origin := config.apiBaseUrl
  sellToken := config.wethAddress
  buyToken := request.buyToken
  taker := config.adapterAddress
  sellAmountDecimal := request.sellAmountDecimal
  slippageBps := config.slippageBps
  settlementModeRequested := "allowance"
  integratorFeeRequested := false

/-- What a quote of the harness is validated against. -/
def executionContext (config : RialtoQuoteConfig) (request : RialtoQuoteRequest)
    (quote : RialtoQuoteResult) (resolvedRouter : Option JsString) (nowSec : Number) :
    QuoteExecutionContext where
  chainId := config.chainId
  resolvedRouter := resolvedRouter
  expectedBuyToken := request.buyToken
  expectedSellAmountRaw := quote.sellAmountRaw
  expectedRecipient := config.adapterAddress
  nowSec := nowSec

/-- The policy that the harness ships with. -/
def emptyPolicy (Params : Type) : QuoteExecutionPolicy Params := ⟨[],none⟩

def observation (quoteObserved structuralPassed : Bool) : BoundaryObservation where
  quoteObserved := quoteObserved
  structuralValidationPassed := structuralPassed
  priceGuardPassed := false
  localForkSettlementPassed := false
  mainnetReceipt := none

section Evaluation

variable {Params Other : Type}

def fetchFailure (config : RialtoQuoteConfig) (request : RialtoQuoteRequest) (err : QuoteError) :
    QuoteEvalReport where
  ok := false
  stage := .fetch
  request := requestView config request
  quote := none
  structural := ⟨false,none,"quote fetch failed before validation"⟩
  routerReconciliation := none
  governance := GOVERNANCE
  boundaryStatus := (classifyBoundary (observation false false)).status
  fetchErrorCode := some (fetchCode err)
  note := NON_EXECUTING_NOTE

/-- The error code of a validation. -/
def errorCodeOf {α : Type} : Except ExecutionError α → Option (ErrorCode QuoteExecutionErrorCode)
  | .ok _ => none
  | .error err => some (structuralCode err)

def runQuoteEval (abi : AbiCodec Params Other) (P : Platform) (config : RialtoQuoteConfig)
    (request : RialtoQuoteRequest) (resolvedRouter : Option JsString) (nowSec : Number) :
    QuoteEvalReport :=
  match fetchRialtoAllowanceQuote P config request with
  | .error err => fetchFailure config request err
  | .ok quote =>
    let outcome := validateQuoteExecution abi quote
      (executionContext config request quote resolvedRouter nowSec) (emptyPolicy Params)
    { ok := true
      stage := if outcome.isOk then .done else .structural
      request := requestView config request
      quote := some quote.details
      structural := ⟨outcome.isOk,errorCodeOf outcome,
        if outcome.isOk then "structural shape validated against a supplied policy"
        else "fail-closed: venue selector not yet pinned and/or router unresolved (expected)"⟩
      routerReconciliation := some {
        observedTarget := quote.target
        operatorSuppliedRouter := resolvedRouter
        officialRegistry := OFFICIAL_RIALTO_ROUTER_REGISTRY
        feature2 := "taker-submitted route"
        feature3 := "gasless route"
        authoritative := false
        note := "tx.to is a CANDIDATE only; reconcile on-chain against the official registry " ++
          "ownerOf(feature) before any D-6 pinning. RIALTO_RESOLVED_ROUTER is " ++
          "operator-supplied and NOT final authority." }
      governance := GOVERNANCE
      boundaryStatus := (classifyBoundary (observation true outcome.isOk)).status
      fetchErrorCode := none
      note := NON_EXECUTING_NOTE }

end Evaluation

/-! ## What the status claims -/

/-- What must have been seen for a status. -/
def Supported (obs : BoundaryObservation) : RialtoBoundaryStatus → Prop
  | .quoteNotObserved => True
  | .quoteObserved => obs.quoteObserved = true
  | .quoteStructurallyValid => obs.quoteObserved = true ∧ obs.structuralValidationPassed = true
  | .priceGuardPassed => obs.quoteObserved = true ∧ obs.structuralValidationPassed = true ∧
      obs.priceGuardPassed = true
  | .settlementNotExecuted => False
  | .settlementExecutedLocalForkOnly => obs.quoteObserved = true ∧
      obs.structuralValidationPassed = true ∧ obs.localForkSettlementPassed = true
  | .mainnetSettlementConfirmed => ∃ p, obs.mainnetReceipt = some p ∧ p.isValid = true

/-- How far a status goes. -/
def RialtoBoundaryStatus.rank : RialtoBoundaryStatus → ℕ
  | quoteNotObserved => 0
  | quoteObserved => 1
  | quoteStructurallyValid => 2
  | priceGuardPassed => 3
  | settlementNotExecuted => 4
  | settlementExecutedLocalForkOnly => 5
  | mainnetSettlementConfirmed => 6

/-- The status goes exactly as far as what was seen supports. -/
theorem classifyBoundary_greatest (obs : BoundaryObservation) :
    Supported obs (classifyBoundary obs).status ∧
      ∀ status, Supported obs status → status.rank ≤ (classifyBoundary obs).status.rank := by
  obtain ⟨quoteObserved,structural,guard,localFork,receipt⟩ := obs
  cases receipt with
  | none =>
    constructor
    · cases quoteObserved <;> cases structural <;> cases guard <;> cases localFork <;>
        simp [Supported,classifyBoundary,observedStatus]
    · intro status
      cases quoteObserved <;> cases structural <;> cases guard <;> cases localFork <;>
        cases status <;> simp [Supported,classifyBoundary,observedStatus,RialtoBoundaryStatus.rank]
  | some p =>
    cases hp : p.isValid with
    | true =>
      refine ⟨?_,fun status _ => ?_⟩
      · simp [Supported,classifyBoundary,hp]
      · cases status <;> simp [classifyBoundary,hp,RialtoBoundaryStatus.rank]
    | false =>
      constructor
      · cases quoteObserved <;> cases structural <;> cases guard <;> cases localFork <;>
          simp [Supported,classifyBoundary,observedStatus,hp]
      · intro status
        cases quoteObserved <;> cases structural <;> cases guard <;> cases localFork <;>
          cases status <;>
            simp [Supported,classifyBoundary,observedStatus,RialtoBoundaryStatus.rank,hp]

/-! ## What the report does not show -/

/-- The members of an answer that decide something or are shown. -/
def visibleMembers : List String :=
  ["chain_id","settlement","permit2","gasless","sell_token","buy_token","sell_amount","taker",
    "min_buy_amount","issues","expiry","buy_amount","buyAmount","fees","platform_fee","fee",
    "network_fee","gas_estimate","estimated_gas","gas","route","legs","created_at","createdAt",
    "timestamp","created"]

/-- Two texts of calldata with one selector and of one length. -/
def SameShape (data data' : JsString) : Prop :=
  data'.take 10 = data.take 10 ∧ data'.length = data.length

/-- Two transactions that differ in their calldata only. -/
structure SameTransaction (maxCallDataBytes : Number) (tx tx' : Value) : Prop where
  signature_offset : prop (lit "signature_offset") tx' = prop (lit "signature_offset") tx
  target : prop (lit "to") tx' = prop (lit "to") tx
  value : prop (lit "value") tx' = prop (lit "value") tx
  data : Option.Rel SameShape (callDataOf maxCallDataBytes (prop (lit "data") tx))
    (callDataOf maxCallDataBytes (prop (lit "data") tx'))

/-- The digest of the identifier of an answer. -/
def idDigest (P : Platform) (body : Value) : Except QuoteError (Option JsString) :=
  quoteIdDigest P (firstMember ["quote_id","quoteId","id"] body)

/-- Two answers that differ in the calldata only, and in an identifier with the same digest. -/
structure SameView (P P' : Platform) (config : RialtoQuoteConfig) (body body' : Value) : Prop where
  object : isObject body' = isObject body
  members : ∀ name ∈ visibleMembers, prop (lit name) body' = prop (lit name) body
  transaction : Option.Rel (SameTransaction (config.maxCallDataBytes.getD (.ofRat 8192)))
    (objectOf (prop (lit "tx") body)) (objectOf (prop (lit "tx") body'))
  digest : idDigest P' body' = idDigest P body

/-- Two quotes that differ in their calldata only. -/
structure SameQuote (quote quote' : RialtoQuoteResult) : Prop where
  rest : quote' = { quote with callData := quote'.callData }
  shape : SameShape quote.callData quote'.callData

section Discretion

variable {P P' : Platform} {config : RialtoQuoteConfig} {request : RialtoQuoteRequest}
  {weth taker buyToken : JsString} {expectedSellRaw : ℤ} {body body' : Value}

theorem SameView.firstMember (h : SameView P P' config body body') {names : List String}
    (hnames : ∀ name ∈ names, name ∈ visibleMembers) :
    firstMember names body' = firstMember names body := by
  rw [QuoteClient.firstMember,QuoteClient.firstMember]
  exact congrArg firstDefined (List.map_congr_left fun name hname =>
    h.members name (hnames name hname))

theorem SameView.extractRouteLegs (h : SameView P P' config body body') :
    extractRouteLegs body' = extractRouteLegs body := by
  rw [QuoteClient.extractRouteLegs,QuoteClient.extractRouteLegs,h.members "route" (by decide),
    h.members "legs" (by decide)]

/-- Validation throws the same for both, or accepts both. -/
theorem SameView.validateQuote (h : SameView P P' config body body') :
    Alike (· = ·) SameQuote
      (validateQuote P config request weth taker buyToken expectedSellRaw body)
      (validateQuote P' config request weth taker buyToken expectedSellRaw body') := by
  unfold QuoteClient.validateQuote
  have hdigest : quoteIdDigest P' (QuoteClient.firstMember ["quote_id","quoteId","id"] body') =
      quoteIdDigest P (QuoteClient.firstMember ["quote_id","quoteId","id"] body) := h.digest
  rw [h.object,h.members "chain_id" (by decide),h.members "settlement" (by decide),
    h.members "permit2" (by decide),h.members "gasless" (by decide),
    h.members "sell_token" (by decide),h.members "buy_token" (by decide),
    h.members "sell_amount" (by decide),h.members "taker" (by decide),
    h.members "min_buy_amount" (by decide),h.members "issues" (by decide),
    h.members "expiry" (by decide),hdigest,h.firstMember (by decide),h.firstMember (by decide),
    h.firstMember (by decide),h.firstMember (by decide),h.extractRouteLegs]
  iterate 9 refine bind_same (fun _ => rfl) fun _ _ => ?_
  refine bind (orRevert h.transaction rfl) fun tx tx' _ _ htx => ?_
  rw [htx.signature_offset,htx.value,targetOf,targetOf,htx.target]
  iterate 2 refine bind_same (fun _ => rfl) fun _ _ => ?_
  refine bind (orRevert htx.data rfl) fun data data' _ _ hdata => ?_
  iterate 5 refine bind_same (fun _ => rfl) fun _ _ => ?_
  refine ok ⟨?_,hdata⟩
  simp only [hdata.1,hdata.2]

/-- What the client throws is reported by its code. -/
def SameCode (e e' : QuoteError) : Prop := fetchCode e = fetchCode e'

/-- Two answers that are no JSON, or the same but for what is not shown. -/
def SameAnswer (P P' : Platform) (config : RialtoQuoteConfig) (text text' : JsString) : Prop :=
  Option.Rel (SameView P P' config) (jsonParse text) (jsonParse text')

/-- A key that is not empty. -/
def usableKey (P : Platform) : Option JsString :=
  P.apiKey.bind fun key => if key = [] then none else some key

/-- Two keys, or none, to which the service answers the same but for what is not shown. -/
structure Indistinguishable (P P' : Platform) (config : RialtoQuoteConfig)
    (request : RialtoQuoteRequest) : Prop where
  parseUrl : P'.parseUrl config.apiBaseUrl = P.parseUrl config.apiBaseUrl
  answers : Option.Rel (fun key key' => ∀ weth taker buyToken,
    quoteAddresses config request = some (weth,taker,buyToken) →
      Alike SameCode (SameAnswer P P' config)
        (receive P config (httpRequest P config request key weth taker buyToken))
        (receive P' config (httpRequest P' config request key' weth taker buyToken)))
    (usableKey P) (usableKey P')

theorem Indistinguishable.fetch (h : Indistinguishable P P' config request) :
    Alike SameCode SameQuote (fetchRialtoAllowanceQuote P config request)
      (fetchRialtoAllowanceQuote P' config request) := by
  have horigin : assertOfficialRialtoOrigin P' config.apiBaseUrl =
      assertOfficialRialtoOrigin P config.apiBaseUrl := by
    rw [assertOfficialRialtoOrigin,assertOfficialRialtoOrigin,h.parseUrl]
  unfold fetchRialtoAllowanceQuote
  rw [horigin]
  refine bind (orRevert h.answers rfl) fun key key' _ _ hreceive => ?_
  refine bind_same (fun _ => rfl) fun _ _ => ?_
  refine bind_same (fun _ => rfl) fun addresses haddresses => ?_
  obtain ⟨weth,taker,buyToken⟩ := addresses
  refine bind_same (fun _ => rfl) fun _ _ => ?_
  refine bind_same (fun _ => rfl) fun expectedSellRaw _ => ?_
  refine bind (hreceive weth taker buyToken (orRevert_eq_ok.1 haddresses)) ?_
  intro text text' _ _ hanswer
  refine bind (orRevert hanswer rfl) fun body body' _ _ hview => ?_
  exact hview.validateQuote.mono (fun e e' he => congrArg fetchCode he) fun _ _ h => h

/-- The router and the selector are found the same. -/
theorem SameQuote.approvedEntry {quote quote' : RialtoQuoteResult} {Params : Type}
    (h : SameQuote quote quote') (ctx : QuoteExecutionContext)
    (policy : QuoteExecutionPolicy Params) :
    approvedEntry quote' ctx policy = approvedEntry quote ctx policy := by
  obtain ⟨htake,hlength⟩ := h.shape
  have htarget : quote'.target = quote.target := by rw [h.rest]
  have hempty : quote'.callData = lit "0x" ↔ quote.callData = lit "0x" := by
    have hiff : ∀ data data' : JsString, SameShape data data' → data = lit "0x" →
        data' = lit "0x" := by
      rintro data data' ⟨htake,hlength⟩ rfl
      have hshort : data'.length ≤ 10 := hlength.trans_le (by decide)
      rwa [List.take_of_length_le hshort] at htake
    exact ⟨hiff _ _ ⟨htake.symm,hlength.symm⟩,hiff _ _ h.shape⟩
  simp only [QuoteStructural.approvedEntry,htarget,htake,hlength,hempty]

end Discretion

/-- With the empty policy nothing is validated. -/
theorem emptyPolicy_rejects {Params Other : Type} (abi : AbiCodec Params Other)
    (quote : RialtoQuoteResult) (ctx : QuoteExecutionContext) :
    ∃ e, approvedEntry quote ctx (emptyPolicy Params) = .error e ∧
      validateQuoteExecution abi quote ctx (emptyPolicy Params) = .error e := by
  cases h : approvedEntry quote ctx (emptyPolicy Params) with
  | ok approved =>
    obtain ⟨-,-,-,-,hentry⟩ := approvedEntry_eq_ok.1 h
    cases hentry
  | error e => exact ⟨e,rfl,by rw [validateQuoteExecution,h,error_bind]⟩

/-- The report of a harness is the same for any two keys and answers that differ only in the
calldata, behind its selector, and in an identifier with the same digest.  It never says that the
structure is valid, and of the boundary no more than that a quote was observed. -/
theorem report_discreet {Params Other : Type} (abi : AbiCodec Params Other) (P : Platform)
    (config : RialtoQuoteConfig) (request : RialtoQuoteRequest)
    (resolvedRouter : Option JsString) (nowSec : Number) :
    (∀ P', Indistinguishable P P' config request →
      runQuoteEval abi P' config request resolvedRouter nowSec =
        runQuoteEval abi P config request resolvedRouter nowSec) ∧
    (runQuoteEval abi P config request resolvedRouter nowSec).structural.passed = false ∧
    (runQuoteEval abi P config request resolvedRouter nowSec).stage ≠ .done ∧
    (runQuoteEval abi P config request resolvedRouter nowSec).boundaryStatus =
      if (runQuoteEval abi P config request resolvedRouter nowSec).ok then .quoteObserved
      else .quoteNotObserved := by
  constructor
  · intro P' h
    obtain ⟨e,e',he,he',hcode⟩ | ⟨quote,quote',hquote,hquote',hsame⟩ := h.fetch.elim
    · simp only [runQuoteEval,he,he',fetchFailure,hcode.symm]
    · have hctx : executionContext config request quote' resolvedRouter nowSec =
          executionContext config request quote resolvedRouter nowSec := by
        rw [hsame.rest]
        rfl
      obtain ⟨e,hentry,hvalid⟩ := emptyPolicy_rejects abi quote
        (executionContext config request quote resolvedRouter nowSec)
      obtain ⟨e',hentry',hvalid'⟩ := emptyPolicy_rejects abi quote'
        (executionContext config request quote resolvedRouter nowSec)
      rw [hsame.approvedEntry,hentry] at hentry'
      obtain rfl := Except.error.inj hentry'
      have hdetails : quote'.details = quote.details := by rw [hsame.rest]
      have htarget : quote'.target = quote.target := by rw [hsame.rest]
      simp only [runQuoteEval,hquote,hquote',hctx,hvalid,hvalid',hdetails,htarget]
  · unfold runQuoteEval
    cases fetchRialtoAllowanceQuote P config request with
    | error e => exact ⟨rfl,by simp [fetchFailure],rfl⟩
    | ok quote =>
      obtain ⟨e,-,hvalid⟩ := emptyPolicy_rejects abi quote
        (executionContext config request quote resolvedRouter nowSec)
      simp only [hvalid]
      exact ⟨rfl,by simp [Except.isOk,Except.toBool],rfl⟩

/-! Two services with other keys, and quotes with other calldata behind one selector. -/

def otherTx : Tree :=
  .obj [(name "to",stringAt "0x71a120cbbf3ce7cd910a3c50ff77afc62735687e"),
    (name "data",stringAt "0x12345678ffffff"),(name "value",stringAt "0")]

def minBuy : Scalar := .str (name "1")

/-- The members of the sample quote before its transaction. -/
def sampleMembers : List (StringLit × Tree) :=
  [(name "chain_id",.leaf (.num (numberOf "4663"))),
    (name "settlement",stringAt "allowance"),
    (name "sell_token",stringAt "0x1111111111111111111111111111111111111111"),
    (name "buy_token",stringAt "0x3333333333333333333333333333333333333333"),
    (name "sell_amount",stringAt "20000000000000000000"),
    (name "min_buy_amount",.leaf minBuy),
    (name "taker",stringAt "0x2222222222222222222222222222222222222222")]

def quoteWith (tx : Tree) : Tree := .obj (sampleMembers ++ [(name "tx",tx)])

def otherPlatform : Platform :=
  { samplePlatform minBuy with
    apiKey := some (lit "other")
    fetchImpl := fun _ => .ok ⟨true,.ofRat 200,some (compact (quoteWith otherTx))⟩ }

theorem prop_quoteWith (tx : Tree) (s : JsString) : prop s (evaluate (quoteWith tx)) =
    if (name "tx").decoded = s then some (evaluate tx)
    else (written s (.obj sampleMembers)).map evaluate := by
  rw [prop_evaluate,quoteWith,written,List.reverse_append,List.reverse_singleton,
    List.singleton_append,List.find?_cons]
  by_cases h : (name "tx").decoded = s
  · simp [h]
  · simp [h,written]

theorem prop_tx (tx : Tree) : prop (lit "tx") (evaluate (quoteWith tx)) = some (evaluate tx) := by
  rw [prop_quoteWith,if_pos (by decide)]

theorem otherTx_prop {s : JsString} {t : Option Tree} (h : written s otherTx = t) :
    prop s (evaluate otherTx) = t.map evaluate := by
  rw [prop_evaluate,h]

theorem callDataOf_short {s : JsString} (hlength : s.length = 16) (hhex : isHexData s = true) :
    callDataOf (.ofRat 8192) (ofString s) = some s := by
  have hmax : (Number.ofRat 8192).Is 8192 := Number.is_ofRat (by norm_num) (by decide)
  have hbytes : (Number.ofRat (((s.length : ℚ)-2)/2)).Is 7 := by
    rw [hlength]
    exact Number.is_ofRat (by norm_num) (by decide)
  have hdata : isCallData (.ofRat 8192) s = true := by
    rw [isCallData,hmax.lt hbytes,hhex,hlength]
    decide
  exact if_pos hdata

theorem sample_transaction :
    SameTransaction (.ofRat 8192) (evaluate sampleTx) (evaluate otherTx) where
  signature_offset := by
    rw [sampleTx_prop (t := none) rfl,otherTx_prop (t := none) rfl]
  target := by
    rw [sampleTx_prop (t := some (stringAt "0x71a120cbbf3ce7cd910a3c50ff77afc62735687e")) rfl,
      otherTx_prop (t := some (stringAt "0x71a120cbbf3ce7cd910a3c50ff77afc62735687e")) rfl]
  value := by
    rw [sampleTx_prop (t := some (stringAt "0")) rfl,otherTx_prop (t := some (stringAt "0")) rfl]
  data := by
    rw [sampleTx_prop (t := some (stringAt "0x12345678abcdef")) rfl,
      otherTx_prop (t := some (stringAt "0x12345678ffffff")) rfl]
    change Option.Rel SameShape (callDataOf (.ofRat 8192) (ofString (lit "0x12345678abcdef")))
      (callDataOf (.ofRat 8192) (ofString (lit "0x12345678ffffff")))
    rw [callDataOf_short (by decide) (by decide),callDataOf_short (by decide) (by decide)]
    exact .some ⟨by decide,by decide⟩

theorem isObject_quoteWith (tx : Tree) : isObject (evaluate (quoteWith tx)) = true := rfl

theorem noIdentifier (tx : Tree) :
    firstMember ["quote_id","quoteId","id"] (evaluate (quoteWith tx)) = none := by
  have habsent : ∀ s ∈ ["quote_id","quoteId","id"], prop (lit s) (evaluate (quoteWith tx)) =
      none := by
    have hother : ∀ s ∈ ["quote_id","quoteId","id"], (name "tx").decoded ≠ lit s ∧
        (written (lit s) (.obj sampleMembers)).isNone = true := by decide +kernel
    intro s hs
    obtain ⟨hne,hnone⟩ := hother s hs
    rw [prop_quoteWith,if_neg hne,Option.isNone_iff_eq_none.1 hnone]
    rfl
  rw [firstMember,List.map_congr_left habsent]
  rfl

theorem sample_view : SameView (samplePlatform minBuy) otherPlatform sampleConfig
    (evaluate (quoteWith sampleTx)) (evaluate (quoteWith otherTx)) where
  object := by rw [isObject_quoteWith,isObject_quoteWith]
  members := by
    have hother : ∀ s ∈ visibleMembers, (name "tx").decoded ≠ lit s := by decide +kernel
    intro s hs
    rw [prop_quoteWith,prop_quoteWith,if_neg (hother s hs),if_neg (hother s hs)]
  transaction := by
    rw [prop_tx,prop_tx]
    exact .some sample_transaction
  digest := by rw [idDigest,idDigest,noIdentifier,noIdentifier,quoteIdDigest,quoteIdDigest]

theorem receive_answer {P : Platform} {config : RialtoQuoteConfig} {sent : HttpRequest}
    {text : JsString} (h : P.fetchImpl sent = .ok ⟨true,.ofRat 200,some text⟩) :
    receive P config sent = (do
      reject ((config.maxResponseBytes.getD (.ofRat 65536)).lt (.ofRat text.length) = true)
        .oversizeResponse "quote response exceeded size bound"
      return text) := by
  rw [receive,h]
  rfl

/-- The texts are of one length. -/
theorem sample_indistinguishable :
    Indistinguishable (samplePlatform minBuy) otherPlatform sampleConfig sampleRequest where
  parseUrl := rfl
  answers := by
    refine .some (a := lit "key") (b := lit "other") fun weth taker buyToken _ => ?_
    have hparse : ∀ tx, jsonParse (compact (quoteWith tx)) = some (evaluate (quoteWith tx)) := by
      intro tx
      rw [jsonParse,parse_eq_some_iff.2 (writes_compact _)]
      rfl
    have hlength : (compact (quoteWith otherTx)).length =
        (compact (quoteWith sampleTx)).length := by
      decide +kernel
    rw [receive_answer rfl,receive_answer rfl,show sampleQuote minBuy = quoteWith sampleTx from rfl,
      hlength]
    refine bind_same (fun _ => rfl) fun _ _ => ok ?_
    rw [SameAnswer,hparse,hparse]
    exact .some sample_view

/-- The key and the rest of the calldata are not shown. -/
theorem sample_discreet :
    runQuoteEval sampleAbi otherPlatform sampleConfig sampleRequest none (.ofRat 1) =
      runQuoteEval sampleAbi (samplePlatform minBuy) sampleConfig sampleRequest none (.ofRat 1) :=
  (report_discreet sampleAbi (samplePlatform minBuy) sampleConfig sampleRequest none
    (.ofRat 1)).1 otherPlatform sample_indistinguishable

end QuoteEvaluation
end BpsProtocol
