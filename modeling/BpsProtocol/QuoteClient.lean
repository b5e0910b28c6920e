import BpsProtocol.FeedAcceptance
import BpsProtocol.Lib.JsonCoerce

/-! The server-side client of the quote service.
One request is sent, and its answer is parsed and validated field by field.  Amounts arrive as
strings of digits or as JSON numbers.  The URL parser, the digest and the network are
parameters. -/
namespace BpsProtocol
namespace QuoteClient
open Checked Utf16 JsonText JsonTree JsonSyntax JsonParse Binary64
open JsonValue (Value)

def OFFICIAL_RIALTO_HOST : JsString := lit "rialto-trade-api.rialto.xyz"

def SELL_TOKEN_DECIMALS : ℕ := 18

/-! ## Errors -/

inductive RialtoQuoteErrorCode
  | missingApiKey
  | badConfig
  | badOrigin
  | badSellAmount
  | timeout
  | httpError
  | oversizeResponse
  | invalidJson
  | wrongChain
  | wrongSettlement
  | permit2Present
  | gaslessPresent
  | wrongSellToken
  | wrongBuyToken
  | wrongSellAmount
  | wrongTaker
  | missingTxTo
  | malformedCalldata
  | nonzeroValue
  | zeroMinBuy
  | inconsistentMinBuy
  | balanceIssue
  | simulationIncomplete
  | invalidAllowance
  | wrongAllowanceSpender
  deriving DecidableEq

/-- What the client throws; an unread body and a value without a text throw errors of their own. -/
inductive QuoteError
  | rialto (code : RialtoQuoteErrorCode) (message : Text)
  | unreadBody
  | typeError
  deriving DecidableEq

/-- `throw new RialtoQuoteError(code, message)` under a condition. -/
def reject (c : Prop) [Decidable c] (code : RialtoQuoteErrorCode) (message : String) :
    Except QuoteError Unit :=
  revertIf c (.rialto code message.toList)

def orReject {α : Type} (code : RialtoQuoteErrorCode) (message : String) (x : Option α) :
    Except QuoteError α :=
  orRevert (.rialto code message.toList) x

/-! ## Data -/

structure RialtoQuoteConfig where
  apiBaseUrl : JsString
  chainId : Number
  wethAddress : JsString
  adapterAddress : JsString
  slippageBps : Number
  timeoutMs : Option Number
  maxResponseBytes : Option Number
  maxCallDataBytes : Option Number

structure RialtoQuoteRequest where
  buyToken : JsString
  sellAmountDecimal : JsString

structure RialtoRouteLeg where
  pool : Option JsString
  feeTier : Option Number
  tokenIn : Option JsString
  tokenOut : Option JsString

structure QuoteIssues where
  balancePresent : Bool
  simulationIncomplete : Bool
  allowanceSpender : Option JsString

structure RialtoQuoteMeta where
  chainId : Number
  sellToken : JsString
  buyToken : JsString
  requestedSellAmountDecimal : JsString
  returnedSellAmountRaw : JsString
  buyAmountRaw : Option JsString
  minBuyAmountRaw : JsString
  settlementMode : JsString
  integratorFeeRequested : Bool
  platformFee : Option (List (JsString × Leaf JsString Number))
  networkFeeEstimate : Option JsString
  issues : QuoteIssues
  routeLegs : Option (List RialtoRouteLeg)
  txTarget : JsString
  selector : JsString
  callDataBytes : Number
  txValue : JsString
  quoteCreatedAtSec : Option Number
  quoteExpirySec : Option Number
  quoteIdSha256 : Option JsString

structure RialtoQuoteResult where
  target : JsString
  callData : JsString
  sellAmountRaw : ℤ
  sellAmountDecimal : JsString
  minBuyAmountRaw : ℤ
  buyToken : JsString
  quoteExpiry : Option Number
  details : RialtoQuoteMeta

structure Url where
  protocol : JsString
  hostname : JsString
  username : JsString
  password : JsString
  port : JsString
  pathname : JsString
  search : JsString
  hash : JsString

structure HttpRequest where
  url : JsString
  method : JsString
  authorization : JsString
  accept : JsString
  timeoutMs : Number
  cache : JsString
  redirect : JsString

/-- An answer; the body is missing where reading it fails. -/
structure Response where
  ok : Bool
  status : Number
  text : Option JsString

/-- The environment of the client.  `quoteUrl` adds the parameters to the quote URL of an origin;
a failed request tells whether it timed out. -/
structure Platform where
  apiKey : Option JsString
  parseUrl : JsString → Option Url
  quoteUrl : JsString → List (JsString × JsString) → JsString
  sha256Hex : JsString → JsString
  fetchImpl : HttpRequest → Except Bool Response

/-! ## Values -/

/-- `ADDRESS_RE` -/
def isAddress (s : JsString) : Bool :=
  s.take 2 = lit "0x" && (s.drop 2).length = 40 && (s.drop 2).all isHex

/-- `HEX_RE` -/
def isHexData (s : JsString) : Bool := s.take 2 = lit "0x" && (s.drop 2).all isHex

/-- `DECIMAL_RE` -/
def isDecimal (s : JsString) : Bool :=
  let rest := s.dropWhile isDigit
  !(s.takeWhile isDigit).isEmpty &&
    (rest.isEmpty || (rest.head? = some (unit '.') && isDigits rest.tail))

/-- `toLowerCase` of an ASCII string. -/
def toLowerCase (s : JsString) : JsString :=
  s.map fun u => if 65 ≤ u.val ∧ u.val ≤ 90 then Fin.ofNat 65536 (u.val+32) else u

def normAddress : Option Value → Option JsString
  | some (.leaf (.str s)) => if isAddress s then some (toLowerCase s) else none
  | _ => none

def ofString (s : JsString) : Option Value := some (.leaf (.str s))

/-- `value === expected` of a number. -/
def isNumber (expected : Number) : Option Value → Bool
  | some (.leaf (.num x)) => Number.strictEq x expected
  | _ => false

def isString (expected : JsString) : Option Value → Bool
  | some (.leaf (.str s)) => s = expected
  | _ => false

def isTrue : Option Value → Bool
  | some (.leaf (.bool b)) => b
  | _ => false

/-- A value that is an object or an array. -/
def objectOf : Option Value → Option Value
  | some v => if isObject v then some v else none
  | none => none

def rawEquals (value : Option Value) (expected : ℤ) : Bool :=
  match value with
  | some (.leaf (.str s)) => isDigits s && bigIntOfString s = some expected
  | some (.leaf (.num x)) => x.isInteger && FeedAcceptance.bigIntOf x = some expected
  | _ => false

def parsePositiveBigInt (value : Option Value) : Option ℤ :=
  match value with
  | some (.leaf (.str s)) =>
    if isDigits s then (bigIntOfString s).bind fun n => if 0 < n then some n else none else none
  | some (.leaf (.num x)) =>
    if x.isInteger && (Number.ofRat 0).lt x then FeedAcceptance.bigIntOf x else none
  | _ => none

/-- `s.padEnd(length, "0")` -/
def padEnd (s : JsString) (length : ℕ) : JsString :=
  s ++ List.replicate (length-s.length) (unit '0')

/-- Convert a positive human-decimal string to base units at `decimals`. -/
def decimalToBaseUnits (decimal : JsString) (decimals : ℕ) : Option ℤ :=
  if !isDecimal decimal then none
  else
    let intPart := decimal.takeWhile (· ≠ unit '.')
    let fracPart := ((decimal.dropWhile (· ≠ unit '.')).drop 1).takeWhile (· ≠ unit '.')
    if decimals < fracPart.length then none
    else
      (bigIntOfString (intPart ++ padEnd fracPart decimals)).bind fun value =>
        if 0 < value then some value else none

/-! ## Reported values -/

def intLikeToString : Option Value → Option JsString
  | some (.leaf (.str s)) => if isDigits s then some s else none
  | some (.leaf (.num x)) =>
    if x.isInteger && (Number.ofRat 0).le x then some (ofText (NumberText.toText x)) else none
  | _ => none

def isSafeInteger (x : Number) : Bool :=
  x.isInteger && (Number.ofRat (-9007199254740991)).le x && x.le (Number.ofRat 9007199254740991)

def positiveInteger (x : Number) : Option Number :=
  if x.isInteger && (Number.ofRat 0).lt x then some x else none

def intLikeToPositiveNumber : Option Value → Option Number
  | some (.leaf (.num x)) => positiveInteger x
  | some (.leaf (.str s)) =>
    if isDigits s then
      (bigIntOfString s).bind fun n =>
        let x := Number.ofRat n
        if isSafeInteger x && (Number.ofRat 0).lt x then some x else none
    else none
  | _ => none

/-- A string, number or boolean, which can be kept under its name; `out.__proto__ = v` keeps
nothing. -/
def keptEntry : JsString × Value → Option (JsString × Leaf JsString Number)
  | (_,.leaf .null) => none
  | (k,.leaf a) => if k = lit "__proto__" then none else some (k,a)
  | _ => none

def sanitizePrimitiveMap (v : Option Value) : Option (List (JsString × Leaf JsString Number)) := do
  let v ← objectOf v
  let out := (entries v).filterMap keptEntry
  if out.isEmpty then none else some out

def firstDefined (vals : List (Option Value)) : Option Value :=
  vals.findSome? fun v => if isPresent v then v else none

/-- The first of the named members that is there. -/
def firstMember (names : List String) (body : Value) : Option Value :=
  firstDefined (names.map fun name => prop (lit name) body)

def arrayOf : Option Value → Option (List Value)
  | some (.arr items) => some items
  | _ => none

def routeLeg (raw : Value) : Option RialtoRouteLeg :=
  if isObject raw then
    some { pool := normAddress (firstMember ["pool","pool_address","address"] raw)
           feeTier := intLikeToPositiveNumber (firstMember ["fee","fee_tier","feeTier"] raw)
           tokenIn := normAddress (firstMember ["token_in","tokenIn","from"] raw)
           tokenOut := normAddress (firstMember ["token_out","tokenOut","to"] raw) }
  else none

def extractRouteLegs (body : Value) : Option (List RialtoRouteLeg) := do
  let route := prop (lit "route") body
  let candidate ← ((arrayOf route).or (route.bind fun r => arrayOf (prop (lit "legs") r))).or
    (arrayOf (prop (lit "legs") body))
  let legs := candidate.filterMap routeLeg
  if legs.isEmpty then none else some legs

/-! ## Validation -/

def assertOfficialRialtoOrigin (P : Platform) (base : JsString) : Except QuoteError Unit := do
  let u ← orReject .badOrigin "apiBaseUrl is not a valid URL" (P.parseUrl base)
  reject (u.protocol ≠ lit "https:") .badOrigin "origin must use https"
  reject (u.hostname ≠ OFFICIAL_RIALTO_HOST) .badOrigin
    "origin host is not the official Rialto API host"
  reject (u.username ≠ [] ∨ u.password ≠ []) .badOrigin "origin must not contain credentials"
  reject (u.port ≠ []) .badOrigin "origin must not specify a port"
  reject (u.pathname ≠ [] ∧ u.pathname ≠ lit "/") .badOrigin "origin must not contain a path"
  reject (u.search ≠ [] ∨ u.hash ≠ []) .badOrigin
    "origin must not contain a query string or fragment"

/-- The allowance, where there is one, is for the target only. -/
def checkAllowance (target : JsString) (allowance : Option Value) :
    Except QuoteError (Option JsString) :=
  if isPresent allowance then do
    let allowance ← orReject .invalidAllowance "issues.allowance is malformed" (objectOf allowance)
    let spender := normAddress (prop (lit "spender") allowance)
    reject (spender ≠ some target) .wrongAllowanceSpender "allowance spender must equal tx.to"
    return spender
  else return none

/-- Balance must be null, simulation complete, and allowance for `tx.to`. -/
def checkIssues (target : JsString) (issues : Option Value) : Except QuoteError QuoteIssues :=
  match objectOf issues with
  | none => return ⟨false,false,none⟩
  | some issues => do
    reject (isPresent (prop (lit "balance") issues) = true) .balanceIssue
      "issues.balance must be null"
    reject (isTrue (prop (lit "simulationIncomplete") issues) = true) .simulationIncomplete
      "simulation is incomplete"
    let spender ← checkAllowance target (prop (lit "allowance") issues)
    return ⟨false,false,spender⟩

def hasMembers (v : Option Value) : Bool :=
  match objectOf v with
  | some v => !(entries v).isEmpty
  | none => false

def isCallData (maxCallDataBytes : Number) (s : JsString) : Bool :=
  isHexData s && 10 ≤ s.length && s.length%2 = 0 &&
    !maxCallDataBytes.lt (.ofRat (((s.length : ℚ)-2)/2))

def callDataOf (maxCallDataBytes : Number) : Option Value → Option JsString
  | some (.leaf (.str s)) => if isCallData maxCallDataBytes s then some s else none
  | _ => none

def zeroAddress : JsString := lit "0x0000000000000000000000000000000000000000"

/-- `tx.to`, which must not be zero. -/
def targetOf (tx : Value) : Option JsString :=
  (normAddress (prop (lit "to") tx)).bind fun target =>
    if target = zeroAddress then none else some target

def textOf (n : ℤ) : JsString := ofText (DecimalText.signed n)

/-- The digest of the identifier, of which the text may be missing. -/
def quoteIdDigest (P : Platform) (rawQuoteId : Option Value) :
    Except QuoteError (Option JsString) :=
  match rawQuoteId with
  | none => return none
  | some v => do
    let s ← orRevert .typeError (stringOf v)
    return some (P.sha256Hex s)

def validateQuote (P : Platform) (config : RialtoQuoteConfig) (request : RialtoQuoteRequest)
    (weth taker buyToken : JsString) (expectedSellRaw : ℤ) (body : Value) :
    Except QuoteError RialtoQuoteResult := do
  reject (isObject body = false) .invalidJson "quote body was not an object"
  reject (isNumber (.ofRat 4663) (prop (lit "chain_id") body) = false) .wrongChain
    "chain_id mismatch"
  reject (isString (lit "allowance") (prop (lit "settlement") body) = false) .wrongSettlement
    "settlement is not allowance"
  reject (isPresent (prop (lit "permit2") body) = true) .permit2Present
    "permit2 must be absent for allowance settlement"
  reject (isTrue (prop (lit "gasless") body) = true ∨ hasMembers (prop (lit "gasless") body) = true)
    .gaslessPresent "gasless mode must be absent"
  reject (normAddress (prop (lit "sell_token") body) ≠ some weth) .wrongSellToken
    "sell_token is not the configured WETH"
  reject (normAddress (prop (lit "buy_token") body) ≠ some buyToken) .wrongBuyToken
    "buy_token is not the requested stock"
  reject (rawEquals (prop (lit "sell_amount") body) expectedSellRaw = false) .wrongSellAmount
    "returned raw sell_amount does not match the requested decimal amount"
  reject (normAddress (prop (lit "taker") body) ≠ some taker) .wrongTaker
    "taker is not the configured adapter"
  let tx ← orReject .missingTxTo "tx is missing" (objectOf (prop (lit "tx") body))
  reject (isPresent (prop (lit "signature_offset") tx) = true) .permit2Present
    "tx.signature_offset must be absent"
  let target ← orReject .missingTxTo "tx.to is missing or zero" (targetOf tx)
  let callData ← orReject .malformedCalldata "tx.data is not valid bounded hex calldata"
    (callDataOf (config.maxCallDataBytes.getD (.ofRat 8192)) (prop (lit "data") tx))
  reject (rawEquals (prop (lit "value") tx) 0 = false) .nonzeroValue "tx.value must be exactly zero"
  let minBuy ← orReject .zeroMinBuy "min_buy_amount must be > 0"
    (parsePositiveBigInt (prop (lit "min_buy_amount") body))
  reject (expectedSellRaw*1000000 < minBuy) .inconsistentMinBuy
    "min_buy_amount is implausibly large"
  let issues ← checkIssues target (prop (lit "issues") body)
  let quoteExpiry :=
    match prop (lit "expiry") body with
    | some (.leaf (.num x)) => positiveInteger x
    | _ => none
  let quoteIdSha256 ← quoteIdDigest P (firstMember ["quote_id","quoteId","id"] body)
  return {
    target := target
    callData := callData
    sellAmountRaw := expectedSellRaw
    sellAmountDecimal := request.sellAmountDecimal
    minBuyAmountRaw := minBuy
    buyToken := buyToken
    quoteExpiry := quoteExpiry
    details := {
      chainId := .ofRat 4663
      sellToken := weth
      buyToken := buyToken
      requestedSellAmountDecimal := request.sellAmountDecimal
      returnedSellAmountRaw := textOf expectedSellRaw
      buyAmountRaw := intLikeToString (firstMember ["buy_amount","buyAmount"] body)
      minBuyAmountRaw := textOf minBuy
      settlementMode := lit "allowance"
      integratorFeeRequested := false
      platformFee := sanitizePrimitiveMap (firstMember ["fees","platform_fee","fee"] body)
      networkFeeEstimate := intLikeToString
        (firstMember ["network_fee","gas_estimate","estimated_gas","gas"] body)
      issues := issues
      routeLegs := extractRouteLegs body
      txTarget := target
      selector := callData.take 10
      callDataBytes := .ofRat (((callData.length : ℚ)-2)/2)
      txValue := lit "0"
      quoteCreatedAtSec := intLikeToPositiveNumber
        (firstMember ["created_at","createdAt","timestamp","created"] body)
      quoteExpirySec := quoteExpiry
      quoteIdSha256 := quoteIdSha256 } }

/-! ## The request -/

/-- The parameters of the request; no fee, no Permit2 owner and no gasless mode. -/
def quoteParams (config : RialtoQuoteConfig) (request : RialtoQuoteRequest)
    (weth taker buyToken : JsString) : List (JsString × JsString) :=
  [(lit "chain_id",lit "4663"),(lit "settlement",lit "allowance"),(lit "sell_token",weth),
    (lit "buy_token",buyToken),(lit "sell_amount",request.sellAmountDecimal),(lit "taker",taker),
    (lit "slippage_bps",ofText (NumberText.toText config.slippageBps))]

/-- The addresses of a configuration and a request, where they are well formed. -/
def quoteAddresses (config : RialtoQuoteConfig) (request : RialtoQuoteRequest) :
    Option (JsString × JsString × JsString) := do
  let weth ← normAddress (ofString config.wethAddress)
  let taker ← normAddress (ofString config.adapterAddress)
  let buyToken ← normAddress (ofString request.buyToken)
  if Number.strictEq config.chainId (.ofRat 4663) then some (weth,taker,buyToken) else none

def httpRequest (P : Platform) (config : RialtoQuoteConfig) (request : RialtoQuoteRequest)
    (apiKey weth taker buyToken : JsString) : HttpRequest where
  url := P.quoteUrl config.apiBaseUrl (quoteParams config request weth taker buyToken)
  method := lit "GET"
  authorization := lit "Bearer " ++ apiKey
  accept := lit "application/json"
  timeoutMs := config.timeoutMs.getD (.ofRat 5000)
  cache := lit "no-store"
  redirect := lit "error"

/-- What the service answers: the text of its response. -/
def receive (P : Platform) (config : RialtoQuoteConfig) (sent : HttpRequest) :
    Except QuoteError JsString := do
  let res ← (P.fetchImpl sent).mapError fun aborted =>
    .rialto (if aborted then .timeout else .httpError) "quote request failed".toList
  revertIf (res.ok = false) (.rialto .httpError
    ("quote responded with status ".toList ++ NumberText.toText res.status))
  let text ← orRevert .unreadBody res.text
  reject ((config.maxResponseBytes.getD (.ofRat 65536)).lt (.ofRat text.length) = true)
    .oversizeResponse "quote response exceeded size bound"
  return text

def fetchRialtoAllowanceQuote (P : Platform) (config : RialtoQuoteConfig)
    (request : RialtoQuoteRequest) : Except QuoteError RialtoQuoteResult := do
  let apiKey ← orReject .missingApiKey "RIALTO_API_KEY is not configured"
    (P.apiKey.bind fun key => if key = [] then none else some key)
  assertOfficialRialtoOrigin P config.apiBaseUrl
  let (weth,taker,buyToken) ← orReject .badConfig "invalid chain id or address configuration"
    (quoteAddresses config request)
  reject (config.slippageBps.isInteger = false ∨ config.slippageBps.lt (.ofRat 0) = true ∨
    (Number.ofRat 10000).lt config.slippageBps = true) .badConfig "slippageBps out of range"
  let expectedSellRaw ← orReject .badSellAmount
    "sellAmountDecimal must be a positive decimal with <= 18 fractional digits"
    (decimalToBaseUnits request.sellAmountDecimal SELL_TOKEN_DECIMALS)
  let text ← receive P config (httpRequest P config request apiKey weth taker buyToken)
  let body ← orReject .invalidJson "quote response was not valid JSON" (jsonParse text)
  validateQuote P config request weth taker buyToken expectedSellRaw body

end QuoteClient
end BpsProtocol
