import BpsProtocol.QuoteAmounts

/-! The structural validation of what a quote would execute.
The payload of a quote is bound to the resolved router and to an approved selector: it must be the
exact encoding of the arguments that it decodes to, and these must name the token, the amount and
the recipient that were asked for.  The ABI codec is a parameter. -/
namespace BpsProtocol
namespace QuoteStructural
open Checked Utf16 Binary64 QuoteClient
open JsonSyntax (Tree Piece compact)

/-! ## Errors -/

inductive QuoteExecutionErrorCode
  | selectorPolicyMissing
  | routerUnresolved
  | routerMismatch
  | wrongChain
  | emptyCalldata
  | shortCalldata
  | unknownSelector
  | multicallForbidden
  | decodeFailed
  | trailingCalldata
  | argTokenMismatch
  | argAmountMismatch
  | argRecipientMismatch
  | expiredQuote
  | missingExpiry
  | nonzeroValue
  deriving DecidableEq

/-- What is thrown: an error of the validation, or one of the codec. -/
inductive ExecutionError
  | execution (code : QuoteExecutionErrorCode) (message : JsString)
  | library
  deriving DecidableEq

def reject (c : Prop) [Decidable c] (code : QuoteExecutionErrorCode) (message : JsString) :
    Except ExecutionError Unit :=
  revertIf c (.execution code message)

def orReject {α : Type} (code : QuoteExecutionErrorCode) (message : String) (x : Option α) :
    Except ExecutionError α :=
  orRevert (.execution code (lit message)) x

/-! ## Data -/

/-- A decoded argument: a string, a bigint, or a value of another type. -/
inductive AbiValue (Other : Type)
  | text (s : JsString)
  | bigint (n : ℤ)
  | other (v : Other)
  deriving DecidableEq

/-- The functions of the codec; each may throw. -/
structure AbiCodec (Params Other : Type) where
  decode : Params → JsString → Option (List (AbiValue Other))
  encode : Params → List (AbiValue Other) → Option JsString
  otherText : Other → JsString

/-- `String(value)` -/
def AbiCodec.stringOf {Params Other : Type} (abi : AbiCodec Params Other) :
    AbiValue Other → JsString
  | .text s => s
  | .bigint n => textOf n
  | .other v => abi.otherText v

structure ApprovedSelector (Params : Type) where
  selector : JsString
  signature : JsString
  params : Params
  tokenArgIndex : Option ℕ
  amountArgIndex : Option ℕ
  recipientArgIndex : Option ℕ

structure QuoteExecutionPolicy (Params : Type) where
  approvedSelectors : List (ApprovedSelector Params)
  forbiddenSelectors : Option (List JsString)

def DEFAULT_FORBIDDEN_SELECTORS : List JsString :=
  [lit "0xac9650d8",lit "0x5ae401dc",lit "0x1f0464d1"]

structure QuoteExecutionContext where
  chainId : Number
  resolvedRouter : Option JsString
  expectedBuyToken : JsString
  expectedSellAmountRaw : ℤ
  expectedRecipient : JsString
  nowSec : Number

structure QuoteExecutionValidation (Other : Type) where
  selector : JsString
  signature : JsString
  decodedArgs : List (AbiValue Other)
  boundToken : Option JsString
  boundAmount : Option JsString
  boundRecipient : Option JsString

/-! ## Validation -/

/-- `toLowerCase`; the texts that it is compared with are hex, so that only ASCII letters count. -/
def lower : JsString → JsString := toLowerCase

/-- Hex digits after `0x`, as many as are asked for. -/
def isHexOf (width : ℕ) (s : JsString) : Bool :=
  s.take 2 = lit "0x" && (s.drop 2).length = width && (s.drop 2).all JsonSyntax.isHex

section Validation

variable {Params Other : Type} (abi : AbiCodec Params Other)

def isText (expected : JsString) : Option (AbiValue Other) → Bool
  | some (.text s) => lower s = lower expected
  | _ => false

def isBigint (expected : ℤ) : Option (AbiValue Other) → Bool
  | some (.bigint n) => n = expected
  | _ => false

/-- The argument of an index; none for no index, and for one out of bounds. -/
def argAt (decoded : List (AbiValue Other)) (i : Option ℕ) : Option (AbiValue Other) :=
  i.bind fun i => decoded[i]?

/-- A string as it is reported. -/
def boundText (decoded : List (AbiValue Other)) (i : Option ℕ) : Option JsString :=
  (argAt decoded i).map abi.stringOf

/-- The selectors that are never approved. -/
def QuoteExecutionPolicy.forbidden (policy : QuoteExecutionPolicy Params) : List JsString :=
  (policy.forbiddenSelectors.getD DEFAULT_FORBIDDEN_SELECTORS).map lower

/-- The entry of a selector. -/
def QuoteExecutionPolicy.entry (policy : QuoteExecutionPolicy Params) (selector : JsString) :
    Option (ApprovedSelector Params) :=
  policy.approvedSelectors.find? fun a => lower a.selector = selector

/-- The arguments are the expected ones, at the indices that the entry declares. -/
def checkArgs (ctx : QuoteExecutionContext) (approved : ApprovedSelector Params)
    (decoded : List (AbiValue Other)) : Except ExecutionError Unit := do
  reject (approved.tokenArgIndex ≠ none ∧
    isText ctx.expectedBuyToken (argAt decoded approved.tokenArgIndex) = false)
    .argTokenMismatch (lit "decoded token != canonical stock token")
  reject (approved.amountArgIndex ≠ none ∧
    isBigint ctx.expectedSellAmountRaw (argAt decoded approved.amountArgIndex) = false)
    .argAmountMismatch (lit "decoded amount != authorized input")
  reject (approved.recipientArgIndex ≠ none ∧
    isText ctx.expectedRecipient (argAt decoded approved.recipientArgIndex) = false)
    .argRecipientMismatch (lit "decoded recipient != adapter")

def checkExpiry (nowSec : Number) (quoteExpiry : Option Number) : Except ExecutionError Unit := do
  let expiry ← orReject .missingExpiry "quote carries no expiry/deadline" quoteExpiry
  reject (expiry.le nowSec = true) .expiredQuote (lit "quote expiry is in the past")

/-- The entry of the selector of the calldata, which is bound to the resolved router. -/
def approvedEntry (quote : RialtoQuoteResult) (ctx : QuoteExecutionContext)
    (policy : QuoteExecutionPolicy Params) : Except ExecutionError (ApprovedSelector Params) := do
  reject (Number.strictEq ctx.chainId (.ofRat 4663) = false) .wrongChain
    (lit "context chain " ++ ofText (NumberText.toText ctx.chainId) ++ lit " != 4663")
  let router ← orReject .routerUnresolved "live registry router not resolved"
    (ctx.resolvedRouter.bind fun r => if r = [] then none else some r)
  reject (lower quote.target ≠ lower router) .routerMismatch
    (lit "tx.to does not equal the currently resolved feature router")
  reject (quote.callData = lit "0x" ∨ quote.callData.length = 0) .emptyCalldata
    (lit "calldata is empty")
  reject (quote.callData.length < 10) .shortCalldata
    (lit "calldata shorter than a 4-byte selector")
  reject (policy.forbidden.any (· = lower (quote.callData.take 10)) = true) .multicallForbidden
    (lit "opaque batching selector cannot be approved at top level")
  reject (policy.approvedSelectors.length = 0) .selectorPolicyMissing
    (lit "no approved selector policy is configured — the venue selector is not yet pinned " ++
      lit "(fail closed)")
  orRevert (.execution .unknownSelector
    (lit "selector " ++ lower (quote.callData.take 10) ++ lit " is not approved"))
    (policy.entry (lower (quote.callData.take 10)))

/-- The arguments, which the calldata must encode exactly. -/
def decodeExact (approved : ApprovedSelector Params) (data : JsString) :
    Except ExecutionError (List (AbiValue Other)) := do
  let decoded ← orReject .decodeFailed "calldata does not decode as the approved ABI"
    (abi.decode approved.params (lit "0x" ++ data.drop 10))
  let reencoded ← orRevert .library (abi.encode approved.params decoded)
  reject (lower (lit "0x" ++ data.drop 10) ≠ lower reencoded) .trailingCalldata
    (lit "calldata is not the exact canonical encoding of its decoded arguments")
  return decoded

def validateQuoteExecution (quote : RialtoQuoteResult) (ctx : QuoteExecutionContext)
    (policy : QuoteExecutionPolicy Params) :
    Except ExecutionError (QuoteExecutionValidation Other) := do
  let approved ← approvedEntry quote ctx policy
  let decoded ← decodeExact abi approved quote.callData
  checkArgs ctx approved decoded
  checkExpiry ctx.nowSec quote.quoteExpiry
  return {
    selector := lower (quote.callData.take 10)
    signature := approved.signature
    decodedArgs := decoded
    boundToken := boundText abi decoded approved.tokenArgIndex
    boundAmount := boundText abi decoded approved.amountArgIndex
    boundRecipient := boundText abi decoded approved.recipientArgIndex }

/-! ## What is accepted -/

section Accepted

variable {abi} {quote : RialtoQuoteResult} {ctx : QuoteExecutionContext}
  {policy : QuoteExecutionPolicy Params} {approved : ApprovedSelector Params}
  {decoded : List (AbiValue Other)} {s t : JsString}

theorem lower_append : lower (s ++ t) = lower s ++ lower t := List.map_append

theorem lower_length : (lower s).length = s.length := List.length_map _

/-- The data is the selector of an entry and the encoding of the arguments that it decodes to, but
for the case of its letters. -/
structure Carries (abi : AbiCodec Params Other) (approved : ApprovedSelector Params)
    (decoded : List (AbiValue Other)) (data : JsString) : Prop where
  decodes : abi.decode approved.params (lit "0x" ++ data.drop 10) = some decoded
  encodes : ∃ encoded, abi.encode approved.params decoded = some encoded ∧
    lower (lit "0x" ++ data.drop 10) = lower encoded
  selector : lower (data.take 10) = lower approved.selector

/-- No two texts carry the same arguments under one entry. -/
theorem Carries.unique {data data' : JsString} (h : Carries abi approved decoded data)
    (h' : Carries abi approved decoded data') : lower data = lower data' := by
  obtain ⟨encoded,hencoded,hdata⟩ := h.encodes
  obtain ⟨encoded',hencoded',hdata'⟩ := h'.encodes
  obtain rfl := Option.some.inj (hencoded.symm.trans hencoded')
  have hrest : lower (data.drop 10) = lower (data'.drop 10) := by
    have hsame := hdata.trans hdata'.symm
    rw [lower_append,lower_append] at hsame
    exact List.append_cancel_left hsame
  calc lower data = lower (data.take 10) ++ lower (data.drop 10) := by
        rw [← lower_append,List.take_append_drop]
    _ = lower (data'.take 10) ++ lower (data'.drop 10) := by
        rw [h.selector,h'.selector,hrest]
    _ = lower data' := by rw [← lower_append,List.take_append_drop]

/-- The router that the quote is bound to. -/
def RoutedTo (quote : RialtoQuoteResult) (router : Option JsString) : Prop :=
  ∃ r, router = some r ∧ r ≠ [] ∧ lower quote.target = lower r

theorem approvedEntry_eq_ok : approvedEntry quote ctx policy = .ok approved ↔
    Number.strictEq ctx.chainId (.ofRat 4663) = true ∧ RoutedTo quote ctx.resolvedRouter ∧
      10 ≤ quote.callData.length ∧ lower (quote.callData.take 10) ∉ policy.forbidden ∧
      policy.entry (lower (quote.callData.take 10)) = some approved := by
  simp only [approvedEntry,reject,orReject,bind_eq_ok,revertIf_eq_ok,orRevert_eq_ok,exists_const,
    Bool.not_eq_false,Bool.not_eq_true,List.any_eq_false,decide_eq_true_eq]
  constructor
  · rintro ⟨hchain,router,hrouter,htarget,-,hlength,hforbidden,-,hentry⟩
    obtain ⟨r,hr,hnonempty⟩ := Option.bind_eq_some_iff.1 hrouter
    split at hnonempty
    · cases hnonempty
    · obtain rfl := Option.some.inj hnonempty
      exact ⟨hchain,⟨r,hr,by assumption,not_not.1 htarget⟩,by omega,
        fun hmem => hforbidden _ hmem rfl,hentry⟩
  · rintro ⟨hchain,⟨r,hr,hne,htarget⟩,hlength,hforbidden,hentry⟩
    have hempty : quote.callData ≠ lit "0x" := by
      intro hdata
      rw [hdata] at hlength
      exact absurd hlength (by decide)
    have hsome : policy.approvedSelectors ≠ [] := by
      intro hnil
      rw [QuoteExecutionPolicy.entry,hnil] at hentry
      cases hentry
    refine ⟨hchain,r,?_,not_not.2 htarget,not_or.2 ⟨hempty,by omega⟩,by omega,?_,?_,hentry⟩
    · rw [hr,Option.bind_some,if_neg hne]
    · intro x hx hsame
      exact hforbidden (hsame ▸ hx)
    · exact fun hzero => hsome (List.length_eq_zero_iff.1 hzero)

theorem decodeExact_eq_ok {data : JsString} : decodeExact abi approved data = .ok decoded ↔
    abi.decode approved.params (lit "0x" ++ data.drop 10) = some decoded ∧
      ∃ encoded, abi.encode approved.params decoded = some encoded ∧
        lower (lit "0x" ++ data.drop 10) = lower encoded := by
  simp only [decodeExact,reject,orReject,bind_eq_ok,revertIf_eq_ok,orRevert_eq_ok,exists_const,
    pure_eq_ok,not_not]
  constructor
  · rintro ⟨decoded',hdecode,encoded,hencode,hsame,rfl⟩
    exact ⟨hdecode,encoded,hencode,hsame⟩
  · rintro ⟨hdecode,encoded,hencode,hsame⟩
    exact ⟨decoded,hdecode,encoded,hencode,hsame,rfl⟩

/-- The argument of a declared index is the expected text. -/
def NamesText (decoded : List (AbiValue Other)) (i : Option ℕ) (expected : JsString) : Prop :=
  ∀ j, i = some j → ∃ s, decoded[j]? = some (.text s) ∧ lower s = lower expected

/-- The argument of a declared index is the expected amount. -/
def NamesAmount (decoded : List (AbiValue Other)) (i : Option ℕ) (expected : ℤ) : Prop :=
  ∀ j, i = some j → decoded[j]? = some (.bigint expected)

theorem isText_argAt {i : Option ℕ} {expected : JsString} :
    ¬(i ≠ none ∧ isText expected (argAt decoded i) = false) ↔ NamesText decoded i expected := by
  cases i with
  | none => simp [NamesText]
  | some j =>
    simp only [NamesText,argAt,Option.bind_some,ne_eq,reduceCtorEq,not_false_eq_true,true_and,
      Option.some.injEq,forall_eq']
    match decoded[j]? with
    | none => simp [isText]
    | some (.text s) => simp [isText]
    | some (.bigint n) => simp [isText]
    | some (.other v) => simp [isText]

theorem isBigint_argAt {i : Option ℕ} {expected : ℤ} :
    ¬(i ≠ none ∧ isBigint expected (argAt decoded i) = false) ↔
      NamesAmount decoded i expected := by
  cases i with
  | none => simp [NamesAmount]
  | some j =>
    simp only [NamesAmount,argAt,Option.bind_some,ne_eq,reduceCtorEq,not_false_eq_true,true_and,
      Option.some.injEq,forall_eq']
    match decoded[j]? with
    | none => simp [isBigint]
    | some (.text s) => simp [isBigint]
    | some (.bigint n) => simp [isBigint]
    | some (.other v) => simp [isBigint]

theorem checkArgs_eq_ok {u : Unit} : checkArgs ctx approved decoded = .ok u ↔
    NamesText decoded approved.tokenArgIndex ctx.expectedBuyToken ∧
      NamesAmount decoded approved.amountArgIndex ctx.expectedSellAmountRaw ∧
      NamesText decoded approved.recipientArgIndex ctx.expectedRecipient := by
  simp only [checkArgs,reject,bind_eq_ok,revertIf_eq_ok,exists_const,isText_argAt,isBigint_argAt]

theorem checkExpiry_eq_ok {nowSec : Number} {quoteExpiry : Option Number} {u : Unit} :
    checkExpiry nowSec quoteExpiry = .ok u ↔
      ∃ expiry, quoteExpiry = some expiry ∧ expiry.le nowSec = false := by
  simp only [checkExpiry,reject,orReject,bind_eq_ok,orRevert_eq_ok,revertIf_eq_ok,
    Bool.not_eq_true]

/-- What validation accepts. -/
structure Accepts (abi : AbiCodec Params Other) (quote : RialtoQuoteResult)
    (ctx : QuoteExecutionContext) (policy : QuoteExecutionPolicy Params)
    (approved : ApprovedSelector Params) (decoded : List (AbiValue Other)) : Prop where
  chain : Number.strictEq ctx.chainId (.ofRat 4663) = true
  routed : RoutedTo quote ctx.resolvedRouter
  long : 10 ≤ quote.callData.length
  allowed : lower (quote.callData.take 10) ∉ policy.forbidden
  entry : policy.entry (lower (quote.callData.take 10)) = some approved
  carries : Carries abi approved decoded quote.callData
  token : NamesText decoded approved.tokenArgIndex ctx.expectedBuyToken
  amount : NamesAmount decoded approved.amountArgIndex ctx.expectedSellAmountRaw
  recipient : NamesText decoded approved.recipientArgIndex ctx.expectedRecipient
  unexpired : ∃ expiry, quote.quoteExpiry = some expiry ∧ expiry.le ctx.nowSec = false

theorem entry_selector {selector : JsString} (h : policy.entry selector = some approved) :
    approved ∈ policy.approvedSelectors ∧ lower approved.selector = selector :=
  ⟨List.mem_of_find?_eq_some h,by simpa using List.find?_some h⟩

theorem validateQuoteExecution_accepts {v : QuoteExecutionValidation Other}
    (h : validateQuoteExecution abi quote ctx policy = .ok v) :
    ∃ approved, Accepts abi quote ctx policy approved v.decodedArgs := by
  simp only [validateQuoteExecution,bind_eq_ok,approvedEntry_eq_ok,decodeExact_eq_ok,
    checkArgs_eq_ok,checkExpiry_eq_ok,exists_const,pure_eq_ok] at h
  obtain ⟨approved,⟨hchain,hrouted,hlong,hallowed,hentry⟩,decoded,⟨hdecodes,hencodes⟩,
    ⟨htoken,hamount,hrecipient⟩,hexpiry,rfl⟩ := h
  exact ⟨approved,hchain,hrouted,hlong,hallowed,hentry,
    ⟨hdecodes,hencodes,(entry_selector hentry).2.symm⟩,htoken,hamount,hrecipient,hexpiry⟩

/-- Other data that decodes to the arguments of a payload is not its encoding. -/
theorem Accepts.rejects_other (h : Accepts abi quote ctx policy approved decoded)
    {data : JsString} (hselector : lower (data.take 10) = lower (quote.callData.take 10))
    (hdecodes : abi.decode approved.params (lit "0x" ++ data.drop 10) = some decoded)
    (hne : lower data ≠ lower quote.callData) :
    validateQuoteExecution abi { quote with callData := data } ctx policy =
      .error (.execution .trailingCalldata
        (lit "calldata is not the exact canonical encoding of its decoded arguments")) := by
  obtain ⟨encoded,hencodes,-⟩ := h.carries.encodes
  have hlong : 10 ≤ data.length := by
    have hlength := congrArg List.length hselector
    rw [lower_length,lower_length,List.length_take,List.length_take,min_eq_left h.long] at hlength
    omega
  have hentry : approvedEntry { quote with callData := data } ctx policy = .ok approved := by
    rw [approvedEntry_eq_ok]
    refine ⟨h.chain,h.routed,hlong,?_,?_⟩
    · exact hselector ▸ h.allowed
    · exact hselector ▸ h.entry
  have hother : lower (lit "0x" ++ data.drop 10) ≠ lower encoded := by
    intro hsame
    exact hne (Carries.unique ⟨hdecodes,⟨encoded,hencodes,hsame⟩,
      hselector.trans h.carries.selector⟩ h.carries)
  have hdecode : decodeExact abi approved data = .error (.execution .trailingCalldata
      (lit "calldata is not the exact canonical encoding of its decoded arguments")) := by
    simp only [decodeExact,orReject,hdecodes,hencodes,orRevert,ok_bind,reject,revertIf,
      if_pos hother,error_bind]
  rw [validateQuoteExecution,hentry,ok_bind,hdecode,error_bind]

/-- The amount of a fetched quote is what was requested. -/
theorem fetched_amount {P : Platform} {config : RialtoQuoteConfig} {request : RialtoQuoteRequest}
    (h : fetchRialtoAllowanceQuote P config request = .ok quote) :
    ∃ d : PlainDecimal, d.text = request.sellAmountDecimal ∧
      (quote.sellAmountRaw : ℚ) = d.value*10^SELL_TOKEN_DECIMALS := by
  obtain ⟨n,text,tree,weth,taker,buyToken,hunits,-,-,hvalid⟩ := fetchRialtoAllowanceQuote_ok h
  simp only [validateQuote,QuoteClient.reject,QuoteClient.orReject,bind_eq_ok,revertIf_eq_ok,
    orRevert_eq_ok,exists_const,pure_eq_ok] at hvalid
  obtain ⟨-,-,-,-,-,-,-,-,-,tx,-,-,target,-,callData,-,-,minBuy,-,-,issues,-,digest,-,rfl⟩ := hvalid
  obtain ⟨d,hd,-,-,hvalue⟩ := decimalToBaseUnits_eq_some.1 hunits
  exact ⟨d,hd,hvalue⟩

theorem Accepts.validates (h : Accepts abi quote ctx policy approved decoded) :
    ∃ v, validateQuoteExecution abi quote ctx policy = .ok v ∧ v.decodedArgs = decoded := by
  simp only [validateQuoteExecution,bind_eq_ok,approvedEntry_eq_ok,decodeExact_eq_ok,
    checkArgs_eq_ok,checkExpiry_eq_ok,exists_const,pure_eq_ok]
  exact ⟨_,⟨approved,⟨h.chain,h.routed,h.long,h.allowed,h.entry⟩,decoded,
    ⟨h.carries.decodes,h.carries.encodes⟩,⟨h.token,h.amount,h.recipient⟩,h.unexpired,rfl⟩,rfl⟩

/-- Validated is what goes to the resolved router under an approved selector and names the token,
the amount and the recipient that are expected, where the entry says so; and nothing else.  Its
data is the only one for its arguments: any other that decodes to them is rejected.  The amount of
a fetched quote is the requested one. -/
theorem validated_payload (abi : AbiCodec Params Other) (quote : RialtoQuoteResult)
    (ctx : QuoteExecutionContext) (policy : QuoteExecutionPolicy Params)
    (decoded : List (AbiValue Other)) :
    ((∃ v, validateQuoteExecution abi quote ctx policy = .ok v ∧ v.decodedArgs = decoded) ↔
      ∃ approved, Accepts abi quote ctx policy approved decoded) ∧
    ∀ approved, Accepts abi quote ctx policy approved decoded →
      (∀ data, lower (data.take 10) = lower (quote.callData.take 10) →
        abi.decode approved.params (lit "0x" ++ data.drop 10) = some decoded →
        lower data ≠ lower quote.callData →
        validateQuoteExecution abi { quote with callData := data } ctx policy =
          .error (.execution .trailingCalldata
            (lit "calldata is not the exact canonical encoding of its decoded arguments"))) ∧
      ∀ (P : Platform) (config : RialtoQuoteConfig) (request : RialtoQuoteRequest) (i : ℕ),
        fetchRialtoAllowanceQuote P config request = .ok quote →
        ctx.expectedSellAmountRaw = quote.sellAmountRaw → approved.amountArgIndex = some i →
        ∃ (d : PlainDecimal) (n : ℤ), d.text = request.sellAmountDecimal ∧
          decoded[i]? = some (.bigint n) ∧ (n : ℚ) = d.value*10^SELL_TOKEN_DECIMALS := by
  refine ⟨⟨?_,fun ⟨_,haccepts⟩ => haccepts.validates⟩,fun approved haccepts =>
    ⟨fun data hselector hdecodes hne => haccepts.rejects_other hselector hdecodes hne,?_⟩⟩
  · rintro ⟨v,hvalid,rfl⟩
    exact validateQuoteExecution_accepts hvalid
  · intro P config request i hquote hexpected hindex
    obtain ⟨d,hd,hvalue⟩ := fetched_amount hquote
    have hnamed := haccepts.amount i hindex
    rw [hexpected] at hnamed
    exact ⟨d,quote.sellAmountRaw,hd,hnamed,hvalue⟩

end Accepted

end Validation

/-! A transfer of `20` tokens under an approved selector. -/

def word (digits : JsString) : JsString :=
  List.replicate (64-digits.length) (JsonSyntax.unit '0') ++ digits

def sampleWord (data : JsString) (i : ℕ) : JsString := (data.drop (2+64*i)).take 64

/-- The codec of an address, an amount and an address. -/
def sampleAbi : AbiCodec Unit Empty where
  decode := fun _ data =>
    if 194 ≤ data.length then
      some [.text (lit "0x" ++ (sampleWord data 0).drop 24),
        .bigint (HexText.value ((sampleWord data 1).map fun u => Char.ofNat u.val)),
        .text (lit "0x" ++ (sampleWord data 2).drop 24)]
    else none
  encode := fun _ args =>
    match args with
    | [.text t,.bigint n,.text r] => some (lit "0x" ++ word (t.drop 2) ++
        word (ofText (HexText.write 64 n.toNat)) ++ word (r.drop 2))
    | _ => none
  otherText := Empty.elim

def sampleApproved : ApprovedSelector Unit where
  selector := lit "0x12345678"
  signature := lit "fill(address,uint256,address)"
  params := ()
  tokenArgIndex := some 0
  amountArgIndex := some 1
  recipientArgIndex := some 2

def samplePolicy : QuoteExecutionPolicy Unit := ⟨[sampleApproved],none⟩

def sampleArgs : List (AbiValue Empty) :=
  [.text (lit "0x3333333333333333333333333333333333333333"),.bigint 20000000000000000000,
    .text (lit "0x2222222222222222222222222222222222222222")]

def samplePayload : JsString :=
  lit "0x12345678" ++ word (lit "3333333333333333333333333333333333333333") ++
    word (lit "1158e460913d00000") ++ word (lit "2222222222222222222222222222222222222222")

def sampleContext : QuoteExecutionContext where
  chainId := .ofRat 4663
  resolvedRouter := some (lit "0x71a120CbBf3Ce7cD910a3c50fF77aFc62735687E")
  expectedBuyToken := lit "0x3333333333333333333333333333333333333333"
  expectedSellAmountRaw := 20000000000000000000
  expectedRecipient := lit "0x2222222222222222222222222222222222222222"
  nowSec := .ofRat 1

def transferTx : Tree :=
  .obj [(name "to",stringAt "0x71a120cbbf3ce7cd910a3c50ff77afc62735687e"),
    (name "data",.leaf (.str (samplePayload.map Piece.ofUnit))),(name "value",stringAt "0")]

def transferQuote : Tree :=
  .obj [(name "chain_id",.leaf (.num (numberOf "4663"))),
    (name "settlement",stringAt "allowance"),
    (name "sell_token",stringAt "0x1111111111111111111111111111111111111111"),
    (name "buy_token",stringAt "0x3333333333333333333333333333333333333333"),
    (name "sell_amount",stringAt "20000000000000000000"),
    (name "min_buy_amount",stringAt "1"),
    (name "taker",stringAt "0x2222222222222222222222222222222222222222"),
    (name "expiry",.leaf (.num (numberOf "2"))),
    (name "tx",transferTx)]

/-- A service that answers every request with the quote of the transfer. -/
def transferPlatform : Platform :=
  { samplePlatform (.str (name "1")) with
    fetchImpl := fun _ => .ok ⟨true,.ofRat 200,some (compact transferQuote)⟩ }

theorem transferQuote_fetched : ∃ quote,
    fetchRialtoAllowanceQuote transferPlatform sampleConfig sampleRequest = .ok quote ∧
    quote.callData = samplePayload ∧ quote.sellAmountRaw = sampleContext.expectedSellAmountRaw ∧
    RoutedTo quote sampleContext.resolvedRouter ∧
    ∃ expiry, quote.quoteExpiry = some expiry ∧ expiry.le sampleContext.nowSec = false := by
  have hsample : ((fetchRialtoAllowanceQuote transferPlatform sampleConfig
      sampleRequest).toOption.bind fun quote => quote.quoteExpiry.map fun expiry =>
        (quote.target,quote.callData,quote.sellAmountRaw,expiry.le sampleContext.nowSec)) =
      some (lit "0x71a120cbbf3ce7cd910a3c50ff77afc62735687e",samplePayload,
        sampleContext.expectedSellAmountRaw,false) := by
    decide +kernel
  simp only [Option.bind_eq_some_iff,Option.map_eq_some_iff,toOption_eq_some,
    Prod.mk.injEq] at hsample
  obtain ⟨quote,hquote,expiry,hexpiry,htarget,hcallData,hamount,hlive⟩ := hsample
  exact ⟨quote,hquote,hcallData,hamount,⟨_,rfl,by decide +kernel,by rw [htarget]; decide +kernel⟩,
    expiry,hexpiry,hlive⟩

theorem transfer_accepts {quote : RialtoQuoteResult} (hcallData : quote.callData = samplePayload)
    (hrouted : RoutedTo quote sampleContext.resolvedRouter)
    (hexpiry : ∃ expiry, quote.quoteExpiry = some expiry ∧
      expiry.le sampleContext.nowSec = false) :
    Accepts sampleAbi quote sampleContext samplePolicy sampleApproved sampleArgs where
  chain := is_chainId.strictEq
  routed := hrouted
  long := by rw [hcallData]; decide +kernel
  allowed := by rw [hcallData]; decide +kernel
  entry := by
    have hselector : lower sampleApproved.selector = lower (samplePayload.take 10) := by
      decide +kernel
    rw [hcallData,QuoteExecutionPolicy.entry]
    exact List.find?_cons_of_pos (decide_eq_true hselector)
  carries := by
    rw [hcallData]
    exact ⟨by decide +kernel,⟨lit "0x" ++ samplePayload.drop 10,by decide +kernel,rfl⟩,
      by decide +kernel⟩
  token := fun j hj => by cases hj; exact ⟨_,rfl,rfl⟩
  amount := fun j hj => by cases hj; rfl
  recipient := fun j hj => by cases hj; exact ⟨_,rfl,rfl⟩
  unexpired := hexpiry

/-- The fetched payload is validated and names the `20` tokens that were asked for.  With two more
digits it is rejected. -/
theorem transferQuote_validated : ∃ quote,
    fetchRialtoAllowanceQuote transferPlatform sampleConfig sampleRequest = .ok quote ∧
    (∃ v, validateQuoteExecution sampleAbi quote sampleContext samplePolicy = .ok v ∧
      v.decodedArgs = sampleArgs) ∧
    validateQuoteExecution sampleAbi { quote with callData := samplePayload ++ lit "00" }
      sampleContext samplePolicy = .error (.execution .trailingCalldata
        (lit "calldata is not the exact canonical encoding of its decoded arguments")) ∧
    ∃ (d : PlainDecimal) (n : ℤ), d.text = lit "20" ∧ sampleArgs[1]? = some (.bigint n) ∧
      (n : ℚ) = d.value*10^SELL_TOKEN_DECIMALS := by
  obtain ⟨quote,hquote,hcallData,hamount,hrouted,hexpiry⟩ := transferQuote_fetched
  obtain ⟨hiff,hall⟩ := validated_payload sampleAbi quote sampleContext samplePolicy sampleArgs
  have haccepts : Accepts sampleAbi quote sampleContext samplePolicy sampleApproved sampleArgs :=
    transfer_accepts hcallData hrouted hexpiry
  obtain ⟨hother,hfetched⟩ := hall _ haccepts
  exact ⟨quote,hquote,hiff.2 ⟨_,haccepts⟩,
    hother _ (by rw [hcallData]; decide +kernel) (by decide +kernel)
      (by rw [hcallData]; decide +kernel),
    hfetched _ _ _ 1 hquote hamount.symm rfl⟩

end QuoteStructural
end BpsProtocol
