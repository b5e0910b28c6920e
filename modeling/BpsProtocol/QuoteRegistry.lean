import BpsProtocol.QuoteStructural

/-! The offline evaluation of a router registry's observation.
A target reconciles only with the current router of a feature that is not paused; the selector is
approved apart from that, from an explicit list.  The observation may be any value. -/
namespace BpsProtocol
namespace QuoteRegistry
open Checked Utf16 JsonParse Binary64 QuoteClient QuoteStructural
open JsonValue (Value)

/-! ## Reconciliation -/

inductive RegistryReconcileCode
  | ok
  | missingRegistryField
  | malformedAddress
  | zeroCurrentRouter
  | featurePaused
  | targetRouterMismatch
  deriving DecidableEq

def RegistryReconcileCode.name : RegistryReconcileCode → JsString
  | ok => lit "OK"
  | missingRegistryField => lit "MISSING_REGISTRY_FIELD"
  | malformedAddress => lit "MALFORMED_ADDRESS"
  | zeroCurrentRouter => lit "ZERO_CURRENT_ROUTER"
  | featurePaused => lit "FEATURE_PAUSED"
  | targetRouterMismatch => lit "TARGET_ROUTER_MISMATCH"

structure RegistryReconciliation where
  code : RegistryReconcileCode
  routerReconciled : Bool
  matchedCurrent : Bool
  matchedPreviousOnly : Bool
  matchedNextOnly : Bool
  snapshotDated : Bool
  note : JsString

/-- A member of the observation, which may be undefined or null itself. -/
def field (name : String) (obs : Option Value) : Option Value := obs.bind (prop (lit name))

/-- `isAddress` of any value; the address in lower case. -/
def addressOf : Option Value → Option JsString
  | some (.leaf (.str s)) => if isAddress s then some (lower s) else none
  | _ => none

def snapshotDated (obs : Option Value) : Bool :=
  isPresent (field "blockNumber" obs) || isPresent (field "observationTimeUtc" obs)

def requiredFields : List String :=
  ["registry","feature","currentRouter","previousRouter","nextRouter","paused"]

structure Routers where
  target : JsString
  current : JsString
  previous : JsString
  next : JsString

/-- The addresses in lower case, where all are well formed. -/
def routersOf (target obs : Option Value) : Option Routers := do
  let t ← addressOf target
  let _ ← addressOf (field "registry" obs)
  let current ← addressOf (field "currentRouter" obs)
  let previous ← addressOf (field "previousRouter" obs)
  let next ← addressOf (field "nextRouter" obs)
  return ⟨t,current,previous,next⟩

def failed (obs : Option Value) (code : RegistryReconcileCode) (note : String) :
    RegistryReconciliation where
  code := code
  routerReconciled := false
  matchedCurrent := false
  matchedPreviousOnly := false
  matchedNextOnly := false
  snapshotDated := snapshotDated obs
  note := lit note

def reconcileRegistryTarget (target obs : Option Value) : RegistryReconciliation :=
  if isPresent obs = false ∨ requiredFields.any (fun name => (field name obs).isNone) = true then
    failed obs .missingRegistryField "a required registry field is missing"
  else
    match routersOf target obs with
    | none => failed obs .malformedAddress "target or a registry address is malformed"
    | some r =>
      if r.current = zeroAddress then
        failed obs .zeroCurrentRouter "current feature router is the zero address"
      else if isTrue (field "paused" obs) = true then
        failed obs .featurePaused "registry feature is paused"
      else if r.target ≠ r.current then
        { failed obs .targetRouterMismatch "target does not equal the current feature router" with
          matchedPreviousOnly := r.target = r.previous ∧ r.previous ≠ zeroAddress
          matchedNextOnly := r.target = r.next ∧ r.next ≠ zeroAddress }
      else
        { code := .ok
          routerReconciled := true
          matchedCurrent := true
          matchedPreviousOnly := false
          matchedNextOnly := false
          snapshotDated := snapshotDated obs
          note := lit ("target equals the current feature router for this (possibly undated) " ++
            "snapshot only") }

/-! ## Replay -/

inductive DerivedStructuralStatus
  | selectorUnapproved
  | structurallyApproved
  | routerUnreconciled
  | malformedSelector
  | wrongChain
  deriving DecidableEq

structure DerivedReplayInput where
  chainId : Number
  target : JsString
  selector : JsString
  registry : Option Value
  approvedSelectors : List JsString
  selectorAbi : Option Value

structure DerivedReplayResult where
  derivedStatus : DerivedStructuralStatus
  routerReconciled : Bool
  registryPaused : Bool
  snapshotDated : Bool
  selector : JsString
  selectorApproved : Bool
  selectorFunctionName : Option JsString
  productionStructuralApproved : Bool
  registryReconciliation : RegistryReconciliation
  d6 : String
  notes : List JsString

/-- `SELECTOR_RE` -/
def isSelector (s : JsString) : Bool := isHexOf 8 s

/-- The name of a selector, from a supplied map only. -/
def resolveSelectorName (selector : JsString) (abi : Option Value) : Option JsString :=
  match firstDefined [abi.bind (prop (lower selector)),abi.bind (prop selector)] with
  | some (.leaf (.str s)) => if s = [] then none else some s
  | _ => none

/-- What is derived before the selector is looked up. -/
def baseReplay (input : DerivedReplayInput) (status : DerivedStructuralStatus)
    (notes : List JsString) : DerivedReplayResult :=
  let reconciliation := reconcileRegistryTarget (ofString input.target) input.registry
  { derivedStatus := status
    routerReconciled := reconciliation.routerReconciled
    registryPaused := isTrue (field "paused" input.registry)
    snapshotDated := reconciliation.snapshotDated
    selector := input.selector
    selectorApproved := false
    selectorFunctionName := resolveSelectorName input.selector input.selectorAbi
    productionStructuralApproved := false
    registryReconciliation := reconciliation
    d6 := "OPEN"
    notes := notes }

def deriveStructuralReplay (input : DerivedReplayInput) : DerivedReplayResult :=
  let reconciliation := reconcileRegistryTarget (ofString input.target) input.registry
  if Number.strictEq input.chainId (.ofRat 4663) = false then
    baseReplay input .wrongChain [lit "chain id is not 4663"]
  else if isSelector input.selector = false then
    baseReplay input .malformedSelector [lit "selector is malformed"]
  else if reconciliation.routerReconciled = false then
    baseReplay input .routerUnreconciled
      [lit "registry reconciliation failed: " ++ reconciliation.code.name]
  else
    let approved := (input.approvedSelectors.map lower).any (· = lower input.selector)
    { baseReplay input (if approved then .structurallyApproved else .selectorUnapproved)
        [lit ("router reconciled against an undated snapshot only — not permanent authority"),
          lit ("selector is evidence-only; a single observed quote cannot approve it or close " ++
            "D-6")] with
      selectorApproved := approved
      productionStructuralApproved := reconciliation.routerReconciled && approved }

/-! ## Agreement with the validation -/

/-- The observation is complete and well formed, of a feature that is not paused and has `r` for
its current router. -/
structure Observed (obs : Option Value) (r : JsString) : Prop where
  complete : ∀ name ∈ requiredFields, field name obs ≠ none
  registry : ∃ a, addressOf (field "registry" obs) = some a
  previous : ∃ a, addressOf (field "previousRouter" obs) = some a
  next : ∃ a, addressOf (field "nextRouter" obs) = some a
  current : field "currentRouter" obs = ofString r
  wellFormed : isAddress r = true
  nonzero : lower r ≠ zeroAddress
  unpaused : isTrue (field "paused" obs) = false

section Agreement

variable {obs : Option Value} {t : JsString}

theorem addressOf_eq_some {v : Option Value} {a : JsString} :
    addressOf v = some a ↔ ∃ s, v = ofString s ∧ isAddress s = true ∧ lower s = a := by
  constructor
  · intro h
    unfold addressOf at h
    split at h
    · rename_i s
      split at h
      · exact ⟨s,rfl,by assumption,Option.some.inj h⟩
      · cases h
    · cases h
  · rintro ⟨s,rfl,hs,rfl⟩
    rw [ofString,addressOf,if_pos hs]

theorem isPresent_of_field {name : String} (h : field name obs ≠ none) :
    isPresent obs = true := by
  match obs, h with
  | none, h => exact absurd rfl h
  | some (.leaf a), h => exact absurd rfl h
  | some (.arr items), h => rfl
  | some (.obj members), h => rfl

/-- A target reconciles with the current router of an observed feature, and with no other. -/
theorem reconciled_iff : (reconcileRegistryTarget (ofString t) obs).routerReconciled = true ↔
    ∃ r, Observed obs r ∧ isAddress t = true ∧ lower t = lower r := by
  constructor
  · intro h
    simp only [reconcileRegistryTarget] at h
    split at h
    · cases h
    rename_i hcomplete
    rw [not_or,Bool.not_eq_true,List.any_eq_false] at hcomplete
    split at h
    · cases h
    rename_i r hrouters
    simp only [routersOf,bind,Option.bind_eq_some_iff,pure,Option.some.injEq] at hrouters
    obtain ⟨a,ha,b,hb,c,hc,p,hp,n,hn,rfl⟩ := hrouters
    obtain ⟨s,hs,htarget,rfl⟩ := addressOf_eq_some.1 ha
    obtain ⟨current,hcurrent,hwellFormed,rfl⟩ := addressOf_eq_some.1 hc
    split at h
    · cases h
    split at h
    · cases h
    split at h
    · cases h
    rename_i hnonzero hunpaused hmatch
    cases hs
    refine ⟨current,⟨?_,⟨b,hb⟩,⟨p,hp⟩,⟨n,hn⟩,hcurrent,hwellFormed,hnonzero,?_⟩,htarget,?_⟩
    · intro name hname hnone
      exact hcomplete.2 name hname (by rw [hnone]; rfl)
    · exact Bool.not_eq_true _ ▸ hunpaused
    · exact not_not.1 hmatch
  · rintro ⟨r,h,ht,hsame⟩
    obtain ⟨b,hb⟩ := h.registry
    obtain ⟨p,hp⟩ := h.previous
    obtain ⟨n,hn⟩ := h.next
    have htarget : addressOf (ofString t) = some (lower t) := addressOf_eq_some.2 ⟨t,rfl,ht,rfl⟩
    have hcurrent : addressOf (field "currentRouter" obs) = some (lower r) :=
      addressOf_eq_some.2 ⟨r,h.current,h.wellFormed,rfl⟩
    have hrouters : routersOf (ofString t) obs = some ⟨lower t,lower r,p,n⟩ := by
      simp only [routersOf,htarget,hb,hcurrent,hp,hn,bind,Option.bind_some,pure]
    have hpresent : isPresent obs = true := isPresent_of_field (h.complete "paused" (by decide))
    rw [reconcileRegistryTarget,if_neg,hrouters]
    · simp only [if_neg h.nonzero,h.unpaused,Bool.false_eq_true,if_false,hsame,ne_eq,
        not_true_eq_false]
    · rw [not_or,Bool.not_eq_true,List.any_eq_false]
      refine ⟨by rw [hpresent]; decide,fun name hname hnone => h.complete name hname ?_⟩
      exact Option.isNone_iff_eq_none.1 hnone

theorem approved_iff {input : DerivedReplayInput} :
    (deriveStructuralReplay input).productionStructuralApproved = true ↔
      Number.strictEq input.chainId (.ofRat 4663) = true ∧ isSelector input.selector = true ∧
      (∃ r, Observed input.registry r ∧ isAddress input.target = true ∧
        lower input.target = lower r) ∧
      ∃ s ∈ input.approvedSelectors, lower s = lower input.selector := by
  simp only [← reconciled_iff,deriveStructuralReplay]
  split
  · simp_all [baseReplay]
  split
  · simp_all [baseReplay]
  split
  · simp_all [baseReplay]
  · simp_all

/-- The input of a replay of a quote. -/
def replayOf {Params : Type} (quote : RialtoQuoteResult) (chainId : Number)
    (policy : QuoteExecutionPolicy Params) (obs selectorAbi : Option Value) :
    DerivedReplayInput where
  chainId := chainId
  target := quote.target
  selector := quote.callData.take 10
  registry := obs
  approvedSelectors := policy.approvedSelectors.map ApprovedSelector.selector
  selectorAbi := selectorAbi

variable {P : Platform} {config : RialtoQuoteConfig} {request : RialtoQuoteRequest}
  {quote : RialtoQuoteResult} {Params : Type}

theorem isHex_lt {u : CodeUnit} (h : JsonSyntax.isHex u = true) : u.val < 128 := by
  rw [JsonSyntax.isHex] at h
  by_cases hvalid : u.val.isValidChar
  · have hval : (Char.ofNat u.val).toNat = u.val := by
      rw [Char.ofNat,dif_pos hvalid]
      rfl
    simp only [HexText.isDigit,hval,Bool.or_eq_true,Bool.and_eq_true,decide_eq_true_eq] at h
    omega
  · rw [Char.ofNat,dif_neg hvalid] at h
    exact absurd h (by decide)

theorem isAddress_toLowerCase (h : isAddress t = true) : isAddress (toLowerCase t) = true := by
  have hsmall : ∀ n : Fin 128, JsonSyntax.isHex (Fin.ofNat 65536 n.val) = true →
      JsonSyntax.isHex (if 65 ≤ n.val ∧ n.val ≤ 90 then Fin.ofNat 65536 (n.val+32)
        else Fin.ofNat 65536 n.val) = true := by
    decide +kernel
  have hhex : ∀ u : CodeUnit, JsonSyntax.isHex u = true → JsonSyntax.isHex
      (if 65 ≤ u.val ∧ u.val ≤ 90 then Fin.ofNat 65536 (u.val+32) else u) = true := by
    intro u hu
    have hunit := hsmall ⟨u.val,isHex_lt hu⟩
    rw [Utf16.ofNat_eq rfl] at hunit
    exact hunit hu
  simp only [isAddress,Bool.and_eq_true,decide_eq_true_eq,List.all_eq_true] at h ⊢
  obtain ⟨⟨hzero,hlength⟩,hall⟩ := h
  refine ⟨⟨?_,?_⟩,?_⟩
  · rw [toLowerCase,← List.map_take,hzero]
    decide +kernel
  · rw [toLowerCase,← List.map_drop,List.length_map,hlength]
  · rw [toLowerCase,← List.map_drop]
    intro u hu
    obtain ⟨v,hv,rfl⟩ := List.mem_map.1 hu
    exact hhex v (hall v hv)

theorem validateQuote_payload {weth taker buyToken : JsString} {expectedSellRaw : ℤ} {body : Value}
    (h : validateQuote P config request weth taker buyToken expectedSellRaw body = .ok quote) :
    ∃ tx, prop (lit "tx") body = some tx ∧ targetOf tx = some quote.target ∧
      callDataOf (config.maxCallDataBytes.getD (.ofRat 8192)) (prop (lit "data") tx) =
        some quote.callData := by
  simp only [validateQuote,QuoteClient.reject,QuoteClient.orReject,bind_eq_ok,revertIf_eq_ok,
    orRevert_eq_ok,exists_const,pure_eq_ok] at h
  obtain ⟨-,-,-,-,-,-,-,-,-,tx,htx,-,target,htarget,callData,hcallData,-,minBuy,-,-,issues,-,
    digest,-,rfl⟩ := h
  exact ⟨tx,objectOf_eq_some htx,htarget,hcallData⟩

/-- The shape of a quote that is fetched. -/
theorem fetched_shape (h : fetchRialtoAllowanceQuote P config request = .ok quote) :
    isAddress quote.target = true ∧ isHexData quote.callData = true ∧
      10 ≤ quote.callData.length := by
  obtain ⟨n,text,tree,weth,taker,buyToken,-,-,-,hvalid⟩ := fetchRialtoAllowanceQuote_ok h
  obtain ⟨tx,-,htarget,hcallData⟩ := validateQuote_payload hvalid
  constructor
  · rw [targetOf,Option.bind_eq_some_iff] at htarget
    obtain ⟨a,ha,hnonzero⟩ := htarget
    split at hnonzero
    · cases hnonzero
    · obtain rfl := Option.some.inj hnonzero
      unfold normAddress at ha
      split at ha
      · split at ha
        · exact Option.some.inj ha ▸ isAddress_toLowerCase (by assumption)
        · cases ha
      · cases ha
  · unfold callDataOf at hcallData
    split at hcallData
    · split at hcallData
      · rename_i hdata
        obtain rfl := Option.some.inj hcallData
        simp only [isCallData,Bool.and_eq_true,decide_eq_true_eq] at hdata
        exact ⟨hdata.1.1.1,hdata.1.1.2⟩
      · cases hcallData
    · cases hcallData

theorem isSelector_take (hhex : isHexData t = true) (hlong : 10 ≤ t.length) :
    isSelector (t.take 10) = true := by
  simp only [isHexData,Bool.and_eq_true,decide_eq_true_eq,List.all_eq_true] at hhex
  simp only [isSelector,isHexOf,Bool.and_eq_true,decide_eq_true_eq,List.all_eq_true]
  refine ⟨⟨?_,?_⟩,?_⟩
  · rw [List.take_take,min_eq_left (by omega)]
    exact hhex.1
  · rw [List.length_drop,List.length_take]
    omega
  · intro u hu
    rw [List.drop_take] at hu
    exact hhex.2 u (List.mem_of_mem_take hu)

/-- The offline replay of a fetched quote is approved exactly where the validation gets past the
router and the selector for a router that was observed, if no selector is forbidden.  So whatever
is validated against an observed router is approved. -/
theorem replay_agrees (hquote : fetchRialtoAllowanceQuote P config request = .ok quote)
    (ctx : QuoteExecutionContext) (policy : QuoteExecutionPolicy Params)
    (obs names : Option Value) :
    ((deriveStructuralReplay (replayOf quote ctx.chainId policy obs
        names)).productionStructuralApproved = true ↔
      ∃ r approved, Observed obs r ∧
        approvedEntry quote { ctx with resolvedRouter := some r }
          { policy with forbiddenSelectors := some [] } = .ok approved) ∧
    ∀ (Other : Type) (abi : AbiCodec Params Other) (r : JsString)
      (v : QuoteExecutionValidation Other), Observed obs r →
      validateQuoteExecution abi quote { ctx with resolvedRouter := some r } policy = .ok v →
      (deriveStructuralReplay (replayOf quote ctx.chainId policy obs
        names)).productionStructuralApproved = true := by
  obtain ⟨haddress,hhex,hlong⟩ := fetched_shape hquote
  have hiff : (deriveStructuralReplay (replayOf quote ctx.chainId policy obs
      names)).productionStructuralApproved = true ↔
      Number.strictEq ctx.chainId (.ofRat 4663) = true ∧
        (∃ r, Observed obs r ∧ lower quote.target = lower r) ∧
        ∃ a ∈ policy.approvedSelectors, lower a.selector = lower (quote.callData.take 10) := by
    rw [approved_iff]
    simp only [replayOf,isSelector_take hhex hlong,haddress,true_and,List.mem_map,
      exists_exists_and_eq_and]
  have hentry : (∃ a ∈ policy.approvedSelectors,
      lower a.selector = lower (quote.callData.take 10)) ↔
        ∃ approved, policy.entry (lower (quote.callData.take 10)) = some approved := by
    rw [QuoteExecutionPolicy.entry,← Option.isSome_iff_exists,List.find?_isSome]
    simp only [decide_eq_true_eq]
  constructor
  · rw [hiff,hentry]
    simp only [approvedEntry_eq_ok]
    constructor
    · rintro ⟨hchain,⟨r,hobserved,htarget⟩,approved,happroved⟩
      have hne : r ≠ [] := by
        rintro rfl
        exact absurd hobserved.wellFormed (by decide)
      exact ⟨r,approved,hobserved,hchain,⟨r,rfl,hne,htarget⟩,hlong,List.not_mem_nil,happroved⟩
    · rintro ⟨r,approved,hobserved,hchain,⟨r',hr',-,htarget⟩,-,-,happroved⟩
      obtain rfl := Option.some.inj hr'
      exact ⟨hchain,⟨r,hobserved,htarget⟩,approved,happroved⟩
  · intro Other abi r v hobserved hvalid
    obtain ⟨approved,haccepts⟩ := validateQuoteExecution_accepts hvalid
    obtain ⟨r',hr',-,htarget⟩ := haccepts.routed
    obtain rfl := Option.some.inj hr'
    exact hiff.2 ⟨haccepts.chain,⟨r,hobserved,htarget⟩,
      hentry.2 ⟨approved,haccepts.entry⟩⟩

end Agreement

/-! The observation of a registry whose router is the target of the sample quote. -/

theorem fetched_sample {minBuy : JsonSyntax.Scalar} {quote : RialtoQuoteResult}
    (h : fetchRialtoAllowanceQuote (samplePlatform minBuy) sampleConfig sampleRequest =
      .ok quote) :
    quote.target = lit "0x71a120cbbf3ce7cd910a3c50ff77afc62735687e" ∧
      quote.callData = lit "0x12345678abcdef" := by
  obtain ⟨n,text,tree,weth,taker,buyToken,-,htext,hwrites,hvalid⟩ := fetchRialtoAllowanceQuote_ok h
  obtain rfl := Option.some.inj (sample_responseText.symm.trans htext)
  obtain rfl := Option.some.inj
    ((parse_eq_some_iff.2 (JsonSyntax.writes_compact _)).symm.trans (parse_eq_some_iff.2 hwrites))
  obtain ⟨tx,htx,htarget,hcallData⟩ := validateQuote_payload hvalid
  rw [sample_prop (t := some sampleTx) rfl] at htx
  obtain rfl := Option.some.inj htx
  rw [targetOf,sampleTx_prop
    (t := some (stringAt "0x71a120cbbf3ce7cd910a3c50ff77afc62735687e")) rfl] at htarget
  rw [sampleTx_prop (t := some (stringAt "0x12345678abcdef")) rfl] at hcallData
  constructor
  · have hdecided : (normAddress (Option.map evaluate
        (some (stringAt "0x71a120cbbf3ce7cd910a3c50ff77afc62735687e")))).bind
          (fun target => if target = zeroAddress then none else some target) =
            some (lit "0x71a120cbbf3ce7cd910a3c50ff77afc62735687e") := by
      decide
    exact Option.some.inj (htarget.symm.trans hdecided)
  · exact Option.some.inj (hcallData.symm.trans sample_callData)

def sampleRouter : JsString := lit "0x71a120CbBf3Ce7cD910a3c50fF77aFc62735687E"

def sampleText (s : String) : Value := .leaf (.str (lit s))

def sampleObservation : Value :=
  .obj [(lit "registry",sampleText "0x1111111111111111111111111111111111111111"),
    (lit "feature",.leaf (.num (.ofRat 2))),(lit "currentRouter",.leaf (.str sampleRouter)),
    (lit "previousRouter",sampleText "0x0000000000000000000000000000000000000000"),
    (lit "nextRouter",sampleText "0x0000000000000000000000000000000000000000"),
    (lit "paused",.leaf (.bool false))]

theorem sample_observed : Observed (some sampleObservation) sampleRouter where
  complete := by decide +kernel
  registry := ⟨_,rfl⟩
  previous := ⟨_,rfl⟩
  next := ⟨_,rfl⟩
  current := rfl
  wellFormed := by decide +kernel
  nonzero := by decide +kernel
  unpaused := rfl

/-- The sample quote is replayed against the registry. -/
theorem sample_replayed : ∃ quote, fetchRialtoAllowanceQuote
      (samplePlatform (.str (name "1"))) sampleConfig sampleRequest = .ok quote ∧
    (deriveStructuralReplay (replayOf quote (.ofRat 4663) samplePolicy (some sampleObservation)
      none)).productionStructuralApproved = true := by
  obtain ⟨quote,hquote,-⟩ := @sample_accepted (.str (name "1")) 1 (by decide) (by decide)
    (by decide +kernel)
  obtain ⟨htarget,hcallData⟩ := fetched_sample hquote
  refine ⟨quote,hquote,(replay_agrees hquote sampleContext samplePolicy (some sampleObservation)
    none).1.2 ⟨sampleRouter,sampleApproved,sample_observed,?_⟩⟩
  rw [approvedEntry_eq_ok]
  refine ⟨is_chainId.strictEq,⟨_,rfl,by decide +kernel,?_⟩,?_,List.not_mem_nil,?_⟩
  · rw [htarget]
    decide +kernel
  · rw [hcallData]
    decide +kernel
  · rw [hcallData,QuoteExecutionPolicy.entry]
    exact List.find?_cons_of_pos (decide_eq_true (by decide +kernel))

end QuoteRegistry
end BpsProtocol
