import BpsProtocol.GuardedSettlementReady

/-! What the off-chain digest binds.
The preimage is a join of parts.  Of a ready intent every part after the version is free of
the separator or fixed by the policy and the price observation, so equal preimages have equal
parts.  Four fields are in no part. -/
namespace BpsProtocol
namespace GuardedSettlement

open HexText Shared MerkleProof Separated

section Parts

theorem bar_notMem_of_isHexOf {width : ℕ} {v : Text} (h : isHexOf width v = true) :
    '|' ∉ toLowerCase v := by
  unfold isHexOf at h
  split at h
  · rename_i digits
    simp only [Bool.and_eq_true,decide_eq_true_eq,List.all_eq_true] at h
    intro hmem
    obtain ⟨c,hc,hlower⟩ := List.mem_map.mp hmem
    simp only [List.mem_cons] at hc
    rcases hc with rfl | rfl | hc
    · exact absurd hlower (by decide)
    · exact absurd hlower (by decide)
    · exact isDigit_induction (p := fun c => c.toLower ≠ '|') (by decide) (h.2 c hc) hlower
  · cases h

end Parts

variable {platform : Platform} {input input' : GuardedSettlementInput}

/-- The parts of the preimage after the version, for an intent with a calldata hash. -/
def SettlementIntent.boundParts (i : SettlementIntent) (hash : Text) : List Text :=
  [toString10 i.chainId,toLowerCase i.registry,toString10 i.feature,toLowerCase i.taker,
    toString10 i.nonce,toString10 i.deadlineSec,toLowerCase i.expectedTarget,
    toLowerCase i.selector,toLowerCase i.sellToken,toLowerCase i.buyToken,
    toString10 i.sellAmountRaw,toString10 i.minBuyAmountRaw,toLowerCase hash]

theorem preimage_of_hash {i : SettlementIntent} {hash : Text} (h : i.calldataHash = some hash)
    (hhash : isHash32 hash = true) :
    i.preimage =
      join '|' (("BPS-GUARDED-SETTLEMENT".toList ++ '|' :: i.version)::i.boundParts hash) := by
  have hne : hash ≠ [] := by
    rintro rfl
    cases hhash
  rw [← join_cons_cons]
  simp only [SettlementIntent.preimage,SettlementIntent.digestParts,SettlementIntent.boundParts,h,
    if_neg hne]

/-- Two intents with every validated field in common, hexadecimal strings up to their case. -/
structure Agree (i i' : SettlementIntent) : Prop where
  version : i.version = i'.version
  chainId : i.chainId = i'.chainId
  registry : toLowerCase i.registry = toLowerCase i'.registry
  feature : i.feature = i'.feature
  sellToken : toLowerCase i.sellToken = toLowerCase i'.sellToken
  buyToken : toLowerCase i.buyToken = toLowerCase i'.buyToken
  sellAmountRaw : i.sellAmountRaw = i'.sellAmountRaw
  minBuyAmountRaw : i.minBuyAmountRaw = i'.minBuyAmountRaw
  expectedTarget : toLowerCase i.expectedTarget = toLowerCase i'.expectedTarget
  selector : toLowerCase i.selector = toLowerCase i'.selector
  calldataHash : i.calldataHash.map toLowerCase = i'.calldataHash.map toLowerCase
  txValue : i.txValue = i'.txValue
  platformFeeBps : i.platformFeeBps = i'.platformFeeBps
  integratorFeePresent : i.integratorFeePresent = i'.integratorFeePresent
  slippageBps : i.slippageBps = i'.slippageBps
  taker : toLowerCase i.taker = toLowerCase i'.taker
  nonce : i.nonce = i'.nonce
  intentDigest : toLowerCase i.intentDigest = toLowerCase i'.intentDigest
  createdAtSec : i.createdAtSec = i'.createdAtSec
  deadlineSec : i.deadlineSec = i'.deadlineSec

/-- The fields that evaluation reads and the digest leaves out. -/
def AgreeUnbound (i i' : SettlementIntent) : Prop :=
  i.platformFeeBps = i'.platformFeeBps ∧ i.integratorFeePresent = i'.integratorFeePresent ∧
    i.slippageBps = i'.slippageBps ∧ i.createdAtSec = i'.createdAtSec

theorem computeIntentDigest_inj {sha256 : Text → Bytes32} {i i' : SettlementIntent}
    (h : computeIntentDigest sha256 i = computeIntentDigest sha256 i')
    (hfree : Set.InjOn sha256 { t | t ∈ [i.preimage,i'.preimage] }) : i.preimage = i'.preimage := by
  apply hfree (by simp) (by simp)
  have hwrite := (List.cons.inj (List.cons.inj h).2).2
  have hlt (x : Bytes32) : x.val < 16^64 := x.isLt.trans_eq (by norm_num)
  apply Fin.ext
  rw [← value_write (hlt (sha256 i.preimage)),hwrite,value_write (hlt _)]

/-- Equal digests of two ready intents, under one policy and one set of observations. -/
theorem agree_of_digest (hpolicy : input'.policy = input.policy)
    (hprice : input'.priceObservation = input.priceObservation)
    (h : Cleared platform input) (h' : Cleared platform input')
    (hpreimage : input.intent.preimage = input'.intent.preimage)
    (hunbound : AgreeUnbound input.intent input'.intent) : Agree input.intent input'.intent := by
  obtain ⟨hchain,hregistry,hfeature⟩ := identityFailures_eq_nil.mp h.identity
  obtain ⟨hchain',hregistry',hfeature'⟩ := identityFailures_eq_nil.mp h'.identity
  obtain ⟨hash,hcalldata,hhash⟩ := calldataFailures_eq_nil.mp h.calldata
  obtain ⟨hash',hcalldata',hhash'⟩ := calldataFailures_eq_nil.mp h'.calldata
  obtain ⟨htaker,hpolicyTaker⟩ := takerFailures_eq_nil h.taker
  obtain ⟨htaker',hpolicyTaker'⟩ := takerFailures_eq_nil h'.taker
  obtain ⟨_,-,htarget,-⟩ := registryFailures_eq_nil h.registry
  obtain ⟨_,-,htarget',-⟩ := registryFailures_eq_nil h'.registry
  obtain ⟨price,_,hobserved,-,-,hpair⟩ := priceFailures_eq_nil.mp h.price
  obtain ⟨price',_,hobserved',-,-,hpair'⟩ := priceFailures_eq_nil.mp h'.price
  obtain ⟨hsell,hbuy,-⟩ := observedPriceFailures_eq_nil.mp hpair
  obtain ⟨hsell',hbuy',-⟩ := observedPriceFailures_eq_nil.mp hpair'
  rw [hprice,hobserved] at hobserved'
  cases hobserved'
  rw [hpolicy] at hchain' hregistry' hfeature' hpolicyTaker'
  have hvalue := failIf_eq_nil.mp h.value
  have hvalue' := failIf_eq_nil.mp h'.value
  have hdigest := failIf_eq_nil.mp h.digest
  have hdigest' := failIf_eq_nil.mp h'.digest
  simp only [ne_eq,not_not] at hvalue hvalue' hdigest hdigest'
  have hsame : computeIntentDigest platform.sha256 input.intent =
      computeIntentDigest platform.sha256 input'.intent := by
    simp only [computeIntentDigest,hpreimage]
  rw [preimage_of_hash hcalldata hhash,preimage_of_hash hcalldata' hhash'] at hpreimage
  have hselector := bar_notMem_of_isHexOf (selectorFailures_eq_nil h.selector)
  have hselector' := bar_notMem_of_isHexOf (selectorFailures_eq_nil h'.selector)
  obtain ⟨hversion,hparts⟩ := join_inj (by
    refine .cons (Or.inr ⟨bar_notMem_toString10 _,bar_notMem_toString10 _⟩) ?_
    refine .cons (Or.inl (hregistry.trans hregistry'.symm)) ?_
    refine .cons (Or.inr ⟨bar_notMem_toString10 _,bar_notMem_toString10 _⟩) ?_
    refine .cons (Or.inr ⟨bar_notMem_of_isHexOf htaker,bar_notMem_of_isHexOf htaker'⟩) ?_
    refine .cons (Or.inr ⟨bar_notMem_toString10 _,bar_notMem_toString10 _⟩) ?_
    refine .cons (Or.inr ⟨bar_notMem_toString10 _,bar_notMem_toString10 _⟩) ?_
    refine .cons (Or.inr ⟨bar_notMem_of_isHexOf htarget,bar_notMem_of_isHexOf htarget'⟩) ?_
    refine .cons (Or.inr ⟨hselector,hselector'⟩) ?_
    refine .cons (Or.inl (hsell.symm.trans hsell')) ?_
    refine .cons (Or.inl (hbuy.symm.trans hbuy')) ?_
    refine .cons (Or.inr ⟨bar_notMem_toString10 _,bar_notMem_toString10 _⟩) ?_
    refine .cons (Or.inr ⟨bar_notMem_toString10 _,bar_notMem_toString10 _⟩) ?_
    exact .cons (Or.inr ⟨bar_notMem_of_isHexOf hhash,bar_notMem_of_isHexOf hhash'⟩) .nil) hpreimage
  simp only [SettlementIntent.boundParts,List.cons.injEq,and_true] at hparts
  obtain ⟨-,-,-,htakers,hnonce,hdeadline,htargets,hselectors,-,-,hsells,hmins,hhashes⟩ := hparts
  obtain ⟨hfee,hintegrator,hslippage,hcreated⟩ := hunbound
  exact {
    version := (List.cons.inj (List.append_cancel_left hversion)).2
    chainId := hchain.trans hchain'.symm
    registry := hregistry.trans hregistry'.symm
    feature := hfeature.trans hfeature'.symm
    sellToken := hsell.symm.trans hsell'
    buyToken := hbuy.symm.trans hbuy'
    sellAmountRaw := toString10_injective hsells
    minBuyAmountRaw := toString10_injective hmins
    expectedTarget := htargets
    selector := hselectors
    calldataHash := by rw [hcalldata,hcalldata',Option.map_some,Option.map_some,hhashes]
    txValue := hvalue.trans hvalue'.symm
    platformFeeBps := hfee
    integratorFeePresent := hintegrator
    slippageBps := hslippage
    taker := htakers
    nonce := toString10_injective hnonce
    intentDigest := hdigest.symm.trans ((congrArg toLowerCase hsame).trans hdigest')
    createdAtSec := hcreated
    deadlineSec := toString10_injective hdeadline }

/-- Two ready intents with one digest, under one policy and the same observations, agree on
every validated field if and only if they agree on the four that the digest leaves out. -/
theorem digest_binds_iff (hpolicy : input'.policy = input.policy)
    (hprice : input'.priceObservation = input.priceObservation)
    (h : (evaluateGuardedSettlement platform input).status = .readyOfflineOnly)
    (h' : (evaluateGuardedSettlement platform input').status = .readyOfflineOnly)
    (hdigest : computeIntentDigest platform.sha256 input.intent =
      computeIntentDigest platform.sha256 input'.intent)
    (hfree : Set.InjOn platform.sha256
      { t | t ∈ [input.intent.preimage,input'.intent.preimage] }) :
    Agree input.intent input'.intent ↔ AgreeUnbound input.intent input'.intent := by
  constructor
  · intro hagree
    exact ⟨hagree.platformFeeBps,hagree.integratorFeePresent,hagree.slippageBps,
      hagree.createdAtSec⟩
  · exact agree_of_digest hpolicy hprice (ready_iff_cleared.mp h) (ready_iff_cleared.mp h')
      (computeIntentDigest_inj hdigest hfree)

/-- The sample intent with its calldata hash in upper case. -/
def upperCaseIntent : SettlementIntent :=
  { sampleIntent with calldataHash := some ('0' :: 'x' :: (write 64 0xab).map Char.toUpper) }

theorem upperCaseIntent_agrees :
    Agree (sampleInput sampleIntent).intent (sampleInput upperCaseIntent).intent := by
  have hready : (evaluateGuardedSettlement samplePlatform (sampleInput upperCaseIntent)).status =
      .readyOfflineOnly := by decide +kernel
  have hsame : (sampleInput sampleIntent).intent.preimage =
      (sampleInput upperCaseIntent).intent.preimage := by decide +kernel
  have hiff : Agree (sampleInput sampleIntent).intent (sampleInput upperCaseIntent).intent ↔
      AgreeUnbound (sampleInput sampleIntent).intent (sampleInput upperCaseIntent).intent := by
    refine @digest_binds_iff samplePlatform (sampleInput sampleIntent)
      (sampleInput upperCaseIntent) rfl rfl sampleInput_ready hready ?_ ?_
    · rw [computeIntentDigest,computeIntentDigest,hsame]
    · intro a ha b hb _
      rw [hsame] at ha hb
      simp only [Set.mem_ofPred_eq,List.mem_cons,List.not_mem_nil,or_false,or_self] at ha hb
      exact ha.trans hb.symm
  exact hiff.mpr ⟨rfl,rfl,rfl,rfl⟩

/-- One digest for two ready intents, of which one pays the platform five basis points, allows
fifty of slippage and is older. -/
theorem freeIntent_unbound :
    let paying := sampleInput sampleIntent
    let free := sampleInput
      { sampleIntent with platformFeeBps := 0, slippageBps := 0, createdAtSec := 1100 }
    (evaluateGuardedSettlement samplePlatform paying).status = .readyOfflineOnly ∧
    (evaluateGuardedSettlement samplePlatform free).status = .readyOfflineOnly ∧
    free.policy = paying.policy ∧ free.registryObservation = paying.registryObservation ∧
    free.priceObservation = paying.priceObservation ∧
    computeIntentDigest samplePlatform.sha256 paying.intent =
      computeIntentDigest samplePlatform.sha256 free.intent ∧
    ¬Agree paying.intent free.intent :=
  ⟨sampleInput_ready,by decide +kernel,rfl,rfl,rfl,by decide +kernel,
    fun h => absurd h.platformFeeBps (by decide)⟩

end GuardedSettlement
end BpsProtocol
