import BpsProtocol.CanaryOperatorTrust
import BpsProtocol.CanaryRecovery
import BpsProtocol.Lib.FloorCap

/-! The exposure cap of a bound operator.
The gate values one packet-level total, while the verifier bounds each step by itself.  The
binders tie the total to its parts by a sum, but no binder ties it to the steps, so the cap
covers what the steps may cost exactly when the packet declares that much gas. -/
namespace BpsProtocol
namespace Canary

open Checked Async FloorCap

/-! ## The gate -/

def weiPerEth : ℕ := 10^18

/-- 130 USD -/
def capMicroUsd : ℕ := 130*1000000

/-- The answer of `_exposureGate` on the prices that the provider returned. -/
def Runtime.gateAnswer (R : Runtime) (pr : Option Price) : Except String Exposure :=
  (higherPrice pr).map R.exposureAt

/-- The price provider returns `pr`. -/
def PriceIs (pr : Option Price) : (q : Query) → Except Failure (Answer q) → Prop
  | .price, r => r = .ok pr
  | _, _ => True

theorem Runtime.exposureGate_answers (R : Runtime) (hR : R.hasPriceProvider = true)
    (pr : Option Price) :
    Yields (I := Rpc) (PriceIs pr) (fun r => r = .ok (R.gateAnswer pr)) R.exposureGate := by
  unfold exposureGate
  rw [if_pos hR]
  intro r hr
  cases hr
  rfl

/-- At every price at which the gate answers ok, the amount costs at most the cap. -/
def Runtime.Caps (R : Runtime) (wei : ℕ) : Prop :=
  ∀ pr e, R.gateAnswer pr = .ok e → e.ok = true → value weiPerEth wei e.higher ≤ capMicroUsd

def Runtime.exposureWei (R : Runtime) : ℕ := R.exposurePrincipalWei + R.exposureGasWei

theorem Runtime.exposureAt_ok {R : Runtime} {price : ℤ} (hcap : R.capMicro = capMicroUsd) :
    (R.exposureAt price).ok = true ↔ value weiPerEth R.exposureWei price ≤ capMicroUsd := by
  unfold exposureAt value exposureWei weiPerEth
  rw [hcap]
  push_cast
  exact decide_eq_true_iff

/-- Both exchanges report `price` now. -/
def Price.both (price : ℤ) : Price := ⟨some price,some price,some 0,some 0⟩

theorem higherPrice_both (price : ℤ) : Runtime.higherPrice (some (Price.both price)) = .ok price := by
  simp [Runtime.higherPrice,Price.both]

theorem Runtime.gateAnswer_eq_ok {R : Runtime} {pr : Option Price} {e : Exposure}
    (h : R.gateAnswer pr = .ok e) : e = R.exposureAt e.higher := by
  unfold gateAnswer at h
  cases hp : higherPrice pr with
  | error reason => rw [hp] at h; cases h
  | ok price => rw [hp] at h; cases h; rfl

theorem Runtime.gateAnswer_both (R : Runtime) (price : ℤ) :
    R.gateAnswer (some (Price.both price)) = .ok (R.exposureAt price) := by
  unfold gateAnswer
  rw [higherPrice_both]
  rfl

/-- The first raw value above the cap. -/
def capBound : ℕ := bound weiPerEth capMicroUsd

theorem capBound_pos : 0 < capBound := by decide

/-- The gate caps an amount when its excess over the declared exposure is slack. -/
theorem Runtime.caps_iff {R : Runtime} {wei : ℕ} (hcap : R.capMicro = capMicroUsd) :
    R.Caps wei ↔ Slack capBound R.exposureWei wei := by
  have hunit : 0 < weiPerEth := by decide
  rw [← admits_iff_slack capBound_pos]
  constructor
  · intro h price hprice
    have hok : (R.exposureAt price).ok = true :=
      (exposureAt_ok hcap).mpr ((value_le_iff hunit).mpr hprice)
    exact (value_le_iff hunit).mp (h _ _ (R.gateAnswer_both price) hok)
  · intro h pr e he hok
    rw [gateAnswer_eq_ok he] at hok
    have hprice := (value_le_iff hunit).mp ((exposureAt_ok hcap).mp hok)
    exact (value_le_iff hunit).mpr (h e.higher hprice)

/-! ## What the verifier accepts -/

/-- The largest gas cost that the verifier accepts for a step. -/
def Step.maxCost (t : Step) : ℕ :=
  match t.gasCeilings with
  | none => t.maxGasCostWei
  | some g => g.maxGasCostCeilingWei

theorem Step.GasMatches.cost_le {t : Step} {otx : ChainTx} {mf : ℕ} (h : t.GasMatches otx)
    (hmf : otx.maxFeePerGas = some mf) : otx.gas*mf ≤ t.maxCost := by
  cases h with
  | intro mf' h =>
    obtain ⟨mp,hmf',-,hgas⟩ := h
    cases hmf.symm.trans hmf'
    unfold maxCost
    cases hg : t.gasCeilings with
    | none =>
      rw [hg] at hgas
      rw [hgas.1,hgas.2.1]
      exact Nat.le_refl _
    | some g =>
      rw [hg] at hgas
      exact hgas.2.2.2.2

/-- A transaction that the shared verifier passes costs at most the step's bound. -/
theorem verified_cost_le (R : Runtime) (chain : Chain) (t : Step) (txHash : Text) :
    Finds chain (fun r => ∀ otx rc mf, r = .ok (.ok (otx,rc)) → otx.maxFeePerGas = some mf →
      otx.gas*mf ≤ t.maxCost) (R.verifyTxAndReceipt (some t) txHash) := by
  refine (Finds.verifyTxAndReceipt (some t) txHash).mono fun r h otx rc mf hr hmf => ?_
  obtain ⟨x,hx,-,-,hmatch,-⟩ := h otx rc hr
  cases hx
  exact hmatch.gas.cost_le hmf

/-- The largest gas cost that the verifier accepts for all bound steps. -/
def Runtime.maxGasWei (R : Runtime) : ℕ := (R.steps.map Step.maxCost).sum

/-! ## Accepted packets -/

/-- A binder that answers has passed all its checks. -/
theorem checks_eq_ok {checks : List (String × Bool)} {r R : Runtime}
    (h : (if checks.all Prod.snd then Except.ok r else .error (Runtime.failedGates checks)) =
      .ok R) : (∀ name ok, (name,ok) ∈ checks → ok = true) ∧ R = r := by
  split at h
  · rename_i hall
    cases h
    exact ⟨fun name ok hmem => List.all_eq_true.mp hall (name,ok) hmem,rfl⟩
  · cases h

/-! ## Execution packets -/

/-- What the immediate transactions may cost. -/
def Packet.maxGasWei (a : Packet) : ℕ :=
  (a.immediateTransactions.map fun t => t.gasLimit*t.maxFeePerGas).sum

/-- The packet declares the gas of its steps, but for slack below the floor of the gate. -/
def Packet.DeclaresGas (a : Packet) : Prop :=
  Slack capBound (a.totalPrincipalWei + a.allInclusiveGasWei) (a.totalPrincipalWei + a.maxGasWei)

theorem RawTx.map_canonical_cost (ts : List RawTx) :
    (ts.mapIdx fun i t => t.canonical i).map (fun t => t.gasLimit*t.maxFeePerGas) =
      ts.map fun t => t.gasLimit*t.maxFeePerGas := by
  apply List.ext_getElem
  · simp
  · intro i h h'
    simp [RawTx.canonical]

/-- A deployment attached to a step does not change its cost. -/
theorem Canonical.map_steps_maxCost (c : Canonical) :
    c.steps.map Step.maxCost = c.immediate.map fun t => t.gasLimit*t.maxFeePerGas := by
  unfold steps
  rw [List.map_map]
  apply List.map_congr_left
  intro t _
  show Step.maxCost (if _ then _ else _) = _
  split <;> rfl

section
variable {env : Env Canonical} {x : Inputs} {R : Runtime}

theorem bound_check (h : bindAndVerifyPacket env x = .ok R) (name : String) {ok : Bool}
    (hmem : (name,ok) ∈ bindChecks env x) : ok = true := (checks_eq_ok h).1 name ok hmem

theorem bound_runtime (h : bindAndVerifyPacket env x = .ok R) : R = x.packaged.runtime env :=
  (checks_eq_ok h).2

theorem bound_packaged (h : bindAndVerifyPacket env x = .ok R) :
    x.packaged = canonicalObject x.packet x.policy x.snapshot := by
  have hc : decide (canonicalObject x.packet x.policy x.snapshot = x.packaged) = true :=
    bound_check h "reconMatchesPackaged" (by simp [bindChecks])
  exact (of_decide_eq_true hc).symm

theorem bound_cap (h : bindAndVerifyPacket env x = .ok R) : R.capMicro = capMicroUsd := by
  have hc : decide ((canonicalObject x.packet x.policy x.snapshot).maxAllInclusiveExposureUsd =
      130) = true := bound_check h "capIs130" (by simp [bindChecks])
  rw [bound_runtime h]
  unfold Canonical.runtime capMicroUsd
  rw [bound_packaged h,of_decide_eq_true hc]

theorem bound_exposureWei (h : bindAndVerifyPacket env x = .ok R) :
    R.exposureWei = x.packet.totalPrincipalWei + x.packet.allInclusiveGasWei := by
  rw [bound_runtime h,bound_packaged h]
  rfl

theorem bound_maxGasWei (h : bindAndVerifyPacket env x = .ok R) :
    R.maxGasWei = x.packet.maxGasWei := by
  rw [bound_runtime h,bound_packaged h]
  exact congrArg List.sum
    ((Canonical.map_steps_maxCost _).trans (RawTx.map_canonical_cost _))

/-- The cap of an accepted execution packet. -/
theorem execution_caps_iff (h : bindAndVerifyPacket env x = .ok R) :
    R.Caps (x.packet.totalPrincipalWei + R.maxGasWei) ↔ x.packet.DeclaresGas := by
  rw [Runtime.caps_iff (bound_cap h),bound_exposureWei h,bound_maxGasWei h]
  rfl

end

/-! ## Recovery packets -/

namespace Recovery

/-- What the remaining transactions may cost. -/
def Packet.maxGasWei (a : Packet) : ℕ :=
  (a.immediateTransactions.map fun t => t.gasCeilings.maxGasCostCeilingWei).sum

/-- The principal and the gas of the completed steps. -/
def Packet.committedWei (a : Packet) : ℕ := a.remainingPrincipalWei + realizedSum a.completedSteps

/-- The packet declares the gas of its steps, but for slack below the floor of the gate. -/
def Packet.DeclaresGas (a : Packet) : Prop :=
  Slack capBound (a.committedWei + a.remainingMaxGasWei) (a.committedWei + a.maxGasWei)

section
variable {env : Env Canonical} {x : Inputs} {R : Runtime}

theorem bound_check (h : bindAndVerifyPacket env x = .ok R) (name : String) {ok : Bool}
    (hmem : (name,ok) ∈ bindChecks env x) : ok = true := (checks_eq_ok h).1 name ok hmem

theorem bound_runtime (h : bindAndVerifyPacket env x = .ok R) :
    R = x.recoveryAuthorization.runtime env
      x.recoveryPacket.header.recoveryAuthorizationDigest := (checks_eq_ok h).2

theorem bound_errors (h : bindAndVerifyPacket env x = .ok R) :
    buildErrors env.dateParse x.recoveryPacket x.recoveryPolicy x.recoverySnapshot = [] :=
  List.isEmpty_iff.mp (bound_check h "canonicalReconstructs" List.mem_cons_self)

theorem bound_packaged (h : bindAndVerifyPacket env x = .ok R) :
    x.recoveryAuthorization =
      canonicalObject x.recoveryPacket x.recoveryPolicy x.recoverySnapshot := by
  have hc : decide (canonicalObject x.recoveryPacket x.recoveryPolicy x.recoverySnapshot =
      x.recoveryAuthorization) = true :=
    bound_check h "reconMatchesPackaged" (by simp [bindChecks])
  exact (of_decide_eq_true hc).symm

theorem bound_cap (h : bindAndVerifyPacket env x = .ok R) : R.capMicro = capMicroUsd := by
  have hc : decide (x.recoveryAuthorization.maxAllInclusiveExposureUsd = 130) = true :=
    bound_check h "capIs130" (by simp [bindChecks])
  rw [bound_runtime h]
  unfold Canonical.runtime capMicroUsd
  rw [of_decide_eq_true hc]

/-- The realized gas of an accepted packet is that of its anchors. -/
theorem bound_realized (h : bindAndVerifyPacket env x = .ok R) :
    x.recoveryPacket.realizedGasWei = realizedSum x.recoveryPacket.completedSteps := by
  have herr := bound_errors h
  unfold buildErrors completedErrors at herr
  simp only [List.append_eq_nil_iff] at herr
  have hsum : errIf (realizedSum x.recoveryPacket.completedSteps ≠
      x.recoveryPacket.realizedGasWei)
      "realized gas identity: sum(anchors) != realizedGasWei" = [] := by
    simp only [herr]
  exact (not_not.mp (errIf_eq_nil.mp hsum)).symm

theorem bound_exposureWei (h : bindAndVerifyPacket env x = .ok R) :
    R.exposureWei = x.recoveryPacket.committedWei + x.recoveryPacket.remainingMaxGasWei := by
  rw [bound_runtime h,bound_packaged h]
  unfold Packet.committedWei
  rw [← bound_realized h]
  exact Nat.add_right_comm _ _ _ ▸ (Nat.add_assoc _ _ _).symm

theorem bound_maxGasWei (h : bindAndVerifyPacket env x = .ok R) :
    R.maxGasWei = x.recoveryPacket.maxGasWei := by
  rw [bound_runtime h,bound_packaged h]
  unfold Runtime.maxGasWei Packet.maxGasWei Canonical.runtime canonicalObject
  rw [List.map_map,List.map_map]
  rfl

/-- The cap of an accepted recovery packet. -/
theorem recovery_caps_iff (h : bindAndVerifyPacket env x = .ok R) :
    R.Caps (x.recoveryPacket.committedWei + R.maxGasWei) ↔ x.recoveryPacket.DeclaresGas := by
  rw [Runtime.caps_iff (bound_cap h),bound_exposureWei h,bound_maxGasWei h]
  rfl

end

end Recovery

/-! ## A sample packet of each kind -/

def sampleEnv (Obj : Type) : Env Obj :=
  { keccak256 := fun bs => Fin.ofNat (2^256) bs.length
    digestOf := fun _ => ['d']
    dateParse := fun _ => some 1784990000000
    signableHash := fun _ => 0
    receiptPolls := 3
    hasPriceProvider := true }

/-- The eleven labels after the deployments. -/
def sampleLabels : List Text :=
  [text "factory.createPool",text "pool.initialize",text "approve(npm,token)",
    text "approve(npm,weth)",text "NPM.mint",text "approve(router,weth)",
    text "buyExactWethForBps",text "approve(router,token)",text "sellExactBpsForWeth",
    text "approve(vault,token)",text "createLock(amount,7d)"]

def sampleWallets : Wallets := ⟨7,8⟩

def sampleTx (i : ℕ) : RawTx :=
  { chainId := 4663
    signer := if i < 13 then 7 else 8
    nonce := if i < 13 then i+3 else i-11
    target := if i < 8 then none else some 9
    value := 0
    dataOrInitCode := [UInt8.ofNat i]
    gasLimit := 2000000
    maxFeePerGas := 1000000000
    maxPriorityFeePerGas := 10000000
    index := some i
    phase := if i < 8 then .aDeploy else .other (text "B")
    label := if i < 8 then text "deploy" else sampleLabels.getD (i-8) []
    predictedCreationAddress := if i < 8 then some (Fin.ofNat (2^160) (100+i)) else none }

def sampleBlock : BlockRef := ⟨1000,5,1784968400,20000000⟩

def sampleFlags : Flags := ⟨true,true,true,true⟩

def sampleInfrastructure : Infrastructure := ⟨30,20,21,24,25,22⟩

def sampleGas : GasPolicy := ⟨1000000000,10000000,[]⟩

def sampleCaps : Caps := ⟨130,[]⟩

def sampleLpUsage : LpUsage := ⟨30,31,2^96,0,-200,200,1,1,1,1,1,7⟩

def sampleBuy : BuyExpectation := ⟨1,8,8,40,41,1,1,1,1,1,1,1⟩

def sampleSell : SellExpectation := ⟨2,8,8,40,41,1,1,1,1,1,1,1,1⟩

def sampleLock : LockExpectation := ⟨8,0,1,604800,10000,1⟩

/-- Nineteen steps of at most 0.002 ether each, and 0.01 ether of principal. -/
def samplePacket (allInclusiveGasWei : ℕ) : Packet :=
  { header :=
      { chainId := 4663
        canary := true
        production := false
        scope := SCOPE
        maxAllInclusiveExposureUsd := 130
        executable := true
        generatedAtUtc := ['g']
        expiresAtUtc := ['e']
        validityWindowSeconds := 21600
        wallets := sampleWallets
        startNonces := ⟨3,2⟩
        fork := sampleBlock
        executionPacketDigest := ['x']
        reviewedAuthorizationDigest := ['d']
        maxFeePerGasWei := 1000000000
        maxPriorityFeePerGasWei := 10000000
        pinnedBaseFeePerGasWei := 20000000 }
    safetyFlags := sampleFlags
    inboundDeployerWeth := 5*10^15
    inboundTesterWeth := 5*10^15
    allInclusiveGasWei := allInclusiveGasWei
    aggregateWei := 10^16+allInclusiveGasWei
    infrastructure := [30,20,21,24,25,23]
    poolAddress := 23
    canaryTokenSymbol := text "BPSC-TEST"
    immediateTransactions := (List.range 19).map sampleTx
    delayedWithdrawalSubPacket := { sampleTx 18 with nonce := 8 }
    deployedRuntimeCodeHashes := fun _ => some 1
    artifactRuntimeKeccak := fun _ => some 2
    dirtyTrackedTree := false
    lpUsage := sampleLpUsage
    buyAccounting := sampleBuy
    sellAccounting := sampleSell
    lockAndWithdraw := sampleLock
    reviewedGas := sampleGas
    reviewedCaps := sampleCaps }

def samplePolicy : Policy :=
  { chainId := 4663
    canary := true
    production := false
    authorizationScope := SCOPE
    executable := true
    maxAllInclusiveExposureUsd := 130
    caps := sampleCaps
    wallets := sampleWallets
    infrastructure := sampleInfrastructure
    economics := ⟨10000,200⟩
    gas := sampleGas
    windowSeconds := 21600
    expectedNonces := ⟨3,2⟩
    snapshot := sampleBlock
    safetyFlags := sampleFlags
    reviewedAuthorizationDigest := ['d'] }

def sampleDependency (address : Address) : Dependency := ⟨address,3,100⟩

def sampleSnapshot : Snapshot :=
  { pinnedBlock := sampleBlock
    nonces := ⟨3,2⟩
    allPredictedAddressesEmpty := true
    weth := sampleDependency 30
    uniswapV3Factory := sampleDependency 20
    nonfungiblePositionManager := sampleDependency 21
    swapRouter02 := sampleDependency 24
    rialtoRegistry := sampleDependency 25
    nvdaStockToken := sampleDependency 22 }

def sampleInputs (allInclusiveGasWei : ℕ) : Inputs :=
  { packet := samplePacket allInclusiveGasWei
    policy := samplePolicy
    snapshot := sampleSnapshot
    packaged := canonicalObject (samplePacket allInclusiveGasWei) samplePolicy sampleSnapshot
    noDuplicateKeys := true
    signablesDigest := fun _ => ['x'] }

theorem sample_authorized (gas : ℕ) :
    authorizationErrors (samplePacket gas) samplePolicy = [] := by
  simp [authorizationErrors,samplePacket,samplePolicy,sampleFlags,sampleCaps,Flags.all]

theorem sample_scope (gas : ℕ) :
    (decide ((sampleInputs gas).packet.header.scope = SCOPE) &&
      decide ((sampleInputs gas).policy.authorizationScope = SCOPE)) = true := by
  simp [sampleInputs,samplePacket,samplePolicy]

/-- The sample with no gas declared passes every check. -/
theorem understated_accepted :
    bindAndVerifyPacket (sampleEnv Canonical) (sampleInputs 0) =
      .ok ((sampleInputs 0).packaged.runtime (sampleEnv Canonical)) := by
  apply if_pos
  unfold bindChecks buildErrors
  dsimp only
  rw [show authorizationErrors (sampleInputs 0).packet (sampleInputs 0).policy = [] from
    sample_authorized 0,sample_scope]
  decide +kernel

/-- So does the sample that declares the gas of its nineteen steps. -/
theorem declared_accepted :
    bindAndVerifyPacket (sampleEnv Canonical) (sampleInputs (38*10^15)) =
      .ok ((sampleInputs (38*10^15)).packaged.runtime (sampleEnv Canonical)) := by
  apply if_pos
  unfold bindChecks buildErrors
  dsimp only
  rw [show authorizationErrors (sampleInputs (38*10^15)).packet
    (sampleInputs (38*10^15)).policy = [] from sample_authorized _,sample_scope]
  decide +kernel

namespace Recovery

def sampleDeadline : ℕ := 1784990000

/-- The remaining step at place `i`; the two trades carry the refreshed deadline. -/
def sampleRemaining (i : ℕ) : RawTx :=
  { originalIndex := i+14
    remainingIndex := i
    phase := .other (text "B")
    label := sampleLabels.getD (i+5) []
    chainId := 4663
    signer := 8
    nonce := i+2
    target := some 9
    value := 0
    dataOrInitCode := [1,2,3,4] ++ Bytes.bigEndian 32 sampleDeadline
    gasLimit := 2000000
    maxFeePerGas := 1000000000
    maxPriorityFeePerGas := 10000000
    gasCeilings := ⟨4000000,1000000000,50000000,2*10^15,25*10^14⟩ }

def sampleAnchor (i : ℕ) : Anchor :=
  { originalIndex := i+1
    label := text "deploy"
    txHash := 6
    signer := 7
    nonce := i+3
    createdAddress := none
    inputKeccak := 7
    actualGasCostWei := 10^14
    deployedRuntimeCodeHash := none }

def sampleRefresh (originalIndex : ℕ) : RefreshStep := ⟨originalIndex,text "trade",4,8,36⟩

/-- Six steps of at most 0.0025 ether each, after thirteen of 0.0001 ether. -/
def samplePacket (remainingMaxGasWei : ℕ) : Packet :=
  { header :=
      { chainId := 4663
        canary := true
        production := false
        scope := RECOVERY_SCOPE
        maxAllInclusiveExposureUsd := 130
        executable := true
        expiresAtUtc := ['e']
        wallets := sampleWallets
        fork := sampleBlock
        originalStepCount := 19
        priors := boundPriors
        gasPolicy := ⟨50000000,true,true⟩
        deadlineRefresh :=
          ⟨OLD_DEADLINE,sampleDeadline,true,[sampleRefresh 15,sampleRefresh 17]⟩
        remainingExecutionDigest := 9
        recoveryAuthorizationDigest := ['d'] }
    safetyFlags := sampleFlags
    completedSteps := (List.range 13).map sampleAnchor
    remainingCount := 6
    allSignersTester := true
    immediateTransactions := (List.range 6).map sampleRemaining
    realizedGasWei := 13*10^14
    remainingPrincipalWei := 10^16
    remainingMaxGasWei := remainingMaxGasWei
    aggregateWei := 13*10^14+10^16+remainingMaxGasWei
    positionTokenId := 12
    poolAddress := 23
    lpUsage := sampleLpUsage
    buyAccounting := sampleBuy
    sellAccounting := sampleSell
    lockAndWithdraw := sampleLock
    dirtyTrackedTree := false }

def samplePolicy : Policy :=
  { chainId := 4663
    canary := true
    production := false
    wallets := sampleWallets
    infrastructure := sampleInfrastructure
    economics := ⟨10000,200⟩
    safetyFlags := sampleFlags
    recoveryAuthorizationDigest := ['d'] }

def sampleSnapshot : Snapshot :=
  { pinnedBlock := sampleBlock
    expectedNonces := ⟨16,2⟩
    completedContracts := fun _ => some ⟨100,1⟩
    positionTokenId := 12
    positionLiquidity := 1
    externalCodeHashes := Canary.sampleSnapshot.externalCodeHashes }

def sampleInputs (remainingMaxGasWei : ℕ) : Inputs :=
  { recoveryPacket := samplePacket remainingMaxGasWei
    recoveryPolicy := samplePolicy
    recoverySnapshot := sampleSnapshot
    recoveryAuthorization :=
      canonicalObject (samplePacket remainingMaxGasWei) samplePolicy sampleSnapshot
    noDuplicateKeys := true
    signablesDigest := fun _ => 9 }

theorem sample_authorized (gas : ℕ) :
    authorizationErrors (samplePacket gas) samplePolicy = [] := by
  simp [authorizationErrors,samplePacket,samplePolicy,sampleFlags,sampleWallets,Flags.all,
    PRIORITY_CEILING_WEI]

/-- The sample that declares the gas of its six steps passes every check. -/
theorem declared_accepted :
    bindAndVerifyPacket (sampleEnv Canonical) (sampleInputs (15*10^15)) =
      .ok ((sampleInputs (15*10^15)).recoveryAuthorization.runtime (sampleEnv Canonical)
        ['d']) := by
  apply if_pos
  unfold bindChecks buildErrors
  dsimp only
  rw [show authorizationErrors (sampleInputs (15*10^15)).recoveryPacket
      (sampleInputs (15*10^15)).recoveryPolicy = [] from sample_authorized _,
    show decide ((sampleInputs (15*10^15)).recoveryAuthorization.priors = boundPriors) = true
      from decide_eq_true rfl,
    show decide (canonicalObject (sampleInputs (15*10^15)).recoveryPacket
      (sampleInputs (15*10^15)).recoveryPolicy (sampleInputs (15*10^15)).recoverySnapshot =
        (sampleInputs (15*10^15)).recoveryAuthorization) = true from decide_eq_true rfl]
  decide +kernel

end Recovery

/-! ## The cap -/

/-- The gate caps the principal, the realized gas and all that the verifier accepts for the
bound steps exactly when the accepted packet declares the gas of its steps. -/
theorem exposure_capped_iff (env : Env Canonical) (renv : Env Recovery.Canonical) :
    (∀ x R, bindAndVerifyPacket env x = .ok R →
      (R.Caps (x.packet.totalPrincipalWei + R.maxGasWei) ↔ x.packet.DeclaresGas)) ∧
    ∀ x R, Recovery.bindAndVerifyPacket renv x = .ok R →
      (R.Caps (x.recoveryPacket.committedWei + R.maxGasWei) ↔ x.recoveryPacket.DeclaresGas) :=
  ⟨fun _ _ h => execution_caps_iff h,fun _ _ h => Recovery.recovery_caps_iff h⟩

/-- The two samples that declare the gas of their steps are accepted and stay under the cap. -/
theorem declared_capped :
    (∃ R, bindAndVerifyPacket (sampleEnv Canonical) (sampleInputs (38*10^15)) = .ok R ∧
      R.Caps (10^16 + R.maxGasWei)) ∧
    ∃ R, Recovery.bindAndVerifyPacket (sampleEnv Recovery.Canonical)
        (Recovery.sampleInputs (15*10^15)) = .ok R ∧
      R.Caps (113*10^14 + R.maxGasWei) := by
  have h := exposure_capped_iff (sampleEnv Canonical) (sampleEnv Recovery.Canonical)
  refine ⟨⟨_,declared_accepted,(h.1 _ _ declared_accepted).mpr ?_⟩,
    ⟨_,Recovery.declared_accepted,(h.2 _ _ Recovery.declared_accepted).mpr ?_⟩⟩
  · exact Slack.of_le (by decide +kernel)
  · exact Slack.of_le (by decide +kernel)

/-- The sample that declares no gas is accepted as well, and at 4000 USD the gate answers ok:
it values 40 USD, where the steps may cost 192 USD. -/
theorem understated_exceeds_cap :
    ∃ R e, bindAndVerifyPacket (sampleEnv Canonical) (sampleInputs 0) = .ok R ∧
      R.gateAnswer (some (Price.both 4000000000)) = .ok e ∧ e.ok = true ∧
      value weiPerEth (10^16 + R.maxGasWei) e.higher = 192000000 ∧
      ¬ R.Caps (10^16 + R.maxGasWei) := by
  refine ⟨_,_,understated_accepted,Runtime.gateAnswer_both _ _,by decide +kernel,
    by decide +kernel,fun h => ?_⟩
  have hle := h _ _ (Runtime.gateAnswer_both _ 4000000000) (by decide +kernel)
  revert hle
  decide +kernel

end Canary
end BpsProtocol
