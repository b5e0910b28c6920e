import BpsProtocol.ArtifactTampering
import BpsProtocol.ClaimBatch
import BpsProtocol.ClaimReadiness
import BpsProtocol.SettlementDigest
import BpsProtocol.TradePreview

/-! `planClaim`: the application's own verdict on an entitlement, and the call that claims it.
The leaf is computed for the claim manager that the entitlement names, and the call is sent to
the one of the deployment. -/
namespace BpsProtocol
namespace Claiming

open Checked Binary64 HexText IntegerText Shared LeafEncoding Manifest MerkleProof Merkle
open ArtifactTampering (proofPreimages viemProcessProof_injective)
open GuardedExecutor (bytesWord)
open ViemVerify (wordText)

structure Entitlement where
  cycleId : ℤ
  claimManager : Text
  asset : Text
  claimant : Text
  amount : ℤ
  proof : List Text
  root : Text

structure OnchainCycle where
  cycleId : ℤ
  root : Text
  asset : Text
  remaining : ℤ
  claimStartSec : ℤ
  claimDeadlineSec : ℤ

inductive ClaimRejection
  | cycleMismatch
  | assetMismatch
  | rootMismatch
  | proofInvalid
  | amountExceedsRemaining
  | outsideClaimWindow
  | alreadyClaimed
  deriving DecidableEq

inductive ClaimVerdict
  | ok (recomputedRoot : Text)
  | rejected (reason : ClaimRejection)
  deriving DecidableEq

def ClaimVerdict.isOk : ClaimVerdict → Bool
  | .ok _ => true
  | .rejected _ => false

variable (keccak256 : Hash)

/-- The leaf hash as a string; no value where `BigInt` or the encoder throws. -/
def computeLeaf (chainId : Number) (e : Entitlement) : Option Text := do
  let chainId ← FeedAcceptance.bigIntOf chainId
  let leaf ← viemLeafHashRaw keccak256
    ⟨chainId,e.claimManager,e.cycleId,e.claimant,e.asset,e.amount⟩
  return wordText leaf

/-- The fold over the proof, as in the independent verifier. -/
def foldProof (leaf : Text) (proof : List Text) : Option Text :=
  ViemVerify.viemProcessProof keccak256 leaf proof

def verifyClaim (e : Entitlement) (cycle : OnchainCycle) (chainId : Number) (nowSec : ℤ)
    (alreadyClaimed : Bool) : Option ClaimVerdict :=
  if alreadyClaimed then some (.rejected .alreadyClaimed)
  else if e.cycleId ≠ cycle.cycleId then some (.rejected .cycleMismatch)
  else if toLowerCase e.asset ≠ toLowerCase cycle.asset then some (.rejected .assetMismatch)
  else if toLowerCase e.root ≠ toLowerCase cycle.root then some (.rejected .rootMismatch)
  else if nowSec < cycle.claimStartSec ∨ cycle.claimDeadlineSec < nowSec then
    some (.rejected .outsideClaimWindow)
  else if cycle.remaining < e.amount then some (.rejected .amountExceedsRemaining)
  else do
    let leaf ← computeLeaf keccak256 chainId e
    let recomputedRoot ← foldProof keccak256 leaf e.proof
    if toLowerCase recomputedRoot ≠ toLowerCase cycle.root then return .rejected .proofInvalid
    else return .ok recomputedRoot

/-- A call of `claim`, by its typed arguments. -/
structure Calldata where
  cycleId : Uint256
  asset : Address
  amount : Uint256
  proof : List Bytes32
  deriving DecidableEq

/-- `encodeFunctionData` of `claim`; no value where viem throws. -/
def encodeClaim (e : Entitlement) : Option Calldata := do
  let cycleId ← uint256 e.cycleId
  let asset ← Trading.addressArgument keccak256 e.asset
  let amount ← uint256 e.amount
  let proof ← e.proof.mapM (bytesWord 32)
  return { cycleId,asset,amount,proof }

structure ClaimPlan where
  target : Text
  calldata : Calldata
  canSubmit : Bool
  verdict : ClaimVerdict
  deriving DecidableEq

structure Context where
  nowSec : ℤ
  alreadyClaimed : Bool
  eligible : Bool

def planClaim (e : Entitlement) (cycle : OnchainCycle) (deployment : DeploymentState)
    (ctx : Context) : Option ClaimPlan :=
  match deployment with
  | .live l => do
    let verdict ← verifyClaim keccak256 e cycle l.chainId ctx.nowSec ctx.alreadyClaimed
    let calldata ← encodeClaim keccak256 e
    return {
      target := l.addresses .claimManager
      calldata
      canSubmit := writesAllowed deployment && ctx.eligible && verdict.isOk
      verdict }
  | _ => none

/-- The call of a plan, as a transaction of its sender. -/
def send (d : ClaimManager.Deployment) (w : ClaimManager.World) (sender : Address)
    (call : Calldata) : Except ClaimManager.Error ClaimManager.World :=
  ClaimManager.claim d w sender call.cycleId call.asset call.amount call.proof

/-! ## What the planner is told -/

/-- The view is that of the deployment's claim manager in a state, for an entitlement of a
claimant. -/
structure Reflects (d : ClaimManager.Deployment) (w : ClaimManager.World) (l : Live)
    (e : Entitlement) (cycle : OnchainCycle) (ctx : Context) (call : Calldata)
    (claimant : Address) : Prop where
  manager : addressOf (l.addresses .claimManager) = some d.here
  chainId : FeedAcceptance.bigIntOf l.chainId = some (d.chainId.val : ℤ)
  now : ctx.nowSec = w.timestamp
  wallet : addressOf e.claimant = some claimant
  published : (w.manager.cycles call.cycleId).published = true
  registered : (w.manager.assetFunding call.cycleId call.asset).registered = true
  root : toLowerCase cycle.root = wordText (w.manager.cycles call.cycleId).merkleRoot
  remaining : cycle.remaining = (w.manager.assetFunding call.cycleId call.asset).funded-
    (w.manager.assetFunding call.cycleId call.asset).claimed-
    (w.manager.assetFunding call.cycleId call.asset).recovered
  start : cycle.claimStartSec = (w.manager.cycles call.cycleId).claimStart
  deadline : cycle.claimDeadlineSec = (w.manager.cycles call.cycleId).claimDeadline
  claimed : ctx.alreadyClaimed = w.manager.claimed call.cycleId claimant call.asset

/-- What the planner does not check: the amount, the manager that the leaf names, and that the
proof is written in whole words. -/
structure Unchecked (d : ClaimManager.Deployment) (e : Entitlement) : Prop where
  amount_ne_zero : e.amount ≠ 0
  manager : addressOf e.claimManager = some d.here
  words : ∀ node ∈ e.proof, node.length = 66

/-! ## Words as the planner and the contract read them -/

theorem toLowerCase_wordText (x : Bytes32) : toLowerCase (wordText x) = wordText x := by
  have hlt : x.val < 16^64 := x.isLt.trans_eq (by norm_num)
  have h := @write_value (write 64 x.val) isDigit_of_mem_write
  rw [write_length,value_write hlt] at h
  simp only [wordText]
  rw [show toLowerCase ('0' :: 'x' :: write 64 x.val) =
    '0' :: 'x' :: toLowerCase (write 64 x.val) from rfl,← h]

/-- A whole word and its digits. -/
theorem bytesWord_digits {t : Text} {x : Bytes32} (h : bytesWord 32 t = some x)
    (hlength : t.length = 66) : ∃ ds, t = '0' :: 'x' :: ds ∧ ds.length = 64 ∧
      (∀ c ∈ ds, isDigit c = true) ∧ HexText.value ds = x.val := by
  unfold bytesWord at h
  split at h
  · next digits =>
    split at h
    · next hdigits =>
      have hlen : digits.length = 64 := by simpa using hlength
      have hall := List.all_eq_true.1 hdigits.2
      refine ⟨digits,rfl,hlen,hall,?_⟩
      have hlt := value_lt hall
      rw [← Option.some.inj h,Fin.val_ofNat,hlen,Nat.sub_self,pow_zero,mul_one]
      rw [hlen] at hlt
      exact (Nat.mod_eq_of_lt (hlt.trans_eq (by norm_num))).symm
    · cases h
  · cases h

/-- Two texts of as many digits and one value are the same bytes. -/
theorem hexToBytes_congr {xs ys : Text} (hx : ∀ c ∈ xs, isDigit c = true)
    (hy : ∀ c ∈ ys, isDigit c = true) (hlength : xs.length = ys.length)
    (hvalue : HexText.value xs = HexText.value ys) :
    hexToBytes ('0' :: 'x' :: xs) = hexToBytes ('0' :: 'x' :: ys) := by
  rw [hexToBytes_eq_some.2 ⟨hx,rfl⟩,hexToBytes_eq_some.2 ⟨hy,rfl⟩,hlength,hvalue]

/-- A whole word is hashed as the word it is. -/
theorem siblingBytes_of_word {a x : Bytes32} {t : Text} (h : bytesWord 32 t = some x)
    (hlength : t.length = 66) :
    ViemVerify.siblingBytes a t = ViemVerify.siblingBytes a (wordText x) := by
  obtain ⟨ds,rfl,hlen,hdigits,hvalue⟩ := bytesWord_digits h hlength
  have hlt : x.val < 16^64 := x.isLt.trans_eq (by norm_num)
  have hlt' : a.val < 16^64 := a.isLt.trans_eq (by norm_num)
  have hne : ds ≠ [] := by
    intro hnil
    rw [hnil] at hlen
    cases hlen
  have hint : toBigInt ('0' :: 'x' :: ds) = toBigInt (wordText x) := by
    rw [toBigInt_hex hne hdigits,ViemVerify.toBigInt_wordText,hvalue]
  have hwrite : ∀ c ∈ write 64 x.val, isDigit c = true := isDigit_of_mem_write
  have hwrite' : ∀ c ∈ write 64 a.val, isDigit c = true := isDigit_of_mem_write
  have happend : ∀ {xs ys : Text}, (∀ c ∈ xs, isDigit c = true) → (∀ c ∈ ys, isDigit c = true) →
      ∀ c ∈ xs ++ ys, isDigit c = true := fun hxs hys c hc =>
    (List.mem_append.1 hc).elim (hxs c) (hys c)
  have hleft : hexToBytes (ViemVerify.concatHex [wordText a,'0' :: 'x' :: ds]) =
      hexToBytes (ViemVerify.concatHex [wordText a,wordText x]) := by
    simp only [ViemVerify.concatHex,List.flatMap_cons,List.flatMap_nil,List.append_nil,
      ViemVerify.stripMarker_wordText,ViemVerify.stripMarker]
    refine hexToBytes_congr (happend hwrite' hdigits) (happend hwrite' hwrite) (by simp [hlen]) ?_
    rw [value_append_text,value_append_text,hvalue,value_write hlt,hlen,write_length]
  have hright : hexToBytes (ViemVerify.concatHex ['0' :: 'x' :: ds,wordText a]) =
      hexToBytes (ViemVerify.concatHex [wordText x,wordText a]) := by
    simp only [ViemVerify.concatHex,List.flatMap_cons,List.flatMap_nil,List.append_nil,
      ViemVerify.stripMarker_wordText,ViemVerify.stripMarker]
    refine hexToBytes_congr (happend hdigits hwrite') (happend hwrite hwrite') (by simp [hlen]) ?_
    rw [value_append_text,value_append_text,hvalue,value_write hlt]
  simp only [ViemVerify.siblingBytes,ViemVerify.sortedPair,hint,ViemVerify.toBigInt_wordText,
    Option.bind_eq_bind,Option.bind_some,Option.pure_def]
  split
  · exact hleft
  · exact hright

/-- Over whole words the planner folds as the contract does. -/
theorem foldProof_words {keccak256 : Hash} {leaf : Bytes32} {proof : List Text}
    {words : List Bytes32} (h : proof.mapM (bytesWord 32) = some words)
    (hlength : ∀ node ∈ proof, node.length = 66) :
    foldProof keccak256 (wordText leaf) proof =
      some (wordText (processProof keccak256 words leaf)) := by
  rw [foldProof,← viemProcessProof_eq,← ViemVerify.viemProcessProof_wordText]
  induction proof generalizing leaf words with
  | nil =>
    cases h
    rfl
  | cons node rest ih =>
    simp only [List.mapM_cons,Option.bind_eq_bind,Option.bind_eq_some_iff,Option.pure_def,
      Option.some.injEq] at h
    obtain ⟨x,hx,xs,hxs,rfl⟩ := h
    obtain ⟨hnode,hrest⟩ := List.forall_mem_cons.1 hlength
    rw [List.map_cons,ViemVerify.viemProcessProof,ViemVerify.viemProcessProof]
    have hstep : ViemVerify.hashSibling keccak256 (wordText leaf) node =
        ViemVerify.hashSibling keccak256 (wordText leaf) (wordText x) := by
      apply Option.ext
      intro t
      rw [ViemVerify.hashSibling_eq_some,ViemVerify.hashSibling_eq_some,
        siblingBytes_of_word hx hnode]
    rw [hstep]
    have hnext : ViemVerify.hashSibling keccak256 (wordText leaf) (wordText x) =
        some (wordText (keccak256 (LeafEncoding.sortedPair leaf x))) :=
      ViemVerify.hashSibling_eq_some.2 ⟨_,ViemVerify.siblingBytes_wordText leaf x,rfl⟩
    rw [hnext]
    exact ih hxs hrest

/-! ## What a submittable plan has found out -/

section Plan

variable {d : ClaimManager.Deployment} {w : ClaimManager.World} {l : Live} {e : Entitlement}
  {cycle : OnchainCycle} {ctx : Context} {plan : ClaimPlan} {claimant : Address}

/-- The leaf that the call claims, for some manager. -/
def leafOf (d : ClaimManager.Deployment) (manager claimant : Address) (call : Calldata) : Leaf :=
  ⟨d.chainId,manager,call.cycleId,claimant,call.asset,call.amount⟩

/-- The byte strings hashed for a leaf and along the proof of a call. -/
def planPreimages (keccak256 : Hash) (leaf : Leaf) (call : Calldata) : List Bytes :=
  leafPreimages keccak256 leaf ++
    proofPreimages keccak256 (call.proof.map wordText) (leaf.hash keccak256)

theorem encodeClaim_eq_some {keccak256 : Hash} {call : Calldata}
    (h : encodeClaim keccak256 e = some call) :
    e.cycleId = (call.cycleId.val : ℤ) ∧ addressOf e.asset = some call.asset ∧
      e.amount = (call.amount.val : ℤ) ∧ e.proof.mapM (bytesWord 32) = some call.proof := by
  simp only [encodeClaim,Trading.addressArgument,Option.bind_eq_bind,Option.bind_eq_some_iff,
    Option.pure_def,Option.some.injEq] at h
  obtain ⟨cycleId,hcycle,asset,⟨-,-,hasset⟩,amount,hamount,proof,hproof,rfl⟩ := h
  exact ⟨uint256_eq_some.1 hcycle,hasset,uint256_eq_some.1 hamount,hproof⟩

/-- A positive verdict is about a leaf, and its fold ended at the root of the view. -/
theorem verifyClaim_isOk {keccak256 : Hash} {chainId : Number} {nowSec : ℤ} {claimed : Bool}
    {verdict : ClaimVerdict}
    (h : verifyClaim keccak256 e cycle chainId nowSec claimed = some verdict)
    (hok : verdict.isOk = true) :
    claimed = false ∧ cycle.claimStartSec ≤ nowSec ∧ nowSec ≤ cycle.claimDeadlineSec ∧
      e.amount ≤ cycle.remaining ∧ ∃ n leaf root, FeedAcceptance.bigIntOf chainId = some n ∧
        (⟨n,e.claimManager,e.cycleId,e.claimant,e.asset,e.amount⟩ : LeafFields).leaf =
          some leaf ∧
        foldProof keccak256 (wordText (leaf.hash keccak256)) e.proof = some root ∧
        toLowerCase root = toLowerCase cycle.root := by
  have hrejected : ∀ reason, some (ClaimVerdict.rejected reason) ≠ some verdict := by
    intro reason he
    rw [← Option.some.inj he] at hok
    cases hok
  unfold verifyClaim at h
  split at h
  · exact absurd h (hrejected _)
  next hclaimed =>
  split at h
  · exact absurd h (hrejected _)
  split at h
  · exact absurd h (hrejected _)
  split at h
  · exact absurd h (hrejected _)
  split at h
  · exact absurd h (hrejected _)
  next hwindow =>
  split at h
  · exact absurd h (hrejected _)
  next hremaining =>
  simp only [computeLeaf,Option.bind_eq_bind,Option.bind_eq_some_iff,Option.pure_def,
    Option.some.injEq] at h
  obtain ⟨t,⟨n,hn,hash,hhash,rfl⟩,root,hroot,h⟩ := h
  obtain ⟨leaf,hleaf,rfl⟩ := viemLeafHashRaw_eq_some hhash
  split at h
  · exact absurd h (hrejected _)
  next hsame =>
  exact ⟨by simpa using hclaimed,by omega,by omega,by omega,n,leaf,root,hn,hleaf,hroot,
    not_not.1 hsame⟩

/-- The call of a submittable plan passes the contract's checks but for its amount, and the
planner's fold accepted its leaf under the manager that the entitlement names. -/
structure Accepted (d : ClaimManager.Deployment) (w : ClaimManager.World) (e : Entitlement)
    (plan : ClaimPlan) (claimant : Address) : Prop where
  target : addressOf plan.target = some d.here
  amount : e.amount = (plan.calldata.amount.val : ℤ)
  proof : e.proof.mapM (bytesWord 32) = some plan.calldata.proof
  checks : plan.calldata.amount ≠ 0 → ClaimManager.ClaimChecks w plan.calldata.cycleId claimant
    plan.calldata.asset plan.calldata.amount.val
  folds : ∃ manager root, addressOf e.claimManager = some manager ∧
    foldProof d.keccak256 (wordText ((leafOf d manager claimant plan.calldata).hash d.keccak256))
      e.proof = some root ∧
    toLowerCase root = wordText (w.manager.cycles plan.calldata.cycleId).merkleRoot

theorem planClaim_accepted (h : planClaim d.keccak256 e cycle (.live l) ctx = some plan)
    (hok : plan.canSubmit = true) (hview : Reflects d w l e cycle ctx plan.calldata claimant) :
    Accepted d w e plan claimant := by
  simp only [planClaim,Option.bind_eq_bind,Option.bind_eq_some_iff,Option.pure_def,
    Option.some.injEq] at h
  obtain ⟨verdict,hverdict,call,hcall,rfl⟩ := h
  simp only [Bool.and_eq_true] at hok
  obtain ⟨hunclaimed,hstart,hend,hremaining,n,leaf,root,hn,hleaf,hroot,hsame⟩ :=
    verifyClaim_isOk hverdict hok.2
  obtain ⟨hcycle,hasset,hamount,hproof⟩ := encodeClaim_eq_some hcall
  obtain ⟨hchain',hmanager',hcycle',hwallet',hasset',hamount'⟩ := leaf_eq_some.1 hleaf
  have hstart' := hview.start
  have hend' := hview.deadline
  have hnow := hview.now
  have hcovered := hview.remaining
  dsimp only at hstart' hend' hcovered hamount' hchain'
  have hstarted : (w.manager.cycles call.cycleId).claimStart ≤ w.timestamp := by omega
  have hunexpired : w.timestamp ≤ (w.manager.cycles call.cycleId).claimDeadline := by omega
  refine ⟨hview.manager,hamount,hproof,fun hne => ?_,leaf.claimManager,root,hmanager',?_,?_⟩
  · have hpos : 0 < call.amount.val := Nat.pos_of_ne_zero fun hzero => hne (Fin.ext hzero)
    exact ⟨by exact_mod_cast hpos,hview.published,hview.registered,hstarted,hunexpired,
      hview.claimed.symm.trans hunclaimed,by rw [← hamount,← hcovered]; exact hremaining⟩
  · have heq : leafOf d leaf.claimManager claimant call = leaf := by
      have hchain : leaf.chainId = d.chainId := by
        apply Fin.ext
        have hn' := Option.some.inj (hn.symm.trans hview.chainId)
        omega
      have hcycleId : leaf.cycleId = call.cycleId := Fin.ext (by
        have := hcycle'.symm.trans hcycle
        exact_mod_cast this)
      have hclaimant : leaf.claimant = claimant :=
        Option.some.inj (hwallet'.symm.trans hview.wallet)
      have hassets : leaf.asset = call.asset := Option.some.inj (hasset'.symm.trans hasset)
      have hamounts : leaf.amount = call.amount := Fin.ext (by
        have := hamount'.symm.trans hamount
        exact_mod_cast this)
      rw [leafOf,← hchain,← hcycleId,← hclaimant,← hassets,← hamounts]
    rw [heq]
    exact hroot
  · rw [hsame,hview.root]

theorem verify_leafOf {call : Calldata} :
    MerkleProof.verify d.keccak256 call.proof (w.manager.cycles call.cycleId).merkleRoot
      (ClaimManager.leafFor d call.cycleId claimant call.asset call.amount) = true ↔
      processProof d.keccak256 call.proof ((leafOf d d.here claimant call).hash d.keccak256) =
        (w.manager.cycles call.cycleId).merkleRoot := by
  rw [verify_eq_true]
  rfl

/-- Over whole words the fold is the one of the call. -/
theorem Accepted.processProof_eq (ha : Accepted d w e plan claimant)
    (hwords : ∀ node ∈ e.proof, node.length = 66) : ∃ manager,
      addressOf e.claimManager = some manager ∧
      processProof d.keccak256 plan.calldata.proof
        ((leafOf d manager claimant plan.calldata).hash d.keccak256) =
          (w.manager.cycles plan.calldata.cycleId).merkleRoot := by
  obtain ⟨manager,root,hmanager,hfold,hroot⟩ := ha.folds
  rw [foldProof_words ha.proof hwords] at hfold
  rw [← Option.some.inj hfold,toLowerCase_wordText] at hroot
  exact ⟨manager,hmanager,ViemVerify.wordText_injective hroot⟩

/-- The call of a submittable plan, sent by the claimant to its target, succeeds where the
amount is not zero, the entitlement names the deployment's manager and its proof is of whole
words.  Without an amount it fails, and over whole words it succeeds only there, or two inputs
collide. -/
theorem planClaim_claims_iff (hreach : ClaimManager.Reachable d w) (hclaimant : claimant ≠ 0)
    (h : planClaim d.keccak256 e cycle (.live l) ctx = some plan) (hok : plan.canSubmit = true)
    (hview : Reflects d w l e cycle ctx plan.calldata claimant) :
    addressOf plan.target = some d.here ∧
    (Unchecked d e → ∃ w', send d w claimant plan.calldata = .ok w') ∧
    (e.amount = 0 → ¬∃ w', send d w claimant plan.calldata = .ok w') ∧
    ((∀ node ∈ e.proof, node.length = 66) →
      (∀ manager, addressOf e.claimManager = some manager → CollisionFree d.keccak256
        (planPreimages d.keccak256 (leafOf d manager claimant plan.calldata) plan.calldata ++
          planPreimages d.keccak256 (leafOf d d.here claimant plan.calldata) plan.calldata)) →
      ((∃ w', send d w claimant plan.calldata = .ok w') ↔ Unchecked d e)) := by
  have ha := planClaim_accepted h hok hview
  have hsend : (∃ w', send d w claimant plan.calldata = .ok w') ↔ ClaimManager.ClaimChecks w
      plan.calldata.cycleId claimant plan.calldata.asset plan.calldata.amount.val ∧
      processProof d.keccak256 plan.calldata.proof
        ((leafOf d d.here claimant plan.calldata).hash d.keccak256) =
          (w.manager.cycles plan.calldata.cycleId).merkleRoot := by
    rw [send,ClaimManager.claim,hreach.solvent.claimOne_succeeds_iff hclaimant,verify_leafOf]
  have hsuccess (hu : Unchecked d e) : ∃ w', send d w claimant plan.calldata = .ok w' := by
    obtain ⟨manager,hmanager,hprocess⟩ := ha.processProof_eq hu.words
    rw [hu.manager] at hmanager
    obtain rfl := Option.some.inj hmanager
    refine hsend.2 ⟨ha.checks fun hzero => hu.amount_ne_zero ?_,hprocess⟩
    rw [ha.amount,hzero]
    rfl
  have hamount (hw : ∃ w', send d w claimant plan.calldata = .ok w') : e.amount ≠ 0 := by
    have hpos := (hsend.1 hw).1.amount_pos
    rw [ha.amount]
    omega
  refine ⟨ha.target,hsuccess,fun hzero hw => hamount hw hzero,fun hwords hfree =>
    ⟨fun hw => ⟨hamount hw,?_,hwords⟩,hsuccess⟩⟩
  obtain ⟨manager,hmanager,hprocess⟩ := ha.processProof_eq hwords
  have hfolds : ∀ leaf : Leaf, processProof d.keccak256 plan.calldata.proof
      (leaf.hash d.keccak256) = (w.manager.cycles plan.calldata.cycleId).merkleRoot →
      ViemVerify.viemProcessProof d.keccak256 (wordText (leaf.hash d.keccak256))
        (plan.calldata.proof.map wordText) =
          some (wordText (w.manager.cycles plan.calldata.cycleId).merkleRoot) := by
    intro leaf hleaf
    rw [ViemVerify.viemProcessProof_wordText,viemProcessProof_eq,hleaf]
  have hhash : (leafOf d manager claimant plan.calldata).hash d.keccak256 =
      (leafOf d d.here claimant plan.calldata).hash d.keccak256 := by
    refine viemProcessProof_injective (ArtifactTampering.collisionFree_subset
      (hfree manager hmanager) ?_) (hfolds _ hprocess) (hfolds _ (hsend.1 hw).2)
    exact ArtifactTampering.append_subset_append (List.subset_append_right _ _)
      (List.subset_append_right _ _)
  have hleaf := leaf_eq_of_hash_eq (hfree manager hmanager)
    (fun b hb => List.mem_append_left _ (List.mem_append_left _ hb))
    (fun b hb => List.mem_append_right _ (List.mem_append_left _ hb)) hhash
  have hsame : manager = d.here := congrArg Leaf.claimManager hleaf
  rw [hmanager,hsame]

end Plan

/-- A cycle whose one leaf has no amount. -/
def emptyLeaf : ClaimManager.World :=
  Machine.run (ClaimManager.exec ClaimManager.sample) ⟨0,fun _ => Erc20.Token.empty,.deployed 9⟩
    [.token 50 (.mint 2 9 200),.token 50 (.approve 9 100 200),
      .publishCycle 9 { ClaimManager.sampleCycle 1 200 with
        merkleRoot := ClaimManager.leafFor ClaimManager.sample 1 1 50 0 },
      .elapse 10]

theorem emptyLeaf_reachable : ClaimManager.Reachable ClaimManager.sample emptyLeaf :=
  (Machine.Reachable.of_init
    ⟨by decide,by decide,⟨9,rfl⟩,fun _ _ => rfl,fun _ => rfl⟩).run _

def emptyRoot : Text := wordText (ClaimManager.leafFor ClaimManager.sample 1 1 50 0)

def emptyEntitlement : Entitlement :=
  ⟨1,addressText 100,addressText 50,addressText 1,0,[],emptyRoot⟩

def emptyCycle : OnchainCycle := ⟨1,emptyRoot,addressText 50,200,10,20⟩

def sampleLive : Live where
  mode := .production
  isFixture := false
  sourceCommit := []
  chainId := .finite (.ofInt 1 Double.one_exact)
  addresses := fun _ => addressText 100
  requiredCodeAddresses := []
  writesEnabled := true

def emptyPlan : ClaimPlan := ⟨addressText 100,⟨1,50,0,[]⟩,true,.ok emptyRoot⟩

theorem sampleLive_chainId :
    FeedAcceptance.bigIntOf sampleLive.chainId = some (ClaimManager.sample.chainId.val : ℤ) := by
  simp [FeedAcceptance.bigIntOf,sampleLive,Double.ofInt,ClaimManager.sample]

theorem emptyEntitlement_planned : planClaim toyHash emptyEntitlement emptyCycle
    (.live sampleLive) ⟨10,false,true⟩ = some emptyPlan := by
  have hleaf : computeLeaf toyHash sampleLive.chainId emptyEntitlement = some emptyRoot := by
    rw [computeLeaf,sampleLive_chainId]
    decide +kernel
  have hverdict : verifyClaim toyHash emptyEntitlement emptyCycle sampleLive.chainId 10 false =
      some (.ok emptyRoot) := by
    rw [verifyClaim,hleaf]
    decide +kernel
  have hcalldata : encodeClaim toyHash emptyEntitlement = some ⟨1,50,0,[]⟩ := by
    decide +kernel
  rw [planClaim,hverdict,hcalldata]
  rfl

theorem emptyLeaf_reflects : Reflects ClaimManager.sample emptyLeaf sampleLive emptyEntitlement
    emptyCycle ⟨10,false,true⟩ emptyPlan.calldata 1 where
  manager := by decide +kernel
  chainId := sampleLive_chainId
  now := by decide +kernel
  wallet := by decide +kernel
  published := by decide +kernel
  registered := by decide +kernel
  root := by decide +kernel
  remaining := by decide +kernel
  start := by decide +kernel
  deadline := by decide +kernel
  claimed := by decide +kernel

/-- One leaf of a cycle of two, with the other one as its proof. -/
def pairEntitlement : Entitlement :=
  ⟨1,addressText 100,addressText 50,addressText 1,200,
    [wordText (ClaimManager.leafFor ClaimManager.sample 1 1 51 300)],
    wordText ClaimManager.pairCycle.merkleRoot⟩

def pairView : OnchainCycle :=
  ⟨1,wordText ClaimManager.pairCycle.merkleRoot,addressText 50,200,10,20⟩

def pairPlan : ClaimPlan :=
  ⟨addressText 100,⟨1,50,200,[ClaimManager.leafFor ClaimManager.sample 1 1 51 300]⟩,true,
    .ok (wordText ClaimManager.pairCycle.merkleRoot)⟩

theorem pairStart_reachable : ClaimManager.Reachable ClaimManager.sample ClaimManager.pairStart :=
  (Machine.Reachable.of_init
    ⟨by decide,by decide,⟨9,rfl⟩,fun _ _ => rfl,fun _ => rfl⟩).run _

theorem pairEntitlement_planned : planClaim toyHash pairEntitlement pairView
    (.live sampleLive) ⟨10,false,true⟩ = some pairPlan := by
  have hleaf : computeLeaf toyHash sampleLive.chainId pairEntitlement =
      some (wordText (ClaimManager.leafFor ClaimManager.sample 1 1 50 200)) := by
    rw [computeLeaf,sampleLive_chainId]
    decide +kernel
  have hverdict : verifyClaim toyHash pairEntitlement pairView sampleLive.chainId 10 false =
      some (.ok (wordText ClaimManager.pairCycle.merkleRoot)) := by
    rw [verifyClaim,hleaf]
    decide +kernel
  have hcalldata : encodeClaim toyHash pairEntitlement = some pairPlan.calldata := by
    decide +kernel
  rw [planClaim,hverdict,hcalldata]
  rfl

theorem pairStart_reflects : Reflects ClaimManager.sample ClaimManager.pairStart sampleLive
    pairEntitlement pairView ⟨10,false,true⟩ pairPlan.calldata 1 where
  manager := by decide +kernel
  chainId := sampleLive_chainId
  now := by decide +kernel
  wallet := by decide +kernel
  published := by decide +kernel
  registered := by decide +kernel
  root := by decide +kernel
  remaining := by decide +kernel
  start := by decide +kernel
  deadline := by decide +kernel
  claimed := by decide +kernel

theorem pairEntitlement_claimed :
    (∃ w', send ClaimManager.sample ClaimManager.pairStart 1 pairPlan.calldata = .ok w') ∧
    ¬∃ w', send ClaimManager.sample emptyLeaf 1 emptyPlan.calldata = .ok w' := by
  obtain ⟨-,hclaimed,-⟩ := planClaim_claims_iff pairStart_reachable (by decide)
    pairEntitlement_planned rfl pairStart_reflects
  refine ⟨hclaimed ⟨by decide,by decide +kernel,?_⟩,?_⟩
  · decide +kernel
  · exact (planClaim_claims_iff emptyLeaf_reachable (by decide) emptyEntitlement_planned rfl
      emptyLeaf_reflects).2.2.1 rfl

/-- The planner offers a claim of nothing, and the contract refuses it. -/
theorem emptyEntitlement_reverts :
    ¬∀ (d : ClaimManager.Deployment) (w : ClaimManager.World) (l : Live) (e : Entitlement)
      (cycle : OnchainCycle) (ctx : Context) (plan : ClaimPlan) (claimant : Address),
      ClaimManager.Reachable d w → claimant ≠ 0 →
      planClaim d.keccak256 e cycle (.live l) ctx = some plan → plan.canSubmit = true →
      Reflects d w l e cycle ctx plan.calldata claimant →
      ∃ w', send d w claimant plan.calldata = .ok w' := by
  intro h
  obtain ⟨w',hw⟩ := h _ _ _ _ _ _ _ _ emptyLeaf_reachable (by decide) emptyEntitlement_planned rfl
    emptyLeaf_reflects
  have hrefused : (send ClaimManager.sample emptyLeaf 1 emptyPlan.calldata).toBool = false := by
    decide +kernel
  rw [hw] at hrefused
  cases hrefused

end Claiming
end BpsProtocol
