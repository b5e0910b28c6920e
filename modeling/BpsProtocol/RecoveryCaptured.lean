import BpsProtocol.Lib.Pairing
import BpsProtocol.RecoveryCapture
import BpsProtocol.RecoveryGenerated
import BpsProtocol.RecoveryOperator

/-! What the capture of the completed steps finds.
On a chain that counts the transactions of an account by their nonces, the search finds the one
transaction of a nonce wherever it is in the range, and no nonce is lost by searching on from the
block of the last. -/
namespace BpsProtocol
namespace Canary
namespace Recovery

open Checked MerkleProof BinarySearch

/-! ## The chain -/

/-- The transactions of an account in a block. -/
def Provider.sentIn (P : Provider) (a : Address) (B : ℕ) : List MinedTx :=
  (P.block B).filter fun t => t.source = a

/-- The transactions of an account before a block. -/
def Provider.sentBefore (P : Provider) (a : Address) (B : ℕ) : List MinedTx :=
  (List.range B).flatMap (P.sentIn a)

/-- The provider answers from one chain: the nonces of the account count its transactions. -/
structure Faithful (P : Provider) (a : Address) : Prop where
  count : ∀ B, B ≤ P.blockNumber → P.transactionCount a B = (P.sentBefore a (B+1)).length
  nonces : (P.sentBefore a (P.blockNumber+1)).map MinedTx.nonce =
    List.range (P.sentBefore a (P.blockNumber+1)).length
  receipt : ∀ B t rc, B ≤ P.blockNumber → t ∈ P.block B →
    P.transactionReceipt t.hash = some rc → rc.blockNumber = B
  byHash : ∀ B t, B ≤ P.blockNumber → t ∈ P.block B → P.transactionByHash t.hash = some t
  future : ∀ B, P.blockNumber < B → P.block B = []

section Chain

variable {P : Provider} {a : Address} {B B' n lo : ℕ} {t t' : MinedTx}

theorem mem_sentIn : t ∈ P.sentIn a B ↔ t ∈ P.block B ∧ t.source = a := by
  rw [Provider.sentIn,List.mem_filter,decide_eq_true_eq]

theorem sentBefore_succ : P.sentBefore a (B+1) = P.sentBefore a B ++ P.sentIn a B := by
  simp [Provider.sentBefore,List.range_succ]

theorem sentBefore_extends (h : B ≤ B') : P.sentBefore a B <+: P.sentBefore a B' := by
  induction B', h using Nat.le_induction with
  | base => exact List.prefix_rfl
  | succ B' hle ih =>
    rw [sentBefore_succ]
    exact ih.trans (List.prefix_append _ _)

theorem sentBefore_length_le (h : B ≤ B') :
    (P.sentBefore a B).length ≤ (P.sentBefore a B').length :=
  (sentBefore_extends h).length_le

theorem Faithful.nonces_before (h : Faithful P a) (hB : B ≤ P.blockNumber+1) :
    (P.sentBefore a B).map MinedTx.nonce = List.range (P.sentBefore a B).length := by
  have hprefix := (sentBefore_extends (P := P) (a := a) hB).map MinedTx.nonce
  rw [h.nonces] at hprefix
  rw [List.prefix_iff_eq_take.1 hprefix,List.take_range,List.length_map]
  exact congrArg List.range (Nat.min_eq_left (sentBefore_length_le hB))

/-- The nonces in a block follow those of the blocks before it. -/
theorem Faithful.nonces_in (h : Faithful P a) (hB : B ≤ P.blockNumber) :
    (P.sentIn a B).map MinedTx.nonce =
      List.range' (P.sentBefore a B).length (P.sentIn a B).length := by
  have hsucc := h.nonces_before (Nat.succ_le_succ hB)
  rw [Nat.succ_eq_add_one,sentBefore_succ,List.map_append,h.nonces_before (by omega),
    List.length_append,List.range_eq_range',List.range_eq_range',← List.range'_append_1,
    Nat.zero_add] at hsucc
  exact List.append_cancel_left hsucc

theorem Faithful.nonce_mem (h : Faithful P a) (hB : B ≤ P.blockNumber) :
    (∃ t ∈ P.sentIn a B, t.nonce = n) ↔
      (P.sentBefore a B).length ≤ n ∧ n < (P.sentBefore a (B+1)).length := by
  rw [← List.mem_map,h.nonces_in hB,List.mem_range'_1,sentBefore_succ,List.length_append]

theorem Faithful.same_block (h : Faithful P a) (hB : B ≤ P.blockNumber) (hB' : B' ≤ P.blockNumber)
    (ht : t ∈ P.sentIn a B) (ht' : t' ∈ P.sentIn a B') (hle : t.nonce ≤ t'.nonce) : B ≤ B' := by
  obtain ⟨hlow,-⟩ := (h.nonce_mem hB).1 ⟨t,ht,rfl⟩
  obtain ⟨-,hhigh⟩ := (h.nonce_mem hB').1 ⟨t',ht',rfl⟩
  by_contra hlt
  have := sentBefore_length_le (P := P) (a := a) (show B'+1 ≤ B by omega)
  omega

/-- A nonce has one transaction on the chain. -/
theorem Faithful.unique (h : Faithful P a) (hB : B ≤ P.blockNumber) (hB' : B' ≤ P.blockNumber)
    (ht : t ∈ P.sentIn a B) (ht' : t' ∈ P.sentIn a B') (heq : t.nonce = t'.nonce) :
    B = B' ∧ t = t' := by
  obtain rfl : B = B' := le_antisymm (h.same_block hB hB' ht ht' heq.le)
    (h.same_block hB' hB ht' ht heq.ge)
  have hnodup : ((P.sentIn a B).map MinedTx.nonce).Nodup := by
    rw [h.nonces_in hB]
    exact List.nodup_range'
  exact ⟨rfl,List.inj_on_of_nodup_map hnodup ht ht' heq⟩

/-- The search finds the transaction of a nonce wherever it is in the range, and nothing else. -/
theorem findTxByNonce_eq_ok (h : Faithful P a) : findTxByNonce P a n lo P.blockNumber = .ok t ↔
    ∃ B, lo ≤ B ∧ B ≤ P.blockNumber ∧ t ∈ P.sentIn a B ∧ t.nonce = n := by
  have hfind : ∀ B t, ((P.block B).find? fun t => t.source = a && t.nonce = n) = some t →
      t ∈ P.sentIn a B ∧ t.nonce = n := by
    intro B t ht
    have hholds := List.find?_some ht
    rw [Bool.and_eq_true,decide_eq_true_eq,decide_eq_true_eq] at hholds
    exact ⟨mem_sentIn.2 ⟨List.mem_of_find?_eq_some ht,hholds.1⟩,hholds.2⟩
  rw [findTxByNonce,orThrow_eq_ok]
  by_cases hlo : P.blockNumber < lo
  · rw [search,if_neg (by omega),h.future lo hlo]
    refine ⟨fun ht => (by cases ht),?_⟩
    rintro ⟨B,hlow,hhigh,-⟩
    omega
  rw [not_lt] at hlo
  constructor
  · intro ht
    obtain ⟨hlow,hhigh⟩ := search_mem
      (p := fun block => decide (n+1 ≤ P.transactionCount a block)) hlo
    exact ⟨_,hlow,hhigh,hfind _ _ ht⟩
  · rintro ⟨B,hlow,hB,ht,hn⟩
    obtain ⟨hbefore,hafter⟩ := (h.nonce_mem hB).1 ⟨t,ht,hn⟩
    have hpast : ∀ x, x ≤ P.blockNumber →
        (decide (n+1 ≤ P.transactionCount a x) = true ↔ B ≤ x) := by
      intro x hx
      rw [decide_eq_true_eq,h.count x hx]
      constructor
      · intro hcount
        by_contra hlt
        have := sentBefore_length_le (P := P) (a := a) (show x+1 ≤ B by omega)
        omega
      · intro hle
        exact le_trans hafter (sentBefore_length_le (Nat.succ_le_succ hle))
    have hupward : Upward (fun block => decide (n+1 ≤ P.transactionCount a block))
        P.blockNumber :=
      fun x y hxy hy hx => (hpast y hy).2 (((hpast x (hxy.trans hy)).1 hx).trans hxy)
    have hsearch := (search_eq_iff hupward hlo ((hpast _ le_rfl).2 hB)).2
      ⟨hlow,hB,(hpast B hB).2 le_rfl,fun x _ hx => Bool.eq_false_iff.2 fun hp =>
        absurd ((hpast x (hx.le.trans hB)).1 hp) (not_le.2 hx)⟩
    rw [hsearch]
    obtain ⟨t',ht'⟩ := Option.isSome_iff_exists.1 (List.find?_isSome.2 ⟨t,(mem_sentIn.1 ht).1,by
      rw [Bool.and_eq_true,decide_eq_true_eq,decide_eq_true_eq]
      exact ⟨(mem_sentIn.1 ht).2,hn⟩⟩ :
      ((P.block B).find? fun t => t.source = a && t.nonce = n).isSome = true)
    obtain ⟨hmem,hn'⟩ := hfind B t' ht'
    rw [ht',(h.unique hB hB hmem ht (hn'.trans hn.symm)).2]

end Chain

/-! ## One step -/

section Steps

variable {F : CaptureFiles} {P : Provider} {nonce lo : ℕ} {t : MinedTx} {x : Captured}

/-- An anchor of a step that was found without an error. -/
structure StepVerified (F : CaptureFiles) (P : Provider) (nonce : ℕ) (t : MinedTx)
    (rc : MinedReceipt) (src : PlannedTx) (x : Captured) : Prop where
  planned : F.v7ByOrig (nonce-2) = some src
  receipt : P.transactionReceipt t.hash = some rc
  status : rc.status = 1
  chainId : ∀ c ∈ t.chainId, c = 4663
  sender : t.source = src.signer ∧ t.nonce = src.nonce
  value : t.value = 0
  input : t.input = src.dataOrInitCode ∧ F.keccak256 t.input = src.dataKeccak
  place : x.anchor.originalIndex = nonce-2 ∧ x.anchor.nonce = nonce
  txHash : x.anchor.txHash = t.hash
  signer : x.anchor.signer = t.source
  inputKeccak : x.anchor.inputKeccak = src.dataKeccak
  createdAddress : x.anchor.createdAddress = rc.contractAddress
  slot : x.slot = slotByNonce nonce
  runtimeCodeHash : ∀ codeHash ∈ x.anchor.deployedRuntimeCodeHash,
    ∃ created, rc.contractAddress = some created ∧ F.keccak256 (P.code created) = codeHash

theorem typeFinding_hash {label : String} {src : PlannedTx} {rc : MinedReceipt} {y : StepFinding}
    (h : typeFinding F P label nonce src t rc = .ok y) :
    ∀ codeHash ∈ y.runtimeCodeHash,
      ∃ created, rc.contractAddress = some created ∧ F.keccak256 (P.code created) = codeHash := by
  unfold typeFinding at h
  cases hslot : slotByNonce nonce with
  | some slot =>
    rw [hslot] at h
    simp only [deployFinding,bind_eq_ok,orThrow_eq_ok,pure_eq_ok] at h
    obtain ⟨created,hcreated,_,-,rfl⟩ := h
    exact fun codeHash hc => ⟨created,hcreated,Option.some.inj hc⟩
  | none =>
    rw [hslot] at h
    have hnone : y.runtimeCodeHash = none := by
      dsimp only at h
      split_ifs at h
      · simp only [approvalFinding,bind_eq_ok,pure_eq_ok] at h
        obtain ⟨_,-,_,-,rfl⟩ := h
        rfl
      · simp only [poolFinding,bind_eq_ok,pure_eq_ok] at h
        obtain ⟨_,-,_,-,rfl⟩ := h
        rfl
      · simp only [initializeFinding,bind_eq_ok,pure_eq_ok] at h
        obtain ⟨_,-,_,-,rfl⟩ := h
        rfl
      · simp only [mintFinding,bind_eq_ok,pure_eq_ok] at h
        obtain ⟨_,-,_,-,_,-,_,-,rfl⟩ := h
        rfl
      · obtain rfl := pure_eq_ok.1 h
        rfl
    intro codeHash hc
    rw [hnone] at hc
    cases hc

theorem checkStep_block (h : checkStep F P nonce t = .ok x) :
    ∃ rc, P.transactionReceipt t.hash = some rc ∧ x.blockNumber = rc.blockNumber := by
  simp only [checkStep,bind_eq_ok,orThrow_eq_ok,pure_eq_ok] at h
  obtain ⟨_,-,_,-,rc,hrc,_,-,rfl⟩ := h
  exact ⟨rc,hrc,rfl⟩

/-- A step without errors is what the plan says, and its receipt what the anchor says. -/
theorem checkStep_ok (h : checkStep F P nonce t = .ok x) (herrors : x.errors = []) :
    ∃ rc src, StepVerified F P nonce t rc src x := by
  simp only [checkStep,bind_eq_ok,orThrow_eq_ok,pure_eq_ok] at h
  obtain ⟨src,hsrc,_,-,rc,hrc,y,hy,rfl⟩ := h
  simp only [List.append_eq_nil_iff,errIf_eq_nil,not_not,not_or,and_assoc] at herrors
  obtain ⟨hstatus,hchain,hsource,hnonce,-,hvalue,hinput,hhash,-⟩ := herrors
  refine ⟨rc,src,hsrc,hrc,hstatus,fun c hc => ?_,⟨hsource,hnonce⟩,hvalue,⟨hinput,hhash⟩,⟨rfl,rfl⟩,
    rfl,rfl,rfl,rfl,rfl,typeFinding_hash hy⟩
  by_contra hne
  refine hchain ?_
  rw [Option.mem_def.1 hc]
  exact decide_eq_true hne

/-! ## The loop -/

/-- The transaction of a nonce, mined in a block from `lo` on, and what is captured of it. -/
def OnChain (F : CaptureFiles) (P : Provider) (lo nonce : ℕ) (x : Captured) : Prop :=
  ∃ B t, lo ≤ B ∧ B ≤ P.blockNumber ∧ t ∈ P.sentIn F.deployer B ∧ t.nonce = nonce ∧
    checkStep F P nonce t = .ok x

/-- The loop returns exactly if the transaction of every nonce is on the chain and can be checked,
though it searches each only from the block of the last one. -/
theorem captureSteps_eq_ok (hf : Faithful P F.deployer) {nonces : List ℕ} {xs : List Captured}
    (hnonces : nonces.Pairwise (· < ·)) :
    captureSteps F P nonces lo = .ok xs ↔ List.Forall₂ (OnChain F P lo) nonces xs := by
  induction nonces generalizing lo xs with
  | nil =>
    rw [captureSteps,List.forall₂_nil_left_iff,Except.ok.injEq]
    exact eq_comm
  | cons nonce nonces ih =>
    obtain ⟨hfirst,hrest⟩ := List.pairwise_cons.1 hnonces
    simp only [captureSteps,bind_eq_ok,pure_eq_ok,List.forall₂_cons_left_iff]
    -- what is searched from the block of one nonce is what is there for the next ones
    have hmove : ∀ {B : ℕ} {t : MinedTx} {x : Captured} {ys : List Captured}, lo ≤ B →
        B ≤ P.blockNumber → t ∈ P.sentIn F.deployer B → t.nonce = nonce →
        checkStep F P nonce t = .ok x → (captureSteps F P nonces x.blockNumber = .ok ys ↔
          List.Forall₂ (OnChain F P lo) nonces ys) := by
      intro B t x ys hlow hB ht hn hx
      obtain ⟨rc,hrc,hblock⟩ := checkStep_block hx
      rw [hblock,hf.receipt B t rc hB (mem_sentIn.1 ht).1 hrc,ih hrest]
      refine ⟨fun h => h.imp ?_,fun h => ?_⟩
      · rintro n y ⟨B',t',hle,hrange⟩
        exact ⟨B',t',hlow.trans hle,hrange⟩
      · refine ((List.forall₂_and_left _ _).2 ⟨fun n hn => hn,h⟩).imp ?_
        rintro n y ⟨hmem,B',t',-,hB',ht',hn',hy⟩
        refine ⟨B',t',hf.same_block hB hB' ht ht' ?_,hB',ht',hn',hy⟩
        rw [hn,hn']
        exact (hfirst n hmem).le
    constructor
    · rintro ⟨t,ht,x,hx,ys,hys,rfl⟩
      obtain ⟨B,hlow,hB,hmem,hn⟩ := (findTxByNonce_eq_ok hf).1 ht
      exact ⟨x,ys,⟨B,t,hlow,hB,hmem,hn,hx⟩,(hmove hlow hB hmem hn hx).1 hys,rfl⟩
    · rintro ⟨x,ys,⟨B,t,hlow,hB,hmem,hn,hx⟩,hys,rfl⟩
      exact ⟨t,(findTxByNonce_eq_ok hf).2 ⟨B,hlow,hB,hmem,hn⟩,x,hx,ys,
        (hmove hlow hB hmem hn hx).2 hys,rfl⟩

end Steps

/-! ## The anchors -/

section Anchors

variable {F : CaptureFiles} {P : Provider} {f : AnchorFile} {s : Snapshot}

theorem creation_ok {label : String} {txHash : Bytes32} {expNonce : ℕ} {src : PlannedTx}
    {slot : Slot} {r : Option Captured × List String}
    (h : verifyCreationAnchor F P label txHash expNonce src slot = .ok r) (herrors : r.2 = []) :
    ∃ t rc x, r.1 = some x ∧ P.transactionByHash txHash = some t ∧
      P.transactionReceipt txHash = some rc ∧ rc.status = 1 ∧ (∀ c ∈ t.chainId, c = 4663) ∧
      t.source = F.deployer ∧ t.nonce = expNonce ∧ t.value = 0 ∧
      F.keccak256 t.input = x.anchor.inputKeccak ∧ x.anchor.originalIndex = expNonce-2 ∧
      x.anchor.nonce = expNonce ∧ x.anchor.signer = F.deployer ∧ x.anchor.txHash = txHash ∧
      x.slot = some slot ∧ x.positionTokenId = none ∧ ∃ created, rc.contractAddress = some created ∧
        x.anchor.createdAddress = some created ∧
        x.anchor.deployedRuntimeCodeHash = some (F.keccak256 (P.code created)) := by
  unfold verifyCreationAnchor at h
  split at h
  · rename_i t rc ht hrc
    simp only [bind_eq_ok,orThrow_eq_ok,pure_eq_ok] at h
    obtain ⟨created,hcreated,rfl⟩ := h
    simp only [List.append_eq_nil_iff,errIf_eq_nil,not_not,not_or,and_assoc] at herrors
    obtain ⟨hstatus,hchain,hsource,hnonce,-,hvalue,-,hhash,-⟩ := herrors
    refine ⟨t,rc,_,rfl,ht,hrc,hstatus,fun c hc => ?_,hsource,hnonce,hvalue,hhash,rfl,rfl,rfl,rfl,
      rfl,rfl,created,hcreated,rfl,rfl⟩
    by_contra hne
    refine hchain ?_
    rw [Option.mem_def.1 hc]
    exact decide_eq_true hne
  · obtain rfl := Except.ok.inj h
    cases herrors

/-- What the operator reads of a transaction and its receipt. -/
structure Reads (t : MinedTx) (rc : MinedReceipt) (tx : ChainTx) (r : Receipt) : Prop where
  chainId : tx.chainId = t.chainId
  source : tx.source = t.source
  nonce : tx.nonce = t.nonce
  value : tx.value = t.value
  input : tx.input = t.input
  status : r.status = rc.status
  contractAddress : r.contractAddress = rc.contractAddress

/-- An anchor that the chain of the provider bears out, to the operator as to the capture. -/
structure BorneOut (F : CaptureFiles) (P : Provider) (anc : Anchor) (t : MinedTx)
    (rc : MinedReceipt) : Prop where
  byHash : P.transactionByHash anc.txHash = some t
  receipt : P.transactionReceipt anc.txHash = some rc
  status : rc.status = 1
  chainId : ∀ c ∈ t.chainId, c = 4663
  sender : t.source = F.deployer ∧ t.nonce = anc.nonce
  value : t.value = 0
  input : F.keccak256 t.input = anc.inputKeccak
  signer : anc.signer = F.deployer
  code : ∀ created codeHash, anc.createdAddress = some created →
    anc.deployedRuntimeCodeHash = some codeHash →
    rc.contractAddress = some created ∧ F.keccak256 (P.code created) = codeHash

theorem BorneOut.checkAnchor {anc : Anchor} {t : MinedTx} {rc : MinedReceipt} {O : Operator}
    {tx : ChainTx} {r : Receipt} (h : BorneOut F P anc t rc) (hO : O.R.keccak256 = F.keccak256)
    (hr : Reads t rc tx r) : O.checkAnchor anc tx r = .ok () := by
  have hchain : tx.chainId.all (· = 4663) = true := by
    rw [hr.chainId]
    cases hc : t.chainId with
    | none => rfl
    | some c => exact decide_eq_true (h.chainId c hc)
  simp only [Operator.checkAnchor,bind_eq_ok,expect_eq_ok,exists_const]
  exact ⟨hchain,hr.status.trans h.status,⟨hr.source.trans (h.sender.1.trans h.signer.symm),
    hr.nonce.trans h.sender.2,hr.value.trans h.value⟩,by rw [hO,hr.input,h.input]⟩

theorem step_borneOut {n : ℕ} {x : Captured} (hf : Faithful P F.deployer)
    (h : OnChain F P (STEP2_BLOCK+1) n x) (herrors : x.errors = []) :
    (∃ t rc, BorneOut F P x.anchor t rc) ∧ x.anchor.originalIndex = n-2 ∧ x.anchor.nonce = n := by
  obtain ⟨B,t,-,hB,ht,hn,hx⟩ := h
  obtain ⟨hblock,hsource⟩ := mem_sentIn.1 ht
  obtain ⟨rc,src,hv⟩ := checkStep_ok hx herrors
  refine ⟨⟨t,rc,?_,?_,hv.status,hv.chainId,⟨hsource,?_⟩,hv.value,?_,hv.signer.trans hsource,?_⟩,
    hv.place⟩
  · rw [hv.txHash]
    exact hf.byHash B t hB hblock
  · rw [hv.txHash]
    exact hv.receipt
  · rw [hv.place.2,hn]
  · rw [hv.inputKeccak]
    exact hv.input.2
  · intro created codeHash hcreated hcode
    obtain ⟨created',hcontract,hhash⟩ := hv.runtimeCodeHash codeHash hcode
    rw [hv.createdAddress,hcontract] at hcreated
    obtain rfl := Option.some.inj hcreated
    exact ⟨hcontract,hhash⟩

theorem creation_borneOut {label : String} {txHash : Bytes32} {expNonce : ℕ} {src : PlannedTx}
    {slot : Slot} {r : Option Captured × List String}
    (h : verifyCreationAnchor F P label txHash expNonce src slot = .ok r) (herrors : r.2 = []) :
    ∃ x, r.1 = some x ∧ (∃ t rc, BorneOut F P x.anchor t rc) ∧
      x.anchor.originalIndex = expNonce-2 ∧ x.anchor.nonce = expNonce := by
  obtain ⟨t,rc,x,hx,ht,hrc,hstatus,hchain,hsource,hnonce,hvalue,hinput,hplace,hanchor,hsigner,
    htxHash,-,-,created,hcontract,hcreated,hcode⟩ := creation_ok h herrors
  refine ⟨x,hx,⟨t,rc,?_,?_,hstatus,hchain,⟨hsource,hnonce.trans hanchor.symm⟩,hvalue,hinput,
    hsigner,?_⟩,hplace,hanchor⟩
  · rw [htxHash]
    exact ht
  · rw [htxHash]
    exact hrc
  · intro created' codeHash hc hh
    rw [hcreated] at hc
    rw [hcode] at hh
    obtain rfl := Option.some.inj hc
    exact ⟨hcontract,Option.some.inj hh⟩

/-- What the files of a capture hold. -/
structure CapturedFiles (F : CaptureFiles) (P : Provider) (f : AnchorFile) (s : Snapshot) :
    Prop where
  places : f.completedSteps.map Anchor.originalIndex = (List.range 13).map (·+1)
  nonces : f.completedSteps.map Anchor.nonce = (List.range 13).map (·+3)
  borneOut : ∀ anc ∈ f.completedSteps, ∃ t rc, BorneOut F P anc t rc
  realized : f.realizedGasWei = realizedSum f.completedSteps
  contracts : ∀ slot ∈ allSlots, s.completedContracts slot ≠ none
  priors : f.priors = ⟨⟨V5_ZIP_SHA,V5_RAD_EXACT⟩,⟨V6_ZIP_SHA,V6_RAD⟩,
    ⟨V7_ZIP_SHA,F.v7RecoveryAuthorizationDigest⟩,⟨V8_ZIP_SHA,V8_RAD⟩⟩
  expectedNonces : s.expectedNonces = ⟨16,2⟩
  positionTokenId : f.positionTokenId = s.positionTokenId

theorem capture_ok (hf : Faithful P F.deployer) (h : capture F P = .ok (.ok (f,s))) :
    CapturedFiles F P f s := by
  simp only [capture,bind_eq_ok,orThrow_eq_ok] at h
  obtain ⟨a1,h1,a2,h2,steps,hsteps,position,-,pinned,-,h⟩ := h
  split at h
  · cases Except.ok.inj h
  · rename_i hfails
    rw [not_not] at hfails
    simp only [List.append_eq_nil_iff,errIf_eq_nil,not_not,List.flatMap_eq_nil_iff,
      and_assoc] at hfails
    obtain ⟨-,he1,he2,hesteps,-,-,hcontracts⟩ := hfails
    obtain ⟨x1,hx1,hb1,hp1,hn1⟩ := creation_borneOut h1 he1
    obtain ⟨x2,hx2,hb2,hp2,hn2⟩ := creation_borneOut h2 he2
    have hchain := (captureSteps_eq_ok hf (by decide)).1 hsteps
    obtain ⟨rfl,rfl⟩ := Prod.mk.inj (Except.ok.inj (Except.ok.inj h))
    have hplaced : List.Forall₂ (fun n x => (∃ t rc, BorneOut F P x.anchor t rc) ∧
        x.anchor.originalIndex = n-2 ∧ x.anchor.nonce = n) ((List.range 11).map (·+5)) steps := by
      refine ((List.forall₂_and_left _ _).2 ⟨fun x hx => hx,hchain.flip⟩).flip.imp ?_
      rintro n x ⟨hx,hn⟩
      exact step_borneOut hf hn (hesteps x hx)
    have hcompleted : a1.1.toList ++ a2.1.toList ++ steps = x1::x2::steps := by
      rw [hx1,hx2]
      rfl
    simp only [hcompleted] at hcontracts ⊢
    refine ⟨?_,?_,?_,?_,?_,rfl,rfl,rfl⟩
    · rw [List.map_map]
      simp only [List.map_cons,Function.comp_apply,hp1,hp2]
      rw [← Pairing.map_eq hplaced (f := fun n => n-2) (g := Anchor.originalIndex ∘ Captured.anchor)
        fun n x hn => hn.2.1.symm]
      rfl
    · rw [List.map_map]
      simp only [List.map_cons,Function.comp_apply,hn1,hn2]
      rw [← Pairing.map_eq hplaced (f := fun n => n) (g := Anchor.nonce ∘ Captured.anchor)
        fun n x hn => hn.2.2.symm]
      rfl
    · intro anc hanc
      simp only [List.map_cons,List.mem_cons,List.mem_map] at hanc
      rcases hanc with rfl | rfl | ⟨x,hx,rfl⟩
      · exact hb1
      · exact hb2
      · obtain ⟨n,-,hn⟩ := Pairing.exists_left hplaced hx
        exact hn.1
    · simp [realizedSum,Function.comp_def]
    · intro slot hslot hnone
      have hall : (allSlots.filter fun slot =>
          (completedContracts (x1::x2::steps) slot).isSome).length = allSlots.length := hcontracts
      have hsome := List.length_filter_eq_length_iff.1 hall slot hslot
      have hnone : completedContracts (x1::x2::steps) slot = none := hnone
      rw [hnone] at hsome
      cases hsome

theorem CapturedFiles.completedErrors (h : CapturedFiles F P f s) {a : Packet} {p : Policy}
    (hsteps : a.completedSteps = f.completedSteps) (hgas : a.realizedGasWei = f.realizedGasWei)
    (hdeployer : p.wallets.deployer = F.deployer) : Recovery.completedErrors a p s = [] := by
  have hlength : f.completedSteps.length = 13 := by
    rw [← List.length_map Anchor.originalIndex,h.places]
    rfl
  simp only [Recovery.completedErrors,List.append_eq_nil_iff,errIf_eq_nil,List.flatMap_eq_nil_iff,
    flatten_mapIdx_eq_nil,Anchor.errors,not_not,Bool.not_eq_false,Option.isNone_iff_eq_none,
    hsteps,hgas]
  refine ⟨⟨⟨⟨hlength,fun i x hx => ?_⟩,?_⟩,h.realized.symm⟩,h.contracts⟩
  · have hplace : x.originalIndex = i+1 := at_index (g := (·+1)) h.places hx
    have hnonce : x.nonce = i+3 := at_index (g := (·+3)) h.nonces hx
    omega
  · rw [completedRange,h.places,decide_eq_true rfl,Bool.true_and,List.all_eq_true]
    intro x hx
    obtain ⟨_,_,hb⟩ := h.borneOut x hx
    exact decide_eq_true (hb.signer.trans hdeployer.symm)

theorem CapturedFiles.priors_iff (h : CapturedFiles F P f s) :
    f.priors = boundPriors ↔ F.v7RecoveryAuthorizationDigest = V7_RAD := by
  rw [h.priors]
  constructor
  · intro heq
    exact congrArg (fun p => p.v7.authorizationDigest) heq
  · rintro heq
    rw [heq]
    rfl

/-- On a chain that counts an account's transactions by their nonces, the loop returns exactly if
the transaction of every nonce is mined from the first block on and can be read as the plan says,
and each nonce has one such transaction: none is missed by searching on from the block of the
last, and none is taken for another. -/
theorem steps_discovered (hf : Faithful P F.deployer) {nonces : List ℕ} {lo : ℕ}
    {xs : List Captured} (hnonces : nonces.Pairwise (· < ·)) :
    (captureSteps F P nonces lo = .ok xs ↔ List.Forall₂ (OnChain F P lo) nonces xs) ∧
      ∀ n x y, OnChain F P lo n x → OnChain F P lo n y → x = y := by
  refine ⟨captureSteps_eq_ok hf hnonces,?_⟩
  rintro n x y ⟨B,t,-,hB,ht,hn,hx⟩ ⟨B',t',-,hB',ht',hn',hy⟩
  obtain ⟨-,rfl⟩ := hf.unique hB hB' ht ht' (hn.trans hn'.symm)
  exact Except.ok.inj (hx.symm.trans hy)

/-- What is said of the files of a capture. -/
structure CaptureVerified (F : CaptureFiles) (P : Provider) (f : AnchorFile) (s : Snapshot) :
    Prop where
  completed : ∀ a p, a.completedSteps = f.completedSteps → a.realizedGasWei = f.realizedGasWei →
    p.wallets.deployer = F.deployer → Recovery.completedErrors a p s = []
  anchors : ∀ anc ∈ f.completedSteps, ∃ t rc, BorneOut F P anc t rc ∧
    ∀ (O : Operator) tx r, O.R.keccak256 = F.keccak256 → Reads t rc tx r →
      O.checkAnchor anc tx r = .ok ()
  binds : ∀ T S g noDuplicateKeys, S.anchorFile = f → generate T S = .ok g →
    (∀ c, T.env.digestOf c ≠ []) →
    ((∃ R, bindAndVerifyPacket T.env (g.inputs T S noDuplicateKeys) = .ok R) ↔
      F.v7RecoveryAuthorizationDigest = V7_RAD ∧
        S.policy.wallets.tester ≠ S.policy.wallets.deployer ∧ noDuplicateKeys = true)

/-- The files of a capture are in order for whatever packet is made of them: the build finds no
error in the anchors, each anchor passes the check of the operator against the chain it was
captured from, and the generated packet is bound if the accepted plan is the one whose digest the
operator knows. -/
theorem captured_verified (hf : Faithful P F.deployer) (h : capture F P = .ok (.ok (f,s))) :
    CaptureVerified F P f s := by
  have hc := capture_ok hf h
  refine ⟨fun a p => hc.completedErrors,fun anc hanc => ?_,?_⟩
  · obtain ⟨t,rc,hb⟩ := hc.borneOut anc hanc
    exact ⟨t,rc,hb,fun O tx r => hb.checkAnchor⟩
  · intro T S g noDuplicateKeys hS hg hdigest
    rw [generated_binds_iff hdigest hg noDuplicateKeys,hS,hc.priors_iff]

end Anchors

/-! A chain on which the deployer's sixteen transactions are mined in three blocks. -/

def sampleHash (bs : Bytes) : Bytes32 := Fin.ofNat (2^256) (bs.length*2^224)

def samplePlanned (i : ℕ) : PlannedTx where
  originalIndex := i
  label := text "step"
  signer := 7
  nonce := i+2
  target := if i ≤ 8 then none else some 40
  dataOrInitCode := [1]
  dataKeccak := sampleHash [1]
  amount := some 5
  predictedCreationAddress := some 50

def sampleCapture : CaptureFiles where
  keccak256 := sampleHash
  policy := samplePolicy
  step1 := samplePlanned 1
  step2 := samplePlanned 2
  deployedRuntimeCodeHashes _ := sampleHash [2]
  lpUsage := sampleLpUsage
  poolSqrtAfter := 2^96
  v7 := (List.range 11).map fun i => samplePlanned (i+3)
  v7Pool := 23
  v7RecoveryAuthorizationDigest := V7_RAD

def sampleTx (nonce : ℕ) : MinedTx where
  hash := if nonce = 3 then ANCHOR1 else if nonce = 4 then ANCHOR2
    else if nonce = 15 then REPORTED_MINT else Fin.ofNat (2^256) nonce
  chainId := some 4663
  source := 7
  nonce := nonce
  target := (samplePlanned (nonce-2)).target
  value := 0
  input := [1]

/-- The block of a nonce. -/
def sampleMined (nonce : ℕ) : ℕ :=
  if nonce < 5 then STEP2_BLOCK else if nonce < 10 then STEP2_BLOCK+1 else STEP2_BLOCK+4

def sampleLogs (nonce : ℕ) : List Log :=
  if nonce = 13 then
    [⟨20,[sampleHash (utf8 "PoolCreated(address,address,uint24,int24,address)")],
      wordBytes 0 ++ wordBytes 23⟩]
  else if nonce = 14 then
    [⟨23,[sampleHash (utf8 "Initialize(uint160,int24)")],Bytes.bigEndian 32 (2^96)⟩]
  else if nonce = 15 then
    [⟨21,[sampleHash (utf8 "IncreaseLiquidity(uint256,uint128,uint256,uint256)")],wordBytes 1⟩,
      ⟨21,[sampleHash (utf8 "Transfer(address,address,uint256)"),0,7,12],[]⟩]
  else [⟨30,[sampleHash (utf8 "Approval(address,address,uint256)"),7,21],wordBytes 5⟩]

def sampleReceipt (nonce : ℕ) : MinedReceipt where
  status := 1
  contractAddress := if nonce ≤ 10 then some 50 else none
  logs := sampleLogs nonce
  blockNumber := sampleMined nonce
  gasUsed := 10^5
  effectiveGasPrice := 10^9

def sampleOf (hash : Bytes32) : Option ℕ := (List.range 16).find? fun n => (sampleTx n).hash = hash

def sampleProvider : Provider where
  chainId := 4663
  blockNumber := STEP2_BLOCK+6
  transactionCount _ B := ((List.range 16).filter fun n => sampleMined n < B+1).length
  latestCount a := if a = 7 then 16 else 2
  pendingCount a := if a = 7 then 16 else 2
  block B := ((List.range 16).filter fun n => sampleMined n = B).map sampleTx
  header _ := sampleBlock
  transactionByHash hash := (sampleOf hash).map sampleTx
  transactionReceipt hash := (sampleOf hash).map sampleReceipt
  code _ := [2]
  call target data :=
    if target = 20 then wordBytes 23
    else if target = 23 then Bytes.bigEndian 32 (2^96)
    else if data.take 4 = selector sampleHash "ownerOf(uint256)" then wordBytes 7
    else (List.range 12).flatMap fun _ => wordBytes 1

theorem filter_lt_succ {α : Type} {f : α → ℕ} {l : List α}
    (h : l.Pairwise fun a b => f a ≤ f b) (B : ℕ) :
    l.filter (fun a => f a < B+1) = l.filter (fun a => f a < B) ++ l.filter (fun a => f a = B) := by
  induction l with
  | nil => rfl
  | cons a l ih =>
    obtain ⟨ha,hl⟩ := List.pairwise_cons.1 h
    have ih := ih hl
    have hlate : B ≤ f a → l.filter (fun a => f a < B) = [] := fun hle =>
      List.filter_eq_nil_iff.2 fun b hb => by
        have := ha b hb
        rw [decide_eq_true_eq]
        omega
    simp only [List.filter_cons,decide_eq_true_eq]
    rcases lt_trichotomy (f a) B with hlt | heq | hgt
    · rw [if_pos (by omega),if_pos hlt,if_neg (by omega),ih,List.cons_append]
    · rw [if_pos (by omega),if_neg (by omega),if_pos heq,ih,hlate heq.ge,List.nil_append,
        List.nil_append]
    · rw [if_neg (by omega),if_neg (by omega),if_neg (by omega),ih]

theorem sample_deployer : sampleCapture.deployer = 7 := rfl

theorem sample_sentIn (B : ℕ) : sampleProvider.sentIn 7 B =
    ((List.range 16).filter fun n => sampleMined n = B).map sampleTx := by
  refine List.filter_eq_self.2 fun t ht => ?_
  obtain ⟨n,-,rfl⟩ := List.mem_map.1 ht
  exact decide_eq_true rfl

theorem sample_sentBefore (B : ℕ) : sampleProvider.sentBefore 7 B =
    ((List.range 16).filter fun n => sampleMined n < B).map sampleTx := by
  induction B with
  | zero =>
    simp only [Nat.not_lt_zero,decide_false,List.filter_false,List.map_nil]
    rfl
  | succ B ih =>
    rw [sentBefore_succ,ih,sample_sentIn,← List.map_append,
      filter_lt_succ (by decide +kernel)]

theorem sample_of (n : ℕ) (hn : n ∈ List.range 16) : sampleOf (sampleTx n).hash = some n := by
  revert n
  decide +kernel

theorem sample_block {B : ℕ} {t : MinedTx} (h : t ∈ sampleProvider.block B) :
    ∃ n ∈ List.range 16, sampleMined n = B ∧ t = sampleTx n := by
  obtain ⟨n,hn,rfl⟩ := List.mem_map.1 h
  obtain ⟨hmem,hB⟩ := List.mem_filter.1 hn
  exact ⟨n,hmem,of_decide_eq_true hB,rfl⟩

theorem sample_faithful : Faithful sampleProvider sampleCapture.deployer where
  count B _ := by
    rw [sample_deployer,sample_sentBefore,List.length_map]
    rfl
  nonces := by
    rw [sample_deployer,sample_sentBefore]
    decide +kernel
  receipt B t rc _ ht hrc := by
    obtain ⟨n,hn,rfl,rfl⟩ := sample_block ht
    have hof : some (sampleReceipt n) = some rc :=
      (congrArg (Option.map sampleReceipt) (sample_of n hn)).symm.trans hrc
    exact congrArg MinedReceipt.blockNumber (Option.some.inj hof).symm
  byHash B t _ ht := by
    obtain ⟨n,hn,rfl,rfl⟩ := sample_block ht
    exact congrArg (Option.map sampleTx) (sample_of n hn)
  future B hB := by
    refine List.map_eq_nil_iff.2 (List.filter_eq_nil_iff.2 fun n _ => ?_)
    have hlast : sampleProvider.blockNumber = STEP2_BLOCK+6 := rfl
    rw [decide_eq_true_eq,sampleMined]
    split_ifs <;> omega

def sampleNonces : List ℕ := (List.range 11).map (·+5)

def sampleCaptured (n : ℕ) : Captured :=
  (checkStep sampleCapture sampleProvider n (sampleTx n)).toOption.getD
    ⟨sampleAnchor 0,none,none,[],0⟩

theorem sample_onChain {n : ℕ} (hn : n ∈ sampleNonces) :
    OnChain sampleCapture sampleProvider (STEP2_BLOCK+1) n (sampleCaptured n) := by
  have hall : ∀ n ∈ sampleNonces,
      (checkStep sampleCapture sampleProvider n (sampleTx n)).isOk = true ∧ n ∈ List.range 16 ∧
        STEP2_BLOCK+1 ≤ sampleMined n ∧ sampleMined n ≤ sampleProvider.blockNumber := by
    decide +kernel
  obtain ⟨hok,hrange,hlow,hhigh⟩ := hall n hn
  refine ⟨sampleMined n,sampleTx n,hlow,hhigh,?_,rfl,?_⟩
  · rw [sample_deployer,sample_sentIn]
    exact List.mem_map_of_mem (List.mem_filter.2 ⟨hrange,decide_eq_true rfl⟩)
  · obtain ⟨x,hx⟩ := exists_eq_ok hok
    rw [sampleCaptured,hx]
    rfl

theorem sample_steps : captureSteps sampleCapture sampleProvider sampleNonces (STEP2_BLOCK+1) =
    .ok (sampleNonces.map sampleCaptured) :=
  (captureSteps_eq_ok sample_faithful (by decide)).2
    (List.forall₂_map_right_iff.2 (List.forall₂_same.2 fun _ hn => sample_onChain hn))

theorem sample_capture : ∃ r, capture sampleCapture sampleProvider = .ok (.ok r) := by
  have hsome : ((capture sampleCapture sampleProvider).toOption.bind Except.toOption).isSome =
      true := by
    rw [capture,show (List.range 11).map (·+5) = sampleNonces from rfl,sample_steps]
    decide +kernel
  cases hr : capture sampleCapture sampleProvider with
  | error e =>
    rw [hr] at hsome
    cases hsome
  | ok x =>
    cases x with
    | error e =>
      rw [hr] at hsome
      cases hsome
    | ok r => exact ⟨r,rfl⟩

theorem sampleSteps_discovered :
    (captureSteps sampleCapture sampleProvider sampleNonces (STEP2_BLOCK+1) =
        .ok (sampleNonces.map sampleCaptured) ↔
      List.Forall₂ (OnChain sampleCapture sampleProvider (STEP2_BLOCK+1)) sampleNonces
        (sampleNonces.map sampleCaptured)) ∧
      ∀ n x y, OnChain sampleCapture sampleProvider (STEP2_BLOCK+1) n x →
        OnChain sampleCapture sampleProvider (STEP2_BLOCK+1) n y → x = y :=
  steps_discovered sample_faithful (by decide)

theorem sampleCapture_verified : ∃ f s,
    capture sampleCapture sampleProvider = .ok (.ok (f,s)) ∧
      CaptureVerified sampleCapture sampleProvider f s := by
  obtain ⟨⟨f,s⟩,h⟩ := sample_capture
  exact ⟨f,s,h,captured_verified sample_faithful h⟩

end Recovery
end Canary
end BpsProtocol
