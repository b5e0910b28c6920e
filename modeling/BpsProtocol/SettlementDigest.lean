import BpsProtocol.GuardedExecutorSafety
import BpsProtocol.LeafEncoding

/-! The digest of a settlement request, on chain and off.
The executor hashes the encoding of a struct, the off-chain code the encoding of a list of
seventeen typed values.  Both are one word a field, in one order. -/
namespace BpsProtocol
namespace GuardedExecutor

open Checked HexText Shared LeafEncoding MerkleProof

abbrev Uint16 := Fin (2^16)

instance neZero_uint16 : NeZero (2^16) := ⟨by norm_num⟩

structure DigestInput where
  domain : Bytes32
  chainId : Uint256
  executor : Address
  registryAddr : Address
  featureId : Uint256
  target : Address
  selector : Bytes4
  sellToken : Address
  buyToken : Address
  sellAmount : Uint256
  minBuyAmount : Uint256
  platformFeeBps : Uint16
  slippageBps : Uint16
  taker : Address
  nonce : Uint256
  deadline : Uint256
  calldataHash : Bytes32
  deriving DecidableEq

/-- A `bytes4` is left-aligned in its word. -/
def selectorWord (selector : Bytes4) : Bytes32 :=
  ⟨selector.val*2^224,by have h := selector.isLt; omega⟩

def uint16Word (n : Uint16) : Bytes32 := n.castLE (by decide)

def DigestInput.words (x : DigestInput) : List Bytes32 :=
  [x.domain,x.chainId,addressWord x.executor,addressWord x.registryAddr,x.featureId,
    addressWord x.target,selectorWord x.selector,addressWord x.sellToken,addressWord x.buyToken,
    x.sellAmount,x.minBuyAmount,uint16Word x.platformFeeBps,uint16Word x.slippageBps,
    addressWord x.taker,x.nonce,x.deadline,x.calldataHash]

/-- `abi.encode` of the struct, all of whose fields are static. -/
def DigestInput.encode (x : DigestInput) : Bytes := x.words.flatMap wordBytes

/-- The widths of a request's types. -/
structure SettlementParams.InRange (p : SettlementParams) : Prop where
  sellAmount : p.sellAmount < 2^256
  minBuyAmount : p.minBuyAmount < 2^256
  platformFeeBps : p.platformFeeBps < 2^16
  slippageBps : p.slippageBps < 2^16
  deadline : p.deadline < 2^256

/-- The struct that `_digestFor` builds. -/
def digestInput (d : Deployment) (chainId : ℕ) (p : SettlementParams) : DigestInput where
  domain := d.guardDomain
  chainId := Fin.ofNat (2^256) chainId
  executor := d.here
  registryAddr := d.registry
  featureId := Fin.ofNat (2^256) swapRouterFeatureId
  target := p.target
  selector := p.selector
  sellToken := p.sellToken
  buyToken := p.buyToken
  sellAmount := Fin.ofNat (2^256) p.sellAmount
  minBuyAmount := Fin.ofNat (2^256) p.minBuyAmount
  platformFeeBps := Fin.ofNat (2^16) p.platformFeeBps
  slippageBps := Fin.ofNat (2^16) p.slippageBps
  taker := d.here
  nonce := p.nonce
  deadline := Fin.ofNat (2^256) p.deadline
  calldataHash := p.calldataHash

/-- The argument of `computeOnchainIntentDigest`: numbers and hexadecimal strings. -/
structure OnchainDigestInput where
  chainId : ℤ
  executor : Text
  registry : Text
  feature : ℤ
  target : Text
  selector : Text
  sellToken : Text
  buyToken : Text
  sellAmountRaw : ℤ
  minBuyAmountRaw : ℤ
  platformFeeBps : ℤ
  slippageBps : ℤ
  taker : Text
  nonce : ℤ
  deadlineSec : ℤ
  calldataHash : Text

inductive ParamType
  | uint (bits : ℕ)
  | bytes (size : ℕ)
  | address

inductive ParamValue
  | number (n : ℤ)
  | hex (t : Text)

def guardDomainText : Text := "BPS-GUARDED-SETTLEMENT/1".toList

def hex32 (x : Bytes32) : Text := '0' :: 'x' :: write 64 x.val

/-- `ONCHAIN_GUARD_DOMAIN` -/
def onchainGuardDomain (keccak256 : Hash) : Text :=
  hex32 (keccak256 (guardDomainText.map fun c => UInt8.ofNat c.toNat))

def uintWord (bits : ℕ) (n : ℤ) : Option Bytes32 :=
  if 0 ≤ n ∧ n < 2^bits then some (Fin.ofNat (2^256) n.toNat) else none

/-- Fixed bytes: the size is compared, then the digits are padded on the right. -/
def bytesWord (size : ℕ) : Text → Option Bytes32
  | '0' :: 'x' :: digits =>
    if (digits.length+1)/2 = size ∧ digits.all isDigit then
      some (Fin.ofNat (2^256) (HexText.value digits*16^(64-digits.length)))
    else none
  | _ => none

/-- One word of `encodeAbiParameters`; no value where viem throws. -/
def encodeParam (keccak256 : Hash) : ParamType → ParamValue → Option Bytes32
  | .uint bits, .number n => uintWord bits n
  | .bytes size, .hex t => bytesWord size t
  | .address, .hex t => viemAddress keccak256 t
  | _, _ => none

def encodeParams (keccak256 : Hash) : List ParamType → List ParamValue → Option (List Bytes32)
  | [], [] => some []
  | t::types, v::values => do
    let word ← encodeParam keccak256 t v
    let words ← encodeParams keccak256 types values
    return word::words
  | _, _ => none

def encodeAbiParameters (keccak256 : Hash) (types : List ParamType) (values : List ParamValue) :
    Option Bytes :=
  (encodeParams keccak256 types values).map (fun words => words.flatMap wordBytes)

def onchainTypes : List ParamType :=
  [.bytes 32,.uint 256,.address,.address,.uint 256,.address,.bytes 4,.address,.address,.uint 256,
    .uint 256,.uint 16,.uint 16,.address,.uint 256,.uint 256,.bytes 32]

def OnchainDigestInput.values (keccak256 : Hash) (i : OnchainDigestInput) : List ParamValue :=
  [.hex (onchainGuardDomain keccak256),.number i.chainId,.hex i.executor,.hex i.registry,
    .number i.feature,.hex i.target,.hex i.selector,.hex i.sellToken,.hex i.buyToken,
    .number i.sellAmountRaw,.number i.minBuyAmountRaw,.number i.platformFeeBps,
    .number i.slippageBps,.hex i.taker,.number i.nonce,.number i.deadlineSec,.hex i.calldataHash]

/-- The bytes that `computeOnchainIntentDigest` hashes. -/
def onchainBytes (keccak256 : Hash) (i : OnchainDigestInput) : Option Bytes :=
  encodeAbiParameters keccak256 onchainTypes (i.values keccak256)

def computeOnchainIntentDigest (keccak256 : Hash) (i : OnchainDigestInput) : Option Text :=
  (onchainBytes keccak256 i).map (fun bytes => hex32 (keccak256 bytes))

/-- A string of `0x` and two digits a byte, in either case. -/
def SpellsBytes (size : ℕ) (t : Text) (n : ℕ) : Prop :=
  ∃ digits, t = '0' :: 'x' :: digits ∧ digits.length = 2*size ∧ (∀ c ∈ digits, isDigit c = true) ∧
    HexText.value digits = n

/-- A string that viem takes for an address. -/
def SpellsAddress (keccak256 : Hash) (t : Text) (a : Address) : Prop :=
  isAddress keccak256 t = true ∧ addressOf t = some a

/-- The off-chain input that stands for a struct. -/
structure Spells (keccak256 : Hash) (i : OnchainDigestInput) (x : DigestInput) : Prop where
  domain : x.domain = keccak256 (guardDomainText.map fun c => UInt8.ofNat c.toNat)
  chainId : i.chainId = x.chainId.val
  executor : SpellsAddress keccak256 i.executor x.executor
  registry : SpellsAddress keccak256 i.registry x.registryAddr
  feature : i.feature = x.featureId.val
  target : SpellsAddress keccak256 i.target x.target
  selector : SpellsBytes 4 i.selector x.selector.val
  sellToken : SpellsAddress keccak256 i.sellToken x.sellToken
  buyToken : SpellsAddress keccak256 i.buyToken x.buyToken
  sellAmount : i.sellAmountRaw = x.sellAmount.val
  minBuyAmount : i.minBuyAmountRaw = x.minBuyAmount.val
  platformFeeBps : i.platformFeeBps = x.platformFeeBps.val
  slippageBps : i.slippageBps = x.slippageBps.val
  taker : SpellsAddress keccak256 i.taker x.taker
  nonce : i.nonce = x.nonce.val
  deadline : i.deadlineSec = x.deadline.val
  calldataHash : SpellsBytes 32 i.calldataHash x.calldataHash.val

section Words

variable {keccak256 : Hash} {t : Text} {n : ℤ}

theorem uintWord_256 (x : Uint256) : uintWord 256 (x.val : ℤ) = some x := by
  have h := x.isLt
  unfold uintWord
  rw [if_pos (by omega)]
  exact congrArg some (Fin.ext (Nat.mod_eq_of_lt h))

theorem uintWord_16 (x : Uint16) : uintWord 16 (x.val : ℤ) = some (uint16Word x) := by
  have h := x.isLt
  unfold uintWord
  rw [if_pos (by omega)]
  apply congrArg some
  apply Fin.ext
  show x.val%2^256 = x.val
  exact Nat.mod_eq_of_lt (by omega)

theorem viemAddress_of_spells {a : Address} (h : SpellsAddress keccak256 t a) :
    viemAddress keccak256 t = some (addressWord a) := by
  rw [viemAddress,if_pos h.1,h.2]
  rfl

/-- A full-width string is one word, its digits the leading ones. -/
theorem bytesWord_of_spells {size n : ℕ} (h : SpellsBytes size t n) :
    bytesWord size t = some (Fin.ofNat (2^256) (n*16^(64-2*size))) := by
  obtain ⟨digits,rfl,hlength,hdigits,rfl⟩ := h
  have hall : digits.all isDigit = true := List.all_eq_true.mpr hdigits
  simp only [bytesWord]
  rw [if_pos ⟨by omega,hall⟩,hlength]

theorem bytesWord_4 {s : Bytes4} (h : SpellsBytes 4 t s.val) :
    bytesWord 4 t = some (selectorWord s) := by
  rw [bytesWord_of_spells h]
  apply congrArg some
  apply Fin.ext
  have hlt := s.isLt
  show s.val*16^56%2^256 = s.val*2^224
  have hpow : (16 : ℕ)^56 = 2^224 := by norm_num
  rw [hpow]
  exact Nat.mod_eq_of_lt (by omega)

theorem bytesWord_32 {x : Bytes32} (h : SpellsBytes 32 t x.val) : bytesWord 32 t = some x := by
  rw [bytesWord_of_spells h]
  apply congrArg some
  apply Fin.ext
  show x.val*16^0%2^256 = x.val
  rw [pow_zero,mul_one]
  exact Nat.mod_eq_of_lt x.isLt

theorem spellsBytes_hex32 (x : Bytes32) : SpellsBytes 32 (hex32 x) x.val := by
  have hlt : x.val < 16^64 := x.isLt.trans_eq (by norm_num)
  exact ⟨write 64 x.val,rfl,write_length 64 x.val,isDigit_of_mem_write,value_write hlt⟩

end Words

/-- Both encoders write the same words, for every struct and every spelling of it. -/
theorem onchainBytes_eq {keccak256 : Hash} {i : OnchainDigestInput} {x : DigestInput}
    (h : Spells keccak256 i x) : onchainBytes keccak256 i = some x.encode := by
  have hdomain : bytesWord 32 (onchainGuardDomain keccak256) = some x.domain := by
    rw [h.domain]
    exact bytesWord_32 (spellsBytes_hex32 _)
  simp only [onchainBytes,encodeAbiParameters,onchainTypes,OnchainDigestInput.values,encodeParams,
    encodeParam,hdomain,h.chainId,h.feature,h.sellAmount,h.minBuyAmount,h.platformFeeBps,
    h.slippageBps,h.nonce,h.deadline,uintWord_256,uintWord_16,viemAddress_of_spells h.executor,
    viemAddress_of_spells h.registry,viemAddress_of_spells h.target,
    viemAddress_of_spells h.sellToken,viemAddress_of_spells h.buyToken,
    viemAddress_of_spells h.taker,bytesWord_4 h.selector,bytesWord_32 h.calldataHash]
  rfl

theorem bigEndian_shift (width k n : ℕ) :
    Bytes.bigEndian (width+k) (n*256^k) = Bytes.bigEndian width n ++ List.replicate k 0 := by
  induction k with
  | zero => simp
  | succ k ih =>
    have hdiv : n*256^(k+1)/256 = n*256^k := by
      rw [pow_succ,← mul_assoc]
      exact Nat.mul_div_cancel _ (by decide)
    have hmod : n*256^(k+1)%256 = 0 := by
      rw [pow_succ,← mul_assoc]
      exact Nat.mul_mod_left _ _
    rw [← add_assoc,Bytes.bigEndian,hdiv,hmod,ih,List.append_assoc,List.replicate_succ']
    rfl

theorem wordBytes_selectorWord (s : Bytes4) :
    wordBytes (selectorWord s) = Bytes.bigEndian 4 s.val ++ List.replicate 28 0 := by
  have h := bigEndian_shift 4 28 s.val
  have hpow : (256 : ℕ)^28 = 2^224 := by norm_num
  rw [hpow] at h
  exact h

theorem wordBytes_ofNat {n : ℕ} (h : n < 2^256) :
    wordBytes (Fin.ofNat (2^256) n) = Bytes.bigEndian 32 n := by
  unfold wordBytes
  rw [Fin.val_ofNat,Nat.mod_eq_of_lt h]

theorem wordBytes_uint16 {n : ℕ} (h : n < 2^16) :
    wordBytes (uint16Word (Fin.ofNat (2^16) n)) = Bytes.bigEndian 32 n := by
  unfold wordBytes uint16Word
  rw [Fin.val_castLE,Fin.val_ofNat,Nat.mod_eq_of_lt h]

/-- The executor hashes the encoding of the struct. -/
theorem digestFor_eq (d : Deployment) {chainId : ℕ} {p : SettlementParams}
    (hchain : chainId < 2^256) (hp : p.InRange) :
    digestFor d chainId p = d.keccak256 (digestInput d chainId p).encode := by
  have hfeature : swapRouterFeatureId < 2^256 := by decide
  simp only [digestFor,DigestInput.encode,DigestInput.words,digestInput,List.flatMap_cons,
    List.flatMap_nil,List.append_nil,wordBytes_selectorWord,wordBytes_ofNat hchain,
    wordBytes_ofNat hfeature,wordBytes_ofNat hp.sellAmount,wordBytes_ofNat hp.minBuyAmount,
    wordBytes_uint16 hp.platformFeeBps,wordBytes_uint16 hp.slippageBps,wordBytes_ofNat hp.deadline,
    List.append_assoc]

theorem selectorWord_injective {s s' : Bytes4} (h : selectorWord s = selectorWord s') : s = s' := by
  have hval : s.val*2^224 = s'.val*2^224 := congrArg Fin.val h
  exact Fin.ext (Nat.eq_of_mul_eq_mul_right (by decide) hval)

theorem uint16Word_injective {n n' : Uint16} (h : uint16Word n = uint16Word n') : n = n' :=
  Fin.castLE_injective _ h

theorem DigestInput.words_injective {x x' : DigestInput} (h : x.words = x'.words) : x = x' := by
  cases x
  cases x'
  simp only [words,List.cons.injEq,and_true] at h
  obtain ⟨rfl,rfl,he,hr,rfl,ht,hs,hsell,hbuy,rfl,rfl,hfee,hslip,htaker,rfl,rfl,rfl⟩ := h
  rw [addressWord_injective he,addressWord_injective hr,addressWord_injective ht,
    selectorWord_injective hs,addressWord_injective hsell,addressWord_injective hbuy,
    uint16Word_injective hfee,uint16Word_injective hslip,addressWord_injective htaker]

theorem DigestInput.encode_injective {x x' : DigestInput} (h : x.encode = x'.encode) : x = x' :=
  words_injective
    (Bytes.flatMap_injective (by decide) wordBytes_length (fun _ _ => wordBytes_injective) h)

theorem ofNat_injective {bits n n' : ℕ} (hn : n < 2^bits) (hn' : n' < 2^bits)
    (h : Fin.ofNat (2^bits) n = Fin.ofNat (2^bits) n') : n = n' := by
  have hval := congrArg Fin.val h
  rwa [Fin.val_ofNat,Fin.val_ofNat,Nat.mod_eq_of_lt hn,Nat.mod_eq_of_lt hn'] at hval

section Binding

variable {d : Deployment} {w w' : World} {p p' : SettlementParams}

/-- What a request's checks bind beside its digest. -/
theorem checkRequest_bound (h : checkRequest d w p = .ok ()) :
    w.chain.chainId = robinhoodChainId ∧ p.integratorFeePresent = false ∧
    d.keccak256 p.callData = p.calldataHash := by
  simp only [checkRequest,bind_eq_ok,revertIf_eq_ok,exists_const] at h
  obtain ⟨hchain,-,-,-,-,-,-,-,-,hintegrator,-,-,-,-,hcalldata,-,-⟩ := h
  exact ⟨not_not.mp hchain,by simpa using hintegrator,not_not.mp hcalldata⟩

/-- Two accepted requests of one executor with one digest are one request. -/
theorem params_eq (hp : p.InRange) (hp' : p'.InRange) (hcheck : checkRequest d w p = .ok ())
    (hcheck' : checkRequest d w' p' = .ok ())
    (hdigest : digestFor d w.chain.chainId p = p.intentDigest)
    (hdigest' : digestFor d w'.chain.chainId p' = p'.intentDigest)
    (heq : p.intentDigest = p'.intentDigest)
    (hfree : Set.InjOn d.keccak256 { b | b ∈ [(digestInput d robinhoodChainId p).encode,
      (digestInput d robinhoodChainId p').encode,p.callData,p'.callData] }) : p = p' := by
  obtain ⟨hchain,hintegrator,hcalldata⟩ := checkRequest_bound hcheck
  obtain ⟨hchain',hintegrator',hcalldata'⟩ := checkRequest_bound hcheck'
  rw [hchain,digestFor_eq d (by decide) hp] at hdigest
  rw [hchain',digestFor_eq d (by decide) hp'] at hdigest'
  have hencode : (digestInput d robinhoodChainId p).encode =
      (digestInput d robinhoodChainId p').encode :=
    hfree (by simp) (by simp) (by rw [hdigest,hdigest',heq])
  have hinput := DigestInput.encode_injective hencode
  simp only [digestInput,DigestInput.mk.injEq,true_and] at hinput
  obtain ⟨htarget,hselector,hsellToken,hbuyToken,hsell,hbuy,hfee,hslip,hnonce,hdeadline,hhash⟩ :=
    hinput
  have hcall : p.callData = p'.callData :=
    hfree (by simp) (by simp) (by rw [hcalldata,hcalldata',hhash])
  have hsell' := ofNat_injective hp.sellAmount hp'.sellAmount hsell
  have hbuy' := ofNat_injective hp.minBuyAmount hp'.minBuyAmount hbuy
  have hfee' := ofNat_injective hp.platformFeeBps hp'.platformFeeBps hfee
  have hslip' := ofNat_injective hp.slippageBps hp'.slippageBps hslip
  have hdeadline' := ofNat_injective hp.deadline hp'.deadline hdeadline
  cases p
  cases p'
  simp only at *
  subst htarget hselector hsellToken hbuyToken hsell' hbuy' hfee' hslip' hdeadline' hnonce hhash
    hcall heq hintegrator hintegrator'
  rfl

end Binding

/-- Parity: whatever spells a struct off chain is encoded to the struct's own encoding, so
that the digest computed off chain is the one the executor recomputes.  Binding: no two
accepted requests of an executor share a digest. -/
theorem digest_parity_and_binding (d : Deployment) :
    (∀ i x, Spells d.keccak256 i x → onchainBytes d.keccak256 i = some x.encode) ∧
    (∀ chainId p i, chainId < 2^256 → p.InRange →
      Spells d.keccak256 i (digestInput d chainId p) →
      computeOnchainIntentDigest d.keccak256 i = some (hex32 (digestFor d chainId p))) ∧
    ∀ (w w' : World) (p p' : SettlementParams), p.InRange → p'.InRange →
      checkRequest d w p = .ok () → checkRequest d w' p' = .ok () →
      digestFor d w.chain.chainId p = p.intentDigest →
      digestFor d w'.chain.chainId p' = p'.intentDigest → p.intentDigest = p'.intentDigest →
      Set.InjOn d.keccak256 { b | b ∈ [(digestInput d robinhoodChainId p).encode,
        (digestInput d robinhoodChainId p').encode,p.callData,p'.callData] } → p = p' := by
  refine ⟨fun i x h => onchainBytes_eq h,fun chainId p i hchain hp h => ?_,
    fun _ _ _ _ hp hp' hcheck hcheck' hdigest hdigest' heq hfree =>
      params_eq hp hp' hcheck hcheck' hdigest hdigest' heq hfree⟩
  rw [computeOnchainIntentDigest,onchainBytes_eq h,digestFor_eq d hchain hp]
  rfl

/-- The sample request, spelled in lower case. -/
def sampleInput : OnchainDigestInput where
  chainId := 4663
  executor := addressText 80
  registry := addressText 70
  feature := 2
  target := addressText 71
  selector := "0x01020304".toList
  sellToken := addressText 40
  buyToken := addressText 50
  sellAmountRaw := 1000
  minBuyAmountRaw := 100
  platformFeeBps := 5
  slippageBps := 100
  taker := addressText 80
  nonce := 1
  deadlineSec := 300
  calldataHash := hex32 (sample.keccak256 [1,2,3,4,5])

theorem spellsAddress_addressText (keccak256 : Hash) (a : Address) :
    SpellsAddress keccak256 (addressText a) a := by
  have hlower : toLowerCase (addressText a) = addressText a :=
    toLowerCase_eq_addressText (addressOf_addressText a)
  exact ⟨by simp [isAddress,hlower],addressOf_addressText a⟩

theorem sampleInput_digest : checkRequest sample sampleStart sampleParams = .ok () ∧
    computeOnchainIntentDigest sample.keccak256 sampleInput =
      some (hex32 (digestFor sample 4663 sampleParams)) := by
  refine ⟨by decide +kernel,(digest_parity_and_binding sample).2.1 4663 sampleParams sampleInput
    (by decide) ⟨by decide,by decide,by decide,by decide,by decide⟩ ?_⟩
  have ha := spellsAddress_addressText sample.keccak256
  exact ⟨rfl,rfl,ha 80,ha 70,rfl,ha 71,⟨"01020304".toList,rfl,rfl,List.all_eq_true.mp rfl,rfl⟩,ha 40,ha 50,rfl,rfl,
    rfl,rfl,ha 80,rfl,rfl,spellsBytes_hex32 _⟩

end GuardedExecutor
end BpsProtocol
