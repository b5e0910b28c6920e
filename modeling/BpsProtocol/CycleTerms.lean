import BpsProtocol.AllocationFairness
import BpsProtocol.CyclePublication
import BpsProtocol.ProofOfDistribution
import BpsProtocol.SnapshotSettlement

/-! The terms of a cycle as the off-chain engines compute them, and their way to the contract.
Numbers are bigints and addresses are texts there.  What the call data can hold and what the
manager accepts are requirements of the terms. -/
namespace BpsProtocol
namespace CycleTerms

open Checked ClaimManager HexText LeafEncoding MerkleProof Shared
open SnapshotPipeline (uintArgument encodePublishCycle SnapshotRequest SnapshotRunResult)

/-- The arguments of `publishCycle`, with the amount that funds each asset. -/
structure Terms where
  cycleId : ℤ
  merkleRoot : Bytes32
  allocationsContentHash : Bytes32
  manifestEnvelopeHash : Bytes32
  claimStart : ℤ
  claimDeadline : ℤ
  funding : List (Text × ℤ)

variable (keccak256 : Hash)

def encodeFunding : List (Text × ℤ) → Option (List (Address × ℕ))
  | [] => some []
  | x::funding => do
    let _ ← viemAddress keccak256 x.1
    let token ← addressOf x.1
    let amount ← uintArgument 256 x.2
    let rest ← encodeFunding funding
    return (token,amount)::rest

/-- `encodeFunctionData` of `publishCycle`; no value where viem throws. -/
def Terms.encode (t : Terms) : Option Publication := do
  let cycleId ← uint256 t.cycleId
  let claimStart ← uintArgument 64 t.claimStart
  let claimDeadline ← uintArgument 64 t.claimDeadline
  let funding ← encodeFunding keccak256 t.funding
  return {
    cycleId,claimStart,claimDeadline
    merkleRoot := t.merkleRoot
    allocationsContentHash := t.allocationsContentHash
    manifestEnvelopeHash := t.manifestEnvelopeHash
    assets := funding.map Prod.fst
    fundedAmounts := funding.map Prod.snd }

/-- A cycle of these terms can be created. -/
def Terms.Creatable (t : Terms) (d : Deployment) (w : World) (sender : Address) : Prop :=
  ∃ p w', t.encode keccak256 = some p ∧ publishCycle d w sender p = .ok w'

/-- A reachable manager whose owner holds and has approved what the terms need, before the
claim window opens; the cycle does not exist yet. -/
structure Ready (d : Deployment) (w : World) (sender : Address) (t : Terms) : Prop where
  reachable : Reachable d w
  owner : w.manager.ownership.owner = sender
  sender_ne_zero : sender ≠ 0
  sender_ne_here : sender ≠ d.here
  unpublished : ∀ c, uint256 t.cycleId = some c → (w.manager.cycles c).published = false
  early : (w.timestamp : ℤ) < t.claimStart
  funded : ∀ x ∈ t.funding, ∀ a n, addressOf x.1 = some a → uintArgument 256 x.2 = some n →
    n ≤ (w.tokens a).balanceOf sender ∧ n ≤ (w.tokens a).allowance sender d.here

/-- The ranges and the order that the call data and the manager ask for. -/
structure Terms.Meets (t : Terms) : Prop where
  cycleId : 0 ≤ t.cycleId ∧ t.cycleId < 2^256
  merkleRoot : t.merkleRoot ≠ 0
  allocationsContentHash : t.allocationsContentHash ≠ 0
  manifestEnvelopeHash : t.manifestEnvelopeHash ≠ 0
  window : t.claimStart < t.claimDeadline
  deadline : t.claimDeadline < 2^64
  nonempty : t.funding ≠ []
  assets : ∀ x ∈ t.funding, isAddress keccak256 x.1 = true ∧ addressOf x.1 ≠ some 0
  amounts : ∀ x ∈ t.funding, 0 < x.2 ∧ x.2 < 2^256
  distinct : (t.funding.map fun x => addressOf x.1).Nodup

variable {keccak256}

theorem uintArgument_eq_some {bits : ℕ} {n : ℤ} {m : ℕ} :
    uintArgument bits n = some m ↔ n = m ∧ m < 2^bits := by
  unfold uintArgument
  by_cases h : 0 ≤ n ∧ n < 2^bits
  · rw [if_pos h,Option.some.injEq]
    constructor
    · rintro rfl
      refine ⟨by omega,?_⟩
      zify
      rw [Int.toNat_of_nonneg h.1]
      exact h.2
    · rintro ⟨rfl,-⟩
      exact Int.toNat_natCast m
  · rw [if_neg h]
    simp only [reduceCtorEq,false_iff]
    rintro ⟨rfl,hm⟩
    exact h ⟨Int.natCast_nonneg m,by exact_mod_cast hm⟩

theorem isAddress_of_viemAddress {a : Text} {word : Bytes32}
    (h : viemAddress keccak256 a = some word) : isAddress keccak256 a = true := by
  by_contra hne
  rw [viemAddress,if_neg hne] at h
  cases h

theorem addressOf_of_isAddress {a : Text} (h : isAddress keccak256 a = true) :
    ∃ token, addressOf a = some token ∧ viemAddress keccak256 a = some (addressWord token) := by
  have hhex : isHexAddress a = true := by
    simp only [isAddress,Bool.and_eq_true] at h
    exact h.1
  have htoken : addressOf a = some (Fin.ofNat (2^160) (HexText.value (a.drop 2))) := if_pos hhex
  refine ⟨_,htoken,?_⟩
  rw [viemAddress,if_pos h,htoken]
  rfl

/-- One entry of the funding and its encoding. -/
structure Encodes (keccak256 : Hash) (x : Text × ℤ) (y : Address × ℕ) : Prop where
  valid : isAddress keccak256 x.1 = true
  token : addressOf x.1 = some y.1
  amount : uintArgument 256 x.2 = some y.2

theorem encodeFunding_eq_some {funding : List (Text × ℤ)} {pairs : List (Address × ℕ)} :
    encodeFunding keccak256 funding = some pairs ↔
      List.Forall₂ (Encodes keccak256) funding pairs := by
  induction funding generalizing pairs with
  | nil => simp [encodeFunding,eq_comm]
  | cons x funding ih =>
    simp only [encodeFunding,Option.bind_eq_bind,Option.bind_eq_some_iff,Option.pure_def,
      Option.some.injEq,ih]
    constructor
    · rintro ⟨word,hword,token,htoken,amount,hamount,rest,hrest,rfl⟩
      exact .cons ⟨isAddress_of_viemAddress hword,htoken,hamount⟩ hrest
    · intro h
      cases h with
      | cons hx hrest =>
        obtain ⟨token,-,hword⟩ := addressOf_of_isAddress hx.valid
        exact ⟨_,hword,_,hx.token,_,hx.amount,_,hrest,rfl⟩

theorem encodeFunding_succeeds {funding : List (Text × ℤ)}
    (hassets : ∀ x ∈ funding, isAddress keccak256 x.1 = true)
    (hamounts : ∀ x ∈ funding, 0 < x.2 ∧ x.2 < 2^256) :
    ∃ pairs, List.Forall₂ (Encodes keccak256) funding pairs := by
  induction funding with
  | nil => exact ⟨[],.nil⟩
  | cons x funding ih =>
    rw [List.forall_mem_cons] at hassets hamounts
    obtain ⟨pairs,hpairs⟩ := ih hassets.2 hamounts.2
    obtain ⟨token,htoken,-⟩ := addressOf_of_isAddress hassets.1
    refine ⟨(token,x.2.toNat)::pairs,.cons ⟨hassets.1,htoken,?_⟩ hpairs⟩
    exact if_pos ⟨hamounts.1.1.le,hamounts.1.2⟩

/-- The encoded terms. -/
structure Encoded (keccak256 : Hash) (t : Terms) (p : Publication)
    (pairs : List (Address × ℕ)) : Prop where
  cycleId : uint256 t.cycleId = some p.cycleId
  claimStart : uintArgument 64 t.claimStart = some p.claimStart
  claimDeadline : uintArgument 64 t.claimDeadline = some p.claimDeadline
  funding : List.Forall₂ (Encodes keccak256) t.funding pairs
  merkleRoot : p.merkleRoot = t.merkleRoot
  allocationsContentHash : p.allocationsContentHash = t.allocationsContentHash
  manifestEnvelopeHash : p.manifestEnvelopeHash = t.manifestEnvelopeHash
  assets : p.assets = pairs.map Prod.fst
  fundedAmounts : p.fundedAmounts = pairs.map Prod.snd

theorem Terms.encode_eq_some {t : Terms} {p : Publication} :
    t.encode keccak256 = some p ↔ ∃ pairs, Encoded keccak256 t p pairs := by
  simp only [Terms.encode,Option.bind_eq_bind,Option.bind_eq_some_iff,Option.pure_def,
    Option.some.injEq,encodeFunding_eq_some]
  constructor
  · rintro ⟨cycleId,hcycle,start,hstart,deadline,hdeadline,pairs,hpairs,rfl⟩
    exact ⟨pairs,hcycle,hstart,hdeadline,hpairs,rfl,rfl,rfl,rfl,rfl⟩
  · rintro ⟨pairs,h⟩
    refine ⟨_,h.cycleId,_,h.claimStart,_,h.claimDeadline,_,h.funding,?_⟩
    rw [← h.merkleRoot,← h.allocationsContentHash,← h.manifestEnvelopeHash,← h.assets,
      ← h.fundedAmounts]

namespace Encoded

variable {t : Terms} {p : Publication} {pairs : List (Address × ℕ)}

theorem zip (h : Encoded keccak256 t p pairs) : p.assets.zip p.fundedAmounts = pairs := by
  rw [h.assets,h.fundedAmounts,List.zip_map',List.map_id']

theorem nodup_iff (h : Encoded keccak256 t p pairs) :
    p.assets.Nodup ↔ (t.funding.map fun x => addressOf x.1).Nodup := by
  rw [Pairing.map_eq h.funding (f := fun x => addressOf x.1) (g := fun y => some y.1)
    fun x y hxy => hxy.token,h.assets,← List.nodup_map_iff (Option.some_injective _),List.map_map]
  rfl

theorem covers {d : Deployment} {w : World} {sender : Address} (h : Encoded keccak256 t p pairs)
    (hw : Ready d w sender t) : ∀ y ∈ pairs, Covers d w sender p.cycleId y.1 y.2 := by
  intro y hy
  obtain ⟨x,hx,hxy⟩ := Pairing.exists_left h.funding hy
  have hsolvent := hw.reachable.solvent
  have hfunded := hw.funded x hx y.1 y.2 hxy.token hxy.amount
  refine ⟨?_,hfunded.2,hfunded.1,hsolvent.covered y.1⟩
  by_contra hregistered
  have hpublished := hsolvent.published p.cycleId y.1 (by simpa using hregistered)
  rw [hw.unpublished _ h.cycleId] at hpublished
  cases hpublished

theorem meets {timestamp : ℕ} (h : Encoded keccak256 t p pairs) (ha : Acceptable timestamp p) :
    t.Meets keccak256 := by
  have hcycle := uint256_eq_some.1 h.cycleId
  have hstart := (uintArgument_eq_some.1 h.claimStart).1
  obtain ⟨hdeadline,hbound⟩ := uintArgument_eq_some.1 h.claimDeadline
  have hwindow := ha.claimDeadline
  refine
    { cycleId := ?_
      merkleRoot := h.merkleRoot ▸ ha.merkleRoot
      allocationsContentHash := h.allocationsContentHash ▸ ha.allocationsContentHash
      manifestEnvelopeHash := h.manifestEnvelopeHash ▸ ha.manifestEnvelopeHash
      window := by omega
      deadline := by omega
      nonempty := ?_
      assets := fun x hx => ?_
      amounts := fun x hx => ?_
      distinct := h.nodup_iff.1 ha.distinct }
  · have hlt : (p.cycleId.val : ℤ) < 2^256 := by exact_mod_cast p.cycleId.isLt
    omega
  · intro hnil
    have hpairs := h.funding
    rw [hnil,List.forall₂_nil_left_iff] at hpairs
    exact ha.assets (by rw [h.assets,hpairs]; rfl)
  · obtain ⟨y,hy,hxy⟩ := Pairing.exists_right h.funding hx
    refine ⟨hxy.valid,?_⟩
    rw [hxy.token]
    intro hzero
    exact (ha.funding y (h.zip.symm ▸ hy)).1 (Option.some.inj hzero)
  · obtain ⟨y,hy,hxy⟩ := Pairing.exists_right h.funding hx
    obtain ⟨hamount,hbound⟩ := uintArgument_eq_some.1 hxy.amount
    have hpos := (ha.funding y (h.zip.symm ▸ hy)).2
    have hlt : (y.2 : ℤ) < 2^256 := by exact_mod_cast hbound
    omega

theorem acceptable {timestamp : ℕ} (h : Encoded keccak256 t p pairs) (hm : t.Meets keccak256)
    (hearly : (timestamp : ℤ) < t.claimStart) : Acceptable timestamp p := by
  have hstart := (uintArgument_eq_some.1 h.claimStart).1
  have hdeadline := (uintArgument_eq_some.1 h.claimDeadline).1
  have hwindow := hm.window
  refine
    { merkleRoot := h.merkleRoot ▸ hm.merkleRoot
      allocationsContentHash := h.allocationsContentHash ▸ hm.allocationsContentHash
      manifestEnvelopeHash := h.manifestEnvelopeHash ▸ hm.manifestEnvelopeHash
      claimStart := by omega
      claimDeadline := by omega
      assets := fun hnil => ?_
      lengths := by rw [h.assets,h.fundedAmounts,List.length_map,List.length_map]
      funding := fun y hy => ?_
      distinct := h.nodup_iff.2 hm.distinct }
  · have hpairs := h.funding
    rw [h.assets,List.map_eq_nil_iff] at hnil
    rw [hnil,List.forall₂_nil_right_iff] at hpairs
    exact hm.nonempty hpairs
  · rw [h.zip] at hy
    obtain ⟨x,hx,hxy⟩ := Pairing.exists_left h.funding hy
    have hne := (hm.assets x hx).2
    rw [hxy.token] at hne
    have hamount := (uintArgument_eq_some.1 hxy.amount).1
    have hpos := (hm.amounts x hx).1
    exact ⟨fun hzero => hne (by rw [hzero]),by omega⟩

end Encoded

theorem Terms.Meets.encoded {timestamp : ℕ} {t : Terms} (h : t.Meets keccak256)
    (hearly : (timestamp : ℤ) < t.claimStart) : ∃ p pairs, Encoded keccak256 t p pairs := by
  obtain ⟨pairs,hpairs⟩ := encodeFunding_succeeds (fun x hx => (h.assets x hx).1) h.amounts
  have hwindow := h.window
  have hdeadline := h.deadline
  exact ⟨⟨_,_,_,_,_,_,_,_⟩,pairs,if_pos h.cycleId,if_pos ⟨by omega,by omega⟩,
    if_pos ⟨by omega,by omega⟩,hpairs,rfl,rfl,rfl,rfl,rfl⟩

/-- In a ready world exactly the terms that meet the requirements can be created. -/
theorem Ready.creatable_iff {d : Deployment} {w : World} {sender : Address} {t : Terms}
    (hw : Ready d w sender t) : t.Creatable keccak256 d w sender ↔ t.Meets keccak256 := by
  have hpublish {p : Publication} {pairs : List (Address × ℕ)} (h : Encoded keccak256 t p pairs) :
      (∃ w', publishCycle d w sender p = .ok w') ↔ Acceptable w.timestamp p :=
    publishCycle_succeeds_iff hw.reachable.solvent.here_ne_zero hw.sender_ne_zero
      hw.sender_ne_here hw.owner (hw.unpublished _ h.cycleId) (h.zip ▸ h.covers hw)
  constructor
  · rintro ⟨p,w',hp,hw'⟩
    obtain ⟨pairs,h⟩ := Terms.encode_eq_some.1 hp
    exact h.meets ((hpublish h).1 ⟨w',hw'⟩)
  · intro h
    obtain ⟨p,pairs,hp⟩ := h.encoded hw.early
    obtain ⟨w',hw'⟩ := (hpublish hp).2 (hp.acceptable h hw.early)
    exact ⟨p,w',Terms.encode_eq_some.2 ⟨pairs,hp⟩,hw'⟩

end CycleTerms
end BpsProtocol
