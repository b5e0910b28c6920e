import BpsProtocol.ClaimManagerSafety
import BpsProtocol.CoordinatorCustody
import BpsProtocol.CoordinatorLog
import BpsProtocol.Transparency

/-! The `remaining` and `claimed` figures of the report against the claim manager.
The report takes what was funded less what was claimed.  The manager also takes what was
recovered after the deadline, which no fold of the report reads, so the figures agree
exactly while nothing was recovered. -/
namespace BpsProtocol
namespace Transparency

open Checked Coordinator

variable {decodeEventLog : Decoder} {logs : List RawLog} {decoded : List DecodedEvent}
  {s : System} {w : Coordinator.World} {c : Uint256} {asset : Address} {isFixture : Bool}
  {router : List TradeRouter.Event} {row : AcquisitionRow}

/-- The claims that the report sums up are those of the manager's events. -/
theorem claimedByCycleAsset_eq (decoded : List DecodedEvent) (c : Uint256) (asset : Address) :
    claimedByCycleAsset decoded c asset =
      ((ClaimManager.claims (decoded.filterMap (·.event.manager?)) c asset).map Prod.snd).sum := by
  unfold claimedByCycleAsset
  induction decoded with
  | nil => rfl
  | cons d decoded ih =>
    rw [List.map_cons,List.sum_cons,ih,List.filterMap_cons]
    cases hd : d.event with
    | manager e =>
      cases e with
      | claimed x claimant a amount =>
        simp only [claimedOf,hd,LogEvent.manager?,ClaimManager.claims_claimed]
        split <;> simp
      | cyclePublished => simp [claimedOf,hd,LogEvent.manager?,ClaimManager.claims]
      | cycleAssetFunded => simp [claimedOf,hd,LogEvent.manager?,ClaimManager.claims]
      | expiredRecovered => simp [claimedOf,hd,LogEvent.manager?,ClaimManager.claims]
    | router e => simp [claimedOf,hd,LogEvent.manager?]
    | coordinator e => simp [claimedOf,hd,LogEvent.manager?]
    | other => simp [claimedOf,hd,LogEvent.manager?]

theorem lookupLast_eq_some {α κ : Type} [DecidableEq κ] {key : α → κ} {l : List α} {k : κ} {a : α}
    (h : lookupLast key l k = some a) : a ∈ l ∧ key a = k := by
  have hmem := List.mem_of_find?_eq_some h
  have hkey := List.find?_some h
  exact ⟨List.mem_reverse.mp hmem,by simpa using hkey⟩

theorem exists_lookupLast {α κ : Type} [DecidableEq κ] (key : α → κ) {l : List α} {a : α}
    (h : a ∈ l) : ∃ b, lookupLast key l (key a) = some b := by
  rw [← Option.isSome_iff_exists,lookupLast,List.find?_isSome]
  exact ⟨a,List.mem_reverse.mpr h,by simp⟩

/-- What is collected of the coordinator comes from its events. -/
theorem mem_funded {x : AcquisitionFundedEvent} {events : List Coordinator.Event}
    (hp : (decoded.filterMap (·.event.coordinator?)).Perm events)
    (hx : x ∈ decoded.filterMap fundedOf) : ∃ start deadline,
      .acquisitionFunded x.acquisitionId x.cycleId x.stockToken x.amount x.merkleRoot start
        deadline ∈ events := by
  obtain ⟨d,hd,hdx⟩ := List.mem_filterMap.mp hx
  unfold fundedOf at hdx
  split at hdx
  · rename_i start deadline he
    cases hdx
    refine ⟨start,deadline,hp.mem_iff.mp (List.mem_filterMap.mpr ⟨d,hd,?_⟩)⟩
    rw [he]
    rfl
  · cases hdx

/-- Every event of the coordinator is decoded. -/
theorem exists_decoded {events : List Coordinator.Event} {e : Coordinator.Event}
    (hp : (decoded.filterMap (·.event.coordinator?)).Perm events) (he : e ∈ events) :
    ∃ d ∈ decoded, d.event = .coordinator e := by
  obtain ⟨d,hd,hde⟩ := List.mem_filterMap.mp (hp.mem_iff.mpr he)
  refine ⟨d,hd,?_⟩
  cases hev : d.event <;> rw [hev] at hde <;> simp [LogEvent.coordinator?] at hde
  rw [hde]

/-- The rows of the report that are about the distribution of an asset in a cycle. -/
def RowOf (report : TransparencyReport) (c : Uint256) (asset : Address) (row : AcquisitionRow) :
    Prop :=
  row ∈ report.acquisitions ∧ row.cycleId.value = some c ∧ row.stockToken = asset

/-- A row that shows what the manager holds for the cycle and what was claimed of it. -/
structure RowRefines (w : Coordinator.World) (c : Uint256) (asset : Address) (isFixture : Bool)
    (row : AcquisitionRow) : Prop where
  claimed : row.claimed.value = some ((w.manager.assetFunding c asset).claimed : ℤ)
  remaining : ∃ amount, ClaimManager.remaining w.atManager c asset = .ok amount ∧
    row.remaining.value = some (amount : ℤ)
  provenance : row.remaining.provenance = if isFixture then .fixture else .onchainVerified

/-- A funded amount has a row, which the report builds from its two announcements. -/
theorem exists_row (isFixture : Bool) (h : Reachable s w)
    (hp : (decoded.filterMap (·.event.coordinator?)).Perm w.coordinator.events)
    (hfunded : (w.manager.assetFunding c asset).funded ≠ 0) :
    ∃ row, RowOf (aggregate decoded isFixture) c asset row := by
  obtain ⟨id,hid⟩ := h.sourced c asset hfunded
  obtain ⟨x,token,amount,root,start,deadline,hmem⟩ := h.logged.funded_announced id hid.status
  obtain ⟨t,operator,spent,acquired,distribution,reserve,hmem'⟩ :=
    h.logged.recorded_announced id (by simp [hid.status])
  have ht := (h.logged.recorded _ _ _ _ _ _ _ hmem').stockToken.symm.trans hid.stockToken
  obtain ⟨d,hd,hde⟩ := exists_decoded hp hmem
  obtain ⟨d',hd',hde'⟩ := exists_decoded hp hmem'
  have hfund : (⟨id,x,token,amount,root,refOf d⟩ : AcquisitionFundedEvent) ∈
      decoded.filterMap fundedOf := List.mem_filterMap.mpr ⟨d,hd,by simp [fundedOf,hde]⟩
  have hrec : (⟨id,t,spent,acquired,distribution,reserve,refOf d'⟩ : AcquisitionRecordedEvent) ∈
      decoded.filterMap recordedOf := List.mem_filterMap.mpr ⟨d',hd',by simp [recordedOf,hde']⟩
  obtain ⟨f,hf⟩ := exists_lookupLast AcquisitionFundedEvent.acquisitionId hfund
  obtain ⟨hmemf,hidf⟩ := lookupLast_eq_some hf
  obtain ⟨_,_,hannounced⟩ := mem_funded hp hmemf
  have hcycle := (h.logged.funded _ _ _ _ _ _ _ hannounced).cycleId
  rw [hidf] at hcycle
  refine ⟨_,List.mem_map.mpr ⟨_,hrec,rfl⟩,?_,ht⟩
  simp only [acquisitionRow,tag,hf,Option.map_some]
  rw [← hcycle,hid.cycleId]

/-- What a row shows: the claims, and what was funded less the claims. -/
theorem RowOf.figures (h : Reachable s w)
    (hp : (decoded.filterMap (·.event.coordinator?)).Perm w.coordinator.events)
    (hm : (decoded.filterMap (·.event.manager?)).Perm w.manager.events)
    (hfunded : (w.manager.assetFunding c asset).funded ≠ 0)
    (hrow : RowOf (aggregate decoded isFixture) c asset row) :
    row.claimed.value = some ((w.manager.assetFunding c asset).claimed : ℤ) ∧
    row.remaining.value = some (((w.manager.assetFunding c asset).funded : ℤ)-
      (w.manager.assetFunding c asset).claimed) ∧
    row.remaining.provenance = if isFixture then .fixture else .onchainVerified := by
  obtain ⟨hmem,hcycle,htoken⟩ := hrow
  obtain ⟨r,hr,rfl⟩ := List.mem_map.mp hmem
  obtain ⟨id,hid⟩ := h.sourced c asset hfunded
  have hbound := (h.conserved.unique id hid.status).2
  rw [hid.cycleId] at hbound
  -- every announcement of this cycle is the one of its only funded record
  have hsame : ∀ f ∈ decoded.filterMap fundedOf, f.cycleId = c →
      f.stockToken = asset ∧ f.amount = (w.manager.assetFunding c asset).funded := by
    intro f hf hfc
    obtain ⟨_,_,hannounced⟩ := mem_funded hp hf
    have hrecord := h.logged.funded _ _ _ _ _ _ _ hannounced
    have hfid := (h.bound_of_funded hannounced).2.1
    rw [hfc,hbound] at hfid
    rw [← hfid] at hrecord
    exact ⟨hrecord.stockToken.symm.trans hid.stockToken,hrecord.amount.symm.trans hid.amount⟩
  have hclaimed : claimedByCycleAsset decoded c asset =
      (w.manager.assetFunding c asset).claimed := by
    have hsum : (w.manager.assetFunding c asset).claimed =
      ((ClaimManager.claims w.manager.events c asset).map Prod.snd).sum :=
      h.manager.solvent.claimedSum c asset
    rw [claimedByCycleAsset_eq,hsum]
    exact ((hm.filterMap _).map _).sum_eq
  simp only [acquisitionRow,tag,Option.map_eq_some_iff] at hcycle
  obtain ⟨f,hf,hfc⟩ := hcycle
  obtain ⟨hfmem,-⟩ := lookupLast_eq_some hf
  obtain ⟨-,hamount⟩ := hsame f hfmem hfc
  obtain ⟨y,hy⟩ := exists_lookupLast CycleReads.cycleId
    (List.mem_map_of_mem (f := cycleRead decoded) hfmem)
  obtain ⟨hymem,hyc⟩ := lookupLast_eq_some hy
  obtain ⟨g,hg,rfl⟩ := List.mem_map.mp hymem
  obtain ⟨hgtoken,hgamount⟩ := hsame g hg (hyc.trans hfc)
  have hremaining : (cycleRead decoded g).remaining =
      ((w.manager.assetFunding c asset).funded : ℤ)-(w.manager.assetFunding c asset).claimed := by
    simp only [cycleRead] at hyc ⊢
    rw [hyc,hfc,hgtoken,hgamount,hclaimed]
  have hcyc : lookupLast (·.cycleId) ((decoded.filterMap fundedOf).map (cycleRead decoded))
      f.cycleId = some (cycleRead decoded g) := hy
  simp only [acquisitionRow,tag,hf,hcyc,Option.bind_some,Option.map_some,hremaining,hamount,
    Option.isSome_some,if_true]
  exact ⟨congrArg some (by omega),trivial,trivial⟩

/-- Every funded cycle and asset is reported, always with what was claimed of it; the
remaining amount is the manager's exactly while no recovery moved a positive amount. -/
theorem remaining_refines_iff (h : Reachable s w)
    (hread : HistoryRead decodeEventLog logs router w.coordinator.events w.manager.events)
    (hfunded : (w.manager.assetFunding c asset).funded ≠ 0) :
    (∃ row, RowOf (aggregate (decodeLogs decodeEventLog logs) isFixture) c asset row) ∧
    ((∀ row, RowOf (aggregate (decodeLogs decodeEventLog logs) isFixture) c asset row →
      RowRefines w c asset isFixture row) ↔
    ∀ target amount, .expiredRecovered c asset target amount ∈ w.manager.events → amount = 0) := by
  obtain ⟨-,hp,hm⟩ := hread.perms
  have hrow := exists_row isFixture h hp hfunded
  refine ⟨hrow,?_⟩
  have hs := h.manager.solvent
  have hcovered := (hs.sound c asset).covered
  have hok := hs.remaining_eq c asset
  have hsum : (w.manager.assetFunding c asset).recovered = 0 ↔
      ∀ target amount, .expiredRecovered c asset target amount ∈ w.manager.events → amount = 0 := by
    rw [show (w.manager.assetFunding c asset).recovered = _ from h.manager.recoveredSum c asset,
      List.sum_eq_zero_iff]
    simp only [ClaimManager.recoveries,World.atManager,List.mem_map,List.mem_filterMap]
    constructor
    · intro hzero target amount hmem
      exact hzero amount ⟨(target,amount),⟨_,hmem,by simp⟩,rfl⟩
    · rintro hzero _ ⟨⟨target,amount⟩,⟨e,he,hx⟩,rfl⟩
      split at hx
      · split_ifs at hx with hk
        cases hx
        rw [hk.1,hk.2] at he
        exact hzero _ _ he
      · cases hx
  rw [← hsum]
  simp only [World.atManager,ClaimManager.AssetFunding.outstanding] at hok hcovered
  constructor
  · intro hall
    obtain ⟨row,hr⟩ := hrow
    obtain ⟨-,hrem,-⟩ := hr.figures h hp hm hfunded
    obtain ⟨amount,hamount,hshown⟩ := (hall row hr).remaining
    rw [hrem,Option.some.injEq] at hshown
    rw [World.atManager,hok,Except.ok.injEq] at hamount
    omega
  · intro hzero row hr
    obtain ⟨hclaimed,hrem,hprov⟩ := hr.figures h hp hm hfunded
    refine ⟨hclaimed,⟨_,hok,?_⟩,hprov⟩
    rw [hrem,Option.some.injEq]
    omega

/-- The logs of a world of the wired system, for runs on fixed inputs. -/
def sampleEvents (w : Coordinator.World) : List LogEvent :=
  w.coordinator.events.map LogEvent.coordinator ++ w.manager.events.map LogEvent.manager

theorem sample_read (w : Coordinator.World) :
    HistoryRead (sampleDecoder (sampleEvents w)) (sampleLogs (sampleEvents w)) []
      w.coordinator.events w.manager.events :=
  sample_historyRead [] w.coordinator.events w.manager.events

theorem oneFunded_reported : ∃ row, RowOf (aggregate (decodeLogs (sampleDecoder
    (sampleEvents oneFunded)) (sampleLogs (sampleEvents oneFunded))) false) 5 50 row :=
  (remaining_refines_iff oneFunded_reachable (sample_read oneFunded) (by decide +kernel)).1

/-- The distribution of the only cycle is recovered after its deadline. -/
def oneRecovered : Coordinator.World :=
  Machine.run (exec sample) oneFunded [.elapse 21,.foreign (.recoverExpired 3 5 50)]

/-- The report still shows all of it as remaining, and verified on chain. -/
theorem oneRecovered_drifts :
    Reachable sample oneRecovered ∧
    HistoryRead (sampleDecoder (sampleEvents oneRecovered)) (sampleLogs (sampleEvents oneRecovered))
      [] oneRecovered.coordinator.events oneRecovered.manager.events ∧
    ClaimManager.remaining oneRecovered.atManager 5 50 = .ok 0 ∧
    (aggregate (decodeLogs (sampleDecoder (sampleEvents oneRecovered))
      (sampleLogs (sampleEvents oneRecovered))) false).acquisitions.map
        (fun row => (row.cycleId.value,row.stockToken,row.remaining)) =
      [(some 5,50,⟨some 80,.onchainVerified⟩)] :=
  ⟨oneFunded_reachable.run _,sample_read oneRecovered,by decide +kernel,by decide +kernel⟩

end Transparency
end BpsProtocol
