import BpsProtocol.ClaimManagerSolvency
import BpsProtocol.Coordinator
import BpsProtocol.StockVaultAccounting

/-! Conservation across the vault, the coordinator and the claim manager.
An acquisition adds one record and its share to what the vault allocated.  Funding turns
one record to funded, releases its amount and publishes one cycle with it.  Nothing else
touches these books, whatever the adapter and the claimants do. -/
namespace BpsProtocol
namespace Coordinator

open Checked Mapping Erc20

/-- The amount a record assigns to a token. -/
def AcquisitionRecord.amountOf (r : AcquisitionRecord) (token : Address) : ℕ :=
  if r.stockToken = token then r.distributionAmount else 0

/-- The amount a record has released of a token. -/
def AcquisitionRecord.fundedOf (r : AcquisitionRecord) (token : Address) : ℕ :=
  if r.status = .funded then r.amountOf token else 0

/-- What the manager keeps of its books while the others act on it. -/
structure SameFunding (m m' : ClaimManager.Storage) : Prop where
  ownership : m'.ownership = m.ownership
  cycles : m'.cycles = m.cycles
  funded : ∀ c token, (m'.assetFunding c token).funded = (m.assetFunding c token).funded

theorem SameFunding.refl (m : ClaimManager.Storage) : SameFunding m m :=
  ⟨rfl,rfl,fun _ _ => rfl⟩

theorem SameFunding.trans {m m' m'' : ClaimManager.Storage} (h : SameFunding m m')
    (h' : SameFunding m' m'') : SameFunding m m'' :=
  ⟨h'.ownership.trans h.ownership,h'.cycles.trans h.cycles,
    fun c token => (h'.funded c token).trans (h.funded c token)⟩

/-- An update of an entry that keeps its funded amount. -/
theorem SameFunding.of_updated {m m' : ClaimManager.Storage} {c : Uint256} {asset : Address}
    {f : ClaimManager.AssetFunding} {total : ℕ} {event : ClaimManager.Event}
    (h : ClaimManager.Updated m m' c asset f total event)
    (hf : f.funded = (m.assetFunding c asset).funded) : SameFunding m m' := by
  refine ⟨h.ownership,h.cycles,fun x a => ?_⟩
  rw [h.assetFunding,set₂_apply]
  split
  · rename_i hk
    rw [hf,hk.1,hk.2]
  · rfl

variable {s : System} {w w' : World} {sender stockToken : Address}
  {wethAmountIn minStockOut deadline acquisitionId : ℕ}

/-- The calls of accounts outside the system cannot publish, fund or change the owner. -/
theorem foreign_sameFunding {u u' : ClaimManager.World} {tx : ClaimManager.Tx}
    (howner : u.manager.ownership = ⟨s.coordinator.here,0⟩) (h : foreign s u tx = .ok u') :
    SameFunding u.manager u'.manager := by
  unfold foreign at h
  split at h
  · cases h
  rename_i sender hsender
  simp only [bind_eq_ok,revertIf_eq_ok,exists_const] at h
  obtain ⟨hout,h⟩ := h
  have hnot : (u.manager.ownership.owner ≠ sender) ∧ u.manager.ownership.pendingOwner ≠ sender := by
    rw [howner]
    constructor <;>
    · rintro rfl
      simp at hout
  rcases ClaimManager.exec_cases h with ⟨_,rfl,-⟩ | ⟨_,_,rfl,hp⟩ | ⟨_,_,_,_,_,-,hc⟩ | ⟨_,_,_,-,hb⟩ |
    ⟨_,_,_,-,hr⟩ | ⟨_,_,_,rfl,ho,rfl⟩ | ⟨_,_,_,-,-,-,rfl⟩
  · cases hsender
  · cases hsender
    exact absurd hp.owner hnot.1
  · exact .of_updated hc.updated rfl
  · exact ClaimManager.claimAll_preserves (I := fun v : ClaimManager.World => SameFunding u.manager v.manager)
      (fun _ _ _ _ _ hv hc => hv.trans (.of_updated hc.updated rfl)) (.refl _) hb
  · exact .of_updated hr.updated rfl
  · cases hsender
    rcases Ownable.Call.exec_authorized ho with ho | ho
    · exact absurd ho hnot.1
    · exact absurd ho hnot.2
  · exact .refl _

/-- A run of outside calls, as the adapter makes them. -/
theorem acquireStock_sameFunding {b : Behaviour} {timestamp reported : ℕ} {tokens tokens' : Ledger}
    {m m' : ClaimManager.Storage} (howner : m.ownership = ⟨s.coordinator.here,0⟩)
    (h : b.acquireStock s timestamp stockToken wethAmountIn minStockOut deadline (tokens,m) =
      some (reported,(tokens',m'))) : SameFunding m m' := by
  simp only [Behaviour.acquireStock,Option.map_eq_some_iff,Prod.mk.injEq] at h
  obtain ⟨_,-,-,-,rfl⟩ := h
  refine Machine.run_preserves (I := fun v : ClaimManager.World => SameFunding m v.manager) ?_ (.refl m) b.calls
  intro v tx v' hv hx
  exact hv.trans (foreign_sameFunding (hv.ownership.trans howner) hx)

theorem deriveRecord_ok {b a : Counters} {record : AcquisitionRecord}
    (h : deriveRecord stockToken wethAmountIn b a = .ok record) :
    record.status = .recorded ∧ record.stockToken = stockToken ∧
    b.distribution+record.distributionAmount = a.distribution := by
  simp only [deriveRecord,bind_eq_ok,revertIf_eq_ok,sub_eq_ok,mulDiv_eq_ok,exists_const,
    pure_eq_ok] at h
  obtain ⟨_,⟨-,rfl⟩,_,⟨-,rfl⟩,_,⟨hdist,rfl⟩,_,⟨-,rfl⟩,-,-,_,⟨-,rfl⟩,-,_,⟨-,rfl⟩,-,_,-,-,rfl⟩ := h
  exact ⟨rfl,rfl,Nat.add_sub_cancel' hdist⟩

/-- What a successful `executeAndRecordAcquisition` did to the books. -/
structure Recorded (s : System) (w w' : World) (stockToken : Address) : Prop where
  manager : SameFunding w.manager w'.manager
  recorded : ∃ record : AcquisitionRecord,
    record.status = .recorded ∧ record.stockToken = stockToken ∧
    w'.stock.distributionAllocated = set w.stock.distributionAllocated stockToken
      (w.stock.distributionAllocated stockToken+record.distributionAmount) ∧
    w'.coordinator.acquisitions =
      set w.coordinator.acquisitions (w.coordinator.acquisitionCount+1) record
  acquisitionCount : w'.coordinator.acquisitionCount = w.coordinator.acquisitionCount+1
  cycleUsed : w'.coordinator.cycleUsed = w.coordinator.cycleUsed
  cycleAcquisitionId : w'.coordinator.cycleAcquisitionId = w.coordinator.cycleAcquisitionId
  distributionReleased : w'.stock.distributionReleased = w.stock.distributionReleased

theorem executeAndRecordAcquisition_ok {b : Behaviour} {timestamp : ℕ}
    (howner : w.manager.ownership = ⟨s.coordinator.here,0⟩)
    (h : executeAndRecordAcquisition s (b.acquireStock s timestamp) w sender stockToken wethAmountIn
      minStockOut deadline = .ok (acquisitionId,w')) : Recorded s w w' stockToken := by
  simp only [executeAndRecordAcquisition,bind_eq_ok,revertIf_eq_ok,mapError_eq_ok,add_eq_ok,
    exists_const,pure_eq_ok] at h
  obtain ⟨-,-,-,-,-,⟨acquired,u⟩,hu,record,hrecord,_,⟨-,rfl⟩,he⟩ := h
  obtain ⟨rfl,rfl⟩ := Prod.mk.inj he
  have ha := StockVault.executeAcquisition_ok hu
  obtain ⟨tokens,hc,-⟩ := ha.converted
  obtain ⟨approved,called,-,hcall,-⟩ := hc.called
  obtain ⟨hstatus,htoken,hamount⟩ := deriveRecord_ok hrecord
  have hsame := acquireStock_sameFunding (m := w.atVault.others) howner hcall
  refine ⟨hsame,⟨record,hstatus,htoken,?_,rfl⟩,rfl,rfl,rfl,ha.distributionReleased⟩
  show u.stock.distributionAllocated = _
  have hshare : w.stock.distributionAllocated stockToken+record.distributionAmount =
      w.stock.distributionAllocated stockToken+StockVault.distributionShare acquired := by
    simpa [readCounters,ha.distributionAllocated,World.atVault] using hamount
  rw [hshare]
  exact ha.distributionAllocated

theorem releaseExact_ok {amount coordBaseline : ℕ}
    (h : releaseExact s w stockToken amount coordBaseline = .ok w') :
    ∃ u, StockVault.Released s.vault w.atVault u s.coordinator.here stockToken amount ∧
      w' = w.afterVault u := by
  simp only [releaseExact,bind_eq_ok,revertIf_eq_ok,mapError_eq_ok,sub_eq_ok,exists_const,
    pure_eq_ok] at h
  obtain ⟨u,hu,_,⟨-,rfl⟩,-,_,⟨-,rfl⟩,-,-,rfl⟩ := h
  exact ⟨u,StockVault.releaseToDistributionCoordinator_ok hu,rfl⟩

/-- The manager's books after one more cycle of one asset. -/
structure OneCycle (m m' : ClaimManager.Storage) (c : Uint256) (asset : Address) (amount : ℕ) :
    Prop where
  ownership : m'.ownership = m.ownership
  cycles : ∃ cycle : ClaimManager.Cycle, cycle.published = true ∧ m'.cycles = set m.cycles c cycle
  assetFunding : ∃ f : ClaimManager.AssetFunding, f.funded = amount ∧
    m'.assetFunding = set₂ m.assetFunding c asset f

theorem publishExact_ok {p : PublishInputs} {amount coordBaseline : ℕ}
    (h : publishExact s w p stockToken amount coordBaseline = .ok w') :
    OneCycle w.manager w'.manager p.cycleId stockToken amount ∧ w'.stock = w.stock ∧
      w'.coordinator = w.coordinator := by
  simp only [publishExact,bind_eq_ok,revertIf_eq_ok,mapError_eq_ok,sub_eq_ok,exists_const,
    pure_eq_ok] at h
  obtain ⟨l,-,u,hu,l',-,-,_,⟨-,rfl⟩,-,-,rfl⟩ := h
  have hp := (ClaimManager.publishCycle_ok hu).funded
  simp only [PublishInputs.publication,List.zip_cons_cons,List.zip_nil_right,
    ClaimManager.fundAssets,bind_eq_ok] at hp
  obtain ⟨v,hv,hend⟩ := hp
  cases hend
  have hup := (ClaimManager.fundAsset_ok hv).updated
  refine ⟨⟨hup.ownership,⟨(p.publication stockToken amount).cycle,rfl,hup.cycles⟩,
    ⟨_,rfl,hup.assetFunding⟩⟩,rfl,rfl⟩

/-- What a successful `fundRecordedAcquisition` did to the books. -/
structure FundedRecord (w w' : World) (acquisitionId : ℕ) (cycleId : Uint256)
    (record : AcquisitionRecord) : Prop where
  stored : w.coordinator.acquisitions acquisitionId = record
  status : record.status = .recorded
  unused : w.coordinator.cycleUsed cycleId = false
  acquisitions : w'.coordinator.acquisitions = set w.coordinator.acquisitions acquisitionId
    { record with status := .funded, cycleId }
  acquisitionCount : w'.coordinator.acquisitionCount = w.coordinator.acquisitionCount
  cycleUsed : w'.coordinator.cycleUsed = set w.coordinator.cycleUsed cycleId true
  cycleAcquisitionId : w'.coordinator.cycleAcquisitionId =
    set w.coordinator.cycleAcquisitionId cycleId acquisitionId
  distributionAllocated : w'.stock.distributionAllocated = w.stock.distributionAllocated
  distributionReleased : w'.stock.distributionReleased = set w.stock.distributionReleased
    record.stockToken
    (w.stock.distributionReleased record.stockToken+record.distributionAmount)
  manager : OneCycle w.manager w'.manager cycleId record.stockToken record.distributionAmount

theorem fundRecordedAcquisition_ok {p : PublishInputs}
    (h : fundRecordedAcquisition s w sender acquisitionId p = .ok w') :
    FundedRecord w w' acquisitionId p.cycleId (w.coordinator.acquisitions acquisitionId) := by
  simp only [fundRecordedAcquisition,releaseAndFund,bind_eq_ok,revertIf_eq_ok,exists_const,
    pure_eq_ok] at h
  obtain ⟨-,hstatus,hunused,w₁,hrelease,w₂,hpublish,rfl⟩ := h
  obtain ⟨u,hu,rfl⟩ := releaseExact_ok hrelease
  obtain ⟨hone,hstock,hcoordinator⟩ := publishExact_ok hpublish
  have hothers : u.others = w.manager := hu.others
  have hone' : OneCycle w.manager w₂.manager p.cycleId
      (w.coordinator.acquisitions acquisitionId).stockToken
      (w.coordinator.acquisitions acquisitionId).distributionAmount := hothers ▸ hone
  refine ⟨rfl,not_not.mp hstatus,by simpa using hunused,?_,?_,?_,?_,?_,?_,hone'⟩
  · simp [hcoordinator,World.afterVault,Storage.bindCycle]
  · simp [hcoordinator,World.afterVault,Storage.bindCycle]
  · simp [hcoordinator,World.afterVault,Storage.bindCycle]
  · simp [hcoordinator,World.afterVault,Storage.bindCycle]
  · rw [hstock]
    exact hu.distributionAllocated
  · rw [hstock]
    exact hu.distributionReleased

/-- The books of the wired system agree. -/
structure Conserved (s : System) (w : World) : Prop where
  ownership : w.manager.ownership = ⟨s.coordinator.here,0⟩
  recorded : ∀ id, (w.coordinator.acquisitions id).status ≠ .none ↔
    1 ≤ id ∧ id ≤ w.coordinator.acquisitionCount
  allocated : ∀ token, w.stock.distributionAllocated token =
    ∑ id ∈ Finset.Icc 1 w.coordinator.acquisitionCount,
      (w.coordinator.acquisitions id).amountOf token
  released : ∀ token, w.stock.distributionReleased token =
    ∑ id ∈ Finset.Icc 1 w.coordinator.acquisitionCount,
      (w.coordinator.acquisitions id).fundedOf token
  funded : ∀ token, w.stock.distributionReleased token =
    ∑ c, (w.manager.assetFunding c token).funded
  used : ∀ c, w.coordinator.cycleUsed c = true ↔ (w.manager.cycles c).published = true
  unfunded : ∀ c token, (w.manager.cycles c).published = false →
    (w.manager.assetFunding c token).funded = 0
  bound : ∀ c, w.coordinator.cycleUsed c = true →
    (w.coordinator.acquisitions (w.coordinator.cycleAcquisitionId c)).status = .funded ∧
    (w.coordinator.acquisitions (w.coordinator.cycleAcquisitionId c)).cycleId = c
  unique : ∀ id, (w.coordinator.acquisitions id).status = .funded →
    w.coordinator.cycleUsed (w.coordinator.acquisitions id).cycleId = true ∧
    w.coordinator.cycleAcquisitionId (w.coordinator.acquisitions id).cycleId = id

theorem Initial.conserved (h : Initial s w) : Conserved s w := by
  refine ⟨?_,?_,?_,?_,?_,?_,?_,?_,?_⟩ <;>
    simp [h.manager,h.stock,h.coordinator,ClaimManager.Storage.deployed,StockVault.Storage.deployed,
      Storage.deployed,AcquisitionRecord.unset,ClaimManager.Cycle.unset,
      ClaimManager.AssetFunding.unset]
  omega

/-- What the claimants and the adapter do leaves the books of the others as they are. -/
theorem Conserved.of_sameFunding (hs : Conserved s w) (hm : SameFunding w.manager w'.manager)
    (hallocated : w'.stock.distributionAllocated = w.stock.distributionAllocated)
    (hreleased : w'.stock.distributionReleased = w.stock.distributionReleased)
    (hc : w'.coordinator = w.coordinator) : Conserved s w' := by
  refine ⟨hm.ownership.trans hs.ownership,?_,?_,?_,?_,?_,?_,?_,?_⟩
  · rw [hc]; exact hs.recorded
  · rw [hc,hallocated]; exact hs.allocated
  · rw [hc,hreleased]; exact hs.released
  · intro token
    rw [hreleased,hs.funded token]
    exact Finset.sum_congr rfl fun c _ => (hm.funded c token).symm
  · rw [hc,hm.cycles]; exact hs.used
  · intro c token hp
    rw [hm.funded]
    rw [hm.cycles] at hp
    exact hs.unfunded c token hp
  · rw [hc]; exact hs.bound
  · rw [hc]; exact hs.unique

/-- Sums over the records up to a count, when one record below it is overwritten. -/
theorem sum_set_record (f : AcquisitionRecord → ℕ) (acq : ℕ → AcquisitionRecord) {id n : ℕ}
    (record : AcquisitionRecord) (hid : 1 ≤ id ∧ id ≤ n) :
    ∑ i ∈ Finset.Icc 1 n, f (set acq id record i)+f (acq id) =
      ∑ i ∈ Finset.Icc 1 n, f (acq i)+f record := by
  have h := sum_add_of_agree (f := fun i => f (acq i)) (g := fun i => f (set acq id record i))
    (Finset.mem_Icc.mpr hid) (fun i _ hi => by rw [set_other record hi])
  simpa using h

/-- Sums over the records, when one is added. -/
theorem sum_add_record (f : AcquisitionRecord → ℕ) (acq : ℕ → AcquisitionRecord) (n : ℕ)
    (record : AcquisitionRecord) :
    ∑ i ∈ Finset.Icc 1 (n+1), f (set acq (n+1) record i) =
      ∑ i ∈ Finset.Icc 1 n, f (acq i)+f record := by
  rw [Finset.sum_Icc_succ_top (by omega),set_same]
  congr 1
  apply Finset.sum_congr rfl
  intro i hi
  have hle := (Finset.mem_Icc.mp hi).2
  rw [set_other record (by omega)]

/-- An acquisition adds one recorded record, and its share to what is allocated. -/
theorem Recorded.conserved (hs : Conserved s w) (h : Recorded s w w' stockToken) :
    Conserved s w' := by
  obtain ⟨record,hstatus,htoken,hallocated,hacq⟩ := h.recorded
  have hfresh : (w.coordinator.acquisitions (w.coordinator.acquisitionCount+1)).status = .none := by
    by_contra hne
    have := (hs.recorded _).mp hne
    omega
  have hm := h.manager
  refine ⟨hm.ownership.trans hs.ownership,?_,?_,?_,?_,?_,?_,?_,?_⟩
  · intro id
    rw [hacq,h.acquisitionCount,set_apply]
    split
    · simp [hstatus]
      omega
    · rw [hs.recorded id]
      omega
  · intro token
    rw [hacq,h.acquisitionCount,sum_add_record (fun r => r.amountOf token),hallocated,← hs.allocated token,set_apply]
    unfold AcquisitionRecord.amountOf
    rw [htoken]
    by_cases ht : token = stockToken
    · rw [if_pos ht,if_pos ht.symm,ht]
    · rw [if_neg ht,if_neg (Ne.symm ht),Nat.add_zero]
  · intro token
    rw [hacq,h.acquisitionCount,sum_add_record (fun r => r.fundedOf token),h.distributionReleased,← hs.released token]
    simp [AcquisitionRecord.fundedOf,hstatus]
  · intro token
    rw [h.distributionReleased,hs.funded token]
    exact Finset.sum_congr rfl fun c _ => (hm.funded c token).symm
  · rw [h.cycleUsed,hm.cycles]
    exact hs.used
  · intro c token hp
    rw [hm.funded]
    rw [hm.cycles] at hp
    exact hs.unfunded c token hp
  · intro c hc
    rw [h.cycleUsed] at hc
    have hb := hs.bound c hc
    rw [h.cycleAcquisitionId,hacq,set_other]
    · exact hb
    · intro he
      rw [he] at hb
      simp [hfresh] at hb
  · intro id
    rw [hacq,h.cycleUsed,h.cycleAcquisitionId,set_apply]
    split
    · simp [hstatus]
    · exact hs.unique id

/-- Funding turns one record to funded, and adds its amount to what is released and to what
the manager was funded with. -/
theorem FundedRecord.conserved {cycleId : Uint256} {record : AcquisitionRecord}
    (hs : Conserved s w) (h : FundedRecord w w' acquisitionId cycleId record) :
    Conserved s w' := by
  have hrec := h.stored
  have hstatus := h.status
  have hid : 1 ≤ acquisitionId ∧ acquisitionId ≤ w.coordinator.acquisitionCount := by
    rw [← hs.recorded,hrec,hstatus]
    simp
  have hunpublished : (w.manager.cycles cycleId).published = false := by
    cases hp : (w.manager.cycles cycleId).published
    · rfl
    · have hu := (hs.used cycleId).mpr hp
      simp [h.unused] at hu
  obtain ⟨cycle,hcycle,hcycles⟩ := h.manager.cycles
  obtain ⟨f,hf,haf⟩ := h.manager.assetFunding
  refine ⟨h.manager.ownership.trans hs.ownership,?_,?_,?_,?_,?_,?_,?_,?_⟩
  · intro id
    rw [h.acquisitions,h.acquisitionCount,set_apply]
    split
    · rename_i he
      simp [he,hid]
    · exact hs.recorded id
  · intro token
    have hsum := sum_set_record (fun r => r.amountOf token) w.coordinator.acquisitions
      { record with status := .funded, cycleId } hid
    rw [hrec] at hsum
    rw [h.acquisitions,h.acquisitionCount,h.distributionAllocated,hs.allocated token]
    simp only [AcquisitionRecord.amountOf] at hsum ⊢
    omega
  · intro token
    have hsum := sum_set_record (fun r => r.fundedOf token) w.coordinator.acquisitions
      { record with status := .funded, cycleId } hid
    have hold := hs.released token
    rw [hrec] at hsum
    rw [h.acquisitions,h.acquisitionCount,h.distributionReleased,set_apply]
    simp only [AcquisitionRecord.fundedOf,AcquisitionRecord.amountOf,hstatus] at hsum hold ⊢
    by_cases ht : token = record.stockToken
    · subst ht
      simp at hsum ⊢
      omega
    · simp [ht,Ne.symm ht] at hsum ⊢
      omega
  · intro token
    have hold := hs.funded token
    have hzero := hs.unfunded cycleId token hunpublished
    rw [h.distributionReleased,haf,set_apply]
    by_cases ht : token = record.stockToken
    · subst ht
      have hsum := sum_add_of_agree (f := fun c => (w.manager.assetFunding c record.stockToken).funded)
        (g := fun c => (set₂ w.manager.assetFunding cycleId record.stockToken f c
          record.stockToken).funded) (Finset.mem_univ cycleId)
        (fun c _ hc => by rw [set₂_apply,if_neg (fun hk => hc hk.1)])
      simp [set₂_apply,hzero,hf] at hsum ⊢
      omega
    · rw [if_neg ht,hold]
      apply Finset.sum_congr rfl
      intro c _
      rw [set₂_apply,if_neg (fun hk => ht hk.2)]
  · intro c
    rw [h.cycleUsed,hcycles,set_apply,set_apply]
    split
    · simp [hcycle]
    · exact hs.used c
  · intro c token hp
    rw [hcycles,set_apply] at hp
    split at hp
    · simp [hcycle] at hp
    · rename_i hc
      rw [haf,set₂_apply,if_neg (fun hk => hc hk.1)]
      exact hs.unfunded c token hp
  · intro c hc
    rw [h.cycleUsed,set_apply] at hc
    rw [h.cycleAcquisitionId,h.acquisitions]
    by_cases hcc : c = cycleId
    · subst hcc
      simp
    · rw [if_neg hcc] at hc
      have hb := hs.bound c hc
      rw [set_other _ hcc,set_other]
      · exact hb
      · intro he
        rw [he,hrec,hstatus] at hb
        simp at hb
  · intro id
    rw [h.acquisitions,h.cycleUsed,h.cycleAcquisitionId,set_apply]
    split
    · rename_i he
      simp [he]
    · intro hfunded
      obtain ⟨hu,hi⟩ := hs.unique id hfunded
      have hne : (w.coordinator.acquisitions id).cycleId ≠ cycleId := by
        intro he
        rw [he,h.unused] at hu
        cases hu
      rw [set_other _ hne,set_other _ hne]
      exact ⟨hu,hi⟩

/-- What a successful transaction is; the vault obeys the coordinator only. -/
inductive Executed (s : System) (w : World) : World → Prop
  | elapse (seconds : ℕ) : Executed s w { w with timestamp := w.timestamp+seconds }
  | acquired {w' : World} {adapter : Behaviour} {sender stockToken : Address}
      {wethAmountIn minStockOut deadline id : ℕ}
      (h : executeAndRecordAcquisition s (adapter.acquireStock s w.timestamp) w sender stockToken
        wethAmountIn minStockOut deadline = .ok (id,w')) : Executed s w w'
  | funded {w' : World} {sender : Address} {acquisitionId : ℕ} {inputs : PublishInputs}
      (h : fundRecordedAcquisition s w sender acquisitionId inputs = .ok w') : Executed s w w'
  | foreign {tx : ClaimManager.Tx} {u : ClaimManager.World}
      (h : foreign s w.atManager tx = .ok u) : Executed s w (w.afterManager u)

theorem exec_executed {tx : Tx} (h : exec s w tx = .ok w') : Executed s w w' := by
  cases tx with
  | elapse seconds =>
    cases h
    exact .elapse seconds
  | executeAndRecordAcquisition sender stockToken wethAmountIn minStockOut deadline adapter =>
    simp only [exec,bind_eq_ok,pure_eq_ok] at h
    obtain ⟨⟨id,u⟩,hu,rfl⟩ := h
    exact .acquired hu
  | fundRecordedAcquisition sender acquisitionId inputs => exact .funded h
  | foreign tx =>
    simp only [exec,bind_eq_ok,mapError_eq_ok,pure_eq_ok] at h
    obtain ⟨u,hu,rfl⟩ := h
    exact .foreign hu
  | executeAcquisition sender stockToken wethAmountIn minStockOut deadline adapter =>
    simp only [exec,bind_eq_ok,revertIf_eq_ok,mapError_eq_ok,exists_const,pure_eq_ok] at h
    obtain ⟨hne,⟨acquired,u⟩,hu,-⟩ := h
    exact absurd ((StockVault.executeAcquisition_ok hu).executor.trans s.executor) hne
  | releaseToDistributionCoordinator sender stockToken amount =>
    simp only [exec,bind_eq_ok,revertIf_eq_ok,mapError_eq_ok,exists_const,pure_eq_ok] at h
    obtain ⟨hne,u,hu,-⟩ := h
    exact absurd ((StockVault.releaseToDistributionCoordinator_ok hu).executor.trans s.executor) hne

theorem exec_conserved {tx : Tx} (hs : Conserved s w) (h : exec s w tx = .ok w') :
    Conserved s w' := by
  cases exec_executed h with
  | elapse seconds => exact { hs with }
  | acquired hu => exact (executeAndRecordAcquisition_ok hs.ownership hu).conserved hs
  | funded hu => exact (fundRecordedAcquisition_ok hu).conserved hs
  | foreign hu => exact hs.of_sameFunding (foreign_sameFunding hs.ownership hu) rfl rfl rfl

theorem Reachable.conserved (h : Reachable s w) : Conserved s w :=
  Machine.Reachable.invariant (fun _ hi => hi.conserved) (fun _ _ _ hs hx => exec_conserved hs hx) h

/-- In every reachable state of the wired system the records are dense, their amounts are
what the vault allocated, the funded ones what it released and what the manager was funded
with, and a used cycle is a published one with exactly one funded record. -/
theorem wired_books_agree (h : Reachable s w) :
    (∀ id, (w.coordinator.acquisitions id).status ≠ .none ↔
      1 ≤ id ∧ id ≤ w.coordinator.acquisitionCount) ∧
    (∀ token, ∑ id ∈ Finset.Icc 1 w.coordinator.acquisitionCount with
        (w.coordinator.acquisitions id).stockToken = token,
        (w.coordinator.acquisitions id).distributionAmount =
      w.stock.distributionAllocated token) ∧
    (∀ token, ∑ id ∈ Finset.Icc 1 w.coordinator.acquisitionCount with
        (w.coordinator.acquisitions id).status = .funded ∧
        (w.coordinator.acquisitions id).stockToken = token,
        (w.coordinator.acquisitions id).distributionAmount =
      w.stock.distributionReleased token) ∧
    (∀ token, w.stock.distributionReleased token =
      ∑ c with (w.manager.cycles c).published = true, (w.manager.assetFunding c token).funded) ∧
    ∀ c, (w.coordinator.cycleUsed c = true ↔ (w.manager.cycles c).published = true) ∧
      (w.coordinator.cycleUsed c = true ↔ ∃! id,
        (w.coordinator.acquisitions id).status = .funded ∧
        (w.coordinator.acquisitions id).cycleId = c) ∧
      ∀ id, (w.coordinator.acquisitions id).status = .funded →
        (w.coordinator.acquisitions id).cycleId = c → id = w.coordinator.cycleAcquisitionId c := by
  have hs := h.conserved
  have hid : ∀ c id, (w.coordinator.acquisitions id).status = .funded →
      (w.coordinator.acquisitions id).cycleId = c → id = w.coordinator.cycleAcquisitionId c := by
    intro c id hfunded hc
    rw [← hc]
    exact (hs.unique id hfunded).2.symm
  refine ⟨hs.recorded,fun token => ?_,fun token => ?_,fun token => ?_,
    fun c => ⟨hs.used c,⟨fun hc => ?_,?_⟩,hid c⟩⟩
  · rw [hs.allocated token,Finset.sum_filter]
    rfl
  · rw [hs.released token,Finset.sum_filter]
    apply Finset.sum_congr rfl
    intro id _
    simp only [AcquisitionRecord.fundedOf,AcquisitionRecord.amountOf,ite_and]
  · rw [hs.funded token,Finset.sum_filter]
    apply Finset.sum_congr rfl
    intro c _
    cases hp : (w.manager.cycles c).published
    · simp [hs.unfunded c token hp]
    · rfl
  · exact ⟨_,hs.bound c hc,fun id hx => hid c id hx.1 hx.2⟩
  · rintro ⟨id,⟨hfunded,hc⟩,-⟩
    rw [← hc]
    exact (hs.unique id hfunded).1

/-- A wired system for runs on fixed inputs: WETH is token `40`, the one stock token `50`. -/
def sample : System where
  coordinator := ⟨200,201,100,11,12,by decide,by decide,by decide,by decide⟩
  vault := { StockVault.sample with
    distributionFundingCoordinator := 200
    nonzero := by simp [StockVault.sample]
    coordinator_distinct := by simp [StockVault.sample]
    basket_system := by simp [StockVault.sample] }
  manager := ⟨100,1,MerkleProof.toyHash,7⟩
  vault_here := rfl
  manager_here := rfl
  executor := rfl
  releases_to := rfl

/-- An adapter that sells all its input to account `43` for a hundred units of stock. -/
def sampleAdapter : Behaviour :=
  ⟨[.token 40 (.transferFrom 41 201 43 1000),.token 50 (.mint 43 201 100)],some 100⟩

/-- One acquisition, recorded and funded as cycle `5`. -/
def oneFunded : World :=
  Machine.run (exec sample)
    ⟨0,fun _ => Token.empty,.deployed 200,.deployed,.deployed⟩
    [.foreign (.token 40 (.mint 2 201 1000)),
      .executeAndRecordAcquisition 11 50 1000 1 0 sampleAdapter,
      .fundRecordedAcquisition 12 1 ⟨5,1,1,1,10,20⟩]

theorem oneFunded_reachable : Reachable sample oneFunded :=
  (Machine.Reachable.of_init ⟨rfl,rfl,rfl,by decide,by decide,fun _ _ _ _ => rfl,fun _ => rfl⟩).run _

theorem oneFunded_cycle_bound : ∃! id,
    (oneFunded.coordinator.acquisitions id).status = .funded ∧
    (oneFunded.coordinator.acquisitions id).cycleId = 5 :=
  ((wired_books_agree oneFunded_reachable).2.2.2.2 5).2.1.mp (by decide +kernel)

end Coordinator
end BpsProtocol
