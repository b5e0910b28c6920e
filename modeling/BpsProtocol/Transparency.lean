import BpsProtocol.Coordinator
import BpsProtocol.TradeRouter

/-! The transparency read model: logs are decoded, deduplicated and folded into a report.
The decoder of one log is a parameter.  Everything the report says of an acquisition or of
a total comes from the decoded events. -/
namespace BpsProtocol
namespace Transparency

/-- An event of the three frozen ABIs; nothing is read from the others of them. -/
inductive LogEvent
  | router (event : TradeRouter.Event)
  | coordinator (event : Coordinator.Event)
  | manager (event : ClaimManager.Event)
  | other
  deriving DecidableEq

/-- A log as the client formats it; a malformed one lacks some part. -/
structure RawLog where
  address : Address
  topics : Option (List Bytes32)
  data : Option Bytes
  blockNumber : Option ℕ
  transactionHash : Option Bytes32
  logIndex : Option ℕ

structure DecodedEvent where
  event : LogEvent
  blockNumber : ℕ
  transactionHash : Bytes32
  logIndex : ℕ
  address : Address
  deriving DecidableEq

/-- `decodeEventLog`, which throws on data it cannot match. -/
abbrev Decoder := List Bytes32 → Bytes → Option LogEvent

/-- The block, the transaction and the index that identify a log. -/
abbrev LogKey := Option ℕ × Bytes32 × ℕ

/-- The parts of a well-formed log. -/
def RawLog.parts (l : RawLog) : Option (List Bytes32 × Bytes × Bytes32 × ℕ) :=
  match l.topics,l.data,l.transactionHash,l.logIndex with
  | some (t::topics),some data,some transactionHash,some logIndex =>
    some (t::topics,data,transactionHash,logIndex)
  | _,_,_,_ => none

/-- The loop of `decodeLogs`, with the keys it has seen. -/
def decodeFrom (decodeEventLog : Decoder) (seen : List LogKey) : List RawLog → List DecodedEvent
  | [] => []
  | l::logs =>
    match l.parts with
    | none => decodeFrom decodeEventLog seen logs
    | some (topics,data,transactionHash,logIndex) =>
      let key := (l.blockNumber,transactionHash,logIndex)
      if key ∈ seen then decodeFrom decodeEventLog seen logs
      else match decodeEventLog topics data with
        | none => decodeFrom decodeEventLog (key::seen) logs
        | some event =>
          ⟨event,l.blockNumber.getD 0,transactionHash,logIndex,l.address⟩::
            decodeFrom decodeEventLog (key::seen) logs

def decodeLogs (decodeEventLog : Decoder) (logs : List RawLog) : List DecodedEvent :=
  decodeFrom decodeEventLog [] logs

inductive Provenance
  | onchainVerified
  | derived
  | offchainArtifact
  | unavailable
  | fixture
  deriving DecidableEq

structure Tagged (α : Type) where
  value : α
  provenance : Provenance
  deriving DecidableEq

/-- The transaction and the block of an event, and the emitting contract. -/
structure EventRef where
  txHash : Bytes32
  blockNumber : ℕ
  emitter : Address
  deriving DecidableEq

inductive TradeKind
  | buy
  | sell
  deriving DecidableEq

structure OfficialTradeEvent where
  kind : TradeKind
  stockBudget : ℕ
  bpsBurned : ℕ
  gross : ℕ
  ref : EventRef

structure AcquisitionRecordedEvent where
  acquisitionId : ℕ
  stockToken : Address
  wethSpent : ℕ
  acquiredStock : ℕ
  distributionAmount : ℕ
  reserveAmount : ℕ
  ref : EventRef

structure AcquisitionFundedEvent where
  acquisitionId : ℕ
  cycleId : Uint256
  stockToken : Address
  amount : ℕ
  merkleRoot : Bytes32
  ref : EventRef

structure RepurchaseBurnEvent where
  tradeId : ℕ
  wethSpent : ℕ
  bpsBurned : ℕ
  ref : EventRef

structure BudgetDeliveryEvent where
  tradeId : ℕ
  recipient : Address
  amount : ℕ
  ref : EventRef

structure CycleReads where
  cycleId : Uint256
  asset : Address
  remaining : ℤ
  funded : ℕ

structure AcquisitionRow where
  acquisitionId : ℕ
  stockToken : Address
  wethSpent : Tagged ℕ
  acquiredStock : Tagged ℕ
  distribution80 : Tagged ℕ
  reserve20 : Tagged ℕ
  splitReconciles : Bool
  cycleId : Tagged (Option Uint256)
  released : Tagged (Option ℕ)
  claimed : Tagged (Option ℤ)
  remaining : Tagged (Option ℤ)
  merkleRoot : Tagged (Option Bytes32)
  ref : EventRef
  deriving DecidableEq

structure TransparencyReport where
  buyVolume : Tagged ℕ
  sellVolume : Tagged ℕ
  totalBpsBurned : Tagged ℕ
  stockAcquisitionBudgetAccrued : Tagged ℕ
  stockAcquisitionBudgetSpent : Tagged ℕ
  pendingBudgetNotYetAcquired : Tagged ℕ
  repurchaseWethSpent : Tagged ℕ
  repurchaseBpsBurned : Tagged ℕ
  stockBudgetDelivered : Tagged ℕ
  acquisitions : List AcquisitionRow

structure TransparencyInputs where
  trades : List OfficialTradeEvent
  recorded : List AcquisitionRecordedEvent
  funded : List AcquisitionFundedEvent
  cycleReads : List CycleReads
  repurchases : List RepurchaseBurnEvent
  budgetDeliveries : List BudgetDeliveryEvent
  isFixture : Bool

def tag {α : Type} (value : α) (isFixture : Bool) (base : Provenance) : Tagged α :=
  ⟨value,if isFixture then .fixture else base⟩

/-- The entry of a key in a map built from a list, where a later entry overwrites. -/
def lookupLast {α κ : Type} [DecidableEq κ] (key : α → κ) (l : List α) (k : κ) : Option α :=
  l.reverse.find? (key · = k)

/-- The 80/20 split of acquired stock. -/
def acquiredStockSplit (acquired : ℕ) : ℕ × ℕ :=
  let distribution := acquired*80/100
  (distribution,acquired-distribution)

/-- The row of one recorded acquisition. -/
def acquisitionRow (input : TransparencyInputs) (r : AcquisitionRecordedEvent) : AcquisitionRow :=
  let f := input.isFixture
  let split := acquiredStockSplit r.acquiredStock
  let fund := lookupLast (·.acquisitionId) input.funded r.acquisitionId
  let cyc := fund.bind fun x => lookupLast (·.cycleId) input.cycleReads x.cycleId
  let claimed : Option ℤ := fund.bind fun x => cyc.map fun c => (x.amount : ℤ)-c.remaining
  let remaining := cyc.map fun c => c.remaining
  { acquisitionId := r.acquisitionId
    stockToken := r.stockToken
    wethSpent := tag r.wethSpent f .onchainVerified
    acquiredStock := tag r.acquiredStock f .onchainVerified
    distribution80 := tag r.distributionAmount f .onchainVerified
    reserve20 := tag r.reserveAmount f .onchainVerified
    splitReconciles := split.1 = r.distributionAmount && split.2 = r.reserveAmount &&
      r.distributionAmount+r.reserveAmount = r.acquiredStock
    cycleId := tag (fund.map (·.cycleId)) f
      (if fund.isSome then .onchainVerified else .unavailable)
    released := tag (fund.map (·.amount)) f
      (if fund.isSome then .onchainVerified else .unavailable)
    claimed := tag claimed f (if claimed.isSome then .derived else .unavailable)
    remaining := tag remaining f (if cyc.isSome then .onchainVerified else .unavailable)
    merkleRoot := tag (fund.map (·.merkleRoot)) f
      (if fund.isSome then .offchainArtifact else .unavailable)
    ref := r.ref }

def buildTransparencyReport (input : TransparencyInputs) : TransparencyReport :=
  let f := input.isFixture
  let buyVolume := ((input.trades.filter (·.kind = .buy)).map (·.gross)).sum
  let sellVolume := ((input.trades.filter (·.kind = .sell)).map (·.gross)).sum
  let totalBpsBurned := (input.trades.map (·.bpsBurned)).sum
  let budgetAccrued := (input.trades.map (·.stockBudget)).sum
  let budgetSpent := (input.recorded.map (·.wethSpent)).sum
  let pending := if budgetSpent < budgetAccrued then budgetAccrued-budgetSpent else 0
  { buyVolume := tag buyVolume f .derived
    sellVolume := tag sellVolume f .derived
    totalBpsBurned := tag totalBpsBurned f .derived
    stockAcquisitionBudgetAccrued := tag budgetAccrued f .derived
    stockAcquisitionBudgetSpent := tag budgetSpent f .derived
    pendingBudgetNotYetAcquired := tag pending f .derived
    repurchaseWethSpent := tag (input.repurchases.map (·.wethSpent)).sum f .onchainVerified
    repurchaseBpsBurned := tag (input.repurchases.map (·.bpsBurned)).sum f .onchainVerified
    stockBudgetDelivered := tag (input.budgetDeliveries.map (·.amount)).sum f .onchainVerified
    acquisitions := input.recorded.map (acquisitionRow input) }

def refOf (d : DecodedEvent) : EventRef := ⟨d.transactionHash,d.blockNumber,d.address⟩

/-! The branches of the loop of `aggregate`, each with what it collects. -/

def tradeOf (d : DecodedEvent) : Option OfficialTradeEvent :=
  match d.event with
  | .router (.officialBuy _ _ _ grossWethInput stockBudget _ _ _ bpsBurned _ _) =>
    some ⟨.buy,stockBudget,bpsBurned,grossWethInput,refOf d⟩
  | .router (.officialSell _ _ _ _ grossWethOutput stockBudget _ _ bpsBurned _ _) =>
    some ⟨.sell,stockBudget,bpsBurned,grossWethOutput,refOf d⟩
  | _ => none

def repurchaseOf (d : DecodedEvent) : Option RepurchaseBurnEvent :=
  match d.event with
  | .router (.bpsRepurchasedAndBurned tradeId wethSpent bpsBurned) =>
    some ⟨tradeId,wethSpent,bpsBurned,refOf d⟩
  | _ => none

def budgetDeliveryOf (d : DecodedEvent) : Option BudgetDeliveryEvent :=
  match d.event with
  | .router (.stockBudgetDelivered tradeId recipient amount) =>
    some ⟨tradeId,recipient,amount,refOf d⟩
  | _ => none

def recordedOf (d : DecodedEvent) : Option AcquisitionRecordedEvent :=
  match d.event with
  | .coordinator (.acquisitionRecorded acquisitionId stockToken _ wethSpent acquiredStock
      distributionAmount reserveAmount) =>
    some ⟨acquisitionId,stockToken,wethSpent,acquiredStock,distributionAmount,reserveAmount,refOf d⟩
  | _ => none

def fundedOf (d : DecodedEvent) : Option AcquisitionFundedEvent :=
  match d.event with
  | .coordinator (.acquisitionFunded acquisitionId cycleId stockToken amount merkleRoot _ _) =>
    some ⟨acquisitionId,cycleId,stockToken,amount,merkleRoot,refOf d⟩
  | _ => none

/-- What an event adds to the claims of a cycle and an asset. -/
def claimedOf (cycleId : Uint256) (asset : Address) (d : DecodedEvent) : ℕ :=
  match d.event with
  | .manager (.claimed c _ a amount) => if c = cycleId ∧ a = asset then amount else 0
  | _ => 0

/-- The claims that `aggregate` has summed up of a cycle and an asset. -/
def claimedByCycleAsset (decoded : List DecodedEvent) (cycleId : Uint256) (asset : Address) : ℕ :=
  (decoded.map (claimedOf cycleId asset)).sum

/-- What is funded less what is claimed, for one funded cycle. -/
def cycleRead (decoded : List DecodedEvent) (f : AcquisitionFundedEvent) : CycleReads where
  cycleId := f.cycleId
  asset := f.stockToken
  remaining := (f.amount : ℤ)-claimedByCycleAsset decoded f.cycleId f.stockToken
  funded := f.amount

def aggregate (decoded : List DecodedEvent) (isFixture : Bool) : TransparencyReport :=
  let funded := decoded.filterMap fundedOf
  buildTransparencyReport {
    trades := decoded.filterMap tradeOf
    recorded := decoded.filterMap recordedOf
    funded
    cycleReads := funded.map (cycleRead decoded)
    repurchases := decoded.filterMap repurchaseOf
    budgetDeliveries := decoded.filterMap budgetDeliveryOf
    isFixture }

def DecodedEvent.key (d : DecodedEvent) : LogKey := (some d.blockNumber,d.transactionHash,d.logIndex)

/-- The log of an emitted event, as the client formats it. -/
structure Carries (decodeEventLog : Decoder) (l : RawLog) (d : DecodedEvent) : Prop where
  parts : ∃ topics data, l.parts = some (topics,data,d.transactionHash,d.logIndex) ∧
    decodeEventLog topics data = some d.event
  blockNumber : l.blockNumber = some d.blockNumber
  address : l.address = d.address

/-- The logs are those of the emitted events, each read at least once. -/
structure ReadCompletely (decodeEventLog : Decoder) (logs : List RawLog)
    (emitted : List DecodedEvent) : Prop where
  distinct : (emitted.map DecodedEvent.key).Nodup
  sound : ∀ l ∈ logs, ∃ d ∈ emitted, Carries decodeEventLog l d
  complete : ∀ d ∈ emitted, ∃ l ∈ logs, Carries decodeEventLog l d

def LogEvent.router? : LogEvent → Option TradeRouter.Event
  | .router e => some e
  | _ => none

def LogEvent.coordinator? : LogEvent → Option Coordinator.Event
  | .coordinator e => some e
  | _ => none

def LogEvent.manager? : LogEvent → Option ClaimManager.Event
  | .manager e => some e
  | _ => none

/-- The logs of the three contracts, whose event lists these are, are read completely. -/
structure HistoryRead (decodeEventLog : Decoder) (logs : List RawLog)
    (router : List TradeRouter.Event) (coordinator : List Coordinator.Event)
    (manager : List ClaimManager.Event) : Prop where
  read : ∃ emitted, ReadCompletely decodeEventLog logs emitted ∧
    (emitted.filterMap (·.event.router?)).Perm router ∧
    (emitted.filterMap (·.event.coordinator?)).Perm coordinator ∧
    (emitted.filterMap (·.event.manager?)).Perm manager

variable {decodeEventLog : Decoder} {l : RawLog} {logs : List RawLog}
  {emitted : List DecodedEvent} {d d' : DecodedEvent} {seen : List LogKey}

/-- A log carries one event. -/
theorem Carries.unique (h : Carries decodeEventLog l d) (h' : Carries decodeEventLog l d') :
    d = d' := by
  obtain ⟨t,x,hparts,hdecode⟩ := h.parts
  obtain ⟨t',x',hparts',hdecode'⟩ := h'.parts
  rw [hparts] at hparts'
  simp only [Option.some.injEq,Prod.mk.injEq] at hparts'
  obtain ⟨rfl,rfl,hhash,hindex⟩ := hparts'
  rw [hdecode] at hdecode'
  have hevent := Option.some.inj hdecode'
  have hblock := Option.some.inj (h.blockNumber.symm.trans h'.blockNumber)
  have haddress := h.address.symm.trans h'.address
  cases d
  cases d'
  simp only [DecodedEvent.mk.injEq]
  exact ⟨hevent,hblock,hhash,hindex,haddress⟩

theorem decodeFrom_cons (h : Carries decodeEventLog l d) :
    decodeFrom decodeEventLog seen (l::logs) =
      if d.key ∈ seen then decodeFrom decodeEventLog seen logs
      else d::decodeFrom decodeEventLog (d.key::seen) logs := by
  obtain ⟨t,x,hparts,hdecode⟩ := h.parts
  rw [decodeFrom,hparts]
  simp only [h.blockNumber,hdecode,h.address,Option.getD_some]
  rfl

/-- The decoded events are those that some log carries and whose key is new. -/
theorem mem_decodeFrom (hkey : ∀ d ∈ emitted, ∀ d' ∈ emitted, d.key = d'.key → d = d')
    (hsound : ∀ l ∈ logs, ∃ d ∈ emitted, Carries decodeEventLog l d) :
    d ∈ decodeFrom decodeEventLog seen logs ↔
      d.key ∉ seen ∧ ∃ l ∈ logs, d ∈ emitted ∧ Carries decodeEventLog l d := by
  induction logs generalizing seen with
  | nil => simp [decodeFrom]
  | cons l logs ih =>
    obtain ⟨e,he,hcarries⟩ := hsound l List.mem_cons_self
    have hrest := fun seen => @ih seen fun l hl => hsound l (List.mem_cons_of_mem _ hl)
    have hsplit : (∃ l' ∈ l::logs, d ∈ emitted ∧ Carries decodeEventLog l' d) ↔
        d = e ∨ ∃ l' ∈ logs, d ∈ emitted ∧ Carries decodeEventLog l' d := by
      constructor
      · rintro ⟨l',hl',hd,hc⟩
        rcases List.mem_cons.mp hl' with rfl | hl'
        · exact Or.inl (hc.unique hcarries)
        · exact Or.inr ⟨l',hl',hd,hc⟩
      · rintro (rfl | ⟨l',hl',hd,hc⟩)
        · exact ⟨l,List.mem_cons_self,he,hcarries⟩
        · exact ⟨l',List.mem_cons_of_mem _ hl',hd,hc⟩
    rw [decodeFrom_cons hcarries,hsplit]
    by_cases hk : e.key ∈ seen
    · rw [if_pos hk,hrest]
      constructor
      · exact fun h => ⟨h.1,Or.inr h.2⟩
      · rintro ⟨hd,rfl | h⟩
        · exact absurd hk hd
        · exact ⟨hd,h⟩
    · rw [if_neg hk,List.mem_cons,hrest]
      constructor
      · rintro (rfl | ⟨hd,h⟩)
        · exact ⟨hk,Or.inl rfl⟩
        · exact ⟨fun hd' => hd (List.mem_cons_of_mem _ hd'),Or.inr h⟩
      · rintro ⟨hd,rfl | ⟨l',hl',hmem,hc⟩⟩
        · exact Or.inl rfl
        · by_cases heq : d = e
          · exact Or.inl heq
          · refine Or.inr ⟨?_,l',hl',hmem,hc⟩
            intro hd'
            rcases List.mem_cons.mp hd' with hd' | hd'
            · exact heq (hkey d hmem e he hd')
            · exact hd hd'

theorem decodeFrom_nodup (hkey : ∀ d ∈ emitted, ∀ d' ∈ emitted, d.key = d'.key → d = d')
    (hsound : ∀ l ∈ logs, ∃ d ∈ emitted, Carries decodeEventLog l d) :
    (decodeFrom decodeEventLog seen logs).Nodup := by
  induction logs generalizing seen with
  | nil => exact List.nodup_nil
  | cons l logs ih =>
    obtain ⟨e,-,hcarries⟩ := hsound l List.mem_cons_self
    have hrest : ∀ l ∈ logs, ∃ d ∈ emitted, Carries decodeEventLog l d :=
      fun l hl => hsound l (List.mem_cons_of_mem _ hl)
    rw [decodeFrom_cons hcarries]
    split
    · exact ih hrest
    · refine List.nodup_cons.mpr ⟨?_,ih hrest⟩
      intro he
      exact ((mem_decodeFrom hkey hrest).mp he).1 List.mem_cons_self

/-- Every emitted event of a complete read is decoded exactly once. -/
theorem ReadCompletely.decodeLogs_perm (h : ReadCompletely decodeEventLog logs emitted) :
    (decodeLogs decodeEventLog logs).Perm emitted := by
  have hkey : ∀ d ∈ emitted, ∀ d' ∈ emitted, d.key = d'.key → d = d' :=
    List.inj_on_of_nodup_map h.distinct
  refine (List.perm_ext_iff_of_nodup (decodeFrom_nodup hkey h.sound)
    (List.Nodup.of_map _ h.distinct)).mpr fun d => ?_
  rw [mem_decodeFrom hkey h.sound]
  constructor
  · rintro ⟨-,_,-,hd,-⟩
    exact hd
  · intro hd
    obtain ⟨l,hl,hc⟩ := h.complete d hd
    exact ⟨List.not_mem_nil,l,hl,hd,hc⟩

/-- The decoded events of each contract are its own. -/
theorem HistoryRead.perms {router : List TradeRouter.Event} {coordinator : List Coordinator.Event}
    {manager : List ClaimManager.Event}
    (h : HistoryRead decodeEventLog logs router coordinator manager) :
    ((decodeLogs decodeEventLog logs).filterMap (·.event.router?)).Perm router ∧
    ((decodeLogs decodeEventLog logs).filterMap (·.event.coordinator?)).Perm coordinator ∧
    ((decodeLogs decodeEventLog logs).filterMap (·.event.manager?)).Perm manager := by
  obtain ⟨emitted,hread,hrouter,hcoordinator,hmanager⟩ := h.read
  have hp := hread.decodeLogs_perm
  exact ⟨(hp.filterMap _).trans hrouter,(hp.filterMap _).trans hcoordinator,
    (hp.filterMap _).trans hmanager⟩

/-- A decoder for runs on fixed inputs: the length of the data is the place of the event. -/
def sampleDecoder (events : List LogEvent) : Decoder := fun _ data => events[data.length]?

def sampleLog (i : ℕ) : RawLog := ⟨200,some [0],some (List.replicate i 0),some i,some 0,some 0⟩

def sampleLogs (events : List LogEvent) : List RawLog := (List.range events.length).map sampleLog

def sampleEmitted (events : List LogEvent) : List DecodedEvent :=
  events.zipIdx.map fun x => ⟨x.1,x.2,0,0,200⟩

theorem sample_readCompletely (events : List LogEvent) :
    ReadCompletely (sampleDecoder events) (sampleLogs events) (sampleEmitted events) := by
  have hcarries : ∀ i e, events[i]? = some e →
      Carries (sampleDecoder events) (sampleLog i) ⟨e,i,0,0,200⟩ := by
    intro i e he
    exact ⟨⟨[0],List.replicate i 0,rfl,by simpa [sampleDecoder] using he⟩,rfl,rfl⟩
  constructor
  · have hkeys : (sampleEmitted events).map DecodedEvent.key =
        (List.range events.length).map fun i => (some i,0,0) := by
      rw [List.range_eq_range',← List.zipIdx_map_snd 0 events,List.map_map,sampleEmitted,
        List.map_map]
      rfl
    rw [hkeys]
    exact List.Nodup.map (fun i j h => by simpa using h) List.nodup_range
  · intro l hl
    obtain ⟨i,hi,rfl⟩ := List.mem_map.mp hl
    have hi' := List.mem_range.mp hi
    refine ⟨_,List.mem_map.mpr ⟨(events[i],i),?_,rfl⟩,hcarries i _ (List.getElem?_eq_getElem hi')⟩
    exact List.mem_zipIdx_iff_getElem?.mpr (List.getElem?_eq_getElem hi')
  · intro d hd
    obtain ⟨⟨e,i⟩,hx,rfl⟩ := List.mem_map.mp hd
    have he := List.mem_zipIdx_iff_getElem?.mp hx
    refine ⟨sampleLog i,List.mem_map.mpr ⟨i,List.mem_range.mpr ?_,rfl⟩,hcarries i e he⟩
    exact (List.getElem?_eq_some_iff.mp he).1

/-- The logs of any event lists can be read completely. -/
theorem sample_historyRead (router : List TradeRouter.Event) (coordinator : List Coordinator.Event)
    (manager : List ClaimManager.Event) :
    let events := router.map LogEvent.router ++ coordinator.map LogEvent.coordinator ++
      manager.map LogEvent.manager
    HistoryRead (sampleDecoder events) (sampleLogs events) router coordinator manager := by
  intro events
  have hevents : ∀ {α : Type} (f : LogEvent → Option α),
      (sampleEmitted events).filterMap (fun d => f d.event) = events.filterMap f := by
    intro α f
    rw [sampleEmitted,List.filterMap_map]
    show events.zipIdx.filterMap (f ∘ Prod.fst) = _
    rw [← List.filterMap_map,List.zipIdx_map_fst]
  refine ⟨⟨_,sample_readCompletely events,?_,?_,?_⟩⟩ <;> rw [hevents] <;>
    simp [events,List.filterMap_append,List.filterMap_map,Function.comp_def,LogEvent.router?,
      LogEvent.coordinator?,LogEvent.manager?]

end Transparency
end BpsProtocol
