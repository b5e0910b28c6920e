import BpsProtocol.CycleFixture
import BpsProtocol.Lib.Reorder

/-! Loading a fixture whose lists are in another order.
The loader treats the rows of a list alike, and it refuses a second row of an address, so a
permuted fixture loads to the permuted lists. -/
namespace BpsProtocol
namespace CycleFixture

open Checked Shared HexText

section Rows

variable {α β : Type} {field : String} {duplicate : Text → ProofOfDistributionError}
  {address : α → Text} {build : α → Text → β} {seen : List Text} {rows rows' : List α}
  {built : List β}

theorem normalize_eq_ok {value key : Text} :
    normalize value field = .ok key ↔ isHexAddress value = true ∧ toLowerCase value = key := by
  unfold normalize normalizeAddress
  split <;> simp_all

/-- The rows are accepted when their addresses are well formed and distinct. -/
theorem normalizeDistinct_eq_ok :
    normalizeDistinct field duplicate address build seen rows = .ok built ↔
      (∀ r ∈ rows, isHexAddress (address r) = true ∧ toLowerCase (address r) ∉ seen) ∧
      (rows.map (fun r => toLowerCase (address r))).Nodup ∧
      rows.map (fun r => build r (toLowerCase (address r))) = built := by
  induction rows generalizing seen built with
  | nil => simp [normalizeDistinct]
  | cons r rest ih =>
    simp only [normalizeDistinct,bind_eq_ok,normalize_eq_ok,revertIf_eq_ok,exists_const,pure_eq_ok,
      ih,List.mem_append,List.mem_singleton,not_or,List.forall_mem_cons,List.map_cons,
      List.nodup_cons,List.mem_map,not_exists,not_and,and_assoc,exists_eq_left',exists_and_left]
    constructor
    · rintro ⟨hhex,hnew,hrest,hnodup,rfl⟩
      exact ⟨hhex,hnew,fun x hx => ⟨(hrest x hx).1,(hrest x hx).2.1⟩,
        fun x hx => (hrest x hx).2.2,hnodup,rfl⟩
    · rintro ⟨hhex,hnew,hrest,hfresh,hnodup,rfl⟩
      exact ⟨hhex,hnew,fun x hx => ⟨(hrest x hx).1,(hrest x hx).2,hfresh x hx⟩,hnodup,rfl⟩

/-- The addresses of accepted rows are distinct. -/
theorem normalizeDistinct_nodup (h : normalizeDistinct field duplicate address build seen rows =
    .ok built) {key : β → Text} (hkey : ∀ r k, key (build r k) = k) : (built.map key).Nodup := by
  obtain ⟨-,hnodup,rfl⟩ := normalizeDistinct_eq_ok.1 h
  simpa [hkey,Function.comp_def] using hnodup

theorem normalizeDistinct_perm (hrows : rows.Perm rows')
    (h : normalizeDistinct field duplicate address build seen rows = .ok built) :
    ∃ built', normalizeDistinct field duplicate address build seen rows' = .ok built' ∧
      built.Perm built' := by
  obtain ⟨hall,hnodup,rfl⟩ := normalizeDistinct_eq_ok.1 h
  exact ⟨_,normalizeDistinct_eq_ok.2 ⟨fun r hr => hall r (hrows.mem_iff.2 hr),
    (hrows.map _).nodup_iff.1 hnodup,rfl⟩,hrows.map _⟩

end Rows

/-- The same raw fixture with its lists in another order. -/
structure RawCycleFixture.Reordered (input input' : RawCycleFixture) : Prop where
  cycle : input'.cycle = input.cycle
  excludedAddresses : input.excludedAddresses.Perm input'.excludedAddresses
  eligibility : input.eligibility.Perm input'.eligibility
  epochStartBalances : input.epochStartBalances.Perm input'.epochStartBalances
  transfers : input.transfers.Perm input'.transfers
  locks : input.locks.Perm input'.locks
  assets : input.assets.Perm input'.assets

/-- The same fixture with its lists in another order. -/
structure Fixture.Reordered (f f' : Fixture) : Prop where
  cycle : f'.cycle = f.cycle
  excludedAddresses : f.excludedAddresses.Perm f'.excludedAddresses
  eligibility : f.eligibility.Perm f'.eligibility
  epochStartBalances : f.epochStartBalances.Perm f'.epochStartBalances
  transfers : f.transfers.Perm f'.transfers
  locks : f.locks.Perm f'.locks
  assets : f.assets.Perm f'.assets

section Loading

variable {input input' : RawCycleFixture} {f : Fixture}

theorem all_perm {α : Type} {xs ys : List α} (h : xs.Perm ys) (p : α → Bool) :
    xs.all p = ys.all p := by
  rw [Bool.eq_iff_iff,List.all_eq_true,List.all_eq_true]
  exact forall_congr' fun x => imp_congr_left h.mem_iff

theorem RawCycleFixture.Reordered.schema (h : input.Reordered input') :
    cycleFixtureSchema input' = cycleFixtureSchema input := by
  have hassets : (input'.assets ≠ []) ↔ input.assets ≠ [] :=
    not_congr ⟨fun he => (he ▸ h.assets).eq_nil,fun he => (he ▸ h.assets).symm.eq_nil⟩
  unfold cycleFixtureSchema
  simp only [h.cycle,all_perm h.excludedAddresses,all_perm h.eligibility,
    all_perm h.epochStartBalances,all_perm h.transfers,all_perm h.locks,all_perm h.assets,hassets]

/-- A fixture in another order loads when it did before, to the lists in another order. -/
theorem loadCycleFixture_perm (h : input.Reordered input') (hload : loadCycleFixture input = .ok f) :
    ∃ f', loadCycleFixture input' = .ok f' ∧ f.Reordered f' := by
  simp only [loadCycleFixture,parseCycleFixture,bind_eq_ok,revertIf_eq_ok,pure_eq_ok,exists_const,
    and_assoc,exists_and_left,exists_eq_left'] at hload
  obtain ⟨hschema,cycle,hcycle,excluded,hexcluded,eligibility,heligibility,balances,hbalances,
    transfers,htransfers,locks,hlocks,assets,hassets,rfl⟩ := hload
  obtain ⟨excluded',hexcluded',hp₁⟩ := normalizeDistinct_perm h.excludedAddresses hexcluded
  obtain ⟨eligibility',heligibility',hp₂⟩ := normalizeDistinct_perm h.eligibility heligibility
  obtain ⟨balances',hbalances',hp₃⟩ := normalizeDistinct_perm h.epochStartBalances hbalances
  obtain ⟨transfers',htransfers',hp₄⟩ := Reorder.mapM_perm h.transfers htransfers
  obtain ⟨locks',hlocks',hp₅⟩ := Reorder.mapM_perm h.locks hlocks
  obtain ⟨assets',hassets',hp₆⟩ := normalizeDistinct_perm h.assets hassets
  refine ⟨⟨cycle,excluded',eligibility',balances',transfers',locks',assets'⟩,?_,
    rfl,hp₁,hp₂,hp₃,hp₄,hp₅,hp₆⟩
  simp only [loadCycleFixture,parseCycleFixture,bind_eq_ok,revertIf_eq_ok,pure_eq_ok,exists_const,
    and_assoc,exists_and_left,exists_eq_left']
  exact ⟨h.schema ▸ hschema,cycle,h.cycle ▸ hcycle,excluded',hexcluded',eligibility',heligibility',
    balances',hbalances',transfers',htransfers',locks',hlocks',assets',hassets',rfl⟩

/-- The wallets of the opening balances are distinct, the token addresses and the excluded
addresses are. -/
theorem loadCycleFixture_distinct (hload : loadCycleFixture input = .ok f) :
    (f.epochStartBalances.map EpochStartBalance.wallet).Nodup ∧
    (f.assets.map AcquiredAsset.tokenAddress).Nodup ∧
    (f.excludedAddresses.map ExcludedAddress.address).Nodup := by
  simp only [loadCycleFixture,bind_eq_ok,pure_eq_ok] at hload
  obtain ⟨raw,-,cycle,-,excluded,hexcluded,-,-,balances,hbalances,-,-,-,-,assets,hassets,rfl⟩ :=
    hload
  exact ⟨normalizeDistinct_nodup hbalances fun _ _ => rfl,
    normalizeDistinct_nodup hassets fun _ _ => rfl,
    normalizeDistinct_nodup hexcluded fun _ _ => rfl⟩

/-- The assets are the raw ones, each with its address in lower case. -/
theorem loadCycleFixture_assets (hload : loadCycleFixture input = .ok f) : f.assets =
    input.assets.map (fun a => ⟨a.ticker,a.name,toLowerCase a.tokenAddress,a.decimals,
      bigInt a.acquiredRawAmount⟩) := by
  simp only [loadCycleFixture,parseCycleFixture,bind_eq_ok,revertIf_eq_ok,pure_eq_ok,exists_const,
    and_assoc,exists_and_left,exists_eq_left'] at hload
  obtain ⟨-,cycle,-,excluded,-,eligibility,-,balances,-,transfers,-,locks,-,assets,hassets,rfl⟩ :=
    hload
  exact (normalizeDistinct_eq_ok.1 hassets).2.2.symm

end Loading

end CycleFixture
end BpsProtocol
