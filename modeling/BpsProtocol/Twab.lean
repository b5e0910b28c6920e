import BpsProtocol.CycleFixture
import BpsProtocol.Lib.Mapping
import BpsProtocol.Lib.Sweep
import Mathlib.Data.List.Sort

/-! `computeWeights`: time-weighted balances of an epoch by a sweep over breakpoints.
A map that is only read with a default of zero is a function, a set that is iterated is the
list of its elements in order of insertion. -/
namespace BpsProtocol
namespace Twab

open Checked Mapping Shared HexText CycleFixture

def identity (t : ConfirmedTransfer) : Text :=
  toString10 t.chainId ++ '|' :: t.transactionHash ++ '|' :: toString10 t.logIndex

def sameTransfer (a b : ConfirmedTransfer) : Bool :=
  a.blockNumber = b.blockNumber && a.blockHash = b.blockHash &&
  a.transactionIndex = b.transactionIndex && a.timestamp = b.timestamp && a.source = b.source &&
  a.target = b.target && a.rawAmount = b.rawAmount

def compareCanonical (a b : ConfirmedTransfer) : ℤ :=
  if a.blockNumber ≠ b.blockNumber then (if a.blockNumber < b.blockNumber then -1 else 1)
  else if a.transactionIndex ≠ b.transactionIndex then
    (if a.transactionIndex < b.transactionIndex then -1 else 1)
  else if a.logIndex ≠ b.logIndex then (if a.logIndex < b.logIndex then -1 else 1)
  else 0

/-- The loop that fills `byIdentity`; its values in order of insertion. -/
def collect (byIdentity : List ConfirmedTransfer) :
    List ConfirmedTransfer → Except ProofOfDistributionError (List ConfirmedTransfer)
  | [] => .ok byIdentity
  | t::rest =>
    match byIdentity.find? (fun x => identity x = identity t) with
    | some existing => do
      revertIf (sameTransfer existing t = false) (.conflictingLog (identity t))
      collect byIdentity rest
    | none => collect (byIdentity ++ [t]) rest

/-- The loop over neighbours in canonical order. -/
def checkOrder : List ConfirmedTransfer → Except ProofOfDistributionError Unit
  | prev::cur::rest => do
    revertIf (compareCanonical prev cur = 0) .ambiguousOrder
    revertIf (cur.timestamp < prev.timestamp) .nonmonotonicTimestamp
    checkOrder (cur::rest)
  | _ => .ok ()

def canonicalizeTransfers (transfers : List ConfirmedTransfer) :
    Except ProofOfDistributionError (List ConfirmedTransfer) := do
  let byIdentity ← collect [] transfers
  let deduped := byIdentity.insertionSort (fun a b => compareCanonical a b ≤ 0)
  checkOrder deduped
  return deduped

def bonusEnd (l : LockRecord) : ℤ :=
  match l.withdrawalTimestamp with
  | some withdrawal => if withdrawal < l.unlockTimestamp then withdrawal else l.unlockTimestamp
  | none => l.unlockTimestamp

def activeLockedByTier (locks : List LockRecord) (t : ℤ) : LockTier → ℤ :=
  locks.foldl (fun out l =>
    if l.startTimestamp ≤ t ∧ t < bonusEnd l then set out l.tier (out l.tier+l.rawPrincipal)
    else out) (fun _ => 0)

structure WalletWeight where
  wallet : Text
  snapshotBalance : ℤ
  baseTwab : ℤ
  unlockedTwab : ℤ
  lockedTwabByTier : LockTier → ℤ
  effectiveWeight : ℤ

structure WeightComputation where
  weights : List WalletWeight
  appliedTransfers : List ConfirmedTransfer

section Sets

variable {α : Type} [DecidableEq α]

/-- `set.add(x)` -/
def addOnce (s : List α) (x : α) : List α := if x ∈ s then s else s ++ [x]

end Sets

def openingBalances (epochStartBalances : List EpochStartBalance) : Text → ℤ :=
  epochStartBalances.foldl (fun m b => set m b.wallet b.rawBalance) (fun _ => 0)

def relevantWallets (epochStartBalances : List EpochStartBalance)
    (inEpoch : List ConfirmedTransfer) (locks : List LockRecord) : List Text :=
  let opened := epochStartBalances.foldl (fun s b => addOnce s b.wallet) []
  let moved := inEpoch.foldl (fun s t =>
    let s := if t.source ≠ ZERO_ADDRESS then addOnce s t.source else s
    if t.target ≠ ZERO_ADDRESS then addOnce s t.target else s) opened
  locks.foldl (fun s l => addOnce s l.wallet) moved

def locksByWallet (locks : List LockRecord) : Text → List LockRecord :=
  locks.foldl (fun m l => set m l.wallet (m l.wallet ++ [l])) (fun _ => [])

def addBetween (start stop : ℤ) (times : List ℤ) (t : ℤ) : List ℤ :=
  if start < t ∧ t < stop then addOnce times t else times

/-- The boundaries of one lock inside the epoch. -/
def addLock (start stop : ℤ) (times : List ℤ) (l : LockRecord) : List ℤ :=
  let times := [l.startTimestamp,l.unlockTimestamp,bonusEnd l].foldl (addBetween start stop) times
  match l.withdrawalTimestamp with
  | some withdrawal => addBetween start stop times withdrawal
  | none => times

/-- The breakpoints in ascending order, and the end of the epoch. -/
def sortedTimes (start stop : ℤ) (inEpoch : List ConfirmedTransfer) (locks : List LockRecord) :
    List ℤ :=
  let times := inEpoch.foldl (fun s t => addOnce s t.timestamp) (addOnce [] start)
  let times := locks.foldl (addLock start stop) times
  times.insertionSort (· ≤ ·) ++ [stop]

def applyTransfer (balances : Text → ℤ) (tr : ConfirmedTransfer) :
    Except ProofOfDistributionError (Text → ℤ) := do
  let debited ← if tr.source ≠ ZERO_ADDRESS then do
      let next := balances tr.source-tr.rawAmount
      revertIf (next < 0) (.negativeBalance tr.source (identity tr))
      pure (set balances tr.source next)
    else pure balances
  return if tr.target ≠ ZERO_ADDRESS then set debited tr.target (debited tr.target+tr.rawAmount)
    else debited

/-- The transfers of the current second, from the cursor on. -/
def applyDue (tCur : ℤ) (balances : Text → ℤ) : List ConfirmedTransfer →
    Except ProofOfDistributionError ((Text → ℤ) × List ConfirmedTransfer)
  | [] => .ok (balances,[])
  | tr::rest =>
    if tr.timestamp = tCur then do
      let balances ← applyTransfer balances tr
      applyDue tCur balances rest
    else .ok (balances,tr::rest)

structure Seconds where
  base : Text → ℤ
  unlocked : Text → ℤ
  locked : Text → LockTier → ℤ

def Seconds.zero : Seconds := ⟨fun _ => 0,fun _ => 0,fun _ _ => 0⟩

def bump (m : Text → ℤ) (w : Text) (v : ℤ) : Text → ℤ := if v ≠ 0 then set m w (m w+v) else m

def bumpTier (active : LockTier → ℤ) (dur : ℤ) (w : Text) (m : Text → LockTier → ℤ)
    (tier : LockTier) : Text → LockTier → ℤ :=
  if active tier ≠ 0 then set₂ m w tier (m w tier+active tier*dur) else m

/-- The loop over the relevant wallets, each for `dur` seconds from `tCur` on. -/
def measure (locks : Text → List LockRecord) (balances : Text → ℤ) (tCur dur : ℤ) (s : Seconds) :
    List Text → Except ProofOfDistributionError Seconds
  | [] => .ok s
  | w::rest => do
    let bal := balances w
    let active := activeLockedByTier (locks w) tCur
    let activeTotal := SUPPORTED_LOCK_TIERS.foldl (fun total tier => total+active tier) 0
    let free := bal-activeTotal
    revertIf (free < 0) (.lockExceedsBalance w)
    measure locks balances tCur dur {
      base := bump s.base w (bal*dur)
      unlocked := bump s.unlocked w (free*dur)
      locked := SUPPORTED_LOCK_TIERS.foldl (bumpTier active dur w) s.locked } rest

structure Progress where
  balances : Text → ℤ
  pending : List ConfirmedTransfer
  seconds : Seconds

/-- One interval between neighbouring breakpoints. -/
def visit (locks : Text → List LockRecord) (relevant : List Text) (tCur tNext : ℤ) (s : Progress) :
    Except ProofOfDistributionError Progress := do
  let (balances,pending) ← applyDue tCur s.balances s.pending
  let dur := tNext-tCur
  if dur ≤ 0 then return { s with balances,pending }
  else do
    let seconds ← measure locks balances tCur dur s.seconds relevant
    return { balances,pending,seconds }

/-- The loop over neighbouring breakpoints. -/
def sweep (locks : Text → List LockRecord) (relevant : List Text) (s : Progress) (times : List ℤ) :
    Except ProofOfDistributionError Progress :=
  Sweep.run (visit locks relevant) s times

/-- The floors of the seconds, and the effective weight tier by tier. -/
def weigh (s : Progress) (w : Text) : Except ProofOfDistributionError WalletWeight := do
  let unlockedTwab := (s.seconds.unlocked w).tdiv EPOCH_SECONDS
  let lockedTwabByTier := fun tier => (s.seconds.locked w tier).tdiv EPOCH_SECONDS
  let effectiveWeight ← SUPPORTED_LOCK_TIERS.foldlM (fun total tier => do
    let weighted ← mulDivFloor (lockedTwabByTier tier) (TIER_SPECS tier).multiplierBps 10000
    return total+weighted) unlockedTwab
  return {
    wallet := w
    snapshotBalance := s.balances w
    baseTwab := (s.seconds.base w).tdiv EPOCH_SECONDS
    unlockedTwab,lockedTwabByTier,effectiveWeight }

def computeWeights (cycle : CycleConfig) (epochStartBalances : List EpochStartBalance)
    (transfers : List ConfirmedTransfer) (locks : List LockRecord) :
    Except ProofOfDistributionError WeightComputation := do
  let start := cycle.epochStart
  let stop := cycle.epochEnd
  let deduped ← canonicalizeTransfers transfers
  let inEpoch := deduped.filter (fun t => t.timestamp < stop)
  let relevant := relevantWallets epochStartBalances inEpoch locks
  let s ← sweep (locksByWallet locks) relevant
    ⟨openingBalances epochStartBalances,inEpoch,.zero⟩ (sortedTimes start stop inEpoch locks)
  let weights ← relevant.mapM (weigh s)
  return { weights,appliedTransfers := inEpoch }

end Twab
end BpsProtocol
