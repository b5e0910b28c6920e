import BpsProtocol.Eligibility
import BpsProtocol.Lib.NumberText

/-! The deployment manifest of the application.
A manifest resolves to a deployment state; only a live one has addresses.  Writes are
enabled after every required contract was seen to have code, and never for a fixture. -/
namespace BpsProtocol
namespace Manifest

open HexText Shared Binary64 Eligibility

inductive ContractKey
  | bpsToken
  | lockingVault
  | claimManager
  | rialtoAdapter
  | coordinator
  | stockVault
  | uniswapAdapter
  | tradeRouter
  deriving DecidableEq

def ContractKey.all : List ContractKey :=
  [bpsToken,lockingVault,claimManager,rialtoAdapter,coordinator,stockVault,uniswapAdapter,
    tradeRouter]

inductive DeploymentMode
  | local
  | fork
  | restrictedBeta
  | production
  deriving DecidableEq

/-- The fields of a parsed manifest that its resolution reads. -/
structure DeploymentManifest where
  chainId : Number
  sourceCommit : Text
  broadcastReady : Bool
  mode : Option DeploymentMode
  isFixture : Option Bool
  actual : ContractKey → Option Text

structure Live where
  mode : DeploymentMode
  isFixture : Bool
  sourceCommit : Text
  chainId : Number
  addresses : ContractKey → Text
  requiredCodeAddresses : List Text
  writesEnabled : Bool

inductive DeploymentState
  | invalid (errors : List Text)
  | notLive (reason : Text) (mode : DeploymentMode) (isFixture : Bool) (sourceCommit : Text)
  | live (l : Live)

def PLACEHOLDERS : List Text :=
  [addressText 0,addressText 1,addressText 57005,'0' :: 'x' :: List.replicate 40 'e',
    '0' :: 'x' :: List.replicate 40 '1']

def WRITE_REQUIRED_CONTRACTS : List ContractKey :=
  [.tradeRouter,.lockingVault,.claimManager,.stockVault,.coordinator]

/-- A nonnull address of forty digits that is no placeholder. -/
def isRealAddress (a : Text) : Bool := isHexAddress a && !decide (toLowerCase a ∈ PLACEHOLDERS)

def keyName : ContractKey → String
  | .bpsToken => "bpsToken"
  | .lockingVault => "lockingVault"
  | .claimManager => "claimManager"
  | .rialtoAdapter => "rialtoAdapter"
  | .coordinator => "coordinator"
  | .stockVault => "stockVault"
  | .uniswapAdapter => "uniswapAdapter"
  | .tradeRouter => "tradeRouter"

/-- `resolveDeployment` of a manifest that the schema has parsed; a failed parse gives its
issues. -/
def resolveDeployment : Except (List Text) DeploymentManifest → DeploymentState
  | .error issues => .invalid issues
  | .ok m =>
    let mode := m.mode.getD (if m.broadcastReady then .production else .local)
    let isFixture := m.isFixture.getD false
    if !Number.strictEq m.chainId (.ofRat ROBINHOOD_CHAIN_ID) then
      .invalid ["chainId ".toList ++ NumberText.toText m.chainId ++ " != 4663".toList]
    else if !m.broadcastReady then
      .notLive ("manifest is not broadcast-ready (dry-run): live protocol writes are " ++
        "disabled").toList mode isFixture m.sourceCommit
    else match ContractKey.all.find? fun k => !(m.actual k).any isRealAddress with
      | some k =>
        .notLive ("contract \"" ++ keyName k ++ "\" has no valid deployed address " ++
          "(null/zero/placeholder/malformed)").toList mode isFixture m.sourceCommit
      | none =>
        let addresses := fun k => (m.actual k).getD []
        .live {
          mode,isFixture,addresses
          sourceCommit := m.sourceCommit
          chainId := m.chainId
          requiredCodeAddresses := WRITE_REQUIRED_CONTRACTS.map addresses
          writesEnabled := false }

/-- `enableWrites`, with what `eth_getCode` said of each lower-cased address. -/
def enableWrites (codePresent : Text → Bool) : DeploymentState → DeploymentState
  | .live l =>
    if l.isFixture then .live { l with writesEnabled := false }
    else .live { l with
      writesEnabled := l.requiredCodeAddresses.all fun a => codePresent (toLowerCase a) }
  | state => state

def writesAllowed : DeploymentState → Bool
  | .live l => l.writesEnabled && !l.isFixture
  | _ => false

theorem ContractKey.mem_all (k : ContractKey) : k ∈ ContractKey.all := by
  cases k <;> decide

/-- Writes are allowed for a broadcast-ready manifest of the right chain only, which is no
fixture, has a real address for each contract, and code at the required ones. -/
theorem writesAllowed_resolved {parsed : Except (List Text) DeploymentManifest}
    {codePresent : Text → Bool}
    (h : writesAllowed (enableWrites codePresent (resolveDeployment parsed)) = true) :
    ∃ m, parsed = .ok m ∧ m.broadcastReady = true ∧ m.isFixture.getD false = false ∧
      Number.strictEq m.chainId (.ofRat ROBINHOOD_CHAIN_ID) = true ∧
      (∀ k, ∃ a, m.actual k = some a ∧ isRealAddress a = true) ∧
      ∀ k ∈ WRITE_REQUIRED_CONTRACTS, codePresent (toLowerCase ((m.actual k).getD [])) = true := by
  cases parsed with
  | error issues => simp [resolveDeployment,enableWrites,writesAllowed] at h
  | ok m =>
    rw [resolveDeployment] at h
    by_cases hchain : Number.strictEq m.chainId (.ofRat ROBINHOOD_CHAIN_ID) = true
    · by_cases hready : m.broadcastReady = true
      · cases hfind : ContractKey.all.find? fun k => !(m.actual k).any isRealAddress with
        | some k => simp [hchain,hready,hfind,enableWrites,writesAllowed] at h
        | none =>
          by_cases hfixture : m.isFixture.getD false = true
          · simp [hchain,hready,hfind,hfixture,enableWrites,writesAllowed] at h
          · refine ⟨m,rfl,hready,by simpa using hfixture,hchain,fun k => ?_,?_⟩
            · have hk := List.find?_eq_none.1 hfind k (ContractKey.mem_all k)
              simpa [Option.any_eq_true] using hk
            · simpa [hchain,hready,hfind,hfixture,enableWrites,writesAllowed] using h
      · simp [hchain,hready,enableWrites,writesAllowed] at h
    · simp [hchain,enableWrites,writesAllowed] at h

end Manifest
end BpsProtocol
