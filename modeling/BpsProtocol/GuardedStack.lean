import BpsProtocol.GuardedLog
import BpsProtocol.PriceGuardFloor

/-! The guarded settlement stack.
`deployPaused` creates a price guard and an executor; in the runs of the two the executor asks the
guard whenever it is the one that the controller configured, and the guard reads the feeds of that
moment. -/
namespace BpsProtocol
namespace GuardedSettlementConfig

open Checked Erc20 MerkleProof GuardedExecutor

/-! ## Deployment -/

def ROBINHOOD_CHAIN_ID : ℕ := 4663
def OFFICIAL_REGISTRY : Address := 0x71a120CbBf3Ce7cD910a3c50fF77aFc62735687E
def WETH : Address := 0x0Bd7D308f8E1639FAb988df18A8011f41EAcAD73
def NVDA : Address := 0xd0601CE157Db5bdC3162BbaC2a2C8aF5320D9EEC
def ETH_USD_FEED : Address := 0x78F3556b67E17Df817D51Ef5a990cDaF09E8d3A9
def NVDA_USD_FEED : Address := 0x379EC4f7C378F34a1B47E4F3cbeBCbAC3E8E9F15
def CANARY_MAX_SELL_WETH : ℕ := 1000000000000000
def MAX_FEED_AGE_SEC : ℕ := 900
def DEAD : Address := 0xdEaD

structure GSConfig where
  controller : Address
  sequencerFeed : Address
  sequencerGraceSec : ℕ
  maxWethFeedAgeSec : ℕ
  maxNvdaFeedAgeSec : ℕ
  canaryCapWeth : ℕ

/-- How the constructor of the executor reverts. -/
inductive CreationError
  | ownableInvalidOwner (owner : Address)
  | wrongChain (chainId : ℕ)
  | zeroAddress
  | invalidController
  | invalidSystemAddress
  | notAContract (target : Address)
  deriving DecidableEq

inductive ConfigError
  | wrongChain (chainId : ℕ)
  | controllerNotContract (controller : Address)
  | controllerInvalid (controller : Address)
  | capTooHigh (cap : ℕ)
  | capZero
  | feedAgeTooHigh (age : ℕ)
  | missingCode (target : Address)
  | guard (e : PriceGuard.Error)
  | executor (e : CreationError)
  deriving DecidableEq

variable (keccak256 : Hash) (chain : PriceGuard.Chain) (here : Address) (c : GSConfig)

def requireCode (target : Address) : Except ConfigError Unit :=
  revertIf ((chain.code target).length = 0) (.missingCode target)

def validate : Except ConfigError Unit := do
  revertIf (chain.chainId ≠ ROBINHOOD_CHAIN_ID) (.wrongChain chain.chainId)
  revertIf (c.controller = 0 ∨ c.controller = DEAD) (.controllerInvalid c.controller)
  revertIf ((chain.code c.controller).length = 0) (.controllerNotContract c.controller)
  requireCode chain WETH
  requireCode chain NVDA
  requireCode chain ETH_USD_FEED
  requireCode chain NVDA_USD_FEED
  requireCode chain OFFICIAL_REGISTRY
  revertIf (c.canaryCapWeth = 0) .capZero
  revertIf (CANARY_MAX_SELL_WETH < c.canaryCapWeth) (.capTooHigh c.canaryCapWeth)
  revertIf (c.maxWethFeedAgeSec = 0 ∨ MAX_FEED_AGE_SEC < c.maxWethFeedAgeSec)
    (.feedAgeTooHigh c.maxWethFeedAgeSec)
  revertIf (c.maxNvdaFeedAgeSec = 0 ∨ MAX_FEED_AGE_SEC < c.maxNvdaFeedAgeSec)
    (.feedAgeTooHigh c.maxNvdaFeedAgeSec)

/-- The constructor of the executor; it leaves the executor paused. -/
def newGuardedSettlementExecutor (controller weth stock registry : Address) :
    Except CreationError (Deployment × Storage) :=
  if controller = 0 then .error (.ownableInvalidOwner 0)
  else if chain.chainId ≠ robinhoodChainId then .error (.wrongChain chain.chainId)
  else if hzero : 0 ∈ [weth,stock,registry] then .error .zeroAddress
  else if controller = deadAddress ∨ controller = here then .error .invalidController
  else if hdistinct : ¬[weth,stock,registry].Nodup then .error .invalidSystemAddress
  else if controller ∈ [weth,stock,registry] then .error .invalidSystemAddress
  else if (chain.code weth).length = 0 then .error (.notAContract weth)
  else if (chain.code stock).length = 0 then .error (.notAContract stock)
  else if (chain.code registry).length = 0 then .error (.notAContract registry)
  else .ok (⟨here,weth,stock,registry,keccak256,hzero,not_not.1 hdistinct⟩,.deployed controller)

/-- What `deployPaused` hands to the constructor of the guard. -/
def GSConfig.guardConfig : PriceGuard.Config where
  wethToken := WETH
  nvdaToken := NVDA
  wethUsdFeed := ETH_USD_FEED
  nvdaUsdFeed := NVDA_USD_FEED
  sequencerUptimeFeed := c.sequencerFeed
  sequencerRecoveryGraceSec := c.sequencerGraceSec
  maxWethFeedAgeSec := c.maxWethFeedAgeSec
  maxNvdaFeedAgeSec := c.maxNvdaFeedAgeSec

/-- `here` is where the executor is created; neither constructor looks at the other contract. -/
def deployPaused : Except ConfigError (PriceGuard.Guard × Deployment × Storage) := do
  validate chain c
  let guard ← (PriceGuard.construct keccak256 chain c.guardConfig).mapError .guard
  let executor ← (newGuardedSettlementExecutor keccak256 chain here c.controller WETH NVDA
    OFFICIAL_REGISTRY).mapError .executor
  return (guard,executor)

/-! ## Runs -/

/-- What the guard reads beyond the code, the time and the id of the chain. -/
structure Prices where
  feed : Address → PriceGuard.Feed
  tokenDecimals : Address → Option ℕ
  oraclePaused : Address → Option Bool

structure Stack where
  world : World
  prices : Prices

/-- The two contracts, and where the guard is. -/
structure Contracts where
  executor : Deployment
  guard : PriceGuard.Guard
  guardAddress : Address

def Stack.guardChain (s : Stack) : PriceGuard.Chain where
  chainId := s.world.chain.chainId
  timestamp := s.world.timestamp
  code := s.world.chain.code
  feed := s.prices.feed
  tokenDecimals := s.prices.tokenDecimals
  oraclePaused := s.prices.oraclePaused

/-- The answer of the price guard that the executor asks. -/
def Contracts.answer (x : Contracts) (s : Stack) (priceGuard sellToken buyToken : Address)
    (sellAmount minBuyAmount maxDeviationBps : ℕ) : Bool :=
  if priceGuard = x.guardAddress then
    (PriceGuard.check x.executor.keccak256 x.guard s.guardChain sellToken buyToken sellAmount
      minBuyAmount maxDeviationBps).isOk
  else s.world.chain.check priceGuard sellToken buyToken sellAmount minBuyAmount maxDeviationBps

/-- The world as the executor sees it. -/
def Contracts.seen (x : Contracts) (s : Stack) : World :=
  { s.world with chain := { s.world.chain with check := x.answer s } }

inductive Tx
  | prices (prices : Prices)
  | executor (tx : GuardedExecutor.Tx)

def exec (x : Contracts) (s : Stack) : Tx → Except GuardedExecutor.Error Stack
  | .prices prices => .ok { s with prices }
  | .executor tx => do
    let world ← GuardedExecutor.exec x.executor (x.seen s) tx
    return { s with world }

/-- Both contracts were just deployed; nothing at the fresh address of the executor has allowed
anything, and donations may already sit there. -/
structure Initial (x : Contracts) (s : Stack) : Prop where
  deployed : ∃ c, deployPaused x.executor.keccak256 s.guardChain x.executor.here c =
    .ok (x.guard,x.executor,s.world.executor)
  here_ne_zero : x.executor.here ≠ 0
  closed : s.world.tokens.Closed x.executor.here

abbrev Reachable (x : Contracts) : Stack → Prop := Machine.Reachable (Initial x) (exec x)

/-! ## What a deployment needs -/

section Deploying

variable {keccak256 : Hash} {chain : PriceGuard.Chain} {here : Address} {c : GSConfig}

def pinned : List Address := [WETH,NVDA,ETH_USD_FEED,NVDA_USD_FEED,OFFICIAL_REGISTRY]

structure Validated (chain : PriceGuard.Chain) (c : GSConfig) : Prop where
  chainId : chain.chainId = ROBINHOOD_CHAIN_ID
  controller : c.controller ≠ 0 ∧ c.controller ≠ DEAD ∧ (chain.code c.controller).length ≠ 0
  code : ∀ a ∈ pinned, (chain.code a).length ≠ 0
  cap : 0 < c.canaryCapWeth ∧ c.canaryCapWeth ≤ CANARY_MAX_SELL_WETH
  ages : ∀ age ∈ [c.maxWethFeedAgeSec,c.maxNvdaFeedAgeSec], 0 < age ∧ age ≤ MAX_FEED_AGE_SEC

theorem validate_eq_ok : validate chain c = .ok () ↔ Validated chain c := by
  simp only [validate,requireCode,bind_eq_ok,revertIf_eq_ok,exists_const,not_or,not_not,not_lt]
  constructor
  · rintro ⟨hchain,⟨hzero,hdead⟩,hcode,hweth,hnvda,heth,hfeed,hregistry,hcap,hmax,hage,hage'⟩
    refine ⟨hchain,⟨hzero,hdead,hcode⟩,?_,⟨Nat.pos_of_ne_zero hcap,hmax⟩,?_⟩
    · simp only [pinned,List.forall_mem_cons]
      exact ⟨hweth,hnvda,heth,hfeed,hregistry,by simp⟩
    · simp only [List.forall_mem_cons]
      exact ⟨⟨Nat.pos_of_ne_zero hage.1,hage.2⟩,⟨Nat.pos_of_ne_zero hage'.1,hage'.2⟩,by simp⟩
  · rintro ⟨hchain,hcontroller,hcode,hcap,hages⟩
    simp only [pinned,List.forall_mem_cons] at hcode hages
    exact ⟨hchain,⟨hcontroller.1,hcontroller.2.1⟩,hcontroller.2.2,hcode.1,hcode.2.1,hcode.2.2.1,
      hcode.2.2.2.1,hcode.2.2.2.2.1,hcap.1.ne',hcap.2,⟨hages.1.1.ne',hages.1.2⟩,
      hages.2.1.1.ne',hages.2.1.2⟩

/-- What the constructor of the guard reads and pins is there, and in range. -/
structure Readable (chain : PriceGuard.Chain) : Prop where
  decimals : ∀ k ∈ [(chain.feed ETH_USD_FEED).decimals,(chain.feed NVDA_USD_FEED).decimals,
    chain.tokenDecimals WETH,chain.tokenDecimals NVDA], ∃ n, k = some n ∧ 0 < n ∧ n ≤ 18
  descriptions : (chain.feed ETH_USD_FEED).description.isSome = true ∧
    (chain.feed NVDA_USD_FEED).description.isSome = true
  oraclePaused : (chain.oraclePaused NVDA).isSome = true

theorem pinned_distinct : pinned.Nodup := by decide

theorem pinned_ne_zero : 0 ∉ pinned := by decide

theorem pin_succeeds_iff {nonzero ages distinct} :
    (∃ g, PriceGuard.pin keccak256 chain c.guardConfig nonzero ages distinct = .ok g) ↔
      Readable chain := by
  have hfeeds : c.guardConfig.wethUsdFeed = ETH_USD_FEED ∧
      c.guardConfig.nvdaUsdFeed = NVDA_USD_FEED ∧ c.guardConfig.wethToken = WETH ∧
      c.guardConfig.nvdaToken = NVDA := ⟨rfl,rfl,rfl,rfl⟩
  constructor
  · rintro ⟨g,h⟩
    simp only [PriceGuard.pin,bind_eq_ok,orRevert_eq_ok,hfeeds] at h
    obtain ⟨k₁,h₁,k₂,h₂,k₃,h₃,k₄,h₄,x,hx,y,hy,h⟩ := h
    split at h
    · rename_i hdecimals
      simp only [bind_eq_ok,orRevert_eq_ok] at h
      obtain ⟨paused,hpaused,-⟩ := h
      simp only [List.forall_mem_cons] at hdecimals
      refine ⟨?_,by rw [hx,hy]; exact ⟨rfl,rfl⟩,by rw [hpaused]; rfl⟩
      simp only [List.forall_mem_cons]
      exact ⟨⟨k₁,h₁,hdecimals.1⟩,⟨k₂,h₂,hdecimals.2.1⟩,⟨k₃,h₃,hdecimals.2.2.1⟩,
        ⟨k₄,h₄,hdecimals.2.2.2.1⟩,by simp⟩
    · cases h
  · rintro ⟨hdecimals,⟨hx,hy⟩,hpaused⟩
    simp only [List.forall_mem_cons] at hdecimals
    obtain ⟨⟨k₁,h₁,hk₁⟩,⟨k₂,h₂,hk₂⟩,⟨k₃,h₃,hk₃⟩,⟨k₄,h₄,hk₄⟩,-⟩ := hdecimals
    obtain ⟨x,hx⟩ := Option.isSome_iff_exists.1 hx
    obtain ⟨y,hy⟩ := Option.isSome_iff_exists.1 hy
    obtain ⟨paused,hpaused⟩ := Option.isSome_iff_exists.1 hpaused
    have hall : ∀ k ∈ [k₁,k₂,k₃,k₄], 0 < k ∧ k ≤ 18 := by
      simp only [List.forall_mem_cons]
      exact ⟨hk₁,hk₂,hk₃,hk₄,by simp⟩
    refine exists_eq_ok ?_
    simp only [PriceGuard.pin,hfeeds,h₁,h₂,h₃,h₄,hx,hy,hpaused,orRevert,ok_bind,dif_pos hall]
    rfl

theorem construct_succeeds_iff (hv : Validated chain c) :
    (∃ g, PriceGuard.construct keccak256 chain c.guardConfig = .ok g) ↔
      (c.sequencerFeed = 0 ∨ (chain.code c.sequencerFeed).length ≠ 0) ∧ Readable chain := by
  have hnonzero : 0 ∉ [WETH,NVDA,ETH_USD_FEED,NVDA_USD_FEED] := by decide
  have hdistinct : WETH ≠ NVDA ∧ ETH_USD_FEED ≠ NVDA_USD_FEED ∧ WETH ≠ ETH_USD_FEED ∧
      NVDA ≠ NVDA_USD_FEED := by decide
  have hcode := hv.code
  simp only [pinned,List.forall_mem_cons] at hcode
  have hsequencer : (c.sequencerFeed = 0 ∨ (chain.code c.sequencerFeed).length ≠ 0) ↔
      ¬(c.guardConfig.sequencerUptimeFeed ≠ 0 ∧
        (chain.code c.guardConfig.sequencerUptimeFeed).length = 0) := by
    rw [not_and_or,not_not]
    rfl
  unfold PriceGuard.construct
  rw [dif_pos (show 0 ∉ [c.guardConfig.wethToken,c.guardConfig.nvdaToken,c.guardConfig.wethUsdFeed,
    c.guardConfig.nvdaUsdFeed] from hnonzero),dif_pos ⟨hv.ages,hdistinct⟩,hsequencer,
    ← @pin_succeeds_iff keccak256 chain c hnonzero hv.ages hdistinct]
  simp only [PriceGuard.requireCode,bind_eq_ok,revertIf_eq_ok,exists_const,exists_and_left]
  exact ⟨fun h => h.2.2.2.2.2,fun h => ⟨not_not.2 hv.chainId,hcode.1,hcode.2.1,hcode.2.2.1,
    hcode.2.2.2.1,h⟩⟩

/-- What the constructor of the executor requires, and what it leaves. -/
structure Created (keccak256 : Hash) (chain : PriceGuard.Chain)
    (here controller weth stock registry : Address) (r : Deployment × Storage) : Prop where
  chainId : chain.chainId = robinhoodChainId
  proper : controller ∉ [0,deadAddress,here]
  distinct : controller ∉ [weth,stock,registry]
  code : ∀ a ∈ [weth,stock,registry], (chain.code a).length ≠ 0
  hash : r.1.keccak256 = keccak256
  address : r.1.here = here
  system : r.1.weth = weth ∧ r.1.stockToken = stock ∧ r.1.registry = registry
  storage : r.2 = .deployed controller

theorem newExecutor_eq_ok {controller weth stock registry : Address} {r : Deployment × Storage} :
    newGuardedSettlementExecutor keccak256 chain here controller weth stock registry = .ok r ↔
      Created keccak256 chain here controller weth stock registry r := by
  unfold newGuardedSettlementExecutor
  constructor
  · intro h
    split_ifs at h with hzero hchain hnonzero hcontroller hdistinct hsystem hweth hstock hregistry
    obtain rfl := Except.ok.inj h
    rw [not_or] at hcontroller
    refine ⟨not_not.1 hchain,?_,hsystem,?_,rfl,rfl,⟨rfl,rfl,rfl⟩,rfl⟩
    · simp [hzero,hcontroller]
    · simp only [List.forall_mem_cons]
      exact ⟨hweth,hstock,hregistry,by simp⟩
  · obtain ⟨d,e⟩ := r
    rintro ⟨hchain,hcontroller,hsystem,hcode,rfl,rfl,⟨rfl,rfl,rfl⟩,rfl⟩
    simp only [List.mem_cons,List.not_mem_nil,or_false,not_or] at hcontroller
    simp only [List.forall_mem_cons] at hcode
    rw [if_neg hcontroller.1,if_neg (not_not.2 hchain),dif_neg d.nonzero,if_neg (not_or.2
      hcontroller.2),dif_neg (not_not.2 d.distinct),if_neg hsystem,if_neg hcode.1,if_neg hcode.2.1,
      if_neg hcode.2.2.1]

theorem created_pinned (hv : Validated chain c) {r : Deployment × Storage} :
    Created keccak256 chain here c.controller WETH NVDA OFFICIAL_REGISTRY r ↔
      c.controller ≠ here ∧ c.controller ∉ [WETH,NVDA,OFFICIAL_REGISTRY] ∧
      r.1.keccak256 = keccak256 ∧ r.1.here = here ∧
      (r.1.weth = WETH ∧ r.1.stockToken = NVDA ∧ r.1.registry = OFFICIAL_REGISTRY) ∧
      r.2 = .deployed c.controller := by
  have hcode := hv.code
  simp only [pinned,List.forall_mem_cons] at hcode
  constructor
  · rintro ⟨-,hproper,hdistinct,-,hhash,haddress,hsystem,hstorage⟩
    simp only [List.mem_cons,not_or] at hproper
    exact ⟨hproper.2.2.1,hdistinct,hhash,haddress,hsystem,hstorage⟩
  · rintro ⟨hhere,hdistinct,hhash,haddress,hsystem,hstorage⟩
    refine ⟨hv.chainId,?_,hdistinct,?_,hhash,haddress,hsystem,hstorage⟩
    · simp only [List.mem_cons,List.not_mem_nil,or_false,not_or]
      exact ⟨hv.controller.1,hv.controller.2.1,hhere⟩
    · simp only [List.forall_mem_cons]
      exact ⟨hcode.1,hcode.2.1,hcode.2.2.2.2.1,by simp⟩

theorem deployPaused_ok {r : PriceGuard.Guard × Deployment × Storage}
    (h : deployPaused keccak256 chain here c = .ok r) : Validated chain c ∧
      PriceGuard.construct keccak256 chain c.guardConfig = .ok r.1 ∧
      Created keccak256 chain here c.controller WETH NVDA OFFICIAL_REGISTRY r.2 := by
  simp only [deployPaused,bind_eq_ok,mapError_eq_ok,newExecutor_eq_ok,pure_eq_ok] at h
  obtain ⟨_,hv,g,hg,e,he,rfl⟩ := h
  exact ⟨validate_eq_ok.1 hv,hg,he⟩

theorem exists_created (hv : Validated chain c) (hhere : c.controller ≠ here)
    (hdistinct : c.controller ∉ [WETH,NVDA,OFFICIAL_REGISTRY]) :
    ∃ r, Created keccak256 chain here c.controller WETH NVDA OFFICIAL_REGISTRY r :=
  ⟨(⟨here,WETH,NVDA,OFFICIAL_REGISTRY,keccak256,by decide,by decide⟩,.deployed c.controller),
    (created_pinned hv).2 ⟨hhere,hdistinct,rfl,rfl,⟨rfl,rfl,rfl⟩,rfl⟩⟩

theorem deployed_initial {r : PriceGuard.Guard × Deployment × Storage} {w : World}
    (h : deployPaused keccak256 chain here c = .ok r) (hzero : here ≠ 0)
    (hclosed : w.tokens.Closed here) (hw : w.executor = r.2.2) :
    GuardedExecutor.Initial r.2.1 w := by
  obtain ⟨-,-,he⟩ := deployPaused_ok h
  refine ⟨he.address ▸ hzero,⟨c.controller,?_,hw.trans he.storage⟩,he.address ▸ hclosed⟩
  have hproper := he.proper
  have hdistinct := he.distinct
  rw [he.address,he.system.1,he.system.2.1,he.system.2.2]
  simp only [List.mem_cons,List.not_mem_nil,or_false,not_or] at hproper hdistinct ⊢
  exact ⟨hproper.1,hproper.2.1,hproper.2.2,hdistinct⟩

/-- The deployment goes through exactly if the configuration is valid, its controller is none of
`WETH`, `NVDA`, the registry and the executor, its sequencer feed is absent or has code, the feeds
answer their descriptions and decimals in range, the tokens decimals in range and `NVDA` its
`oraclePaused`.  The first of these is checked before anything is created, the others are left to
the two constructors.  What is created then is a start of the
executor's runs: it is paused, and nothing of it is configured. -/
theorem deployPaused_succeeds_iff :
    ((∃ r, deployPaused keccak256 chain here c = .ok r) ↔
      validate chain c = .ok () ∧ c.controller ∉ [WETH,NVDA,OFFICIAL_REGISTRY,here] ∧
        (c.sequencerFeed = 0 ∨ (chain.code c.sequencerFeed).length ≠ 0) ∧ Readable chain) ∧
      ∀ r w, deployPaused keccak256 chain here c = .ok r → here ≠ 0 → w.tokens.Closed here →
        w.executor = r.2.2 → GuardedExecutor.Initial r.2.1 w := by
  have hcontroller : c.controller ∉ [WETH,NVDA,OFFICIAL_REGISTRY,here] ↔
      c.controller ∉ [WETH,NVDA,OFFICIAL_REGISTRY] ∧ c.controller ≠ here := by
    simp only [List.mem_cons,List.not_mem_nil,or_false,not_or,and_assoc]
  refine ⟨?_,fun r w => deployed_initial⟩
  rw [validate_eq_ok,hcontroller]
  constructor
  · rintro ⟨r,h⟩
    obtain ⟨hv,hg,he⟩ := deployPaused_ok h
    obtain ⟨hhere,hdistinct,-⟩ := (created_pinned hv).1 he
    exact ⟨hv,⟨hdistinct,hhere⟩,(construct_succeeds_iff hv).1 ⟨_,hg⟩⟩
  · rintro ⟨hv,⟨hdistinct,hhere⟩,hguard⟩
    obtain ⟨g,hg⟩ := (@construct_succeeds_iff keccak256 chain c hv).2 hguard
    obtain ⟨r,hr⟩ := @exists_created keccak256 chain here c hv hhere hdistinct
    refine ⟨(g,r),?_⟩
    simp only [deployPaused,bind_eq_ok,mapError_eq_ok,newExecutor_eq_ok,pure_eq_ok]
    exact ⟨_,validate_eq_ok.2 hv,g,hg,r,hr,rfl⟩

end Deploying

/-! ## Prices -/

section Prices

variable {x : Contracts} {s s' : Stack} {lo hi : ℕ}

theorem check_priced {keccak256 : Hash} {g : PriceGuard.Guard} {chain : PriceGuard.Chain}
    {sellToken buyToken : Address} {sellAmount minBuyAmount maxDeviationBps : ℕ}
    (h : PriceGuard.check keccak256 g chain sellToken buyToken sellAmount minBuyAmount
      maxDeviationBps = .ok ()) :
    ∃ wethUsd nvdaUsd, PriceGuard.readAnswers keccak256 g chain = .ok (wethUsd,nvdaUsd) ∧
      sellAmount*wethUsd*g.scaleUp*(10000-PriceGuard.deviation maxDeviationBps) ≤
        minBuyAmount*10000*10^g.wethTokenDecimals*g.denominator nvdaUsd := by
  have hread : ∃ answers, PriceGuard.readAnswers keccak256 g chain = .ok answers := by
    simp only [PriceGuard.check,bind_eq_ok] at h
    obtain ⟨_,-,answers,hanswers,-⟩ := h
    exact ⟨answers,hanswers⟩
  obtain ⟨⟨wethUsd,nvdaUsd⟩,hread⟩ := hread
  obtain ⟨-,-,hfloor⟩ := (PriceGuard.check_eq_ok hread).1 h
  refine ⟨wethUsd,nvdaUsd,hread,?_⟩
  calc sellAmount*wethUsd*g.scaleUp*(10000-PriceGuard.deviation maxDeviationBps)
      ≤ g.floorAmount sellAmount wethUsd nvdaUsd maxDeviationBps*10000*
          10^g.wethTokenDecimals*g.denominator nvdaUsd :=
        g.le_floorAmount (PriceGuard.readAnswers_pos hread)
    _ ≤ minBuyAmount*10000*10^g.wethTokenDecimals*g.denominator nvdaUsd := by gcongr

theorem Initial.executor (h : Initial x s) : GuardedExecutor.Initial x.executor s.world := by
  obtain ⟨c,hc⟩ := h.deployed
  exact deployed_initial hc h.here_ne_zero h.closed rfl

theorem seen_books (hb : Books x.executor s.world) : Books x.executor (x.seen s) := by
  have h : GuardedExecutor.exec x.executor s.world (.outside (.chain (x.seen s).chain)) =
    .ok (x.seen s) := rfl
  exact exec_books hb h

/-- The executor's books are kept in the runs of the stack, as in those of the executor. -/
theorem exec_stack_books {tx : Tx} (hb : Books x.executor s.world) (h : exec x s tx = .ok s') :
    Books x.executor s'.world := by
  cases tx with
  | prices prices =>
    cases h
    exact hb
  | executor tx =>
    simp only [exec,bind_eq_ok,pure_eq_ok] at h
    obtain ⟨w,hw,rfl⟩ := h
    exact exec_books (seen_books hb) hw

/-- The controller keeps the deployed guard, and the feeds keep to a range. -/
structure Within (x : Contracts) (lo hi : ℕ) (s : Stack) : Prop where
  guard : s.world.executor.priceGuard = 0 ∨ s.world.executor.priceGuard = x.guardAddress
  prices : ∀ wethUsd nvdaUsd,
    PriceGuard.readAnswers x.executor.keccak256 x.guard s.guardChain = .ok (wethUsd,nvdaUsd) →
      lo ≤ wethUsd ∧ nvdaUsd ≤ hi

/-- What was sold, at the lower price of the one feed, is worth at most a hundredth more than what
was received, at the higher price of the other. -/
def Fair (x : Contracts) (lo hi : ℕ) (f : Fill) : Prop :=
  f.sellAmount*lo*10^(x.guard.nvdaFeedDecimals+x.guard.nvdaTokenDecimals)*9900 ≤
    f.received*10000*10^x.guard.wethTokenDecimals*(10^x.guard.wethFeedDecimals*hi)

theorem envelope_fair {sender router : Address} {p : SettlementParams} {f : Fill}
    (h : Envelope x.executor (x.seen s) sender p router) (hw : Within x lo hi s)
    (hsell : f.sellAmount = p.sellAmount) (hmin : p.minBuyAmount ≤ f.received) :
    Fair x lo hi f := by
  obtain ⟨hguard,hanswer⟩ := h.price
  have haddress : s.world.executor.priceGuard = x.guardAddress := hw.guard.resolve_left hguard
  have hcheck : (PriceGuard.check x.executor.keccak256 x.guard s.guardChain x.executor.weth
      x.executor.stockToken p.sellAmount p.minBuyAmount maxPriceDeviationBps).isOk = true := by
    rw [← hanswer]
    exact (if_pos haddress).symm
  obtain ⟨_,hok⟩ := exists_eq_ok hcheck
  obtain ⟨wethUsd,nvdaUsd,hread,hfloor⟩ := check_priced hok
  obtain ⟨hlo,hhi⟩ := hw.prices _ _ hread
  calc f.sellAmount*lo*10^(x.guard.nvdaFeedDecimals+x.guard.nvdaTokenDecimals)*9900
      ≤ p.sellAmount*wethUsd*x.guard.scaleUp*(10000-PriceGuard.deviation maxPriceDeviationBps) := by
        rw [hsell]
        exact Nat.mul_le_mul_right _ (Nat.mul_le_mul_right _ (Nat.mul_le_mul_left _ hlo))
    _ ≤ p.minBuyAmount*10000*10^x.guard.wethTokenDecimals*x.guard.denominator nvdaUsd := hfloor
    _ ≤ f.received*10000*10^x.guard.wethTokenDecimals*(10^x.guard.wethFeedDecimals*hi) := by
        unfold PriceGuard.Guard.denominator
        gcongr

/-- The step lemma: a settlement adds itself to the log, at a fair price. -/
theorem exec_fair {tx : Tx} (hb : Books x.executor s.world) (hw : Within x lo hi s)
    (hfair : ∀ event ∈ s.world.executor.events, ∀ f, event.fill = some f →
      Fair x lo hi f ∧ f.sellAmount ≤ canaryMaxSellWeth)
    (h : exec x s tx = .ok s') : ∀ event ∈ s'.world.executor.events, ∀ f, event.fill = some f →
      Fair x lo hi f ∧ f.sellAmount ≤ canaryMaxSellWeth := by
  intro event hmem f hfill
  cases tx with
  | prices prices =>
    cases h
    exact hfair event hmem f hfill
  | executor tx =>
    simp only [exec,bind_eq_ok,pure_eq_ok] at h
    obtain ⟨w,hexec,rfl⟩ := h
    rcases exec_fills (seen_books hb) hexec hmem hfill with hold | hnew
    · exact hfair event hold f hfill
    · obtain ⟨sender,p,router,henv,hsell,hmin⟩ := hnew
      refine ⟨envelope_fair henv hw hsell hmin,?_⟩
      rw [hsell]
      exact henv.amount.2.trans hb.guarded.cap

/-- In every run of a deployed stack in which the controller configures no other guard, whatever
the called routers, the tokens and the feeds do: if the feeds, whenever they can be read, keep to
a range, each settlement in the log received at least 99 percent of what it sold, at the worst
prices of the range, and sold no more than the ceiling. -/
theorem settlements_priced (hinit : Initial x s) {txs : List Tx}
    (h : Machine.Throughout (exec x) (fun s _ => Within x lo hi s) s txs) :
    ∀ event ∈ (Machine.run (exec x) s txs).world.executor.events, ∀ f, event.fill = some f →
      Fair x lo hi f ∧ f.sellAmount ≤ canaryMaxSellWeth := by
  have hevents : s.world.executor.events = [] := by
    obtain ⟨controller,-,he⟩ := hinit.executor.executor
    rw [he]
    rfl
  refine (Machine.run_preserves_throughout
    (I := fun s => Books x.executor s.world ∧ ∀ event ∈ s.world.executor.events, ∀ f,
      event.fill = some f → Fair x lo hi f ∧ f.sellAmount ≤ canaryMaxSellWeth)
    (fun s tx s' hi hc hs => ⟨exec_stack_books hi.1 hs,exec_fair hi.1 hc hi.2 hs⟩)
    ⟨hinit.executor.books,?_⟩ h).2
  rw [hevents]
  exact fun event hmem => nomatch hmem

end Prices

/-! A stack whose feeds answer `3000` and `150` dollars with eight decimals; `9` controls, the
guard is at `72` and the executor at `80`. -/

def sampleConfig : GSConfig := ⟨9,0,0,900,900,1000000000000000⟩

def samplePrices : Prices where
  feed a := if a = ETH_USD_FEED then ⟨some 8,some [3],some ⟨1,300000000000,900,950,1⟩⟩
    else ⟨some 8,some [4],some ⟨1,15000000000,900,990,1⟩⟩
  tokenDecimals _ := some 18
  oraclePaused _ := some false

def sampleStart : Stack where
  world :=
    { timestamp := 1000
      tokens := fun _ => Token.empty
      chain := ⟨4663,fun _ => some 71,fun a => if a = 71 then [7] else [8],fun _ _ _ _ _ _ => false⟩
      executor := .deployed 9 }
  prices := samplePrices

theorem sampleGuard_ages : ∀ age ∈ [900,900], 0 < age ∧ age ≤ PriceGuard.maxFeedAgeCeilingSec := by
  decide

theorem sampleGuard_nonzero : (0 : Address) ∉ [WETH,NVDA,ETH_USD_FEED,NVDA_USD_FEED] := by decide

theorem sampleGuard_distinct : WETH ≠ NVDA ∧ ETH_USD_FEED ≠ NVDA_USD_FEED ∧ WETH ≠ ETH_USD_FEED ∧
    NVDA ≠ NVDA_USD_FEED := by decide

theorem sampleGuard_decimals : ∀ k ∈ [8,8,18,18], 0 < k ∧ k ≤ 18 := by decide

def sampleGuard : PriceGuard.Guard where
  toConfig := sampleConfig.guardConfig
  wethFeedDecimals := 8
  nvdaFeedDecimals := 8
  wethTokenDecimals := 18
  nvdaTokenDecimals := 18
  wethFeedDescriptionHash := toyHash [3]
  nvdaFeedDescriptionHash := toyHash [4]
  nonzero := sampleGuard_nonzero
  ages := sampleGuard_ages
  distinct := sampleGuard_distinct
  decimals := sampleGuard_decimals

theorem sampleExecutor_nonzero : (0 : Address) ∉ [WETH,NVDA,OFFICIAL_REGISTRY] := by decide

theorem sampleExecutor_distinct : [WETH,NVDA,OFFICIAL_REGISTRY].Nodup := by decide

def sampleContracts : Contracts where
  executor := ⟨80,WETH,NVDA,OFFICIAL_REGISTRY,toyHash,sampleExecutor_nonzero,
    sampleExecutor_distinct⟩
  guard := sampleGuard
  guardAddress := 72

theorem sampleStart_deployed : deployPaused toyHash sampleStart.guardChain 80 sampleConfig =
    .ok (sampleContracts.guard,sampleContracts.executor,.deployed 9) := rfl

theorem samplePrices_readable : Readable sampleStart.guardChain where
  decimals := by
    simp only [List.forall_mem_cons]
    exact ⟨⟨8,rfl,by decide⟩,⟨8,rfl,by decide⟩,⟨18,rfl,by decide⟩,⟨18,rfl,by decide⟩,by simp⟩
  descriptions := ⟨rfl,rfl⟩
  oraclePaused := rfl

/-- The sample is deployed, and it would not be with the pinned `WETH` for a controller, which
`validate` accepts. -/
theorem sampleConfig_deploys :
    (∃ r, deployPaused toyHash sampleStart.guardChain 80 sampleConfig = .ok r) ∧
    GuardedExecutor.Initial sampleContracts.executor sampleStart.world ∧
    validate sampleStart.guardChain { sampleConfig with controller := WETH } = .ok () ∧
    ¬∃ r, deployPaused toyHash sampleStart.guardChain 80 { sampleConfig with controller := WETH } =
      .ok r :=
  ⟨deployPaused_succeeds_iff.1.2 ⟨rfl,by decide,Or.inl rfl,samplePrices_readable⟩,
    deployPaused_succeeds_iff.2 _ _ sampleStart_deployed (by decide) (fun _ _ => rfl) rfl,rfl,
    fun h => absurd (deployPaused_succeeds_iff.1.1 h).2.1 (by decide)⟩

theorem sampleStart_initial : Initial sampleContracts sampleStart :=
  ⟨⟨sampleConfig,sampleStart_deployed⟩,by decide,fun _ _ => rfl⟩

def sampleRequest : SettlementParams where
  sellToken := WETH
  buyToken := NVDA
  sellAmount := 10^15
  minBuyAmount := 198*10^14
  target := 71
  selector := 0x01020304
  callData := [1,2,3,4,5]
  platformFeeBps := 5
  integratorFeePresent := false
  slippageBps := 100
  nonce := 1
  deadline := 1200
  intentDigest := 0
  calldataHash := toyHash [1,2,3,4,5]

def sampleParams : SettlementParams :=
  { sampleRequest with intentDigest := digestFor sampleContracts.executor 4663 sampleRequest }

/-- A router that takes what it is allowed and pays half a percent less than twenty for one. -/
def sampleRouter : Behaviour :=
  ⟨[.token WETH (.transferFrom 71 80 71 (10^15)),.token NVDA (.mint 71 80 (199*10^14))],true⟩

def sampleTxs : List Tx :=
  [.executor (.outside (.admin 9 (.setApprovedRouterCode (toyHash [7]) 0x01020304))),
    .executor (.outside (.admin 9 (.setTokenPairAllowed WETH NVDA true))),
    .executor (.outside (.admin 9 (.setMaxSellAmount WETH (10^15)))),
    .executor (.outside (.admin 9 (.setPriceGuard 72))),
    .executor (.outside (.admin 9 .unpause)),
    .executor (.outside (.token WETH (.mint 2 80 (10^16)))),
    .executor (.executeSettlement 9 sampleParams sampleRouter)]

theorem sample_within {s : Stack}
    (hread : (PriceGuard.readAnswers toyHash sampleGuard s.guardChain).toOption =
      some (300000000000,15000000000))
    (hguard : s.world.executor.priceGuard = 0 ∨ s.world.executor.priceGuard = 72) :
    Within sampleContracts 300000000000 15000000000 s := by
  refine ⟨hguard,fun wethUsd nvdaUsd h => ?_⟩
  obtain ⟨rfl,rfl⟩ := Prod.mk.inj (Except.ok.inj ((toOption_eq_some.1 hread).symm.trans h))
  exact ⟨le_rfl,le_rfl⟩

theorem sampleTxs_within : Machine.Throughout (exec sampleContracts)
    (fun s _ => Within sampleContracts 300000000000 15000000000 s) sampleStart sampleTxs := by
  refine ⟨?_,?_,?_,?_,?_,?_,?_,trivial⟩ <;>
    exact sample_within (by decide +kernel) (by decide +kernel)

theorem sampleStack_priced :
    (Machine.run (exec sampleContracts) sampleStart sampleTxs).world.executor.settlements.length =
      1 ∧
    ∀ event ∈ (Machine.run (exec sampleContracts) sampleStart sampleTxs).world.executor.events,
      ∀ f, event.fill = some f → Fair sampleContracts 300000000000 15000000000 f ∧
        f.sellAmount ≤ canaryMaxSellWeth :=
  ⟨by decide +kernel,settlements_priced sampleStart_initial sampleTxs_within⟩

end GuardedSettlementConfig
end BpsProtocol
