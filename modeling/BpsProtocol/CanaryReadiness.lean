import BpsProtocol.CanaryPreflight

/-! What the preflight of the canary reports.
Each part is a block: it ends where its reads can be answered or their failures rendered, and
it leaves no failed check where what it read is sound.  The blocks compose to the whole. -/
namespace BpsProtocol
namespace CanaryPreflight

open Guarded HexText Shared Binary64 NumberText FeedAcceptance PriceGuard
open Eligibility (ROBINHOOD_CHAIN_ID)

/-! ## What the parts find out -/

/-- The read succeeded and its answer is as required, or it failed with a reason that can be
rendered. -/
def Legible {α : Type} : Except Reason α → (α → Prop) → Prop
  | .error e, _ => ∃ t, short e = .ok t
  | .ok a, next => next a

@[simp] theorem legible_ok {α : Type} {a : α} {next : α → Prop} :
    Legible (.ok a) next ↔ next a := Iff.rfl

@[simp] theorem legible_error {α : Type} {e : Reason} {next : α → Prop} :
    Legible (.error e) next ↔ ∃ t, short e = .ok t := Iff.rfl

/-- No check has failed so far, and execution is locked. -/
structure Clean (p : Progress) : Prop where
  checks : ∀ c ∈ p.checks, c.ok = true
  locked : p.executionLocked = true

def Failed (p : Progress) : Prop := ∃ c ∈ p.checks, c.ok = false

section Parts

variable {viem : Viem} {reader : ChainReader} {config : CanaryPreflightConfig}
  {id addr expected : Text} {ends passes : Prop}

theorem add_block {ok : Bool} {detail : Text} :
    Block Clean Failed (add id ok detail) True (ok = true) := by
  refine Block.of_ends trivial fun p => ⟨_,rfl,fun h hok => ?_,fun h => ?_⟩
  · exact ⟨List.forall_mem_append.2 ⟨h.checks,by simpa using hok⟩,h.locked⟩
  · cases h with
    | inl h =>
      obtain ⟨c,hc,hok⟩ := h
      exact ⟨c,List.mem_append_left _ hc,hok⟩
    | inr h => exact ⟨_,List.mem_append_right _ (List.mem_singleton_self _),Bool.not_eq_true _ ▸ h⟩

theorem set_block {f : Progress → Progress} (hchecks : ∀ p, (f p).checks = p.checks)
    (hlocked : ∀ p, (f p).executionLocked = p.executionLocked) :
    Block Clean Failed (modify f : Check Unit) True True := by
  refine Block.of_ends trivial fun p => ⟨f p,rfl,fun h _ => ?_,fun h => ?_⟩
  · exact ⟨(hchecks p).symm ▸ h.checks,(hlocked p).trans h.locked⟩
  · rw [Failed,hchecks]
    exact h.resolve_right fun hn => hn trivial

theorem setChainId_block (n : Number) :
    Block Clean Failed (modify fun p => { p with chainId := some n } : Check Unit) True True :=
  set_block (fun _ => rfl) fun _ => rfl

theorem setRouterHashOk_block (b : Bool) :
    Block Clean Failed (modify fun p => { p with routerHashOk := b } : Check Unit) True True :=
  set_block (fun _ => rfl) fun _ => rfl

theorem flag_block {f : Text} : Block Clean Failed (flag f) True True :=
  set_block (fun p => by split <;> rfl) fun p => by split <;> rfl

theorem flags_block (flags : List Text) :
    Block Clean Failed (flags.forM flag : Check Unit) True True := by
  induction flags with
  | nil => exact Block.pure
  | cons f flags ih => exact (flag_block.seq ih).congr (by simp) (by simp)

/-- The handlers of the parts: one failed check with the reason, or another throw. -/
theorem handler_block (e : Reason) (id : Text) (detail : Text → Text) :
    Block Clean Failed (do
      let reason ← awaited (short e)
      add id false (detail reason)) (∃ t, short e = .ok t) False := by
  cases he : short e with
  | ok t =>
    rw [awaited_ok_bind]
    exact add_block.congr (by simp) (by simp)
  | error e' => exact Block.of_throws (by simp) (throws_awaited e' _)

theorem caught_add {body : Check Unit} {e : Reason} {detail : Text → Text}
    (hbody : Throws body e) (hends : ends ↔ ∃ t, short e = .ok t) (hpasses : ¬passes) :
    Block Clean Failed (tryCatch body fun e => do
      let reason ← awaited (short e)
      add id false (detail reason)) ends passes :=
  Block.caught hbody ((handler_block e id detail).congr hends.symm Iff.rfl) hpasses

theorem chainCheck_block : Block Clean Failed (chainCheck reader)
    (Legible reader.getChainId fun _ => True)
    (∃ n, reader.getChainId = .ok n ∧ Number.strictEq n (.ofRat ROBINHOOD_CHAIN_ID) = true) := by
  unfold chainCheck
  cases h : reader.getChainId with
  | error e => exact caught_add (throws_awaited e _) Iff.rfl (by simp)
  | ok n =>
    refine Block.ended ?_ trivial
    rw [awaited_ok_bind]
    refine ((setChainId_block n).seq add_block).congr ?_ ?_
    · simp
    · simp

theorem codeCheck_block : Block Clean Failed (codeCheck reader id addr)
    (Legible (reader.getCode id addr) fun _ => True)
    (∃ code, reader.getCode id addr = .ok code ∧ hasCode code = true) := by
  unfold codeCheck
  cases h : reader.getCode id addr with
  | error e => exact caught_add (throws_awaited e _) Iff.rfl (by simp)
  | ok code =>
    refine Block.ended ?_ trivial
    rw [awaited_ok_bind]
    exact add_block.congr (by simp) (by simp)

/-- The reads of the router part. -/
def RouterLegible (viem : Viem) (reader : ChainReader) : Prop :=
  Legible (readView viem reader ROUTER_PART GuardedSettlement.OFFICIAL_REGISTRY .ownerOf)
    fun router => isZeroOrDead router = false →
      Legible (reader.getCode ROUTER_PART router) fun _ => True

/-- The router of the registry has the pinned code. -/
def RouterPinned (viem : Viem) (reader : ChainReader) (config : CanaryPreflightConfig) : Prop :=
  ∃ router code hash,
    readView viem reader ROUTER_PART GuardedSettlement.OFFICIAL_REGISTRY .ownerOf =
      .ok router ∧ isZeroOrDead router = false ∧
    reader.getCode ROUTER_PART router = .ok code ∧ hasCode code = true ∧
    viem.keccak256 code = .ok hash ∧
    eqAddr hash (config.expectedRouterCodeHash.getD ROUTER_CODE_HASH) = true

theorem routerCheck_block : Block Clean Failed (routerCheck viem reader config)
    (RouterLegible viem reader) (RouterPinned viem reader config) := by
  unfold RouterLegible RouterPinned routerCheck
  cases howner : readView viem reader ROUTER_PART GuardedSettlement.OFFICIAL_REGISTRY
    .ownerOf with
  | error e => exact caught_add (throws_awaited e _) Iff.rfl (by simp)
  | ok router =>
    rw [awaited_ok_bind,legible_ok]
    cases hzero : isZeroOrDead router with
    | true =>
      rw [if_pos rfl]
      exact Block.ended (add_block.congr Iff.rfl (by simp [hzero])) (by simp)
    | false =>
      simp only [Bool.false_eq_true,if_false,true_imp_iff]
      cases hcode : reader.getCode ROUTER_PART router with
      | error e =>
        exact caught_add ((throws_awaited e _).after_modify _) Iff.rfl (by simp [hcode])
      | ok code =>
        rw [awaited_ok_bind]
        cases hhas : hasCode code with
        | false =>
          refine Block.ended ((add_block.seq add_block).congr ?_ ?_) trivial
          · simp
          · simp [hcode,hhas]
        | true =>
          simp only [Bool.not_true,Bool.false_eq_true,if_false]
          cases hhash : viem.keccak256 code with
          | error f =>
            exact caught_add ((throws_awaited f.reason _).after_modify _)
              (iff_of_true trivial ⟨_,rfl⟩) (by simp [hcode,hhash])
          | ok hash =>
            refine Block.ended ((add_block.seq
              ((setRouterHashOk_block _).seq add_block)).congr ?_ ?_) trivial
            · simp
            · simp [hzero,hcode,hhas,hhash]

theorem routerCheck_hashOk (h : RouterPinned viem reader config) {p p' : Progress}
    (hp : (routerCheck viem reader config).run p = (.ok (),p')) : p'.routerHashOk = true := by
  obtain ⟨router,code,hash,howner,hzero,hcode,hhas,hhash,heq⟩ := h
  rw [routerCheck,howner,awaited_ok_bind,hzero] at hp
  simp only [Bool.false_eq_true,if_false] at hp
  rw [hcode,awaited_ok_bind,hhas] at hp
  simp only [Bool.not_true,Bool.false_eq_true,if_false] at hp
  rw [hhash] at hp
  rw [← (Prod.mk.inj hp).2]
  exact heq

/-- The pairing fails only where the router part does. -/
theorem pairingCheck_block :
    Block Clean Failed (routerCheck viem reader config >>= fun _ => pairingCheck)
      (RouterLegible viem reader) (RouterPinned viem reader config) := by
  refine routerCheck_block.recheck (fun p => p.routerHashOk = true)
    (fun p p' hp h => routerCheck_hashOk h hp) fun p => ?_
  have hadd : Block Clean Failed (add "selector-codehash-pairing".toList
      (selectorOk && p.routerHashOk) ("approved selector paired with pinned router code hash = ".toList ++
        boolText (selectorOk && p.routerHashOk))) True ((selectorOk && p.routerHashOk) = true) :=
    add_block
  have hselector : selectorOk = true := by decide
  refine ⟨_,rfl,fun h hfound => hadd.clean p _ rfl h ?_,fun h => hadd.failed p _ rfl (Or.inl h)⟩
  rw [hselector,hfound]
  rfl

def TokenLegible (viem : Viem) (reader : ChainReader) (id addr : Text) : Prop :=
  Legible (reader.getCode id addr) fun code => hasCode code = true →
    Legible (readView viem reader id addr .decimals) fun _ =>
      Legible (readView viem reader id addr .symbol) fun _ => True

/-- The token has code, the symbol and eighteen decimals. -/
def TokenSound (viem : Viem) (reader : ChainReader) (id addr expectedSymbol : Text) : Prop :=
  ∃ code decimals, reader.getCode id addr = .ok code ∧ hasCode code = true ∧
    readView viem reader id addr .decimals = .ok decimals ∧
    Number.strictEq (.ofRat (decimals : ℕ)) EXPECTED_TOKEN_DECIMALS = true ∧
    readView viem reader id addr .symbol = .ok expectedSymbol

theorem tokenCheck_block : Block Clean Failed (tokenCheck viem reader id addr expected)
    (TokenLegible viem reader id addr) (TokenSound viem reader id addr expected) := by
  unfold TokenLegible TokenSound tokenCheck
  cases hcode : reader.getCode id addr with
  | error e => exact caught_add (throws_awaited e _) Iff.rfl (by simp)
  | ok code =>
    rw [awaited_ok_bind]
    by_cases hhas : hasCode code = true
    · simp only [hhas,Bool.not_true,Bool.false_eq_true,if_false,legible_ok,true_imp_iff]
      cases hdecimals : readView viem reader id addr .decimals with
      | error e => exact caught_add (throws_awaited e _) Iff.rfl (by simp)
      | ok decimals =>
        rw [awaited_ok_bind]
        cases hsymbol : readView viem reader id addr .symbol with
        | error e => exact caught_add ((throws_awaited e _).after_modify _) Iff.rfl (by simp)
        | ok symbol =>
          refine Block.ended ?_ trivial
          rw [awaited_ok_bind]
          exact (add_block.seq add_block).congr (by simp) (by simp [hhas])
    · rw [Bool.not_eq_true] at hhas
      simp only [hhas,Bool.not_false,if_true,legible_ok,Bool.false_eq_true,false_imp_iff]
      exact Block.ended (add_block.congr Iff.rfl (by simp [hhas])) trivial

def FeedLegible (viem : Viem) (reader : ChainReader) (id addr : Text) : Prop :=
  Legible (reader.getCode id addr) fun code => hasCode code = true →
    Legible (readView viem reader id addr .decimals) fun _ =>
      Legible (readView viem reader id addr .description) fun _ =>
        Legible (readView viem reader id addr .latestRoundData) fun _ => True

/-- The feed is the pinned one and its round passed. -/
def FeedSound (viem : Viem) (reader : ChainReader) (nowSec : Number)
    (id addr expectedDescription : Text) (maxAgeSec : Number) : Prop :=
  ∃ code decimals round, reader.getCode id addr = .ok code ∧ hasCode code = true ∧
    readView viem reader id addr .decimals = .ok decimals ∧
    Number.strictEq (.ofRat (decimals : ℕ)) EXPECTED_FEED_DECIMALS = true ∧
    readView viem reader id addr .description = .ok expectedDescription ∧
    readView viem reader id addr .latestRoundData = .ok round ∧
    0 < round.answer ∧ round.roundId ≠ 0 ∧ round.roundId ≤ round.answeredInRound ∧
    isFresh (.ofRat (round.updatedAt : ℕ)) nowSec maxAgeSec = true

theorem feedCheck_block {maxAgeSec : Number} {staleFlagToken : Text} :
    Block Clean Failed (feedCheck viem reader config id addr expected maxAgeSec staleFlagToken)
      (FeedLegible viem reader id addr)
      (FeedSound viem reader config.nowSec id addr expected maxAgeSec) := by
  unfold FeedLegible FeedSound feedCheck
  cases hcode : reader.getCode id addr with
  | error e => exact caught_add (throws_awaited e _) Iff.rfl (by simp)
  | ok code =>
    rw [awaited_ok_bind]
    cases hhas : hasCode code with
    | false =>
      exact Block.ended (add_block.congr Iff.rfl (by simp [hhas])) (by simp [hhas])
    | true =>
      simp only [hhas,Bool.not_true,Bool.false_eq_true,if_false,legible_ok,true_imp_iff]
      cases hdecimals : readView viem reader id addr .decimals with
      | error e => exact caught_add (throws_awaited e _) Iff.rfl (by simp)
      | ok decimals =>
        rw [awaited_ok_bind]
        cases hdescription : readView viem reader id addr .description with
        | error e => exact caught_add ((throws_awaited e _).after_modify _) Iff.rfl (by simp)
        | ok description =>
          rw [awaited_ok_bind]
          cases hround : readView viem reader id addr .latestRoundData with
          | error e =>
            exact caught_add (((throws_awaited e _).after_modify _).after_modify _) Iff.rfl
              (by simp)
          | ok round =>
            rw [awaited_ok_bind]
            refine Block.ended ((add_block.seq (add_block.seq ((add_block.seq (add_block.seq
              (add_block.seq Block.pure))).seq (flags_block _)))).congr ?_ ?_) trivial
            · simp
            · simp [decimalsCheck,descriptionCheck,hhas,and_assoc]

/-- The answers that a part reads, their failures rendered. -/
def rendered {α : Type} (r : Except Reason α) : Except Text α :=
  r.mapError fun e => (short e).toOption.getD []

def feedViews (viem : Viem) (reader : ChainReader) (id addr : Text) : FeedViews where
  code := (rendered (reader.getCode id addr)).map some
  decimals := (rendered (readView viem reader id addr .decimals)).map fun n => .ofRat (n : ℕ)
  description := rendered (readView viem reader id addr .description)
  latestRoundData := rendered (readView viem reader id addr .latestRoundData)

def Progress.extend (p : Progress) (r : FeedReport) : Progress :=
  { p with
    checks := p.checks ++ r.checks
    flags := r.flags.foldl (fun fs f => if f ∈ fs then fs else fs ++ [f]) p.flags }

theorem rendered_error {α : Type} {e : Reason} {t : Text} (h : short e = .ok t) :
    rendered (.error e : Except Reason α) = .error t := by
  rw [rendered,Except.mapError,h]
  rfl

theorem caught_run {body : Check Unit} {handle : Reason → Check Unit} {e : Reason}
    {p p' : Progress} (h : body.run p = (.error e,p')) :
    (tryCatch body handle).run p = (handle e).run p' := by
  rw [tryCatch_run,h,orElse_error]

theorem extend_extend (p : Progress) (r r' : FeedReport) :
    (p.extend r).extend r' = p.extend ⟨r.checks ++ r'.checks,r.flags ++ r'.flags⟩ := by
  simp only [Progress.extend,List.append_assoc,List.foldl_append]

theorem addCheck_run (c : CheckResult) (p : Progress) :
    (addCheck c).run p = (.ok (),p.extend ⟨[c],[]⟩) := rfl

theorem checks_run (checks : List CheckResult) (p : Progress) :
    (checks.forM addCheck : Check Unit).run p = (.ok (),p.extend ⟨checks,[]⟩) := by
  induction checks generalizing p with
  | nil => simp [Progress.extend]
  | cons c checks ih =>
    change (addCheck c >>= fun _ => checks.forM addCheck).run p = _
    rw [bind_run,addCheck_run,andThen_ok,ih,extend_extend]
    rfl

theorem flags_run (flags : List Text) (p : Progress) :
    (flags.forM flag : Check Unit).run p = (.ok (),p.extend ⟨[],flags⟩) := by
  induction flags generalizing p with
  | nil => simp [Progress.extend]
  | cons f flags ih =>
    have hflag : (flag f).run p = (.ok (),p.extend ⟨[],[f]⟩) := by
      simp only [flag,modify_run,Progress.extend,List.append_nil,List.foldl_cons,List.foldl_nil]
      split
      · rfl
      · rfl
    change (flag f >>= fun _ => flags.forM flag).run p = _
    rw [bind_run,hflag,andThen_ok,ih,extend_extend]
    rfl

/-- The part adds the report that the views give. -/
theorem feedCheck_run {maxAgeSec : Number} {staleFlagToken : Text}
    (h : FeedLegible viem reader id addr) (p : Progress) :
    (feedCheck viem reader config id addr expected maxAgeSec staleFlagToken).run p =
      (.ok (),p.extend (FeedAcceptance.feedCheck (feedViews viem reader id addr) config.nowSec id
        addr expected maxAgeSec staleFlagToken)) := by
  unfold FeedLegible at h
  unfold feedCheck FeedAcceptance.feedCheck feedViews
  cases hcode : reader.getCode id addr with
  | error e =>
    rw [hcode] at h
    obtain ⟨t,ht⟩ := h
    rw [rendered_error ht,caught_run rfl,ht]
    rfl
  | ok code =>
    rw [hcode,legible_ok] at h
    rw [awaited_ok_bind]
    have hmem : (some code).getD [] ∈ [[],"0x".toList] ↔ hasCode code = false := by
      rw [Option.getD_some,List.mem_cons,List.mem_singleton,hasCode,decide_eq_false_iff_not,
        not_and_or,not_not,not_not]
    have hview : (rendered (.ok code)).map some = .ok (some code) := rfl
    rw [hview]
    dsimp only
    cases hhas : hasCode code with
    | false =>
      rw [if_pos (hmem.2 hhas)]
      rfl
    | true =>
      have hnot : ¬(some code).getD [] ∈ [[],"0x".toList] := by
        rw [hmem,hhas]
        exact Bool.true_eq_false_eq_False
      rw [if_neg hnot]
      replace h := h hhas
      simp only [Bool.not_true,Bool.false_eq_true,if_false]
      cases hdecimals : readView viem reader id addr .decimals with
      | error e =>
        rw [hdecimals] at h
        obtain ⟨t,ht⟩ := h
        rw [rendered_error ht,caught_run rfl,ht]
        rfl
      | ok decimals =>
        rw [hdecimals,legible_ok] at h
        rw [awaited_ok_bind]
        cases hdescription : readView viem reader id addr .description with
        | error e =>
          rw [hdescription] at h
          obtain ⟨t,ht⟩ := h
          rw [rendered_error ht]
          simp only [tryCatch_run,bind_run,addCheck_run,andThen_ok,awaited_error_bind,throw_run,
            orElse_error,ht,awaited_ok_bind,extend_extend]
          rfl
        | ok description =>
          rw [hdescription,legible_ok] at h
          rw [awaited_ok_bind]
          cases hround : readView viem reader id addr .latestRoundData with
          | error e =>
            rw [hround] at h
            obtain ⟨t,ht⟩ := h
            rw [rendered_error ht]
            simp only [tryCatch_run,bind_run,addCheck_run,andThen_ok,awaited_error_bind,throw_run,
              orElse_error,ht,awaited_ok_bind,extend_extend]
            rfl
          | ok round =>
            simp only [tryCatch_run,bind_run,addCheck_run,andThen_ok,awaited_ok_bind,checks_run,
              flags_run,orElse_ok,extend_extend]
            rfl

theorem oracleCheck_block : Block Clean Failed (oracleCheck viem reader)
    (Legible (readView viem reader ORACLE_PART GuardedSettlement.NVDA .oraclePaused)
      fun _ => True)
    (readView viem reader ORACLE_PART GuardedSettlement.NVDA .oraclePaused = .ok false) := by
  unfold oracleCheck
  cases h : readView viem reader ORACLE_PART GuardedSettlement.NVDA .oraclePaused with
  | error e => exact caught_add (throws_awaited e _) Iff.rfl (by simp)
  | ok paused =>
    refine Block.ended ?_ trivial
    rw [awaited_ok_bind]
    exact add_block.congr (by simp) (by simp)

/-- A read outside of any `try` must not fail. -/
theorem unguarded_block {r : Except Reason Text} {detail : Text → Text} :
    Block Clean Failed (do
      let code ← awaited r
      add id (hasCode code) (detail code)) (∃ code, r = .ok code)
      (∃ code, r = .ok code ∧ hasCode code = true) := by
  cases r with
  | error e => exact Block.of_throws (by simp) (throws_awaited e _)
  | ok code =>
    rw [awaited_ok_bind]
    exact add_block.congr (by simp) (by simp)

/-- The sequencer feed is the zero address, or its code can be read. -/
def SequencerRead (reader : ChainReader) (config : CanaryPreflightConfig) : Prop :=
  eqAddr config.sequencerFeed ZERO_ADDRESS = true ∨
    ∃ code, reader.getCode SEQUENCER_PART config.sequencerFeed = .ok code

def SequencerSound (reader : ChainReader) (config : CanaryPreflightConfig) : Prop :=
  eqAddr config.sequencerFeed ZERO_ADDRESS = true ∨
    ∃ code, reader.getCode SEQUENCER_PART config.sequencerFeed = .ok code ∧ hasCode code = true

theorem sequencerCheck_block : Block Clean Failed (sequencerCheck reader config)
    (SequencerRead reader config) (SequencerSound reader config) := by
  unfold sequencerCheck SequencerRead SequencerSound
  by_cases h : eqAddr config.sequencerFeed ZERO_ADDRESS = true
  · rw [if_pos h]
    exact add_block.congr (by simp [h]) (by simp [h])
  · rw [if_neg h]
    exact unguarded_block.congr (by simp [h]) (by simp [h])

/-- A controller that is given, and not zero or dead, can have its code read. -/
def ControllerRead (reader : ChainReader) (config : CanaryPreflightConfig) : Prop :=
  ∀ controller, config.controller = some controller → isZeroOrDead controller = false →
    ∃ code, reader.getCode CONTROLLER_PART controller = .ok code

def ControllerSound (reader : ChainReader) (config : CanaryPreflightConfig) : Prop :=
  ∃ controller code, config.controller = some controller ∧ isZeroOrDead controller = false ∧
    reader.getCode CONTROLLER_PART controller = .ok code ∧ hasCode code = true

theorem controllerCheck_block : Block Clean Failed (controllerCheck reader config)
    (ControllerRead reader config) (ControllerSound reader config) := by
  unfold controllerCheck ControllerRead ControllerSound
  cases config.controller with
  | none => exact (add_block.seq flag_block).congr (by simp) (by simp)
  | some controller =>
    dsimp only
    by_cases h : isZeroOrDead controller = true
    · rw [if_pos h]
      exact add_block.congr (by simp [h]) (by simp [h])
    · rw [if_neg h]
      exact unguarded_block.congr (by simp [h]) (by simp [h])

def ExecutorLegible (viem : Viem) (reader : ChainReader) (config : CanaryPreflightConfig) :
    Prop :=
  ∀ executor, config.executor = some executor →
    Legible (reader.getCode EXECUTOR_PART executor) fun code => hasCode code = true →
      Legible (readView viem reader EXECUTOR_PART executor .paused) fun _ => True

/-- There is no executor to execute with, or it is paused. -/
def Locked (viem : Viem) (reader : ChainReader) (config : CanaryPreflightConfig) : Prop :=
  ∀ executor, config.executor = some executor →
    ∃ code, reader.getCode EXECUTOR_PART executor = .ok code ∧
      (hasCode code = true → readView viem reader EXECUTOR_PART executor .paused = .ok true)

/-- The lock and its check are set together. -/
theorem setLock_block {b : Bool} {detail : Text} :
    Block Clean Failed (do
      modify fun p => { p with executionLocked := b }
      add id b detail) True (b = true) := by
  refine Block.of_ends trivial fun p => ⟨_,rfl,fun h hb => ?_,fun h => ?_⟩
  · exact ⟨List.forall_mem_append.2 ⟨h.checks,by simpa using hb⟩,hb⟩
  · exact add_block.failed { p with executionLocked := b } _ rfl h

theorem unlock_block (e : Reason) (detail : Text → Text) :
    Block Clean Failed (do
      modify fun p => { p with executionLocked := false }
      let reason ← awaited (short e)
      add id false (detail reason)) (∃ t, short e = .ok t) False := by
  cases he : short e with
  | ok t =>
    rw [awaited_ok_bind]
    exact setLock_block.congr (by simp) (by simp)
  | error e' => exact Block.of_throws (by simp) ((throws_awaited e' _).after_modify _)

theorem lockCheck_block : Block Clean Failed (lockCheck viem reader config)
    (ExecutorLegible viem reader config) (Locked viem reader config) := by
  unfold lockCheck ExecutorLegible Locked
  cases config.executor with
  | none => exact add_block.congr (by simp) (by simp)
  | some executor =>
    dsimp only
    cases hcode : reader.getCode EXECUTOR_PART executor with
    | error e =>
      exact Block.caught (throws_awaited e _) ((unlock_block e _).congr (by simp [hcode]) Iff.rfl)
        (by simp [hcode])
    | ok code =>
      rw [awaited_ok_bind]
      cases hhas : hasCode code with
      | false =>
        refine Block.ended (add_block.congr Iff.rfl ?_) ?_
        · simp [hcode,hhas]
        · simp [hcode,hhas]
      | true =>
        simp only [Bool.not_true,Bool.false_eq_true,if_false]
        cases hpaused : readView viem reader EXECUTOR_PART executor .paused with
        | error e =>
          exact Block.caught (throws_awaited e _)
            ((unlock_block e _).congr (by simp [hcode,hhas,hpaused]) Iff.rfl)
            (by simp [hcode,hhas,hpaused])
        | ok paused =>
          rw [awaited_ok_bind]
          refine Block.ended (setLock_block.congr Iff.rfl ?_) ?_
          · simp [hcode,hhas,hpaused]
          · simp [hcode,hpaused]

end Parts

/-! ## The report -/

section Report

variable {viem : Viem} {reader : ChainReader} {config : CanaryPreflightConfig}

/-- The two reads outside of any `try` succeed, and what fails inside of one can be rendered. -/
structure Answered (viem : Viem) (reader : ChainReader) (config : CanaryPreflightConfig) :
    Prop where
  sequencer : SequencerRead reader config
  controller : ControllerRead reader config
  chainId : Legible reader.getChainId fun _ => True
  registry : Legible (reader.getCode "registry-code".toList GuardedSettlement.OFFICIAL_REGISTRY)
    fun _ => True
  router : RouterLegible viem reader
  weth : TokenLegible viem reader "weth".toList GuardedSettlement.WETH
  nvda : TokenLegible viem reader "nvda".toList GuardedSettlement.NVDA
  ethUsd : FeedLegible viem reader "eth-usd".toList ETH_USD_FEED
  nvdaUsd : FeedLegible viem reader "nvda-usd".toList NVDA_USD_FEED
  oracle : Legible (readView viem reader ORACLE_PART GuardedSettlement.NVDA .oraclePaused)
    fun _ => True
  executor : ExecutorLegible viem reader config

/-- What a report of readiness says of the chain and the configuration. -/
structure Ready (viem : Viem) (reader : ChainReader) (config : CanaryPreflightConfig) : Prop where
  chainId : ∃ n, reader.getChainId = .ok n ∧ Number.strictEq n (.ofRat ROBINHOOD_CHAIN_ID) = true
  registry : ∃ code, reader.getCode "registry-code".toList GuardedSettlement.OFFICIAL_REGISTRY =
    .ok code ∧ hasCode code = true
  router : RouterPinned viem reader config
  weth : TokenSound viem reader "weth".toList GuardedSettlement.WETH WETH_SYMBOL
  nvda : TokenSound viem reader "nvda".toList GuardedSettlement.NVDA NVDA_SYMBOL
  ethUsd : FeedSound viem reader config.nowSec "eth-usd".toList ETH_USD_FEED
    ETH_USD_FEED_DESCRIPTION config.maxWethFeedAgeSec
  nvdaUsd : FeedSound viem reader config.nowSec "nvda-usd".toList NVDA_USD_FEED
    NVDA_USD_FEED_DESCRIPTION config.maxNvdaFeedAgeSec
  oracle : readView viem reader ORACLE_PART GuardedSettlement.NVDA .oraclePaused = .ok false
  sequencer : SequencerSound reader config
  controller : ControllerSound reader config
  cap : 0 < config.canaryCapWei ∧ config.canaryCapWei ≤ CANARY_MAX_SELL_WETH
  ages : ageOk config.maxWethFeedAgeSec = true ∧ ageOk config.maxNvdaFeedAgeSec = true
  locked : Locked viem reader config
  qex1 : config.qex1Consumed = true

theorem selectorCheck_block : Block Clean Failed selectorCheck True True :=
  add_block.congr Iff.rfl (by decide)

theorem capCheck_block : Block Clean Failed (capCheck config) True
    (0 < config.canaryCapWei ∧ config.canaryCapWei ≤ CANARY_MAX_SELL_WETH) :=
  add_block.congr Iff.rfl decide_eq_true_iff

theorem agePolicyCheck_block : Block Clean Failed (agePolicyCheck config) True
    (ageOk config.maxWethFeedAgeSec = true ∧ ageOk config.maxNvdaFeedAgeSec = true) :=
  add_block.congr Iff.rfl (Bool.and_eq_true_iff)

theorem qex1Check_block : Block Clean Failed (qex1Check config) True (config.qex1Consumed = true) :=
  add_block.congr Iff.rfl (by simp)

theorem allChecks_block : Block Clean Failed (allChecks viem reader config)
    (Answered viem reader config) (Ready viem reader config) := by
  unfold allChecks
  refine Block.congr (chainCheck_block.seq (selectorCheck_block.seq (codeCheck_block.seq
    (pairingCheck_block.seq_pair (tokenCheck_block.seq (tokenCheck_block.seq
    (feedCheck_block.seq (feedCheck_block.seq (oracleCheck_block.seq (sequencerCheck_block.seq
    (controllerCheck_block.seq (capCheck_block.seq (agePolicyCheck_block.seq
    (lockCheck_block.seq qex1Check_block)))))))))))))) ⟨?_,?_⟩ ⟨?_,?_⟩
  · rintro ⟨hchain,-,hregistry,hrouter,hweth,hnvda,hethUsd,hnvdaUsd,horacle,hsequencer,
      hcontroller,-,-,hexecutor,-⟩
    exact ⟨hsequencer,hcontroller,hchain,hregistry,hrouter,hweth,hnvda,hethUsd,hnvdaUsd,horacle,
      hexecutor⟩
  · intro h
    exact ⟨h.chainId,trivial,h.registry,h.router,h.weth,h.nvda,h.ethUsd,h.nvdaUsd,h.oracle,
      h.sequencer,h.controller,trivial,trivial,h.executor,trivial⟩
  · rintro ⟨hchain,-,hregistry,hrouter,hweth,hnvda,hethUsd,hnvdaUsd,horacle,hsequencer,
      hcontroller,hcap,hages,hlocked,hqex1⟩
    exact ⟨hchain,hregistry,hrouter,hweth,hnvda,hethUsd,hnvdaUsd,horacle,hsequencer,hcontroller,
      hcap,hages,hlocked,hqex1⟩
  · intro h
    exact ⟨h.chainId,trivial,h.registry,h.router,h.weth,h.nvda,h.ethUsd,h.nvdaUsd,h.oracle,
      h.sequencer,h.controller,h.cap,h.ages,h.locked,h.qex1⟩

/-- The status follows the checks and the lock. -/
theorem report_ready (p : Progress) : p.report.status = .buildReadyExecutionLocked ↔ Clean p := by
  have hfailed : (List.map CheckResult.id (p.checks.filter fun c => !c.ok)).length = 0 ↔
      ∀ c ∈ p.checks, c.ok = true := by
    rw [List.length_map,List.length_eq_zero_iff,List.filter_eq_nil_iff]
    simp
  simp only [Progress.report,hfailed]
  split
  · next h => exact iff_of_true rfl ⟨h.1,h.2⟩
  · next h => exact iff_of_false (by simp) fun hc => h ⟨hc.checks,hc.locked⟩

/-- The evaluation gives a report exactly where the code of the sequencer feed and of the
controller can be read and what else fails can be rendered.  Its status is that of readiness
exactly where the chain and the configuration are ready, and then no check has failed. -/
theorem evaluateCanaryReadiness_reports_iff :
    ((∃ r, evaluateCanaryReadiness viem reader config = .ok r) ↔ Answered viem reader config) ∧
    ∀ r, evaluateCanaryReadiness viem reader config = .ok r →
      (r.status = .buildReadyExecutionLocked ↔ Ready viem reader config) ∧
      (r.status = .buildReadyExecutionLocked →
        (∀ c ∈ r.checks, c.ok = true) ∧ r.failed = [] ∧ r.executionLocked = true) := by
  have hblock : Block Clean Failed (allChecks viem reader config) _ _ := allChecks_block
  have hok : ∀ r, evaluateCanaryReadiness viem reader config = .ok r ↔ ∃ p,
      (allChecks viem reader config).run ⟨[],[],none,false,true⟩ = (.ok (),p) ∧ p.report = r := by
    intro r
    unfold evaluateCanaryReadiness
    cases (allChecks viem reader config).run ⟨[],[],none,false,true⟩ with
    | mk x p =>
      cases x with
      | ok a => simp [Except.map]
      | error e => simp [Except.map]
  refine ⟨?_,fun r hr => ?_⟩
  · rw [← hblock.ends_iff ⟨[],[],none,false,true⟩]
    simp only [hok]
    constructor
    · rintro ⟨r,p,hp,-⟩
      exact ⟨p,hp⟩
    · rintro ⟨p,hp⟩
      exact ⟨p.report,p,hp,rfl⟩
  · obtain ⟨p,hp,rfl⟩ := (hok r).1 hr
    rw [report_ready]
    have hinit : Clean ⟨[],[],none,false,true⟩ := ⟨by simp,rfl⟩
    refine ⟨⟨fun hclean => ?_,hblock.clean _ p hp hinit⟩,fun hclean => ⟨hclean.checks,?_,?_⟩⟩
    · by_contra hn
      obtain ⟨c,hc,hfalse⟩ := hblock.failed _ p hp (Or.inr hn)
      rw [hclean.checks c hc] at hfalse
      cases hfalse
    · have hnil : (p.checks.filter fun c => !c.ok) = [] := by
        rw [List.filter_eq_nil_iff]
        intro c hc
        simp [hclean.checks c hc]
      rw [Progress.report,hnil]
      rfl
    · exact hclean.locked

end Report

/-- A reader whose endpoint is down. -/
def downReader : ChainReader where
  getChainId := .error (.error "TimeoutError".toList (some "The request took too long".toList))
  getCode _ _ := .error (.error "TimeoutError".toList (some "The request took too long".toList))
  call _ _ _ := .error (.error "TimeoutError".toList (some "The request took too long".toList))

def emptyFault : Fault := ⟨"AbiDecodingZeroDataError".toList,[]⟩

/-- A library for a reader that gives it nothing to decode. -/
def sampleViem : Viem where
  encodeFunctionData _ := "0x".toList
  decodeFunctionResult _ _ := .error emptyFault
  keccak256 _ := .error emptyFault

def sequencerConfig : CanaryPreflightConfig where
  controller := none
  executor := none
  sequencerFeed := ETH_USD_FEED
  maxWethFeedAgeSec := .finite (.ofInt 900 heartbeat_exact)
  maxNvdaFeedAgeSec := .finite (.ofInt 900 heartbeat_exact)
  canaryCapWei := 1
  nowSec := .finite (.ofInt 1000 (by decide))
  qex1Consumed := true
  expectedRouterCodeHash := none

theorem sequencerConfig_unanswered : ¬Answered sampleViem downReader sequencerConfig := by
  intro h
  cases h.sequencer with
  | inl hzero => exact absurd hzero (by decide +kernel)
  | inr hread =>
    obtain ⟨code,hcode⟩ := hread
    cases hcode

/-- The library on answers that stand as they are. -/
def plainViem : Viem where
  encodeFunctionData
    | .ownerOf => "0x6352211e".toList
    | .decimals => "0x313ce567".toList
    | .description => "0x7284e416".toList
    | .symbol => "0x95d89b41".toList
    | .latestRoundData => "0xfeaf968c".toList
    | .oraclePaused => "0x48c1f5c9".toList
    | .paused => "0x5c975abb".toList
  decodeFunctionResult
    | .ownerOf,ret => .ok ret
    | .decimals,ret => .ok ret.length
    | .description,ret => .ok ret
    | .symbol,ret => .ok ret
    | .latestRoundData,_ => .ok ⟨1,200000000000,900,950,1⟩
    | .oraclePaused,ret => .ok (ret ≠ [])
    | .paused,ret => .ok (ret ≠ [])
  keccak256 _ := .ok ROUTER_CODE_HASH

def liveReader : ChainReader where
  getChainId := .ok (.ofRat ROBINHOOD_CHAIN_ID)
  getCode _ _ := .ok "0x6080".toList
  call _ target data := .ok <|
    if data = "0x6352211e".toList then "0x1111111111111111111111111111111111111111".toList
    else if data = "0x313ce567".toList then
      if target = GuardedSettlement.WETH ∨ target = GuardedSettlement.NVDA then
        List.replicate 18 '0'
      else List.replicate 8 '0'
    else if data = "0x7284e416".toList then
      if target = ETH_USD_FEED then ETH_USD_FEED_DESCRIPTION else NVDA_USD_FEED_DESCRIPTION
    else if data = "0x95d89b41".toList then
      if target = GuardedSettlement.WETH then WETH_SYMBOL else NVDA_SYMBOL
    else []

def liveConfig : CanaryPreflightConfig where
  controller := some "0x2222222222222222222222222222222222222222".toList
  executor := none
  sequencerFeed := ETH_USD_FEED
  maxWethFeedAgeSec := .finite (.ofInt 900 heartbeat_exact)
  maxNvdaFeedAgeSec := .finite (.ofInt 900 heartbeat_exact)
  canaryCapWei := 1
  nowSec := .finite (.ofInt 1000 (by decide))
  qex1Consumed := true
  expectedRouterCodeHash := none

theorem liveReader_answered : Answered plainViem liveReader liveConfig where
  sequencer := Or.inr ⟨_,rfl⟩
  controller _ _ _ := ⟨_,rfl⟩
  chainId := trivial
  registry := trivial
  router _ := trivial
  weth _ := trivial
  nvda _ := trivial
  ethUsd _ := trivial
  nvdaUsd _ := trivial
  oracle := trivial
  executor _ h := by cases h

theorem liveReport_status :
    (evaluateCanaryReadiness plainViem liveReader liveConfig).toOption.map
      (fun r => r.status) = some .buildReadyExecutionLocked := by
  decide +kernel

/-- Where every read is answered there is a report, here of readiness.  Where the endpoint is down
there is none. -/
theorem liveReader_reports :
    (∃ r, evaluateCanaryReadiness plainViem liveReader liveConfig = .ok r ∧
      r.status = .buildReadyExecutionLocked ∧ r.failed = []) ∧
    Ready plainViem liveReader liveConfig ∧
    ¬∃ r, evaluateCanaryReadiness sampleViem downReader sequencerConfig = .ok r := by
  obtain ⟨r,hr⟩ := evaluateCanaryReadiness_reports_iff.1.2 liveReader_answered
  have hstatus : r.status = .buildReadyExecutionLocked := by
    have h := liveReport_status
    rw [hr] at h
    exact Option.some.inj h
  obtain ⟨hready,hfailed⟩ := evaluateCanaryReadiness_reports_iff.2 r hr
  exact ⟨⟨r,hr,hstatus,(hfailed hstatus).2.1⟩,hready.1 hstatus,fun h =>
    sequencerConfig_unanswered (evaluateCanaryReadiness_reports_iff.1.1 h)⟩

/-- The code of the sequencer feed cannot be read, and the promise rejects. -/
theorem downReader_rejects : ¬∀ (viem : Viem) (reader : ChainReader)
    (config : CanaryPreflightConfig), ∃ r, evaluateCanaryReadiness viem reader config = .ok r := by
  intro h
  obtain ⟨r,hr⟩ := h sampleViem downReader sequencerConfig
  have hrejected :
      (evaluateCanaryReadiness sampleViem downReader sequencerConfig).isOk = false := by
    decide +kernel
  rw [hr] at hrejected
  cases hrejected

end CanaryPreflight
end BpsProtocol
