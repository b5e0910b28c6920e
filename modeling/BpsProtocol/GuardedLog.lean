import BpsProtocol.GuardedExecutorSafety

/-! The guarded executor's log.
The configuration can be read off the events, and every settlement in the log is within the
configuration that some earlier part of the log gives, from the settlement before it on. -/
namespace BpsProtocol
namespace GuardedExecutor

open Checked Mapping Erc20 Ownable

/-! ## Growth of the log -/

/-- The log grows, and by nothing that is a settlement. -/
def Quiet (e e' : Storage) : Prop :=
  ∃ events, e'.events = events ++ e.events ∧ ∀ event ∈ events, event.settlement = none

theorem Quiet.refl (e : Storage) : Quiet e e := ⟨[],rfl,by simp⟩

theorem Quiet.trans {e e' e'' : Storage} (h : Quiet e e') (h' : Quiet e' e'') : Quiet e e'' := by
  obtain ⟨events,he,hall⟩ := h
  obtain ⟨events',he',hall'⟩ := h'
  refine ⟨events' ++ events,by rw [he',he,List.append_assoc],fun event hmem => ?_⟩
  rcases List.mem_append.1 hmem with hm | hm
  · exact hall' event hm
  · exact hall event hm

theorem quiet_of_events {e e' : Storage} (h : e'.events = e.events) : Quiet e e' :=
  ⟨[],h,by simp⟩

theorem quiet_emit {e e' : Storage} {event : Event} (h : e'.events = event::e.events)
    (hevent : event.settlement = none) : Quiet e e' :=
  ⟨[event],h,fun x hx => by rw [List.mem_singleton.1 hx,hevent]⟩

/-! ## The configuration -/

/-- What a controller configures; an executor has one cap and one pair. -/
structure Configured where
  priceGuard : Address
  approvedRouterCodeHash : Bytes32
  approvedSelector : Bytes4
  cap : ℕ
  pairAllowed : Bool

/-- The configuration after the events of a log, newest first. -/
def configured : List Event → Configured
  | [] => ⟨0,0,0,0,false⟩
  | event::events =>
    match event with
    | .approvedRouterCodeSet codeHash selector =>
      { configured events with approvedRouterCodeHash := codeHash, approvedSelector := selector }
    | .tokenPairAllowedSet _ _ allowed => { configured events with pairAllowed := allowed }
    | .maxSellAmountSet _ maxAmount => { configured events with cap := maxAmount }
    | .priceGuardSet priceGuard => { configured events with priceGuard }
    | .settlementExecuted .. => configured events
    | .tokensRecovered .. => configured events

def Storage.configuration (d : Deployment) (e : Storage) : Configured :=
  ⟨e.priceGuard,e.approvedRouterCodeHash,e.approvedSelector,e.maxSellAmount d.weth,
    e.pairAllowed d.weth d.stockToken⟩

/-- The log tells the configuration. -/
def Logged (d : Deployment) (e : Storage) : Prop := e.configuration d = configured e.events

variable {d : Deployment} {w w' : World} {e e' : Storage} {chain : Chain} {sender router : Address}
  {p : SettlementParams} {b : Behaviour} {received : ℕ} {digest : Bytes32}

theorem Logged.configuration (h : Logged d e) :
    configured e.events = ⟨e.priceGuard,e.approvedRouterCodeHash,e.approvedSelector,
      e.maxSellAmount d.weth,e.pairAllowed d.weth d.stockToken⟩ := h.symm

/-- A setter logs what it sets, and nothing else of the configuration changes. -/
theorem AdminCall.exec_logged {call : AdminCall} (hl : Logged d e)
    (h : call.exec d chain e sender = .ok e') : Logged d e' ∧ Quiet e e' := by
  cases call with
  | setApprovedRouterCode codeHash selector =>
    simp only [exec,GuardedExecutor.setApprovedRouterCode,bind_eq_ok,revertIf_eq_ok,exists_const,
      pure_eq_ok] at h
    obtain ⟨_,-,-,-,rfl⟩ := h
    refine ⟨?_,quiet_emit rfl rfl⟩
    simp only [Logged,Storage.emit,configured,hl.configuration,Storage.configuration]
  | setTokenPairAllowed sellToken buyToken allowed =>
    simp only [exec,GuardedExecutor.setTokenPairAllowed,bind_eq_ok,revertIf_eq_ok,exists_const,
      pure_eq_ok,not_or,not_not] at h
    obtain ⟨_,-,⟨rfl,rfl⟩,rfl⟩ := h
    refine ⟨?_,quiet_emit rfl rfl⟩
    simp only [Logged,Storage.emit,configured,hl.configuration,Storage.configuration,set₂_apply,
      and_self,if_true]
  | setMaxSellAmount sellToken maxAmount =>
    simp only [exec,GuardedExecutor.setMaxSellAmount,bind_eq_ok,revertIf_eq_ok,exists_const,
      pure_eq_ok,not_not] at h
    obtain ⟨_,-,rfl,-,rfl⟩ := h
    refine ⟨?_,quiet_emit rfl rfl⟩
    simp only [Logged,Storage.emit,configured,hl.configuration,Storage.configuration,set_same]
  | setPriceGuard priceGuard =>
    simp only [exec,GuardedExecutor.setPriceGuard,bind_eq_ok,revertIf_eq_ok,exists_const,
      pure_eq_ok] at h
    obtain ⟨_,-,-,-,rfl⟩ := h
    refine ⟨?_,quiet_emit rfl rfl⟩
    simp only [Logged,Storage.emit,configured,hl.configuration,Storage.configuration]
  | pause =>
    simp only [exec,GuardedExecutor.pause,bind_eq_ok,revertIf_eq_ok,exists_const,pure_eq_ok] at h
    obtain ⟨_,-,-,rfl⟩ := h
    exact ⟨hl,quiet_of_events rfl⟩
  | unpause =>
    simp only [exec,GuardedExecutor.unpause,bind_eq_ok,revertIf_eq_ok,exists_const,pure_eq_ok] at h
    obtain ⟨_,-,-,-,rfl⟩ := h
    exact ⟨hl,quiet_of_events rfl⟩
  | ownership call =>
    simp only [exec,changeOwnership] at h
    split at h
    · simp only [bind_eq_ok,revertIf_eq_ok,exists_const,pure_eq_ok] at h
      obtain ⟨_,-,-,_,-,rfl⟩ := h
      exact ⟨hl,quiet_of_events rfl⟩
    · simp only [bind_eq_ok,pure_eq_ok] at h
      obtain ⟨_,-,rfl⟩ := h
      exact ⟨hl,quiet_of_events rfl⟩

theorem outside_logged {step : Outside} (hl : Logged d w.executor)
    (h : outside d w step = .ok w') : Logged d w'.executor ∧ Quiet w.executor w'.executor := by
  cases step with
  | token asset call =>
    simp only [outside,bind_eq_ok,revertIf_eq_ok,exists_const,pure_eq_ok] at h
    obtain ⟨-,_,-,rfl⟩ := h
    exact ⟨hl,.refl _⟩
  | admin sender call =>
    simp only [outside,bind_eq_ok,revertIf_eq_ok,exists_const,pure_eq_ok] at h
    obtain ⟨-,_,hcall,rfl⟩ := h
    exact AdminCall.exec_logged hl hcall
  | chain chain =>
    cases h
    exact ⟨hl,.refl _⟩

theorem run_logged (hl : Logged d w.executor) (steps : List Outside) :
    Logged d (Machine.run (outside d) w steps).executor ∧
      Quiet w.executor (Machine.run (outside d) w steps).executor :=
  Machine.run_preserves (I := fun u => Logged d u.executor ∧ Quiet w.executor u.executor)
    (fun _ _ _ hs h => (outside_logged hs.1 h).imp_right hs.2.trans) ⟨hl,.refl _⟩ steps

/-! ## Licences -/

/-- A settlement as its event reports it. -/
structure Fill where
  router : Address
  sellToken : Address
  buyToken : Address
  sellAmount : ℕ
  received : ℕ
  selector : Bytes4

def Event.fill : Event → Option Fill
  | .settlementExecuted _ _ router sellToken buyToken sellAmount received selector =>
    some ⟨router,sellToken,buyToken,sellAmount,received,selector⟩
  | _ => none

theorem Event.fill_eq_none {event : Event} : event.fill = none ↔ event.settlement = none := by
  cases event <;> simp [fill,settlement]

/-- A settlement within a configuration. -/
structure Licensed (d : Deployment) (c : Configured) (f : Fill) : Prop where
  direction : f.sellToken = d.weth ∧ f.buyToken = d.stockToken
  pair : c.pairAllowed = true
  amount : 0 < f.sellAmount ∧ f.sellAmount ≤ c.cap
  ceiling : c.cap ≤ canaryMaxSellWeth
  received : 0 < f.received
  selector : f.selector = c.approvedSelector ∧ c.approvedSelector ≠ 0
  code : c.approvedRouterCodeHash ≠ 0
  guard : c.priceGuard ≠ 0

/-- Every settlement of a log is licensed by an earlier part of it, after which the log has no
other settlement. -/
def AllLicensed (d : Deployment) (events : List Event) : Prop :=
  ∀ event f before, event::before <:+ events → event.fill = some f →
    ∃ between earlier, before = between ++ earlier ∧
      (∀ x ∈ between, x.settlement = none) ∧ Licensed d (configured earlier) f

theorem AllLicensed.quiet {old events : List Event} (h : AllLicensed d old)
    (hquiet : ∀ x ∈ events, x.settlement = none) : AllLicensed d (events ++ old) := by
  intro event f before hsuffix hfill
  induction events with
  | nil => exact h event f before hsuffix hfill
  | cons x events ih =>
    rcases List.suffix_cons_iff.1 hsuffix with heq | hrest
    · obtain ⟨rfl,-⟩ := List.cons.inj heq
      rw [Event.fill_eq_none.2 (hquiet _ List.mem_cons_self)] at hfill
      cases hfill
    · exact ih (fun y hy => hquiet y (List.mem_cons_of_mem _ hy)) hrest

/-- The invariant of every run. -/
structure Books (d : Deployment) (w : World) : Prop where
  guarded : Guarded d w
  logged : Logged d w.executor
  licensed : AllLicensed d w.executor.events

/-- What a settlement adds to the log: what its router's call logged, and then itself. -/
theorem settle_events (hl : Logged d w.executor)
    (h : settle d b w p digest router = .ok (received,w')) :
    p.minBuyAmount ≤ received ∧ Logged d w'.executor ∧
      ∃ between, (∀ x ∈ between, x.settlement = none) ∧
        w'.executor.events = .settlementExecuted digest p.nonce router d.weth d.stockToken
          p.sellAmount received p.selector::(between ++ w.executor.events) := by
  simp only [settle,bind_eq_ok,revertIf_eq_ok,mapError_eq_ok,exists_const,pure_eq_ok] at h
  obtain ⟨-,tokens,-,-,r,-,hmin,_,-,-,he⟩ := h
  obtain ⟨rfl,rfl⟩ := Prod.mk.inj he
  obtain ⟨hlogged,between,hevents,hquiet⟩ := run_logged (w := { w with tokens }) hl b.steps
  exact ⟨Nat.le_of_not_lt hmin,hlogged,between,hquiet,congrArg _ hevents⟩

theorem executeSettlement_books (hb : Books d w)
    (h : executeSettlement d b w sender p = .ok (received,w')) :
    Logged d w'.executor ∧ AllLicensed d w'.executor.events := by
  obtain ⟨router,henv,hsettle⟩ := executeSettlement_ok h
  obtain ⟨hmin,hlogged,between,hquiet,hevents⟩ := settle_events
    (w := { w with executor := w.executor.consume p.intentDigest p.nonce }) hb.logged hsettle
  refine ⟨hlogged,fun event f before hsuffix hfill => ?_⟩
  rw [hevents] at hsuffix
  rcases List.suffix_cons_iff.1 hsuffix with heq | hrest
  · obtain ⟨rfl,rfl⟩ := List.cons.inj heq
    obtain rfl := Option.some.inj hfill
    have hc := hb.logged.configuration
    refine ⟨between,w.executor.events,rfl,hquiet,?_⟩
    rw [hc]
    exact ⟨⟨rfl,rfl⟩,henv.pair,henv.amount,hb.guarded.cap,henv.minimum.trans_le hmin,
      ⟨henv.selector.2.2,henv.selector.1⟩,henv.codeHash.1,henv.price.1⟩
  · exact hb.licensed.quiet hquiet event f before hrest hfill

/-- A settlement in the log after a transaction was there before, or is that of the transaction. -/
theorem exec_fills {tx : Tx} {event : Event} {f : Fill} (hb : Books d w)
    (h : exec d w tx = .ok w') (hmem : event ∈ w'.executor.events) (hfill : event.fill = some f) :
    event ∈ w.executor.events ∨ ∃ sender p router, Envelope d w sender p router ∧
      f.sellAmount = p.sellAmount ∧ p.minBuyAmount ≤ f.received := by
  have hquiet : Quiet w.executor w'.executor → event ∈ w.executor.events := by
    rintro ⟨events,he,hall⟩
    rw [he] at hmem
    rcases List.mem_append.1 hmem with hm | hm
    · rw [Event.fill_eq_none.2 (hall event hm)] at hfill
      cases hfill
    · exact hm
  cases tx with
  | elapse seconds =>
    cases h
    exact .inl hmem
  | outside step => exact .inl (hquiet (outside_logged hb.logged h).2)
  | recover sender token amount =>
    simp only [exec,recover,bind_eq_ok,mapError_eq_ok,pure_eq_ok] at h
    obtain ⟨_,-,tokens,-,rfl⟩ := h
    exact .inl (hquiet (quiet_emit rfl rfl))
  | executeSettlement sender params behaviour =>
    simp only [exec,bind_eq_ok,pure_eq_ok] at h
    obtain ⟨⟨received,u⟩,hu,rfl⟩ := h
    obtain ⟨router,henv,hsettle⟩ := executeSettlement_ok hu
    obtain ⟨hmin,-,between,hall,hevents⟩ := settle_events
      (w := { w with executor := w.executor.consume params.intentDigest params.nonce }) hb.logged
      hsettle
    have hmem : event ∈ u.executor.events := hmem
    rw [hevents] at hmem
    rcases List.mem_cons.1 hmem with rfl | hrest
    · obtain rfl := Option.some.inj hfill
      exact .inr ⟨sender,params,router,henv,rfl,hmin⟩
    · rcases List.mem_append.1 hrest with hm | hm
      · rw [Event.fill_eq_none.2 (hall event hm)] at hfill
        cases hfill
      · exact .inl hm

theorem exec_books {tx : Tx} (hb : Books d w) (h : exec d w tx = .ok w') : Books d w' := by
  suffices hlog : Logged d w'.executor ∧ AllLicensed d w'.executor.events from
    ⟨(exec_guarded hb.guarded h).1,hlog.1,hlog.2⟩
  cases tx with
  | elapse seconds =>
    cases h
    exact ⟨hb.logged,hb.licensed⟩
  | outside step =>
    obtain ⟨hlogged,events,hevents,hquiet⟩ := outside_logged hb.logged h
    exact ⟨hlogged,hevents ▸ hb.licensed.quiet hquiet⟩
  | recover sender token amount =>
    simp only [exec,recover,bind_eq_ok,mapError_eq_ok,pure_eq_ok] at h
    obtain ⟨_,-,tokens,-,rfl⟩ := h
    have hquiet : ∀ x ∈ [Event.tokensRecovered token w.executor.ownership.owner
        (if (w.tokens token).balanceOf d.here < amount then (w.tokens token).balanceOf d.here
          else amount)], x.settlement = none := by
      intro x hx
      rw [List.mem_singleton.1 hx]
      rfl
    exact ⟨hb.logged,hb.licensed.quiet hquiet⟩
  | executeSettlement sender params router =>
    simp only [exec,bind_eq_ok,pure_eq_ok] at h
    obtain ⟨⟨received,u⟩,hu,rfl⟩ := h
    exact executeSettlement_books hb hu

theorem Initial.books (h : Initial d w) : Books d w := by
  refine ⟨h.guarded,?_,?_⟩ <;> obtain ⟨controller,-,he⟩ := h.executor <;> rw [he]
  · rfl
  · intro event f before hsuffix
    have hempty := List.suffix_nil.1 hsuffix
    cases hempty

theorem Reachable.books (h : Reachable d w) : Books d w :=
  Machine.Reachable.invariant (fun _ hi => hi.books) (fun _ _ _ hs hx => exec_books hs hx) h

/-- In every reachable state the configuration is what the log says, and every settlement in the
log was licensed: at an earlier place of the log, with no other settlement since, the price guard,
the code of the router with the settlement's selector, the pair and a cap of at least its amount
were configured. -/
theorem settlements_licensed (h : Reachable d w) :
    w.executor.configuration d = configured w.executor.events ∧
      AllLicensed d w.executor.events :=
  ⟨h.books.logged,h.books.licensed⟩

/-- The sample executor after its settlement. -/
def sampleEnd : World :=
  Machine.run (exec sample) sampleStart [.executeSettlement 9 sampleParams sampleRouter]

theorem sampleEnd_licensed : sampleEnd.executor.settlements.length = 1 ∧
    sampleEnd.executor.configuration sample = configured sampleEnd.executor.events ∧
      AllLicensed sample sampleEnd.executor.events :=
  ⟨by decide +kernel,settlements_licensed (sampleStart_reachable.run _)⟩

end GuardedExecutor
end BpsProtocol
