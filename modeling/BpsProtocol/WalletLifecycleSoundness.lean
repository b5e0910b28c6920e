import BpsProtocol.WalletLifecycle

/-! What a reported success of the lifecycle stands for.
Whatever the clients answer, at most the exact approval and the requested action are sent, and a
success was simulated, allowed and confirmed.  Only where a foreign transaction took the nonce
of the action and the caller brings no state check is the confirmed transaction another one. -/
namespace BpsProtocol
namespace Wallet

open Async HexText Utf16

/-! ## The record of a run -/

inductive Fact
  | asked (q : Query)
  | answered (q : Query) (r : Except JsString (Answer q))

def observer : Monitor Awaited Unit JsString Fact where
  issued q _ := [.asked q]
  answered q r := [.answered q r]

@[simp] theorem observer_issued (q : Query) (d : Unit) : observer.issued q d = [.asked q] := rfl

@[simp] theorem observer_answered (q : Query) (r : Except JsString (Answer q)) :
    observer.answered q r = [.answered q r] := rfl

def Fact.sent : Fact → Option Transaction
  | .asked (.sendTransaction _ t) => some t
  | _ => none

def Fact.confirmation : Fact → Option Confirmation
  | .answered (.waitForTransactionReceipt _ _) (.ok c) => some c
  | _ => none

def Fact.allowance (account : Text) (a : ApprovalRequirement) : Fact → Option ℤ
  | .answered (.allowance token owner spender) (.ok n) =>
    if token = a.token ∧ owner = account ∧ spender = a.spender then some n else none
  | _ => none

def Fact.isSimulation : Fact → Bool
  | .answered (.call _) (.ok _) => true
  | _ => false

/-- The transactions handed to the wallet. -/
def sends (l : List Fact) : List Transaction := l.filterMap Fact.sent

def confirmations (l : List Fact) : List Confirmation := l.filterMap Fact.confirmation

def allowances (account : Text) (a : ApprovalRequirement) (l : List Fact) : List ℤ :=
  l.filterMap (Fact.allowance account a)

/-- What follows the simulation that went through. -/
def afterSimulation (l : List Fact) : List Fact :=
  (l.dropWhile fun f => !f.isSimulation).tail

@[simp] theorem sends_append (l l' : List Fact) : sends (l ++ l') = sends l ++ sends l' :=
  List.filterMap_append

@[simp] theorem allowances_append (account : Text) (a : ApprovalRequirement) (l l' : List Fact) :
    allowances account a (l ++ l') = allowances account a l ++ allowances account a l' :=
  List.filterMap_append

theorem afterSimulation_append {l : List Fact} (h : ∀ f ∈ l, f.isSimulation = false)
    (l' : List Fact) : afterSimulation (l ++ l') = afterSimulation l' := by
  unfold afterSimulation
  rw [List.dropWhile_append_of_pos]
  intro f hf
  rw [h f hf]
  rfl

theorem afterSimulation_eq_nil {l : List Fact} (h : ∀ f ∈ l, f.isSimulation = false) :
    afterSimulation l = [] := by
  rw [← List.append_nil l,afterSimulation_append h]
  rfl

/-! ## The claim about a run -/

/-- How viem and the wallet relate hashes, transactions and the reasons of a replacement:
`named` is the transaction that was submitted under a hash. -/
def Documented (named : Text → Transaction) : (q : Query) → Except JsString (Answer q) → Prop
  | .sendTransaction _ t, .ok hash => named hash = t
  | .waitForTransactionReceipt hash _, .ok c =>
    c.transaction = named hash ↔
      c.replacements.getLast? = none ∨ c.replacements.getLast? = some .repriced
  | _, _ => True

section Claim

variable (E : Encoder) (clients : Clients) (req : ActionRequest)

/-- The approval of exactly the required amount, where there is one. -/
def exactApproval : Option Transaction :=
  req.approval.bind fun a =>
    (encodeApprove E.keccak256 a).map (approvalTransaction clients.account a)

/-- At most one approval, for the exact amount, and after it at most one action. -/
def SendsAtMost (l : List Fact) : Prop :=
  (sends l).Sublist ((exactApproval E clients req).toList ++ [req.transaction clients.account])

/-- What a success stands for. -/
structure Confirmed (l : List Fact) : Prop where
  chainId : .answered .getChainId (.ok Eligibility.ROBINHOOD_CHAIN_ID) ∈ l
  allowance : ∀ a, req.approval = some a →
    ∃ n, (allowances clients.account a l).getLast? = some n ∧ a.amount ≤ n
  simulated : .answered (.call (req.transaction clients.account)) (.ok ()) ∈ l
  sent : sends (afterSimulation l) = [req.transaction clients.account]
  executed : (∃ c ∈ confirmations (afterSimulation l), c.status = .success ∧
    c.transaction = req.transaction clients.account) ∨
    .answered .reconcile (.ok true) ∈ afterSimulation l

/-- A success is reported only for a confirmed action. -/
def Sound (r : Except JsString LifecycleResult) (l : List Fact) : Prop :=
  ∀ result, r = .ok result → result.ok = true → Confirmed clients req l

/-- The caller checks the state, or no foreign transaction took the action's nonce and
succeeded. -/
def Guarded (l : List Fact) : Prop :=
  req.reconcile = true ∨ ∀ c ∈ confirmations (afterSimulation l), c.status = .success →
    c.replacements.getLast? ≠ some .replaced

/-- How every run ends. -/
structure Ends (r : Except JsString LifecycleResult) (l : List Fact) : Prop where
  sent : SendsAtMost E clients req l
  sound_iff : Sound clients req r l ↔ Guarded req l

/-! ## Before the simulation -/

/-- Nothing but the exact approval was sent, and nothing was simulated. -/
structure Before (l : List Fact) : Prop where
  sent : (sends l).Sublist (exactApproval E clients req).toList
  unsimulated : ∀ f ∈ l, f.isSimulation = false

end Claim

variable {E : Encoder} {clients : Clients} {req : ActionRequest} {l : List Fact}
  {named : Text → Transaction}

theorem Before.sendsAtMost (h : Before E clients req l) : SendsAtMost E clients req l :=
  h.sent.trans (List.sublist_append_left _ _)

theorem Before.snoc (h : Before E clients req l) {f : Fact} (hsent : f.sent = none)
    (hsim : f.isSimulation = false) : Before E clients req (l ++ [f]) where
  sent := by
    rw [sends_append,show sends [f] = [] by simp [sends,hsent],List.append_nil]
    exact h.sent
  unsimulated f' hf := by
    rw [List.mem_append,List.mem_singleton] at hf
    cases hf with
    | inl hold => exact h.unsimulated f' hold
    | inr hnew =>
      rw [hnew]
      exact hsim

/-- A run that fails before anything was simulated. -/
theorem Before.ends (h : Before E clients req l) {r : Except JsString LifecycleResult}
    (hr : ∀ result, r = .ok result → result.ok = false) : Ends E clients req r l where
  sent := h.sendsAtMost
  sound_iff := by
    constructor
    · intro _
      right
      rw [afterSimulation_eq_nil h.unsimulated]
      simp [confirmations]
    · intro _ result hresult hok
      rw [hr result hresult] at hok
      cases hok

/-! ## The approval -/

section Phases

variable {α : Type} {s : List LifecycleStep} {d : Unit} {crash : Unit → List Fact → Prop}
  {Post : Except JsString α → List LifecycleStep → Unit → List Fact → Prop}

/-- The rule of a confirmation: it is thrown, cancelled, or that of some transaction. -/
theorem waitConfirmed_bind {hash : Text} {n : ℕ} {f : ConfirmOutcome → Script α}
    (hcrash : crash d (l ++ [.asked (.waitForTransactionReceipt hash n)]))
    (herror : ∀ e, Safe observer crash (Documented named) Post
      (f (.confirmError (rejectionReason e))) s d (l ++ [.asked (.waitForTransactionReceipt hash n)]
        ++ [.answered (.waitForTransactionReceipt hash n) (.error e)]))
    (hcancelled : ∀ c, c.replacements.getLast? = some .cancelled →
      Safe observer crash (Documented named) Post (f .cancelled) s d
        (l ++ [.asked (.waitForTransactionReceipt hash n)]
          ++ [.answered (.waitForTransactionReceipt hash n) (.ok c)]))
    (hreceipt : ∀ c, c.replacements.getLast? ≠ some .cancelled →
      Documented named (.waitForTransactionReceipt hash n) (.ok c) →
      Safe observer crash (Documented named) Post (f (.receipt c.status)) s d
        (l ++ [.asked (.waitForTransactionReceipt hash n)]
          ++ [.answered (.waitForTransactionReceipt hash n) (.ok c)])) :
    Safe observer crash (Documented named) Post (waitConfirmed hash n >>= f) s d l := by
  refine ⟨hcrash,fun r hr => ?_⟩
  cases r with
  | error e => exact herror e
  | ok c =>
    change Safe observer crash (Documented named) Post
      ((if c.replacements.getLast? = some .cancelled then (pure .cancelled : Script ConfirmOutcome)
        else pure (.receipt c.status)) >>= f) s d _
    by_cases hc : c.replacements.getLast? = some .cancelled
    · rw [if_pos hc]
      exact hcancelled c hc
    · rw [if_neg hc]
      exact hreceipt c hc hr

end Phases

/-- What the approval phase leaves behind. -/
structure Approved (E : Encoder) (clients : Clients) (req : ActionRequest)
    (a : ApprovalRequirement) (l : List Fact) (r : Except JsString (Option LifecycleResult))
    (l' : List Fact) : Prop where
  kept : l <+: l'
  before : Before E clients req l'
  failed : ∀ result, r = .ok (some result) → result.ok = false
  allowed : r = .ok none → ∃ n, (allowances clients.account a l').getLast? = some n ∧ a.amount ≤ n

theorem Approved.of_failure {a : ApprovalRequirement} {l' : List Fact} {e : JsString}
    (hl : l <+: l') (h : Before E clients req l') : Approved E clients req a l (.error e) l' where
  kept := hl
  before := h
  failed result hr := by cases hr
  allowed hr := by cases hr

theorem Approved.of_end {a : ApprovalRequirement} {l' : List Fact} {result : LifecycleResult}
    (hl : l <+: l') (h : Before E clients req l') (hresult : result.ok = false) :
    Approved E clients req a l (.ok (some result)) l' where
  kept := hl
  before := h
  failed result' hr := by
    cases hr
    exact hresult
  allowed hr := by cases hr

theorem allowances_append_answer (account : Text) (a : ApprovalRequirement) (l : List Fact)
    (n : ℤ) : (allowances account a
      (l ++ [.answered (.allowance a.token account a.spender) (.ok n)])).getLast? = some n := by
  simp [allowances,Fact.allowance]

theorem Approved.of_allowance {a : ApprovalRequirement} {l₀ : List Fact} {n : ℤ}
    (h : Before E clients req l) (hl : l₀ <+: l) (hn : a.amount ≤ n) :
    Approved E clients req a l₀ (.ok none)
      (l ++ [.answered (.allowance a.token clients.account a.spender) (.ok n)]) where
  kept := hl.trans (List.prefix_append _ _)
  before := h.snoc rfl rfl
  failed result hr := by cases hr
  allowed _ := ⟨n,allowances_append_answer clients.account a l n,hn⟩

/-- Handing the approval to the wallet sends exactly it. -/
theorem Before.approval {a : ApprovalRequirement} (h : Before E clients req l)
    (ha : req.approval = some a) (hsends : sends l = []) {data : Text}
    (hdata : encodeApprove E.keccak256 a = some data) (chain : Option ℕ) :
    Before E clients req
      (l ++ [.asked (.sendTransaction chain (approvalTransaction clients.account a data))]) where
  sent := by
    rw [sends_append,hsends,exactApproval,ha,Option.bind_some,hdata]
    exact List.Sublist.refl _
  unsimulated f hf := by
    rw [List.mem_append,List.mem_singleton] at hf
    cases hf with
    | inl hold => exact h.unsimulated f hold
    | inr hnew => rw [hnew]; rfl

theorem approve_safe {a : ApprovalRequirement} (ha : req.approval = some a)
    (h : Before E clients req l) (hsends : sends l = []) {s : List LifecycleStep} {d : Unit} :
    Safe observer (fun _ l => SendsAtMost E clients req l) (Documented named)
      (fun r _ _ l' => Approved E clients req a l r l') (approve E clients req a) s d l := by
  have hread : Before E clients req
      (l ++ [.asked (.allowance a.token clients.account a.spender)]) := h.snoc rfl rfl
  refine Safe.modify_bind (Safe.await_bind hread.sendsAtMost (fun e _ => ?_) fun n _ => ?_)
  · exact .of_failure (by simp) (hread.snoc rfl rfl)
  have hanswer : Before E clients req (l ++ [.asked (.allowance a.token clients.account a.spender)]
      ++ [.answered (.allowance a.token clients.account a.spender) (.ok n)]) :=
    hread.snoc rfl rfl
  by_cases hn : n < a.amount
  · rw [if_pos hn]
    refine Safe.modify_bind ?_
    unfold sendApproval
    cases hdata : encodeApprove E.keccak256 a with
    | none => exact Approved.of_end (by simp) hanswer rfl
    | some data =>
      have hnone : sends (l ++ [.asked (.allowance a.token clients.account a.spender)]
          ++ [.answered (.allowance a.token clients.account a.spender) (.ok n)]) = [] := by
        rw [sends_append,sends_append,hsends]
        rfl
      have hsent := hanswer.approval ha hnone hdata clients.walletChain
      refine Safe.attempt_bind hsent.sendsAtMost fun r _ => ?_
      cases r with
      | error e => exact Approved.of_end (by simp) (hsent.snoc rfl rfl) rfl
      | ok approveHash =>
        have hhash := hsent.snoc (f := .answered (.sendTransaction clients.walletChain
          (approvalTransaction clients.account a data)) (.ok approveHash)) rfl rfl
        refine Safe.modify_bind (waitConfirmed_bind (hhash.snoc rfl rfl).sendsAtMost
          (fun e => ?_) (fun c _ => ?_) fun c _ _ => ?_)
        · exact Approved.of_end (by simp) ((hhash.snoc rfl rfl).snoc rfl rfl) rfl
        · exact Approved.of_end (by simp) ((hhash.snoc rfl rfl).snoc rfl rfl) rfl
        · have hreceipt := (hhash.snoc (f := .asked (.waitForTransactionReceipt approveHash
            req.confirmations)) rfl rfl).snoc (f := .answered (.waitForTransactionReceipt
            approveHash req.confirmations) (.ok c)) rfl rfl
          cases c.status with
          | reverted => exact Approved.of_end (by simp) hreceipt rfl
          | success =>
            have hreread := hreceipt.snoc
              (f := .asked (.allowance a.token clients.account a.spender)) rfl rfl
            refine Safe.modify_bind (Safe.await_bind hreread.sendsAtMost (fun e _ => ?_)
              fun now _ => ?_)
            · exact .of_failure (by simp) (hreread.snoc rfl rfl)
            · by_cases hnow : now < a.amount
              · rw [if_pos hnow]
                exact Approved.of_end (by simp) (hreread.snoc rfl rfl) rfl
              · rw [if_neg hnow]
                exact Approved.of_allowance hreread (by simp) (Int.not_lt.1 hnow)
  · rw [if_neg hn]
    exact Approved.of_allowance hread (List.prefix_append _ _) (Int.not_lt.1 hn)

/-! ## The action -/

/-- What is established when the action is simulated. -/
structure Prepared (E : Encoder) (clients : Clients) (req : ActionRequest) (l : List Fact) :
    Prop where
  before : Before E clients req l
  chainId : .answered .getChainId (.ok Eligibility.ROBINHOOD_CHAIN_ID) ∈ l
  allowance : ∀ a, req.approval = some a →
    ∃ n, (allowances clients.account a l).getLast? = some n ∧ a.amount ≤ n

/-- The two facts of a simulation that went through. -/
def simulation (t : Transaction) : List Fact := [.asked (.call t),.answered (.call t) (.ok ())]

theorem afterSimulation_simulation (h : Before E clients req l) (t : Transaction)
    (l' : List Fact) : afterSimulation (l ++ simulation t ++ l') = l' := by
  rw [List.append_assoc,afterSimulation_append h.unsimulated]
  rfl

/-- After the simulation at most the action is sent. -/
theorem Before.sendsAtMost_simulation (h : Before E clients req l) {l' m : List Fact}
    (hm : m = l ++ simulation (req.transaction clients.account) ++ l')
    (hl : (sends l').Sublist [req.transaction clients.account]) :
    SendsAtMost E clients req m := by
  unfold SendsAtMost
  rw [hm,sends_append,sends_append,show sends (simulation _) = [] from rfl,List.append_nil]
  exact h.sent.append hl

/-- A run that fails after the simulation; no foreign confirmation was taken for a success. -/
theorem Before.ends_failed (h : Before E clients req l) {l' m : List Fact}
    (hm : m = l ++ simulation (req.transaction clients.account) ++ l')
    (hl : (sends l').Sublist [req.transaction clients.account])
    (hguarded : req.reconcile = true ∨ ∀ c ∈ confirmations l', c.status = .success →
      c.replacements.getLast? ≠ some .replaced)
    {r : Except JsString LifecycleResult} (hr : ∀ result, r = .ok result → result.ok = false) :
    Ends E clients req r m where
  sent := h.sendsAtMost_simulation hm hl
  sound_iff := by
    rw [hm,Guarded,afterSimulation_simulation h]
    refine iff_of_true (fun result hresult hok => ?_) hguarded
    rw [hr result hresult] at hok
    cases hok

/-- A run that reports success: all is as it should be, except for what was executed. -/
theorem Prepared.ends_done (h : Prepared E clients req l) {l' m : List Fact}
    (hm : m = l ++ simulation (req.transaction clients.account) ++ l')
    (hl : sends l' = [req.transaction clients.account])
    (hallow : ∀ a, allowances clients.account a l' = []) {result : LifecycleResult}
    (hok : result.ok = true)
    (hexecuted : ((∃ c ∈ confirmations l', c.status = .success ∧
      c.transaction = req.transaction clients.account) ∨
        .answered .reconcile (.ok true) ∈ l') ↔
      (req.reconcile = true ∨ ∀ c ∈ confirmations l', c.status = .success →
        c.replacements.getLast? ≠ some .replaced)) :
    Ends E clients req (.ok result) m where
  sent := h.before.sendsAtMost_simulation hm (hl ▸ List.Sublist.refl _)
  sound_iff := by
    subst hm
    rw [Guarded,afterSimulation_simulation h.before,← hexecuted]
    constructor
    · intro hsound
      have hc := (hsound result rfl hok).executed
      rwa [afterSimulation_simulation h.before] at hc
    · intro hex result' _ _
      exact
        { chainId := List.mem_append_left _ (List.mem_append_left _ h.chainId)
          allowance := fun a ha => by
            rw [allowances_append,allowances_append,hallow,List.append_nil,
              show allowances clients.account a (simulation _) = [] from rfl,List.append_nil]
            exact h.allowance a ha
          simulated := by simp [simulation]
          sent := by rw [afterSimulation_simulation h.before,hl]
          executed := by rwa [afterSimulation_simulation h.before] }

theorem submit_safe (h : Prepared E clients req l) {s : List LifecycleStep} {d : Unit} :
    Safe observer (fun _ l => SendsAtMost E clients req l) (Documented named)
      (fun r _ _ l' => Ends E clients req r l') (submit clients req) s d l := by
  have hcall := h.before.snoc (f := .asked (.call (req.transaction clients.account))) rfl rfl
  refine Safe.modify_bind (Safe.attempt_bind hcall.sendsAtMost fun r _ => ?_)
  cases r with
  | error e =>
    exact (hcall.snoc rfl rfl).ends fun result hresult => by
      cases hresult
      rfl
  | ok u =>
    have hsent : (sends [.asked (.sendTransaction clients.walletChain
        (req.transaction clients.account))]).Sublist [req.transaction clients.account] :=
      List.Sublist.refl _
    refine Safe.modify_bind (Safe.attempt_bind (h.before.sendsAtMost_simulation
      (by simp [simulation]) hsent) fun r hr => ?_)
    cases r with
    | error e =>
      refine h.before.ends_failed (by simp [simulation]; rfl) (List.Sublist.refl _) ?_ ?_
      · simp [confirmations,Fact.confirmation]
      · rintro result ⟨⟩
        rfl
    | ok hash =>
      have hsent : named hash = req.transaction clients.account := hr
      refine Safe.modify_bind (waitConfirmed_bind ?_ (fun e => ?_) (fun c hc => ?_)
        fun c hc hdoc => ?_)
      · exact h.before.sendsAtMost_simulation (by simp [simulation]; rfl) (List.Sublist.refl _)
      · refine h.before.ends_failed (by simp [simulation]; rfl) (List.Sublist.refl _) ?_ ?_
        · simp [confirmations,Fact.confirmation]
        · rintro result ⟨⟩
          rfl
      · refine h.before.ends_failed (by simp [simulation]; rfl) (List.Sublist.refl _) ?_ ?_
        · simp [confirmations,Fact.confirmation,hc]
        · rintro result ⟨⟩
          rfl
      · cases hstatus : c.status with
        | reverted =>
          refine h.before.ends_failed (by simp [simulation]; rfl) (List.Sublist.refl _) ?_ ?_
          · simp [confirmations,Fact.confirmation,hstatus]
          · rintro result ⟨⟩
            rfl
        | success =>
          have hown : c.transaction = req.transaction clients.account ↔
              c.replacements.getLast? ≠ some .replaced := by
            have hnamed : c.transaction = named hash ↔ c.replacements.getLast? = none ∨
              c.replacements.getLast? = some .repriced := hdoc
            rw [← hsent,hnamed]
            cases hlast : c.replacements.getLast? with
            | none => simp
            | some reason =>
              rw [hlast] at hc
              cases reason <;> simp at hc ⊢
          refine Safe.modify_bind ?_
          by_cases hreconcile : req.reconcile = true
          · rw [if_pos hreconcile]
            refine ⟨h.before.sendsAtMost_simulation (by simp [simulation]; rfl)
              (List.Sublist.refl _),fun r _ => ?_⟩
            cases r with
            | error e =>
              refine h.before.ends_failed (by simp [simulation]; rfl) (List.Sublist.refl _)
                (.inl hreconcile) ?_
              rintro result ⟨⟩
              rfl
            | ok reconciled =>
              cases reconciled with
              | false =>
                refine h.before.ends_failed (by simp [simulation]; rfl) (List.Sublist.refl _)
                  (.inl hreconcile) ?_
                rintro result ⟨⟩
                rfl
              | true =>
                refine h.ends_done (by simp [simulation]; rfl) rfl (fun a => rfl) rfl ?_
                refine iff_of_true (.inr ?_) (.inl hreconcile)
                simp
          · rw [if_neg hreconcile]
            refine h.ends_done (by simp [simulation]; rfl) rfl (fun a => rfl) rfl ?_
            simp [confirmations,Fact.confirmation,hstatus,hown,hreconcile]

/-! ## The run -/

section Run

variable (E : Encoder) (clients : Clients) (req : ActionRequest)

theorem runActionLifecycle_safe :
    Safe observer (fun _ l => SendsAtMost E clients req l) (Documented named)
      (fun r _ _ l => Ends E clients req r l) (runActionLifecycle E clients req) [] () [] := by
  have hnil : Before E clients req [] := ⟨List.nil_sublist _,by simp⟩
  have hasked := hnil.snoc (f := .asked .getChainId) rfl rfl
  refine Safe.modify_bind (Safe.await_bind hasked.sendsAtMost (fun e _ => ?_) fun chainId _ => ?_)
  · exact (hasked.snoc rfl rfl).ends fun result hresult => by cases hresult
  have hanswered := hasked.snoc (f := .answered .getChainId (.ok chainId)) rfl rfl
  by_cases hchain : chainId ≠ Eligibility.ROBINHOOD_CHAIN_ID
  · rw [if_pos hchain]
    refine hanswered.ends ?_
    rintro result ⟨⟩
    rfl
  rw [if_neg hchain]
  rw [not_not] at hchain
  have hmem : Fact.answered .getChainId (.ok Eligibility.ROBINHOOD_CHAIN_ID) ∈
      [] ++ [Fact.asked .getChainId] ++ [.answered .getChainId (.ok chainId)] := by
    rw [← hchain]
    simp
  unfold ensureApproval
  cases ha : req.approval with
  | none => exact submit_safe ⟨hanswered,hmem,fun a h => by rw [ha] at h; cases h⟩
  | some a =>
    refine Safe.bind ((approve_safe ha hanswered rfl).mono fun r s d l' h => ?_)
    cases r with
    | error e => exact h.before.ends fun result hresult => by cases hresult
    | ok ended =>
      cases ended with
      | some result =>
        refine h.before.ends ?_
        rintro result' ⟨⟩
        exact h.failed result rfl
      | none =>
        refine submit_safe ⟨h.before,h.kept.subset hmem,fun a' ha' => ?_⟩
        rw [ha] at ha'
        cases ha'
        exact h.allowed rfl

/-- The run of a request against the clients' answers. -/
def lifecycleRun (answers : List Fact → (q : Query) → Except JsString (Answer q)) :
    Outcome (List LifecycleStep) Unit JsString Fact LifecycleResult :=
  run observer (fun _ => .confirmed) answers (runActionLifecycle E clients req) [] () []

/-- Every run sends at most the exact approval and the action, and its success is sound exactly
where the caller checks the state or no foreign transaction was confirmed. -/
theorem runActionLifecycle_sound_iff
    {answers : List Fact → (q : Query) → Except JsString (Answer q)}
    (hanswers : ∀ l q, Documented named q (answers l q)) :
    SendsAtMost E clients req (lifecycleRun E clients req answers).record ∧
      (Sound clients req (lifecycleRun E clients req answers).result
          (lifecycleRun E clients req answers).record ↔
        Guarded req (lifecycleRun E clients req answers).record) := by
  have h : Ends E clients req (lifecycleRun E clients req answers).result
      (lifecycleRun E clients req answers).record :=
    (runActionLifecycle_safe E clients req).run hanswers
  exact ⟨h.sent,h.sound_iff⟩

end Run

/-! A trade as the panel issues it: an approval requirement and no state check. -/

def tradeRequest : ActionRequest where
  target := ['r']
  data := ['d']
  value := some 0
  approval := some ⟨['w'],['r'],10⟩
  confirmations := 1
  reconcile := false

def tradeClients : Clients where
  account := ['a']
  walletChain := some 4663

def trade : Transaction := tradeRequest.transaction tradeClients.account

def noEncoder : Encoder := ⟨fun _ => 0,fun _ => []⟩

/-- Enough allowance, and `c` for the confirmation. -/
def confirming (c : Confirmation) : List Fact → (q : Query) → Except JsString (Answer q)
  | _, .getChainId => .ok 4663
  | _, .allowance _ _ _ => .ok 10
  | _, .sendTransaction _ t => if t = trade then .ok ['h'] else .error []
  | _, .waitForTransactionReceipt _ _ => .ok c
  | _, .call _ => .ok ()
  | _, .reconcile => .ok true

theorem confirming_documented {c : Confirmation}
    (hc : c.transaction = trade ↔
      c.replacements.getLast? = none ∨ c.replacements.getLast? = some .repriced)
    (l : List Fact) (q : Query) : Documented (fun _ => trade) q (confirming c l q) := by
  cases q with
  | sendTransaction chain t =>
    by_cases ht : t = trade
    · simp [confirming,Documented,ht]
    · simp [confirming,Documented,ht]
  | waitForTransactionReceipt hash n => exact hc
  | getChainId => trivial
  | allowance token owner spender => trivial
  | call t => trivial
  | reconcile => trivial

def ownConfirmation : Confirmation := ⟨[],.success,trade⟩

def foreignConfirmation : Confirmation := ⟨[.replaced],.success,{ trade with target := ['x'] }⟩

theorem ownConfirmation_documented (l : List Fact) (q : Query) :
    Documented (fun _ => trade) q (confirming ownConfirmation l q) :=
  confirming_documented (by simp [ownConfirmation]) l q

theorem foreignConfirmation_documented (l : List Fact) (q : Query) :
    Documented (fun _ => trade) q (confirming foreignConfirmation l q) :=
  confirming_documented (by decide) l q

theorem ownTrade_sound : Sound tradeClients tradeRequest
    (lifecycleRun noEncoder tradeClients tradeRequest (confirming ownConfirmation)).result
    (lifecycleRun noEncoder tradeClients tradeRequest (confirming ownConfirmation)).record := by
  apply (runActionLifecycle_sound_iff noEncoder tradeClients tradeRequest
    ownConfirmation_documented).2.2
  right
  rw [show confirmations (afterSimulation (lifecycleRun noEncoder tradeClients tradeRequest
    (confirming ownConfirmation)).record) = [ownConfirmation] from rfl]
  simp [ownConfirmation]

/-- The confirmed transaction is a foreign one, and the trade is reported as done. -/
theorem foreignTrade_reported :
    (∀ l q, Documented (fun _ => trade) q (confirming foreignConfirmation l q)) ∧
    ¬Sound tradeClients tradeRequest
      (lifecycleRun noEncoder tradeClients tradeRequest (confirming foreignConfirmation)).result
      (lifecycleRun noEncoder tradeClients tradeRequest
        (confirming foreignConfirmation)).record := by
  refine ⟨foreignConfirmation_documented,fun h => ?_⟩
  have hexecuted := (h ⟨true,.done,some ['h'],none⟩ rfl rfl).executed
  rw [show confirmations (afterSimulation (lifecycleRun noEncoder tradeClients tradeRequest
    (confirming foreignConfirmation)).record) = [foreignConfirmation] from rfl] at hexecuted
  cases hexecuted with
  | inl hc =>
    simp [foreignConfirmation,trade,tradeRequest,ActionRequest.transaction] at hc
  | inr hreconcile =>
    rw [show afterSimulation (lifecycleRun noEncoder tradeClients tradeRequest
      (confirming foreignConfirmation)).record =
        [.asked (.sendTransaction (some 4663) trade),
          .answered (.sendTransaction (some 4663) trade) (.ok ['h']),
          .asked (.waitForTransactionReceipt ['h'] 1),
          .answered (.waitForTransactionReceipt ['h'] 1) (.ok foreignConfirmation)] from rfl]
      at hreconcile
    simp at hreconcile

end Wallet
end BpsProtocol
