import BpsProtocol.CanaryOperatorSends

/-! The canary operator does not trust its storage.
The provider is honest when the transactions and receipts that it returns are those of one
chain; whatever else it answers is arbitrary.  From any stored records, a step that
`reconcile` counts has a transaction of that chain that is exactly the packet's, and no
other transaction is ever journaled for a step. -/
namespace BpsProtocol
namespace Canary

open Checked Async

structure Chain where
  transaction : Text → Option ChainTx
  receipt : Text → Option Receipt

/-- A transaction or a receipt that the provider returns is the one of the chain. -/
def Chain.IsHonest (chain : Chain) : (q : Query) → Except Failure (Answer q) → Prop
  | .getTransactionByHash txHash, .ok (some otx) => chain.transaction txHash = some otx
  | .getTransactionReceipt txHash, .ok (some rc) => chain.receipt txHash = some rc
  | _, _ => True

/-! ## Verified steps -/

/-- The gas fields equal the bound ones, or lie within the ceilings of a recovery step. -/
def Step.GasMatches (t : Step) (otx : ChainTx) : Prop :=
  ∃ mf mp, otx.maxFeePerGas = some mf ∧ otx.maxPriorityFeePerGas = some mp ∧
    match t.gasCeilings with
    | none => otx.gas = t.gasLimit ∧ mf = t.maxFeePerGas ∧ mp = t.maxPriorityFeePerGas
    | some g => otx.gas ≤ g.gasLimitCeiling ∧ mf ≤ g.maxFeeCeilingWei ∧
      mp ≤ g.maxPriorityCeilingWei ∧ mp ≤ mf ∧ otx.gas*mf ≤ g.maxGasCostCeilingWei

/-- The transaction is the one that the packet binds for the step. -/
structure Step.Matches (t : Step) (otx : ChainTx) : Prop where
  source : otx.source = t.signer
  target : otx.target = t.target
  value : otx.value = 0
  input : otx.input = t.dataOrInitCode
  type : otx.type = 2
  nonce : otx.nonce = t.nonce
  gas : t.GasMatches otx

/-- The chain holds a successful transaction of the step whose receipt meets its
postcondition. -/
structure Verified (R : Runtime) (chain : Chain) (j : ℕ) (txHash : Text) : Prop where
  mined : ∃ t otx rc, R.steps[j]? = some t ∧ chain.transaction txHash = some otx ∧
    chain.receipt txHash = some rc ∧ t.Matches otx ∧
    toLowerCase rc.transactionHash = toLowerCase txHash ∧ rc.status = 1 ∧
    ∃ found, R.receiptPostcondition j rc = .ok found

theorem Step.checkTarget_eq_ok {t : Step} {otx : ChainTx} (h : t.checkTarget otx = .ok ()) :
    otx.target = t.target := by
  unfold checkTarget at h
  split at h
  · rename_i a b ha hb
    rw [ha,hb,not_ne_iff.mp (refuseIf_eq_ok.mp h)]
  · cases h
  · rename_i ha
    rw [ha]
    exact not_ne_iff.mp (refuseIf_eq_ok.mp h)

theorem Step.checkGas_eq_ok {t : Step} {otx : ChainTx} {mf mp : ℕ}
    (hmf : otx.maxFeePerGas = some mf) (hmp : otx.maxPriorityFeePerGas = some mp)
    (h : t.checkGas otx.gas mf mp = .ok ()) : t.GasMatches otx := by
  refine ⟨mf,mp,hmf,hmp,?_⟩
  cases hg : t.gasCeilings with
  | none =>
    simp only [checkGas,hg] at h
    have hgas := refuseIf_eq_ok.mp h
    push Not at hgas
    exact hgas
  | some g =>
    simp only [checkGas,hg,bind_eq_ok,refuseIf_eq_ok,exists_const,not_lt] at h
    exact h

theorem Step.checkTx_eq_ok {t : Step} {otx : ChainTx} (h : t.checkTx otx = .ok ()) :
    t.Matches otx := by
  simp only [checkTx,bind_eq_ok,refuseIf_eq_ok,orThrow_eq_ok,exists_const] at h
  obtain ⟨_,-,hfields,_,htarget,hvalue,-,-,mf,hmf,mp,hmp,hgas⟩ := h
  push Not at hfields hvalue
  exact
    { source := hfields.1
      target := checkTarget_eq_ok htarget
      value := hvalue.1
      input := hvalue.2
      type := hfields.2.2
      nonce := hfields.2.1
      gas := checkGas_eq_ok hmf hmp hgas }

theorem Step.checkReceipt_eq_ok {t : Step} {txHash : Text} {rc : Receipt}
    (h : t.checkReceipt txHash rc = .ok ()) :
    toLowerCase rc.transactionHash = toLowerCase txHash ∧ rc.status = 1 := by
  simp only [checkReceipt,bind_eq_ok,refuseIf_eq_ok,exists_const] at h
  exact ⟨not_not.mp h.1,not_not.mp h.2.1⟩

section Lookups

variable {R : Runtime} {chain : Chain}

/-- What `p` returns to an honest provider. -/
abbrev Finds {α : Type} (chain : Chain) (P : Except Failure α → Prop) (p : Program α) : Prop :=
  Yields (I := Rpc) chain.IsHonest P p

theorem Finds.runCheck {α : Type} (c : Check α) :
    Finds chain (fun r => ∀ a, r = .ok (.ok a) → c = .ok a) (runCheck c) := by
  unfold Canary.runCheck
  split
  · intro a ha
    cases ha
    rfl
  · exact nofun
  · exact nofun

theorem Finds.req_bind {β : Type} {q : Query} {f : Answer q → Program β}
    {P : Except Failure β → Prop} (hthrow : ∀ e, P (.error e))
    (h : ∀ a, chain.IsHonest q (.ok a) → Finds chain P (f a)) :
    Finds chain P (req q >>= f) := by
  intro r hr
  cases r with
  | error e => exact hthrow e
  | ok a => exact h a hr

theorem Finds.pollReceipt (txHash : Text) (polls : ℕ) :
    Finds chain (fun r => ∀ rc, r = .ok (some rc) → chain.receipt txHash = some rc)
      (Runtime.pollReceipt txHash polls) := by
  induction polls with
  | zero => exact nofun
  | succ polls ih =>
    refine Finds.req_bind (fun _ => nofun) fun answer hanswer => ?_
    cases answer with
    | some rc =>
      intro rc' hrc
      cases hrc
      exact hanswer
    | none => exact Finds.req_bind (fun _ => nofun) fun _ _ => ih

theorem Finds.boundary_bind {β : Type} {t : Step} {f : Bool → Program β}
    {P : Except Failure β → Prop} (h : ∀ b, Finds chain P (f b)) :
    Finds chain P (Runtime.boundaryHolds t >>= f) := by
  unfold Runtime.boundaryHolds
  split
  · intro r _
    cases r <;> exact h _
  · exact h true

/-- What the shared verifier passes is on the chain and matches the step. -/
theorem Finds.verifyTxAndReceipt (t : Option Step) (txHash : Text) :
    Finds chain (fun r => ∀ otx rc, r = .ok (.ok (otx,rc)) → ∃ x, t = some x ∧
        chain.transaction txHash = some otx ∧ chain.receipt txHash = some rc ∧ x.Matches otx ∧
        toLowerCase rc.transactionHash = toLowerCase txHash ∧ rc.status = 1)
      (R.verifyTxAndReceipt t txHash) := by
  cases t with
  | none => exact nofun
  | some t =>
    refine Finds.boundary_bind fun holds => ?_
    cases holds with
    | false => exact nofun
    | true =>
      refine Finds.req_bind (fun _ => nofun) fun answer htx => ?_
      cases answer with
      | none => exact nofun
      | some otx =>
        refine Yields.bind ((Finds.runCheck _).mono fun fields hfields => ?_)
        cases fields with
        | error e => exact nofun
        | ok fields =>
          cases fields with
          | error reason => exact nofun
          | ok _ =>
            refine Yields.bind ((Finds.pollReceipt txHash _).mono fun polled hpolled => ?_)
            cases polled with
            | error e => exact nofun
            | ok polled =>
              cases polled with
              | none => exact nofun
              | some rc =>
                refine Yields.bind ((Finds.runCheck _).mono fun mined hmined => ?_)
                cases mined with
                | error e => exact nofun
                | ok mined =>
                  cases mined with
                  | error reason => exact nofun
                  | ok _ =>
                    intro otx' rc' heq
                    cases heq
                    exact ⟨t,rfl,htx,hpolled rc rfl,Step.checkTx_eq_ok (hfields _ rfl),
                      Step.checkReceipt_eq_ok (hmined _ rfl)⟩

theorem Finds.verifyStep (i : ℕ) (txHash : Text) (verifyText postText : String) :
    Finds chain (fun r => ∀ v, r = .ok (.ok v) → Verified R chain i txHash)
      (R.verifyStep i txHash verifyText postText) := by
  refine Yields.bind ((Finds.verifyTxAndReceipt _ txHash).mono fun r hr => ?_)
  cases r with
  | error e => exact nofun
  | ok v =>
    cases v with
    | error reason => exact nofun
    | ok v =>
      obtain ⟨t,ht,htx,hrc,hmatch,hhash,hstatus⟩ := hr v.1 v.2 rfl
      refine Yields.bind ((Finds.runCheck _).mono fun post hpost => ?_)
      cases post with
      | error e => exact nofun
      | ok post =>
        cases post with
        | error reason => exact nofun
        | ok found =>
          exact fun _ _ => ⟨t,v.1,v.2,ht,htx,hrc,hmatch,hhash,hstatus,found,hpost _ rfl⟩

end Lookups

/-! ## Journals -/

/-- Every entry comes from the initial storage or is verified. -/
def Traced (R : Runtime) (chain : Chain) (d₀ : Storage) (J : List (Option Entry)) : Prop :=
  ∀ e, some e ∈ J → some e ∈ d₀.journal ∨ Verified R chain e.step e.txHash

section Programs

variable {R : Runtime} {chain : Chain} {d₀ : Storage} {α : Type}

theorem Traced.concat {J : List (Option Entry)} (h : Traced R chain d₀ J) {i : ℕ} {txHash : Text}
    (hv : Verified R chain i txHash) : Traced R chain d₀ (J ++ [some (R.entryOf i txHash)]) := by
  intro e he
  rcases List.mem_append.mp he with he | he
  · exact h e he
  · cases List.mem_singleton.mp he
    exact .inr hv

theorem Traced.setEntry {J : List (Option Entry)} (h : Traced R chain d₀ J) {i : ℕ} {txHash : Text}
    (hv : Verified R chain i txHash) :
    Traced R chain d₀ (Runtime.setEntry J i (R.entryOf i txHash)) := by
  intro e he
  unfold Runtime.setEntry at he
  split at he
  · rcases List.mem_or_eq_of_mem_set he with he | he
    · exact h e he
    · cases he
      exact .inr hv
  · rw [List.append_assoc] at he
    rcases List.mem_append.mp he with he | he
    · exact h e he
    · rcases List.mem_append.mp he with he | he
      · cases List.eq_of_mem_replicate he
      · cases List.mem_singleton.mp he
        exact .inr hv

/-- The journals of the instance and of the storage. -/
def Sourced (R : Runtime) (chain : Chain) (d₀ : Storage) (s : Memory) (d : Storage) : Prop :=
  Traced R chain d₀ s.journal ∧ Traced R chain d₀ d.journal

/-- The program ends with both journals traced, and its result meets `P`. -/
abbrev Traces (R : Runtime) (chain : Chain) (d₀ : Storage) (P : Except Failure α → Memory → Prop)
    (p : Program α) (s : Memory) (d : Storage) (l : List SendEvent) : Prop :=
  Safe sends (fun d _ => Traced R chain d₀ d.journal) chain.IsHonest
    (fun r s d _ => Sourced R chain d₀ s d ∧ P r s) p s d l

variable {s : Memory} {d : Storage} {l : List SendEvent}

/-- What a looking part finds out is at hand in the rest. -/
theorem Traces.looks_bind {β : Type} {p : Program α} {f : α → Program β}
    {F : Except Failure α → Prop} {P : Except Failure β → Memory → Prop} (hp : Looks p)
    (hF : Finds chain F p) (h : Sourced R chain d₀ s d) (hthrow : ∀ e, P (.error e) s)
    (hf : ∀ a, F (.ok a) → Traces R chain d₀ P (f a) s d l) :
    Traces R chain d₀ P (p >>= f) s d l := by
  refine Safe.bind ((Quiet.safe_and hp sends_issued sends_answered h.2 hF).mono ?_)
  rintro r s' d' l' ⟨hr,rfl,rfl,rfl⟩
  cases r with
  | ok a => exact hf a hr
  | error e => exact ⟨h,hthrow e⟩

theorem Traces.quiet_bind {β : Type} {p : Program α} {f : α → Program β}
    {P : Except Failure β → Memory → Prop} (hp : Looks p) (h : Sourced R chain d₀ s d)
    (hthrow : ∀ e, P (.error e) s) (hf : ∀ a, Traces R chain d₀ P (f a) s d l) :
    Traces R chain d₀ P (p >>= f) s d l :=
  Traces.looks_bind (F := fun _ => True) hp (Yields.of_forall fun _ => trivial) h hthrow
    fun a _ => hf a

/-- The journals are no part of what the program changes. -/
abbrev Spares (R : Runtime) (chain : Chain) (d₀ : Storage) (p : Program α) : Prop :=
  Respects (Sourced R chain d₀) p

theorem Traces.of_spares {p : Program α} (hp : Spares R chain d₀ p) (h : Sourced R chain d₀ s d) :
    Traces R chain d₀ (fun _ _ => True) p s d l :=
  (Respects.safe (fun _ _ _ hs => hs.2) hp h).mono fun _ _ _ _ hs => ⟨hs,trivial⟩

namespace Spares

theorem bind {β : Type} {p : Program α} {f : α → Program β} (hp : Spares R chain d₀ p)
    (hf : ∀ a, Spares R chain d₀ (f a)) : Spares R chain d₀ (p >>= f) := Respects.bind hp hf

theorem get_bind {f : Memory → Program α} (hf : ∀ s, Spares R chain d₀ (f s)) :
    Spares R chain d₀ (Prog.get >>= f) := hf

theorem looks_bind {β : Type} {p : Program α} {f : α → Program β} (hp : Looks p)
    (hf : ∀ a, Spares R chain d₀ (f a)) : Spares R chain d₀ (p >>= f) := bind (.of_quiet hp) hf

theorem tryReq_bind {q : Query} {f : Except Failure (Answer q) → Program α}
    (hf : ∀ r, Spares R chain d₀ (f r)) : Spares R chain d₀ (tryReq q >>= f) := hf

theorem ite {c : Prop} [Decidable c] {p p' : Program α} (h : Spares R chain d₀ p)
    (h' : Spares R chain d₀ p') : Spares R chain d₀ (if c then p else p') := Respects.ite h h'

theorem setHalt (x : Option Halt) : Spares R chain d₀ (setHalt x) :=
  ⟨fun _ _ h => h,fun _ => trivial⟩

theorem setPending (x : Option Pending) : Spares R chain d₀ (setPending x) :=
  ⟨fun _ _ h => h,fun _ => trivial⟩

theorem setIntent (x : Option Intent) : Spares R chain d₀ (setIntent x) :=
  ⟨fun _ _ h => h,fun _ => trivial⟩

theorem modify {f : Memory → Memory} (hf : ∀ s, (f s).journal = s.journal) :
    Spares R chain d₀ (Prog.modify f) :=
  ⟨fun s d h => ⟨by rw [hf s]; exact h.1,h.2⟩,trivial⟩

theorem persistHalt (reason : String) (u : Option Intent) :
    Spares R chain d₀ (persistHalt reason u) :=
  bind (modify fun _ => rfl) fun _ => bind (setHalt _) fun _ => trivial

theorem halt (reason : String) : Spares R chain d₀ (halt reason) :=
  get_bind fun _ => bind (persistHalt _ _) fun _ => trivial

theorem uncertain (reason : String) (i : Intent) (txHash : Option Text) :
    Spares R chain d₀ (Runtime.uncertain reason i txHash) :=
  bind (persistHalt _ _) fun _ => trivial

theorem clearRejected (i : Intent) : Spares R chain d₀ (Runtime.clearRejected i) :=
  bind (setIntent _) fun _ => ite
    (bind (modify fun _ => rfl) fun _ => get_bind fun _ => trivial) (uncertain _ _ _)

theorem recordPending (i : Intent) (txHash : Text) :
    Spares R chain d₀ (R.recordPending i txHash) :=
  get_bind fun _ => bind (setPending _) fun _ => ite
    (bind (modify fun _ => rfl) fun _ => get_bind fun _ => trivial) (uncertain _ _ _)

theorem invokeWallet (k : ℕ) (t : Step) (i : Intent) :
    Spares R chain d₀ (R.invokeWallet k t i) := by
  refine tryReq_bind fun r => ?_
  cases r with
  | error e => exact ite (clearRejected i) (uncertain _ _ _)
  | ok txHash =>
    exact looks_bind (Runtime.looks_boundaryHolds t) fun _ => ite (recordPending i txHash)
      (uncertain _ _ _)

theorem sendStep : Spares R chain d₀ R.sendStep := by
  refine get_bind fun s => ?_
  cases R.steps[s.current]? with
  | none => trivial
  | some t =>
    refine looks_bind (Runtime.looks_boundaryHolds t) fun _ => ite ?_ trivial
    refine get_bind fun s' => bind (setIntent _) fun _ => ite ?_ trivial
    refine bind (modify fun _ => rfl) fun _ => looks_bind (Runtime.looks_boundaryHolds t) fun _ => ?_
    exact ite (invokeWallet _ _ _)
      (bind (setIntent _) fun _ => bind (modify fun _ => rfl) fun _ => trivial)

theorem preconditions (now : ℕ) : Spares R chain d₀ (R.preconditions now) := by
  refine get_bind fun s => ite trivial (ite trivial (ite trivial (ite trivial (ite trivial ?_))))
  cases R.steps[s.current]? with
  | none => trivial
  | some t =>
    exact looks_bind (R.looks_gates _ t now) fun _ => ite trivial
      (bind (halt _) fun _ => trivial)

theorem sendCurrent (now : ℕ) : Spares R chain d₀ (R.sendCurrent now) := by
  refine get_bind fun s => ite trivial (ite trivial (ite trivial ?_))
  refine bind (preconditions now) fun pre => ?_
  cases pre with
  | error o => trivial
  | ok ready => exact sendStep

theorem markConnected : Spares R chain d₀ Runtime.markConnected :=
  get_bind fun _ => ite trivial (looks_bind (.req id) fun _ => ite trivial
    (looks_bind (.req id) fun _ => ite trivial
      (bind (modify fun _ => rfl) fun _ => trivial)))

end Spares

/-! ## The calls that write the journal -/

/-- A call that ends well has verified the current step and moved past it. -/
def Advanced (R : Runtime) (chain : Chain) (i : ℕ) (r : Except Failure Outcome) (s : Memory) :
    Prop :=
  ∀ v, r = .ok v → v.ok = true → s.current = i+1 ∧ ∃ txHash, Verified R chain i txHash

theorem Traces.halt (h : Sourced R chain d₀ s d) (reason : String)
    {P : Except Failure Outcome → Memory → Prop}
    (hP : ∀ r s, (∀ v, r = .ok v → v.ok = false) → P r s) :
    Traces R chain d₀ P (Canary.halt reason) s d l := by
  refine Safe.get_bind fun w => ?_
  cases w <;> exact ⟨h,hP _ _ fun v hv => by cases hv; rfl⟩

theorem Traces.journalStep {i : ℕ} {txHash : Text} (h : Sourced R chain d₀ s d)
    (hv : Verified R chain i txHash) (hi : s.current = i) (found : Finding) :
    Traces R chain d₀ (Advanced R chain i) (R.journalStep i txHash found) s d l := by
  have hj := h.1.concat hv
  have hdone : ∀ (o : Outcome) (s' : Memory), s'.current = s.current+1 →
      Advanced R chain i (.ok o) s' := fun o s' hs _ _ _ => ⟨by rw [hs,hi],txHash,hv⟩
  refine Safe.get_bind (Safe.write_bind ?_ ⟨⟨h.1,hj⟩,?_⟩ ⟨h,?_⟩)
  · refine Safe.modify_bind (Safe.write_bind ?_ ?_ ?_)
    all_goals refine Safe.modify_bind (Safe.write_bind ?_ ?_ ?_)
    all_goals exact ⟨⟨hj,hj⟩,hdone _ _ rfl⟩
  · intro v hv' hok
    cases hv'
    cases hok
  · intro v hv' hok
    cases hv'
    cases hok

theorem Advanced.of_not_ok {i : ℕ} {r : Except Failure Outcome} {s : Memory}
    (h : ∀ v, r = .ok v → v.ok = false) : Advanced R chain i r s := fun v hv hok => by
  rw [h v hv] at hok
  cases hok

theorem Advanced.error (i : ℕ) (e : Failure) (s : Memory) : Advanced R chain i (.error e) s :=
  .of_not_ok fun v hv => by cases hv

theorem Traces.verifyPending {i : ℕ} (h : Sourced R chain d₀ s d) (hi : s.current = i)
    (txHash : Text) :
    Traces R chain d₀ (Advanced R chain i) (R.verifyPending i txHash) s d l := by
  have hnot : ∀ r s, (∀ v, r = .ok v → v.ok = false) → Advanced R chain i r s :=
    fun _ _ => Advanced.of_not_ok
  refine Traces.looks_bind (R.looks_verifyStep _ _ _ _) (Finds.verifyStep i txHash _ _) h
    (fun e => Advanced.error i e s) fun v hv => ?_
  cases v with
  | error reason => exact Traces.halt h _ hnot
  | ok v =>
    refine Traces.quiet_bind (R.looks_cumulativeCheckpoint _ _) h (fun e => Advanced.error i e s) fun chk => ?_
    cases chk with
    | error reason => exact Traces.halt h _ hnot
    | ok _ => exact Traces.journalStep h (hv v rfl) hi v.1

theorem Traces.verifyAfterHash (h : Sourced R chain d₀ s d) (txHash : Text) :
    Traces R chain d₀ (Advanced R chain s.current) (R.verifyAfterHash txHash) s d l := by
  have hnot : ∀ r s', (∀ v, r = .ok v → v.ok = false) → Advanced R chain s.current r s' :=
    fun _ _ => Advanced.of_not_ok
  refine Safe.get_bind ?_
  split_ifs with hs
  · exact ⟨h,hnot _ _ fun v hv => by cases hv; rfl⟩
  · cases hp : s.pending with
    | none => exact Traces.halt h _ hnot
    | some p =>
      dsimp only
      split_ifs
      · exact Traces.verifyPending h rfl txHash
      · exact Traces.halt h _ hnot

/-- Every step before `k` is verified. -/
def AllVerified (R : Runtime) (chain : Chain) (k : ℕ) : Prop :=
  ∀ j < k, ∃ txHash, Verified R chain j txHash

/-- A journal loop that ends well has verified a transaction for every place from `k` on. -/
theorem verifyJournal_finds (h : Sourced R chain d₀ s d) (k left : ℕ) :
    Safe sends (fun d _ => Traced R chain d₀ d.journal) chain.IsHonest
      (fun r s' d' l' => (s' = s ∧ d' = d ∧ l' = l) ∧ (r = .ok (.ok ()) →
        ∀ j, k ≤ j → j < s.journal.length → ∃ txHash, Verified R chain j txHash))
      (R.verifyJournal k left) s d l := by
  induction left generalizing k with
  | zero =>
    rw [Runtime.verifyJournal]
    refine Safe.get_bind ?_
    split
    · rename_i hk
      refine ⟨⟨rfl,rfl,rfl⟩,fun _ j hkj hj => ?_⟩
      have hge := List.getElem?_eq_none_iff.mp hk
      omega
    · exact ⟨⟨rfl,rfl,rfl⟩,by simp⟩
    · split_ifs
      · exact ⟨⟨rfl,rfl,rfl⟩,by simp⟩
      · exact ⟨⟨rfl,rfl,rfl⟩,by simp⟩
  | succ left ih =>
    rw [Runtime.verifyJournal]
    refine Safe.get_bind ?_
    split
    · rename_i hk
      refine ⟨⟨rfl,rfl,rfl⟩,fun _ j hkj hj => ?_⟩
      have hge := List.getElem?_eq_none_iff.mp hk
      omega
    · exact ⟨⟨rfl,rfl,rfl⟩,by simp⟩
    · rename_i e he
      split_ifs with hmatch
      · refine Safe.bind ((Quiet.safe_and (R.looks_verifyStep k e.txHash _ _) sends_issued
          sends_answered h.2 (Finds.verifyStep k e.txHash _ _)).mono ?_)
        rintro r s' d' l' ⟨hv,rfl,rfl,rfl⟩
        cases r with
        | error e => exact ⟨⟨rfl,rfl,rfl⟩,by simp⟩
        | ok v =>
          cases v with
          | error reason => exact ⟨⟨rfl,rfl,rfl⟩,by simp⟩
          | ok v =>
            refine (ih (k+1)).mono fun r s' d' l' hpost => ⟨hpost.1,fun hr j hkj hj => ?_⟩
            rcases Nat.eq_or_lt_of_le hkj with rfl | hlt
            · exact ⟨e.txHash,hv v rfl⟩
            · exact hpost.2 hr j hlt hj
      · exact ⟨⟨rfl,rfl,rfl⟩,by simp⟩

/-- The result of `reconcile`: the steps that it counts are verified. -/
def Counted (R : Runtime) (chain : Chain) (r : Except Failure Outcome) : Prop :=
  ∀ o k, r = .ok o → o.ok = true → o.current = some k → AllVerified R chain k

theorem Counted.of_not_ok {r : Except Failure Outcome} (h : ∀ v, r = .ok v → v.ok = false) :
    Counted R chain r := fun o k ho hok => by
  rw [h o ho] at hok
  cases hok

theorem Counted.error (e : Failure) : Counted R chain (.error e) :=
  .of_not_ok fun v hv => by cases hv

theorem Traces.resumePending (h : Sourced R chain d₀ s d) (hall : AllVerified R chain s.current) :
    Traces R chain d₀ (fun r _ => Counted R chain r) R.resumePending s d l := by
  refine Safe.get_bind ?_
  cases hp : s.pending with
  | none =>
    refine ⟨h,fun o k ho _ hk => ?_⟩
    cases ho
    cases hk
    exact hall
  | some p =>
    refine Traces.quiet_bind (.req id) h Counted.error fun otx => ?_
    cases otx with
    | none =>
      refine ⟨h,fun o k ho _ hk => ?_⟩
      cases ho
      cases hk
      exact hall
    | some otx =>
      refine Safe.get_bind ?_
      rw [hp]
      refine Safe.bind ((Traces.verifyAfterHash h p.txHash).mono ?_)
      rintro r s' d' l' ⟨hs',hadv⟩
      cases r with
      | error e => exact ⟨hs',Counted.error e⟩
      | ok v =>
        dsimp only
        split_ifs with hok
        · obtain ⟨hcur,hver⟩ := hadv v rfl hok
          refine Safe.modify_bind (Safe.get_bind ⟨hs',fun o k ho _ hk j hj => ?_⟩)
          cases ho
          cases hk
          rw [show s'.current = _ from hcur] at hj
          rcases Nat.lt_succ_iff_lt_or_eq.mp hj with hlt | rfl
          · exact hall j hlt
          · exact hver
        · refine ⟨hs',Counted.of_not_ok fun o ho => ?_⟩
          cases ho
          exact Bool.eq_false_iff.mpr hok

theorem Traces.finishReconcile (h : Sourced R chain d₀ s d)
    (hall : AllVerified R chain s.journal.length) :
    Traces R chain d₀ (fun r _ => Counted R chain r) R.finishReconcile s d l := by
  refine Safe.modify_bind (Safe.bind (Safe.get_bind ?_))
  split_ifs
  · exact Safe.write_bind (Traces.resumePending h hall) (Traces.resumePending h hall)
      (Traces.resumePending h hall)
  · exact Traces.resumePending h hall

theorem Traces.reconcile (h : Sourced R chain d₀ s d) :
    Traces R chain d₀ (fun r _ => Counted R chain r) R.reconcile s d l := by
  have hnot : ∀ (r : Except Failure Outcome) (_ : Memory), (∀ v, r = .ok v → v.ok = false) →
      Counted R chain r := fun _ _ => Counted.of_not_ok
  refine Safe.get_bind ?_
  split_ifs
  · exact ⟨h,Counted.of_not_ok fun v hv => by cases hv; rfl⟩
  · exact ⟨h,Counted.of_not_ok fun v hv => by cases hv; rfl⟩
  · exact ⟨h,Counted.of_not_ok fun v hv => by cases hv; rfl⟩
  · refine Safe.bind ((verifyJournal_finds h 0 R.steps.length).mono ?_)
    rintro r s' d' l' ⟨⟨rfl,rfl,rfl⟩,hall⟩
    cases r with
    | error e => exact ⟨h,Counted.error e⟩
    | ok v =>
      cases v with
      | error reason => exact Traces.halt h _ hnot
      | ok u =>
        refine Traces.quiet_bind R.looks_restartCheckpoint h Counted.error fun chk => ?_
        cases chk with
        | error reason => exact Traces.halt h _ hnot
        | ok _ => exact Traces.finishReconcile h fun j hj => hall rfl j (Nat.zero_le j) hj

theorem Traces.resolveUncertainSend (h : Sourced R chain d₀ s d) (txHash : Text) :
    Traces R chain d₀ (fun _ _ => True) (R.resolveUncertainSend txHash) s d l := by
  refine Safe.get_bind ?_
  cases hu : s.uncertainSend with
  | none => exact ⟨h,trivial⟩
  | some u =>
    refine Traces.looks_bind (R.looks_verifyStep _ _ _ _) (Finds.verifyStep u.step txHash _ _) h
      (fun _ => trivial) fun v hv => ?_
    cases v with
    | error reason => exact ⟨h,trivial⟩
    | ok v =>
      have hj := h.1.setEntry (hv v rfl)
      refine Safe.get_bind (Safe.write_bind ?_ ⟨⟨h.1,hj⟩,trivial⟩ ⟨h,trivial⟩)
      refine Safe.modify_bind (Safe.write_bind ?_ ?_ ?_)
      all_goals refine Safe.write_bind ?_ ?_ ?_
      all_goals exact ⟨⟨hj,hj⟩,trivial⟩

end Programs

/-! ## Runs -/

/-- A page that loads, calls, crashes and honest answers lead to, from the storage `d₀`. -/
def HonestReachable (R : Runtime) (chain : Chain) (d₀ : Storage) : OperatorPage → Prop :=
  Machine.Reachable (τ := Page.Action Rpc Failure Method chain.IsHonest)
    (· = Page.blank d₀) (Page.exec sends R.app)

theorem trust_contract (R : Runtime) (chain : Chain) (d₀ : Storage) :
    Contract sends R.app chain.IsHonest (fun d _ => Traced R chain d₀ d.journal)
      (fun s d _ => Sourced R chain d₀ s d) (fun m r => m = .reconcile → Counted R chain r) where
  load s d _ hd hs := by
    refine ⟨?_,hd⟩
    rw [(construct_records hs).1]
    exact hd
  rest _ _ _ h := h.2
  call m s d l h := by
    cases m with
    | markConnected =>
      exact (Traces.of_spares .markConnected h).mono fun _ _ _ _ hs => ⟨hs.1,nofun⟩
    | preconditions now =>
      refine (Traces.of_spares (.bind (.preconditions now) fun pre => ?_) h).mono
        fun _ _ _ _ hs => ⟨hs.1,nofun⟩
      cases pre <;> trivial
    | sendCurrent now =>
      exact (Traces.of_spares (.sendCurrent now) h).mono fun _ _ _ _ hs => ⟨hs.1,nofun⟩
    | verifyAfterHash txHash =>
      exact (Traces.verifyAfterHash h txHash).mono fun _ _ _ _ hs => ⟨hs.1,nofun⟩
    | reconcile => exact (Traces.reconcile h).mono fun _ _ _ _ hs => ⟨hs.1,fun _ => hs.2⟩
    | resolveUncertainSend txHash =>
      exact (Traces.resolveUncertainSend h txHash).mono fun _ _ _ _ hs => ⟨hs.1,nofun⟩

/-- From any storage and under an honest provider: the steps that `reconcile` counts are on the
chain as the packet binds them, and whatever else is journaled was verified for its step. -/
theorem storage_not_trusted (R : Runtime) (chain : Chain) (d₀ : Storage) {p : OperatorPage}
    (h : HonestReachable R chain d₀ p) :
    (∀ o k, p.returned = some (.reconcile,.ok o) → o.ok = true → o.current = some k →
      ∀ j < k, ∃ txHash, Verified R chain j txHash) ∧
    ∀ e, some e ∈ p.durable.journal →
      some e ∈ d₀.journal ∨ Verified R chain e.step e.txHash := by
  have hv := Page.Valid.reachable (trust_contract R chain d₀) (fun e he => .inl he) h
  refine ⟨fun o k hret hok hk => ?_,hv.rest⟩
  exact hv.returned .reconcile (.ok o) hret rfl o k rfl hok hk

/-! ## A forged storage -/

/-- The chain on which the first `n` deployments are mined. -/
def sampleChain (n : ℕ) : Chain :=
  { transaction := fun txHash =>
      if txHash = sampleHashOf (n-1) then some (minedTx (sampleStep (n-1))) else none
    receipt := fun txHash => some
      { transactionHash := txHash
        status := 1
        contractAddress := some (Fin.ofNat (2^160) (100+(n-1)))
        logs := [] } }

theorem sampleAnswer_honest (n : ℕ) (q : Query) :
    (sampleChain n).IsHonest q (sampleAnswer n q) := by
  cases q with
  | getTransactionByHash txHash =>
    by_cases h : txHash = sampleHashOf (n-1)
    · simp [sampleAnswer,sampleChain,Chain.IsHonest,h]
    · simp [sampleAnswer,Chain.IsHonest,h]
  | getTransactionReceipt txHash => rfl
  | _ => trivial

/-- A journaled first step, and pending and intent records of another packet. -/
def forgedStorage : Storage :=
  { halt := none
    journal := [some (sampleRuntime.entryOf 0 (sampleHashOf 0))]
    pending := some ⟨['x'],0,['z']⟩
    intent := some ⟨['x'],0,3,9,0⟩ }

def forgedActions : List (Page.Action Rpc Failure Method (sampleChain 1).IsHonest) :=
  [.reload,.call .markConnected []] ++
    List.replicate 2 (.answer ⟨sampleAnswer 1,sampleAnswer_honest 1⟩ []) ++
    [.call .reconcile []] ++
    List.replicate 4 (.answer ⟨sampleAnswer 1,sampleAnswer_honest 1⟩ [])

def forgedPage : OperatorPage :=
  Machine.run (Page.exec sends sampleRuntime.app) (Page.blank forgedStorage) forgedActions

/-- The steps that the last call counts, if it was a `reconcile` that ended well. -/
def countedSteps (p : OperatorPage) : Option ℕ :=
  match p.returned with
  | some (.reconcile,.ok o) => if o.ok then o.current else none
  | _ => none

theorem forgedStorage_reconciled :
    countedSteps forgedPage = some 1 ∧ ∃ txHash, Verified sampleRuntime (sampleChain 1) 0 txHash := by
  have hcount : countedSteps forgedPage = some 1 := by decide +kernel
  refine ⟨hcount,?_⟩
  have htrust := storage_not_trusted sampleRuntime (sampleChain 1) forgedStorage
    ⟨_,forgedActions,rfl,rfl⟩
  unfold countedSteps at hcount
  split at hcount
  · rename_i o hret
    split_ifs at hcount with hok
    exact htrust.1 o 1 hret hok hcount 0 Nat.one_pos
  · cases hcount

end Canary
end BpsProtocol
