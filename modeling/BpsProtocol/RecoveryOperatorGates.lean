import BpsProtocol.RecoveryOperatorSends

/-! The gates of the recovery operator.
An observer records what the wallet and the chain last answered.  Whenever a transaction is sent,
the chain was last seen as 4663, the selected account is the tester, and the head of the chain
has not reached the deadline that the packet is bound to. -/
namespace BpsProtocol
namespace Canary

open Async

/-! ## Programs that send nothing -/

/-- The program may write, but it sends nothing. -/
abbrev Mute {α : Type} (p : Program α) : Prop := Asks (I := Rpc) Silent p

section Mute

variable {α β : Type}

theorem Looks.mute {p : Program α} (hp : Looks p) : Mute p := Asks.of_quiet hp

theorem Mute.bind {p : Program α} {f : α → Program β} (hp : Mute p) (hf : ∀ a, Mute (f a)) :
    Mute (p >>= f) := Asks.bind hp hf

theorem Mute.ite {c : Prop} [Decidable c] {p p' : Program α} (h : Mute p) (h' : Mute p') :
    Mute (if c then p else p') := Asks.ite h h'

theorem Mute.get_bind {f : Memory → Program α} (hf : ∀ s, Mute (f s)) :
    Mute (Prog.get >>= f) := hf

theorem Mute.modify_bind {g : Memory → Memory} {f : Unit → Program α} (hf : Mute (f ())) :
    Mute (Prog.modify g >>= f) := hf

theorem Mute.write_bind {g : Storage → Storage} {f : Bool → Program α} (hf : ∀ b, Mute (f b)) :
    Mute (Prog.write g >>= f) := hf

theorem mute_halt (reason : String) : Mute (halt reason) := fun _ _ => trivial

namespace Runtime

variable (R : Runtime)

theorem mute_uncertain (reason : String) (i : Intent) (txHash : Option Text) :
    Mute (uncertain reason i txHash) := fun _ => trivial

theorem mute_clearRejected (i : Intent) : Mute (clearRejected i) := by
  refine Mute.write_bind fun b => ?_
  cases b with
  | true => exact fun _ => trivial
  | false => exact mute_uncertain _ _ _

theorem mute_recordPending (i : Intent) (txHash : Text) : Mute (R.recordPending i txHash) := by
  refine Mute.get_bind fun s => Mute.write_bind fun b => ?_
  cases b with
  | true => exact fun _ => trivial
  | false => exact mute_uncertain _ _ _

theorem mute_journalStep (i : ℕ) (txHash : Text) (found : Finding) :
    Mute (R.journalStep i txHash found) := by
  refine Mute.get_bind fun s => Mute.write_bind fun b => ?_
  cases b with
  | true => exact fun _ _ _ => trivial
  | false => trivial

theorem mute_verifyPending (i : ℕ) (txHash : Text) : Mute (R.verifyPending i txHash) := by
  refine Mute.bind (R.looks_verifyStep _ _ _ _).mute fun v => ?_
  cases v with
  | error reason => exact mute_halt _
  | ok v =>
    refine Mute.bind (R.looks_cumulativeCheckpoint _ _).mute fun chk => ?_
    cases chk with
    | error reason => exact mute_halt _
    | ok u => exact R.mute_journalStep _ _ _

theorem mute_verifyAfterHash (txHash : Text) : Mute (R.verifyAfterHash txHash) := by
  refine Mute.get_bind fun s => Mute.ite trivial ?_
  cases s.pending with
  | none => exact mute_halt _
  | some p => exact Mute.ite (R.mute_verifyPending _ _) (mute_halt _)

theorem mute_verifyJournal (k left : ℕ) : Mute (R.verifyJournal k left) := by
  induction left generalizing k with
  | zero =>
    rw [verifyJournal]
    refine Mute.get_bind fun s => ?_
    split
    · trivial
    · trivial
    · exact Mute.ite trivial trivial
  | succ left ih =>
    rw [verifyJournal]
    refine Mute.get_bind fun s => ?_
    split
    · trivial
    · trivial
    · refine Mute.ite (Mute.bind (R.looks_verifyStep _ _ _ _).mute fun v => ?_) trivial
      cases v with
      | error reason => trivial
      | ok v => exact ih (k+1)

theorem mute_dropStalePending : Mute dropStalePending :=
  Mute.get_bind fun _ => Mute.ite (fun _ => trivial) trivial

theorem mute_resumePending : Mute R.resumePending := by
  refine Mute.get_bind fun s => ?_
  cases s.pending with
  | none => trivial
  | some p =>
    refine Mute.bind (Looks.req (q := .getTransactionByHash p.txHash) id).mute fun otx => ?_
    cases otx with
    | none => exact fun _ => trivial
    | some otx =>
      refine Mute.get_bind fun s => ?_
      cases s.pending with
      | none => trivial
      | some p =>
        refine Mute.bind (R.mute_verifyAfterHash _) fun v => ?_
        exact Mute.ite (fun _ => trivial) trivial

theorem mute_finishReconcile : Mute R.finishReconcile :=
  Mute.modify_bind (Mute.bind mute_dropStalePending fun _ => R.mute_resumePending)

theorem mute_reconcile : Mute R.reconcile := by
  refine Mute.get_bind fun s => Mute.ite trivial (Mute.ite trivial (Mute.ite trivial ?_))
  refine Mute.bind (R.mute_verifyJournal _ _) fun v => ?_
  cases v with
  | error reason => exact mute_halt _
  | ok u =>
    refine Mute.bind R.looks_restartCheckpoint.mute fun chk => ?_
    cases chk with
    | error reason => exact mute_halt _
    | ok u => exact R.mute_finishReconcile

theorem mute_journalResolved (step : ℕ) (txHash : Text) : Mute (R.journalResolved step txHash) := by
  refine Mute.get_bind fun s => Mute.write_bind fun b => ?_
  cases b with
  | true => exact fun _ _ => Mute.ite trivial trivial
  | false => trivial

theorem mute_resolveUncertainSend (txHash : Text) : Mute (R.resolveUncertainSend txHash) := by
  refine Mute.get_bind fun s => ?_
  cases s.uncertainSend with
  | none => trivial
  | some u =>
    refine Mute.bind (R.looks_verifyStep _ _ _ _).mute fun v => ?_
    cases v with
    | error reason => trivial
    | ok v => exact R.mute_journalResolved _ _

end Runtime
end Mute

namespace Recovery
namespace Operator

variable (O : Operator)

theorem mute_passed {p : Program Outcome} (h : Mute p) :
    Mute (do
      let o ← p
      return ({ outcome := o } : Reply)) := Mute.bind h fun _ => trivial

theorem mute_markConnected : Mute O.markConnected :=
  Mute.get_bind fun _ => Mute.ite trivial (Mute.bind (Looks.req (q := .chainId) id).mute fun _ =>
    Mute.ite trivial (Mute.bind (Looks.req (q := .accounts) id).mute fun _ =>
      Mute.ite trivial (Mute.ite trivial trivial)))

theorem mute_reconcile : Mute O.reconcile := by
  refine Mute.get_bind fun s => Mute.ite trivial (Mute.ite trivial ?_)
  refine Mute.bind O.looks_verifyCompletedAnchors.mute fun anchors => ?_
  cases anchors with
  | error reason => exact mute_passed (mute_halt _)
  | ok u => exact mute_passed O.R.mute_reconcile

end Operator

/-! ## What the observer knows -/

/-- An answer that a gate rests on, or a transaction that is sent. -/
inductive Seen
  | chain (id : ℕ)
  | accounts (accts : List Address)
  | head (timestamp : ℕ)
  | sent (step : ℕ) (tx : SendTx)
  deriving DecidableEq

def watch : Monitor Rpc Storage Failure Seen where
  issued
    | .sendTransaction step tx, _ => [.sent step tx]
    | _, _ => []
  answered
    | .chainId, .ok id => [.chain id]
    | .accounts, .ok accts => [.accounts accts]
    | .getBlockByNumber, .ok head => [.head head.timestamp]
    | _, _ => []

/-- The last answer of each kind. -/
structure View where
  chain : Option ℕ
  accounts : Option (List Address)
  head : Option ℕ

namespace View

def see (v : View) : Seen → View
  | .chain id => { v with chain := some id }
  | .accounts accts => { v with accounts := some accts }
  | .head timestamp => { v with head := some timestamp }
  | .sent _ _ => v

def of (l : List Seen) : View := l.foldl see ⟨none,none,none⟩

theorem of_concat (l : List Seen) (x : Seen) : of (l ++ [x]) = (of l).see x := by
  rw [of,List.foldl_append]
  rfl

end View

section Gates

variable {O : Operator} {s : Memory} {d : Storage} {l : List Seen} {t : Step} {k : ℕ} {tx : SendTx}

/-- The head has not reached the expiry, nor a refreshed deadline, which is in the calldata. -/
structure InTime (O : Operator) (k : ℕ) (t : Step) (timestamp : ℕ) : Prop where
  expiry : ∃ e, O.expiryEpoch = some e ∧ timestamp < e
  deadline : ∀ x, O.refreshOf k = some x →
    deadlineWord t.dataOrInitCode x.wordOffsetBytes = some O.canon.deadlineRefresh.newDeadline ∧
      timestamp < O.canon.deadlineRefresh.newDeadline

/-- The account of the step is selected, and the step is in time. -/
structure Fresh (O : Operator) (v : View) (k : ℕ) (t : Step) : Prop where
  step : O.R.steps[k]? = some t
  account : ∃ rest, v.accounts = some (t.signer::rest)
  time : ∃ timestamp, v.head = some timestamp ∧ InTime O k t timestamp

/-- What the observer knows when a transaction is sent. -/
structure Cleared (O : Operator) (v : View) (k : ℕ) (tx : SendTx) : Prop where
  chain : v.chain = some 4663
  fresh : ∃ t, tx = Runtime.buildSendTx t ∧ Fresh O v k t

/-- Every transaction in the record was cleared when it was sent. -/
def Guarded (O : Operator) (l : List Seen) : Prop :=
  ∀ l₁ k tx l₂, l = l₁ ++ .sent k tx::l₂ → Cleared O (.of l₁) k tx

theorem Guarded.nil : Guarded O [] := by
  intro l₁ k tx l₂ h
  simp at h

theorem Guarded.concat {x : Seen} (h : Guarded O l)
    (hx : ∀ k tx, x = .sent k tx → Cleared O (.of l) k tx) : Guarded O (l ++ [x]) := by
  intro l₁ k tx l₂ heq
  rcases List.eq_nil_or_concat l₂ with rfl | ⟨l₂,y,rfl⟩
  · obtain ⟨hl,hlast⟩ := List.append_inj' heq rfl
    rw [← hl]
    exact hx k tx (List.cons.inj hlast).1
  · rw [List.concat_eq_append,← List.cons_append,← List.append_assoc] at heq
    exact h l₁ k tx l₂ (List.append_inj' heq rfl).1

theorem watch_issued {q : Query} (h : Silent q) (d : Storage) : watch.issued q d = [] := by
  cases q with
  | sendTransaction step tx => exact absurd trivial h
  | _ => rfl

theorem Guarded.answered {q : Query} (h : Guarded O l) (r : Except Failure (Answer q)) :
    Guarded O (l ++ watch.answered q r) := by
  have hsame : Guarded O (l ++ []) := by rwa [List.append_nil]
  cases r with
  | error e => cases q <;> exact hsame
  | ok a =>
    cases q with
    | chainId => exact h.concat nofun
    | accounts => exact h.concat nofun
    | getBlockByNumber => exact h.concat nofun
    | _ => exact hsame

/-- A program that the observer watches. -/
abbrev Watched {α : Type} (O : Operator)
    (Post : Except Failure α → Memory → Storage → List Seen → Prop) (p : Program α) (s : Memory)
    (d : Storage) (l : List Seen) : Prop :=
  Safe watch (fun _ l => Guarded O l) (fun _ _ => True) Post p s d l

variable {α β : Type} {Post : Except Failure β → Memory → Storage → List Seen → Prop}

theorem Watched.mute {p : Program α} (hp : Mute p) (h : Guarded O l) :
    Watched O (fun _ _ _ l => Guarded O l) p s d l :=
  Asks.safe (fun q d l hq hl => by rwa [watch_issued hq,List.append_nil])
    (fun q r l _ hl => hl.answered r) hp h

/-- A query that sends nothing. -/
theorem Watched.req_bind {q : Query} {f : Answer q → Program β} (hq : Silent q)
    (h : Guarded O l)
    (herror : ∀ e l', Guarded O l' → Post (.error e) s d l')
    (hf : ∀ a, Guarded O (l ++ watch.answered q (.ok a)) →
      Watched O Post (f a) s d (l ++ watch.answered q (.ok a))) :
    Watched O Post (req q >>= f) s d l := by
  refine Safe.await_bind (I := Rpc) (q := q) ?_ (fun e _ => ?_) fun a _ => ?_
  · rwa [watch_issued hq,List.append_nil]
  · rw [watch_issued hq,List.append_nil]
    exact herror e _ (h.answered (.error e))
  · rw [watch_issued hq,List.append_nil]
    exact hf a (h.answered (.ok a))

/-! ## The gates -/

/-- A query of which the observer keeps nothing. -/
def Unwatched : Query → Prop
  | .chainId => False
  | .accounts => False
  | .getBlockByNumber => False
  | .sendTransaction _ _ => False
  | _ => True

theorem quiet_dependenciesUnchanged (R : Runtime) (recs : List Dependency) :
    Quiet (I := Rpc) Unwatched (R.dependenciesUnchanged recs) := by
  induction recs with
  | nil => trivial
  | cons rec recs ih =>
    exact Quiet.bind ⟨trivial,fun _ => trivial⟩ fun _ => Quiet.bind ih fun _ => trivial

theorem quiet_createEmpty (t : Step) : Quiet (I := Rpc) Unwatched (Runtime.createEmpty t) := by
  refine Quiet.ite (Quiet.bind ?_ fun _ => ⟨trivial,fun r => ?_⟩) trivial
  · unfold orFail
    split <;> trivial
  · cases r <;> trivial

theorem quiet_exposureGate (R : Runtime) : Quiet (I := Rpc) Unwatched R.exposureGate :=
  Quiet.ite ⟨trivial,fun r => by cases r <;> trivial⟩ trivial

/-- A part of which the observer keeps nothing. -/
theorem Watched.quiet_bind {p : Program α} {f : α → Program β}
    (hp : Quiet (I := Rpc) Unwatched p) (h : Guarded O l)
    (herror : ∀ e l', Guarded O l' → Post (.error e) s d l')
    (hf : ∀ a, Watched O Post (f a) s d l) :
    Watched O Post (p >>= f) s d l := by
  have hsafe : Watched O (fun _ s' d' l' => s' = s ∧ d' = d ∧ l' = l) p s d l := by
    refine hp.safe (fun q d hq => ?_) (fun q r hq => ?_) h
    · cases q <;> first | rfl | exact hq.elim
    · cases q <;> first | exact hq.elim | (cases r <;> rfl)
  refine Safe.bind (hsafe.mono ?_)
  rintro r s' d' l' ⟨rfl,rfl,rfl⟩
  cases r with
  | ok a => exact hf a
  | error e => exact herror e _ h

/-- What is known after the gates, where all of them passed. -/
abbrev Passed (O : Operator) (s : Memory) (t : Step)
    (r : Except Failure (List (String × Bool) × Except String Runtime.Exposure)) (s' : Memory)
    (_ : Storage) (l' : List Seen) : Prop :=
  Guarded O l' ∧ ∀ gs, r = .ok gs → s' = s ∧ (Runtime.failedGates gs.1 = [] →
    ∃ rest, (View.of l').accounts = some (t.signer::rest))

theorem watched_gates (h : Guarded O l) (i : ℕ) (t : Step) (now : ℕ) :
    Watched O (Passed O s t) (O.R.gates i t now) s d l := by
  have herror : ∀ (s' : Memory) (d' : Storage) e l', Guarded O l' →
      Passed O s t (.error e) s' d' l' := fun _ _ _ _ hl => ⟨hl,nofun⟩
  refine Watched.req_bind (q := .chainId) id h (herror s d) fun chain h => ?_
  refine Watched.req_bind (q := .accounts) id h (herror s d) fun accts h => ?_
  refine Watched.req_bind (q := .getTransactionCount t.signer .latest) id h (herror s d)
    fun n h => ?_
  refine Watched.req_bind (q := .getTransactionCount t.signer .pending) id h (herror s d)
    fun m h => Safe.get_bind ?_
  refine Watched.quiet_bind (quiet_dependenciesUnchanged _ _) h (herror s d) fun dep => ?_
  refine Watched.quiet_bind (quiet_createEmpty t) h (herror s d) fun empty => ?_
  refine Watched.req_bind (q := .getBlockByNumber) id h (herror s d) fun head h => ?_
  refine Watched.req_bind (q := .getBalance t.signer) id h (herror s d) fun balance h => ?_
  refine Watched.quiet_bind (p := tryReq (.call (Runtime.callTx t))) ⟨trivial,fun _ => trivial⟩ h
    (herror s d) fun sim => ?_
  refine Watched.quiet_bind (p := tryReq (.estimateGas (Runtime.callTx t)))
    ⟨trivial,fun _ => trivial⟩ h (herror s d) fun est => ?_
  refine Watched.quiet_bind (quiet_exposureGate _) h (herror s d) fun exposure => ?_
  refine ⟨h,fun gs hgs => ⟨rfl,fun hpassed => ?_⟩⟩
  have hnone := List.filter_eq_nil_iff.mp (List.map_eq_nil_iff.mp hpassed)
  have hgate := hnone ("accountSelected",decide (accts.head? = some t.signer))
    (by rw [← Except.ok.inj hgs]; simp)
  rw [Bool.not_eq_true',decide_eq_false_iff_not,not_not] at hgate
  obtain ⟨rest,rfl⟩ := List.head?_eq_some_iff.mp hgate
  exact ⟨rest,by simp [View.of,List.foldl_append,View.see,watch]⟩

/-- `preconditions` of the canary operator. -/
theorem watched_base (h : Guarded O l) (now : ℕ) :
    Watched O (fun r s' _ l' => Guarded O l' ∧ ∀ ready, r = .ok (.ok ready) →
      s' = s ∧ ready.step = s.current ∧ ∃ t rest, O.R.steps[s.current]? = some t ∧
        (View.of l').accounts = some (t.signer::rest)) (O.R.preconditions now) s d l := by
  refine Safe.get_bind ?_
  split_ifs
  · exact ⟨h,nofun⟩
  · exact ⟨h,nofun⟩
  · exact ⟨h,nofun⟩
  · exact ⟨h,nofun⟩
  · exact ⟨h,nofun⟩
  · cases ht : O.R.steps[s.current]? with
    | none => exact ⟨h,nofun⟩
    | some t =>
      refine Safe.bind ((watched_gates h s.current t now).mono ?_)
      rintro r s' d' l' ⟨hl,hgates⟩
      cases r with
      | error e => exact ⟨hl,nofun⟩
      | ok gs =>
        obtain ⟨rfl,haccount⟩ := hgates gs rfl
        dsimp only
        split_ifs with hpassed
        · refine ⟨hl,fun ready hready => ?_⟩
          cases hready
          obtain ⟨rest,hrest⟩ := haccount hpassed
          exact ⟨rfl,rfl,t,rest,rfl,hrest⟩
        · refine Safe.bind ((Watched.mute (mute_halt _) hl).mono ?_)
          rintro r s'' d'' l'' hl'
          cases r <;> exact ⟨hl',nofun⟩

/-- The step of a ready instance is fresh. -/
abbrev Readied (O : Operator) (s : Memory)
    (r : Except Failure (Except Reply Runtime.Ready)) (s' : Memory) (_ : Storage)
    (l' : List Seen) : Prop :=
  Guarded O l' ∧ ∀ ready, r = .ok (.ok ready) →
    s' = s ∧ ∃ t, Fresh O (.of l') s.current t

theorem inTime_of_checkHead {head : Head} (h : O.checkHead k t head = .ok ()) :
    InTime O k t head.timestamp := by
  rw [Operator.checkHead,Checked.bind_eq_ok] at h
  obtain ⟨u,hexpiry,h⟩ := h
  rw [refuseIf_eq_ok] at hexpiry
  constructor
  · cases he : O.expiryEpoch with
    | none => simp [he] at hexpiry
    | some e =>
      rw [he] at hexpiry
      simpa using hexpiry
  · intro x hx
    rw [hx] at h
    simp only [Checked.bind_eq_ok,orThrow_eq_ok,refuseIf_eq_ok,not_not,not_le] at h
    obtain ⟨word,hword,-,rfl,hdeadline⟩ := h
    exact ⟨hword,hdeadline⟩

theorem watched_deadlineGate {ready : Runtime.Ready} {rest : List Address} (h : Guarded O l)
    (ht : O.R.steps[s.current]? = some t) (hready : ready.step = s.current)
    (haccount : (View.of l).accounts = some (t.signer::rest)) :
    Watched O (Readied O s) (O.deadlineGate ready) s d l := by
  refine Watched.req_bind (q := .getBlockByNumber) id h (fun _ _ hl => ⟨hl,nofun⟩)
    fun head h => ?_
  rw [hready,ht]
  refine Safe.bind (p := orFail (orThrow "undefined step" (some t))) ?_
  change Watched O (Readied O s) (runCheck (O.checkHead s.current t head) >>= _) s d _
  cases hchecked : O.checkHead s.current t head with
  | ok u =>
    refine ⟨h,fun ready' hready' => ⟨rfl,t,ht,⟨rest,?_⟩,head.timestamp,?_,
      inTime_of_checkHead hchecked⟩⟩
    · simpa [watch,View.of_concat,View.see] using haccount
    · simp [watch,View.of_concat,View.see]
  | error fault =>
    cases fault with
    | thrown message => exact ⟨h,nofun⟩
    | refused reason =>
      refine Safe.bind (p := runCheck (.error (.refused reason))) ?_
      refine Safe.bind ((Watched.mute (mute_halt reason) h).mono ?_)
      rintro r s'' d'' l'' hl'
      cases r <;> exact ⟨hl',nofun⟩

theorem watched_boundPreconditions (h : Guarded O l) (now : ℕ) :
    Watched O (Readied O s) (O.boundPreconditions now) s d l := by
  refine Safe.bind ((watched_base h now).mono ?_)
  rintro r s' d' l' ⟨hl,hready⟩
  cases r with
  | error e => exact ⟨hl,nofun⟩
  | ok pre =>
    cases pre with
    | error o => exact ⟨hl,nofun⟩
    | ok ready =>
      obtain ⟨rfl,hstep,t,rest,ht,haccount⟩ := hready ready rfl
      exact watched_deadlineGate hl ht hstep haccount

theorem watched_preconditions (h : Guarded O l) (now : ℕ) :
    Watched O (Readied O s) (O.preconditions now) s d l := by
  refine Safe.get_bind ?_
  split_ifs
  · refine Watched.req_bind (q := .accounts) id h (fun _ _ hl => ⟨hl,nofun⟩) fun accts h => ?_
    split_ifs
    · exact ⟨h,nofun⟩
    · exact watched_boundPreconditions h now
  · exact watched_boundPreconditions h now

/-! ## Sending -/

/-- The chain check, where the step has ceilings. -/
theorem watched_boundary (ht : t.gasCeilings.isSome = true) (h : Guarded O l) :
    Watched O (fun r s' d' l' => ∃ b, r = .ok b ∧ s' = s ∧ d' = d ∧ Guarded O l' ∧
      (View.of l').accounts = (View.of l).accounts ∧ (View.of l').head = (View.of l).head ∧
        (b = true → (View.of l').chain = some 4663)) (Runtime.boundaryHolds t) s d l := by
  rw [Runtime.boundaryHolds,if_pos ht]
  refine Safe.attempt_bind (I := Rpc) (q := .chainId) ?_ fun r _ => ?_
  · rwa [watch_issued (q := .chainId) id,List.append_nil]
  · rw [watch_issued (q := .chainId) id,List.append_nil]
    have hl := h.answered (q := .chainId) r
    cases r with
    | error e => exact ⟨false,rfl,rfl,rfl,hl,by simp [watch],by simp [watch],nofun⟩
    | ok id =>
      refine ⟨_,rfl,rfl,rfl,hl,?_,?_,fun hid => ?_⟩
      · simp [watch,View.of_concat,View.see]
      · simp [watch,View.of_concat,View.see]
      · simpa [watch,View.of_concat,View.see] using hid

theorem Fresh.mono {v v' : View} (h : Fresh O v k t) (haccounts : v'.accounts = v.accounts)
    (hhead : v'.head = v.head) : Fresh O v' k t where
  step := h.step
  account := by
    rw [haccounts]
    exact h.account
  time := by
    rw [hhead]
    exact h.time

/-- The wallet call of a cleared step. -/
theorem watched_invokeWallet {i : Intent} (h : Guarded O l)
    (hclear : Cleared O (.of l) s.current (Runtime.buildSendTx t)) :
    Watched O (fun _ _ _ l' => Guarded O l') (O.R.invokeWallet s.current t i) s d l := by
  have hsent : Guarded O (l ++ [.sent s.current (Runtime.buildSendTx t)]) :=
    h.concat fun k tx heq => by
      cases heq
      exact hclear
  refine Safe.attempt_bind (I := Rpc) (q := .sendTransaction s.current (Runtime.buildSendTx t))
    hsent fun r _ => ?_
  have hl := hsent.answered (q := .sendTransaction s.current (Runtime.buildSendTx t)) r
  refine Watched.mute ?_ hl
  cases r with
  | error e => exact Mute.ite (Runtime.mute_clearRejected i) (Runtime.mute_uncertain _ _ _)
  | ok txHash =>
    refine Mute.bind (Runtime.looks_boundaryHolds t).mute fun holds => ?_
    exact Mute.ite (O.R.mute_recordPending _ _) (Runtime.mute_uncertain _ _ _)

theorem watched_sendStep (ht : t.gasCeilings.isSome = true) (h : Guarded O l)
    (hfresh : Fresh O (.of l) s.current t) :
    Watched O (fun _ _ _ l' => Guarded O l') O.R.sendStep s d l := by
  refine Safe.get_bind ?_
  rw [hfresh.step]
  refine Safe.bind ((watched_boundary ht h).mono ?_)
  rintro r s' d' l' ⟨b,rfl,rfl,rfl,hl,haccounts,hhead,-⟩
  cases b with
  | false => exact hl
  | true =>
    refine Safe.get_bind (Safe.write_bind ?_ hl hl)
    refine Safe.modify_bind (Safe.bind ((watched_boundary ht hl).mono ?_))
    rintro r s'' d'' l'' ⟨b,rfl,rfl,rfl,hl',haccounts',hhead',hchain⟩
    cases b with
    | false => exact Watched.mute (fun _ => trivial) hl'
    | true =>
      have hfresh' := (hfresh.mono haccounts hhead).mono haccounts' hhead'
      exact watched_invokeWallet (s := { s' with intent := some (O.R.intentOf s'.current t) }) hl'
        ⟨hchain rfl,t,rfl,hfresh'⟩

theorem watched_sendCurrent (hceilings : ∀ t ∈ O.R.steps, t.gasCeilings.isSome = true)
    (h : Guarded O l) (now : ℕ) :
    Watched O (fun _ _ _ l' => Guarded O l') (O.sendCurrent now) s d l := by
  refine Safe.get_bind ?_
  split_ifs
  · exact h
  · exact h
  · exact h
  · refine Safe.bind ((watched_preconditions h now).mono ?_)
    rintro r s' d' l' ⟨hl,hready⟩
    cases r with
    | error e => exact hl
    | ok pre =>
      cases pre with
      | error o => exact hl
      | ok ready =>
        obtain ⟨rfl,t,hfresh⟩ := hready ready rfl
        have ht := hceilings t (List.mem_of_getElem? hfresh.step)
        refine Safe.bind ((watched_sendStep ht hl hfresh).mono ?_)
        rintro r s'' d'' l'' hl'
        cases r <;> exact hl'

/-! ## Runs -/

theorem watched_contract (hceilings : ∀ t ∈ O.R.steps, t.gasCeilings.isSome = true) :
    Contract watch O.app (fun _ _ => True) (fun _ l => Guarded O l) (fun _ _ l => Guarded O l)
      (fun _ _ => True) where
  load _ _ _ h _ := h
  rest _ _ _ h := h
  call m s d l h := by
    have hmute : ∀ {p : Program Reply}, Mute p → Safe watch (fun _ l => Guarded O l)
        (fun _ _ => True) (fun _ _ _ l => Guarded O l ∧ True) p s d l := fun hp =>
      (Watched.mute hp h).mono fun _ _ _ _ hl => ⟨hl,trivial⟩
    cases m with
    | markConnected => exact hmute O.mute_markConnected
    | preconditions now =>
      refine Safe.bind ((watched_preconditions h now).mono ?_)
      rintro r s' d' l' ⟨hl,-⟩
      cases r with
      | error e => exact ⟨hl,trivial⟩
      | ok pre => cases pre <;> exact ⟨hl,trivial⟩
    | sendCurrent now =>
      exact (watched_sendCurrent hceilings h now).mono fun _ _ _ _ hl => ⟨hl,trivial⟩
    | verifyAfterHash txHash => exact hmute (Operator.mute_passed (O.R.mute_verifyAfterHash _))
    | reconcile => exact hmute O.mute_reconcile
    | resolveUncertainSend txHash =>
      exact hmute (Operator.mute_passed (O.R.mute_resolveUncertainSend _))

abbrev WatchedPage := Page Rpc Memory Storage Failure Reply Method Seen

/-- A page that some run of loads, calls, crashes and answers leads to, as the observer sees
it. -/
def WatchedReachable (O : Operator) (d : Storage) : WatchedPage → Prop :=
  Machine.Reachable (τ := Page.Action Rpc Failure Method fun _ _ => True)
    (· = Page.blank d) (Page.exec watch O.app)

theorem guarded_reachable (hceilings : ∀ t ∈ O.R.steps, t.gasCeilings.isSome = true)
    {p : WatchedPage} (h : WatchedReachable O d p) : Guarded O p.log :=
  (Page.Valid.reachable (watched_contract hceilings) Guarded.nil h).rest

end Gates

section Bound

variable {env : Env Canonical} {x : Inputs} {R : Runtime}

theorem boundOperator_runtime (h : bindAndVerifyPacket env x = .ok R) :
    (boundOperator env x).R = R := (bound_runtime h).symm

theorem bound_expiry (h : bindAndVerifyPacket env x = .ok R) :
    expiryEpoch env.dateParse x.recoveryAuthorization.expiresAtUtc =
      some x.recoveryAuthorization.deadlineRefresh.newDeadline := by
  have hcheck := @bound_check _ _ _ h "deadlineRefreshBound" _ (by simp [bindChecks]; rfl)
  simp only [Bool.and_eq_true,decide_eq_true_eq] at hcheck
  exact hcheck.1.2

/-- A bound step: one of the last six, and the tester's. -/
theorem bound_signable (h : bindAndVerifyPacket env x = .ok R) {k : ℕ} {t : CanonicalTx}
    (ht : x.recoveryAuthorization.immediate[k]? = some t) :
    t.originalIndex = k+14 ∧ t.nonce = k+2 ∧ t.signer = x.recoveryAuthorization.wallets.tester ∧
      t.signer ≠ x.recoveryAuthorization.wallets.deployer := by
  have hcheck := @bound_check _ _ _ h "sixTesterSignables" _ (by simp [bindChecks]; rfl)
  simp only [Bool.and_eq_true,decide_eq_true_eq,Bool.not_eq_true',List.any_eq_false,
    List.all_eq_true,Bool.or_eq_true,not_or] at hcheck
  obtain ⟨⟨⟨⟨-,hindex⟩,hnonce⟩,htester⟩,hdeployer⟩ := hcheck
  have hmem := List.mem_of_getElem? ht
  have hplace : ∀ {α : Type} (f : CanonicalTx → α) (g : ℕ → α),
      x.recoveryAuthorization.immediate.map f = (List.range 6).map g → f t = g k := by
    intro α f g heq
    have hk := congrArg (fun l => l[k]?) heq
    simp only [List.getElem?_map,ht,Option.map_some] at hk
    obtain ⟨n,hn,hfn⟩ := Option.map_eq_some_iff.mp hk.symm
    rw [List.getElem?_eq_some_iff] at hn
    obtain ⟨hlt,rfl⟩ := hn
    rw [← hfn,List.getElem_range]
  exact ⟨hplace _ _ hindex,hplace _ _ hnonce,htester t hmem,(hdeployer t hmem).2⟩

/-- No route leads to a completed step or to a transaction of the deployer. -/
theorem completedStep_not_actionable (h : bindAndVerifyPacket env x = .ok R) :
    (boundOperator env x).completedStepIsActionable = false := by
  have hcheck := @bound_check _ _ _ h "sixTesterSignables" _ (by simp [bindChecks]; rfl)
  simp only [Bool.and_eq_true,decide_eq_true_eq,Bool.not_eq_true',List.any_eq_false,
    Bool.or_eq_true,not_or] at hcheck
  rw [Operator.completedStepIsActionable,List.any_eq_false]
  intro t ht
  rw [Bool.or_eq_true,decide_eq_true_eq,decide_eq_true_eq,not_or]
  exact ⟨(hcheck.2 t ht).2,(hcheck.2 t ht).1⟩

/-- Whatever the stored records, a transaction that is sent is one of the last six and the
tester's, and when it is sent the chain was last seen as 4663, the tester's account was last seen
selected, and the head was last seen before the deadline, which is in the calldata of every
refreshed step. -/
theorem recovery_sends_guarded (h : bindAndVerifyPacket env x = .ok R) {d : Storage}
    {p : WatchedPage} (hp : WatchedReachable (boundOperator env x) d p) {l₁ l₂ : List Seen} {k : ℕ}
    {tx : SendTx} (hlog : p.log = l₁ ++ .sent k tx::l₂) :
    ∃ t timestamp, x.recoveryAuthorization.immediate[k]? = some t ∧ t.originalIndex = k+14 ∧
      tx = Runtime.buildSendTx t.step ∧ tx.nonce = k+2 ∧ tx.source = R.tester ∧
      tx.source ≠ R.deployer ∧ (View.of l₁).chain = some 4663 ∧
      (∃ rest, (View.of l₁).accounts = some (R.tester::rest)) ∧
      (View.of l₁).head = some timestamp ∧
      timestamp < x.recoveryAuthorization.deadlineRefresh.newDeadline ∧
      ∀ y, (boundOperator env x).refreshOf k = some y →
        deadlineWord tx.data y.wordOffsetBytes =
          some x.recoveryAuthorization.deadlineRefresh.newDeadline := by
  have hceilings : ∀ t ∈ (boundOperator env x).R.steps, t.gasCeilings.isSome = true := by
    intro t ht
    obtain ⟨c,-,rfl⟩ := List.mem_map.mp ht
    rfl
  obtain ⟨hchain,t,rfl,hfresh⟩ := guarded_reachable hceilings hp _ _ _ _ hlog
  have hstep : x.recoveryAuthorization.immediate[k]?.map CanonicalTx.step = some t := by
    rw [← List.getElem?_map]
    exact hfresh.step
  obtain ⟨c,hc,rfl⟩ := Option.map_eq_some_iff.mp hstep
  obtain ⟨hindex,hnonce,htester,hdeployer⟩ := bound_signable h hc
  obtain ⟨timestamp,hhead,htime⟩ := hfresh.time
  obtain ⟨e,he,hlt⟩ := htime.expiry
  obtain rfl : x.recoveryAuthorization.deadlineRefresh.newDeadline = e :=
    Option.some.inj ((bound_expiry h).symm.trans he)
  have hR := bound_runtime h
  have htester' : c.step.signer = R.tester := by
    rw [hR]
    exact htester
  refine ⟨c,timestamp,hc,hindex,rfl,hnonce,htester',?_,hchain,?_,hhead,hlt,fun y hy =>
    (htime.deadline y hy).1⟩
  · rw [hR]
    exact hdeployer
  · rw [← htester']
    exact hfresh.account

end Bound

def samplePage : WatchedPage :=
  Machine.run (Page.exec watch sampleOperator.app) (Page.blank Storage.empty) sampleActions

/-- What the observer saw before the first step was sent. -/
def sampleSeen : List Seen :=
  [.chain 4663,.accounts [8],.chain 4663,.accounts [8],.chain 4663,.accounts [8],
    .head 1784968500,.head 1784968500,.chain 4663,.chain 4663]

def sampleSent : SendTx := Runtime.buildSendTx (sampleRemaining 0).canonical.step

theorem sampleRun_guarded : ∃ t timestamp,
    (sampleInputs (15*10^15)).recoveryAuthorization.immediate[0]? = some t ∧
      t.originalIndex = 0+14 ∧ sampleSent = Runtime.buildSendTx t.step ∧
      sampleSent.nonce = 0+2 ∧ sampleSent.source = 8 ∧ sampleSent.source ≠ 7 ∧
      (View.of sampleSeen).chain = some 4663 ∧
      (∃ rest, (View.of sampleSeen).accounts = some (8::rest)) ∧
      (View.of sampleSeen).head = some timestamp ∧ timestamp < sampleDeadline ∧
      ∀ y, sampleOperator.refreshOf 0 = some y →
        deadlineWord sampleSent.data y.wordOffsetBytes = some sampleDeadline := by
  have hlog : samplePage.log = sampleSeen ++ .sent 0 sampleSent::[.chain 4663] := by
    decide +kernel
  exact recovery_sends_guarded sampleChain_bound
    (⟨_,sampleActions,rfl,rfl⟩ : WatchedReachable sampleOperator Storage.empty samplePage) hlog

end Recovery
end Canary
end BpsProtocol
