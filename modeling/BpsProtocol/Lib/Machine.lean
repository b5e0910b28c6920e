import Mathlib.Data.List.Basic
import Mathlib.Order.Defs.PartialOrder

/-! Transactional state machines.
A machine executes one transaction at a time and a failing transaction reverts, so
it leaves the state as it was.  A run is the fold of a list of transactions.  An
invariant is proved for one successful transaction and holds of every run. -/
namespace BpsProtocol
namespace Machine

variable {σ τ ε : Type}

/-- The state after one transaction; a failing one changes nothing. -/
def commit (exec : σ → τ → Except ε σ) (s : σ) (tx : τ) : σ :=
  match exec s tx with
  | .ok s' => s'
  | .error _ => s

/-- The state after a list of transactions, oldest first. -/
def run (exec : σ → τ → Except ε σ) (s : σ) (txs : List τ) : σ :=
  txs.foldl (commit exec) s

def Reachable (init : σ → Prop) (exec : σ → τ → Except ε σ) (s : σ) : Prop :=
  ∃ s₀ txs, init s₀ ∧ run exec s₀ txs = s

variable {exec : σ → τ → Except ε σ} {s s' : σ} {tx : τ}

theorem commit_ok (h : exec s tx = .ok s') : commit exec s tx = s' := by
  simp [commit,h]

theorem commit_error {e : ε} (h : exec s tx = .error e) : commit exec s tx = s := by
  simp [commit,h]

@[simp] theorem run_nil (s : σ) : run exec s [] = s := rfl

@[simp] theorem run_cons (s : σ) (tx : τ) (txs : List τ) :
    run exec s (tx::txs) = run exec (commit exec s tx) txs := rfl

theorem run_append (s : σ) (txs txs' : List τ) :
    run exec s (txs ++ txs') = run exec (run exec s txs) txs' := by
  simp [run,List.foldl_append]

/-- What every successful transaction preserves, every commit preserves. -/
theorem commit_preserves {I : σ → Prop}
    (hstep : ∀ s tx s', I s → exec s tx = .ok s' → I s')
    (hs : I s) : I (commit exec s tx) := by
  unfold commit
  split
  · exact hstep _ _ _ hs ‹_›
  · exact hs

/-- The run rule: an invariant of the successful transactions holds along every run. -/
theorem run_preserves {I : σ → Prop}
    (hstep : ∀ s tx s', I s → exec s tx = .ok s' → I s')
    (hs : I s) (txs : List τ) : I (run exec s txs) := by
  induction txs generalizing s with
  | nil => exact hs
  | cons tx txs ih => exact ih (commit_preserves hstep hs)

theorem Reachable.invariant {init I : σ → Prop}
    (hinit : ∀ s, init s → I s)
    (hstep : ∀ s tx s', I s → exec s tx = .ok s' → I s')
    (h : Reachable init exec s) : I s := by
  obtain ⟨s₀,txs,h₀,rfl⟩ := h
  exact run_preserves hstep (hinit s₀ h₀) txs

theorem Reachable.of_init {init : σ → Prop} (h : init s) : Reachable init exec s :=
  ⟨s,[],h,rfl⟩

theorem Reachable.run {init : σ → Prop} (h : Reachable init exec s) (txs : List τ) :
    Reachable init exec (run exec s txs) := by
  obtain ⟨s₀,txs₀,h₀,rfl⟩ := h
  exact ⟨s₀,txs₀ ++ txs,h₀,run_append s₀ txs₀ txs⟩

theorem Reachable.step {init : σ → Prop} (h : Reachable init exec s) (hs : exec s tx = .ok s') :
    Reachable init exec s' := by
  have hr := h.run [tx]
  rwa [run_cons,commit_ok hs] at hr

/-- The two-state run rule: a reflexive and transitive relation that every successful
transaction from an invariant state satisfies relates the ends of every run. -/
theorem run_related {I : σ → Prop} {R : σ → σ → Prop}
    (hrefl : ∀ s, R s s) (htrans : ∀ a b c, R a b → R b c → R a c)
    (hstep : ∀ s tx s', I s → exec s tx = .ok s' → I s' ∧ R s s')
    (hs : I s) (txs : List τ) : R s (run exec s txs) := by
  induction txs generalizing s with
  | nil => exact hrefl s
  | cons tx txs ih =>
    have hc : I (commit exec s tx) :=
      commit_preserves (fun a t b ha hb => (hstep a t b ha hb).1) hs
    refine htrans _ _ _ ?_ (ih hc)
    unfold commit
    split
    · exact (hstep _ _ _ hs ‹_›).2
    · exact hrefl s

/-- Every transaction of the run meets a condition in the state that it finds. -/
def Throughout (exec : σ → τ → Except ε σ) (C : σ → τ → Prop) : σ → List τ → Prop
  | _, [] => True
  | s, tx::txs => C s tx ∧ Throughout exec C (commit exec s tx) txs

/-- The conditional run rule: what the transactions that meet the condition preserve holds
along every run whose transactions all meet it. -/
theorem run_preserves_throughout {I : σ → Prop} {C : σ → τ → Prop}
    (hstep : ∀ s tx s', I s → C s tx → exec s tx = .ok s' → I s')
    (hs : I s) {txs : List τ} (h : Throughout exec C s txs) : I (run exec s txs) := by
  induction txs generalizing s with
  | nil => exact hs
  | cons tx txs ih =>
    refine ih ?_ h.2
    unfold commit
    split
    · exact hstep _ _ _ hs h.1 ‹_›
    · exact hs

/-- Every transaction of the run succeeds. -/
def AllSucceed (exec : σ → τ → Except ε σ) (s : σ) (txs : List τ) : Prop :=
  Throughout exec (fun s tx => ∃ s', exec s tx = .ok s') s txs

@[simp] theorem allSucceed_nil (s : σ) : AllSucceed exec s [] := trivial

theorem allSucceed_ok {txs : List τ} (h : exec s tx = .ok s') :
    AllSucceed exec s (tx::txs) ↔ AllSucceed exec s' txs := by
  simp [AllSucceed,Throughout,commit_ok h,h]

theorem allSucceed_error {e : ε} {txs : List τ} (h : exec s tx = .error e) :
    ¬AllSucceed exec s (tx::txs) := by
  simp [AllSucceed,Throughout,h]

/-- A state that some run leads to. -/
def Runs (exec : σ → τ → Except ε σ) (s s' : σ) : Prop := ∃ txs, run exec s txs = s'

theorem Runs.refl (s : σ) : Runs exec s s := ⟨[],rfl⟩

theorem Runs.trans {s'' : σ} (h : Runs exec s s') (h' : Runs exec s' s'') : Runs exec s s'' := by
  obtain ⟨txs,rfl⟩ := h
  obtain ⟨txs',rfl⟩ := h'
  exact ⟨txs ++ txs',run_append s txs txs'⟩

theorem Runs.of_exec (tx : τ) (h : exec s tx = .ok s') : Runs exec s s' := ⟨[tx],commit_ok h⟩

theorem Reachable.runs {init : σ → Prop} (h : Reachable init exec s) (hr : Runs exec s s') :
    Reachable init exec s' := by
  obtain ⟨txs,rfl⟩ := hr
  exact h.run txs

variable {σ' τ' ε' : Type} {exec' : σ' → τ' → Except ε' σ'} (view : σ → σ')

/-- The simulation rule: if a machine sees each successful transaction of another one as a
run of its own, it sees their runs so. -/
theorem run_simulated {I : σ → Prop}
    (hstep : ∀ s tx s', I s → exec s tx = .ok s' → I s' ∧ Runs exec' (view s) (view s'))
    (hs : I s) (txs : List τ) : Runs exec' (view s) (view (run exec s txs)) :=
  run_related (R := fun a b => Runs exec' (view a) (view b)) (fun s => .refl (view s))
    (fun _ _ _ h h' => h.trans h') hstep hs txs

end Machine
end BpsProtocol
