import BpsProtocol.Lib.Tabs

/-! Disciplines of overlapping calls.
A discipline says which calls must not overlap on an instance.  An instance is overtaken once
another one has changed the store, or has asked for or was answered what the observer records.
A run is orderly where no call starts on an instance against the discipline, and an overtaken
instance changes nothing but itself. -/
namespace BpsProtocol
namespace Async

variable {I : Interface} {σ δ ε α M E : Type}

/-- How calls may overlap.  Of the sole methods at most one call runs on an instance, and none
starts while a call of a barring one runs there.  Local methods change their instance only, and ask
silent queries. -/
structure Discipline (I : Interface) (M : Type) where
  silent : I.Query → Prop
  isLocal : M → Bool
  sole : M → Bool
  bars : M → Bool

/-! ## Orderly runs -/

namespace Browser

variable {honest : (q : I.Query) → Except ε (I.Answer q) → Prop} (D : Discipline I M)

/-- The call of this number awaits an answer that the observer records. -/
def Loud (b : Browser I σ δ ε α M E) (job : ℕ) : Prop :=
  ∃ j, b.jobs job = some j ∧ ¬D.silent j.task.wait.query

/-- The step of a call from one browser to the next one overtakes the other instances. -/
def Overtakes (b b' : Browser I σ δ ε α M E) (job : ℕ) : Prop :=
  b'.durable ≠ b.durable ∨ b.Loud D job ∨ b'.Loud D job

/-- The instances that are overtaken after a step. -/
def overtaken (stale : ℕ → Prop) (b b' : Browser I σ δ ε α M E) : Action I ε M honest → ℕ → Prop
  | .load, t => stale t
  | .call tab job _ _, t => stale t ∨ (t ≠ tab ∧ t < b.tabs.length ∧ b.Overtakes D b' job)
  | .answer job _ _, t => stale t ∨
    ∃ j, b.jobs job = some j ∧ t ≠ j.tab ∧ t < b.tabs.length ∧ b.Overtakes D b' job

variable {D} in
theorem overtaken_answer {stale : ℕ → Prop} {b b' : Browser I σ δ ε α M E} {job : ℕ}
    {o : Oracle I ε honest} {writes : List Write} {j : Job I σ δ ε α M}
    (hj : b.jobs job = some j) :
    overtaken D stale b b' (.answer job o writes) = fun t =>
      stale t ∨ (t ≠ j.tab ∧ t < b.tabs.length ∧ b.Overtakes D b' job) := by
  funext t
  simp only [overtaken,hj,Option.some.injEq,exists_eq_left']

/-- The condition on the browser that an action finds. -/
def Orderly (stale : ℕ → Prop) (b : Browser I σ δ ε α M E) : Action I ε M honest → Prop
  | .load => True
  | .call tab _ m _ => (stale tab → D.isLocal m = true) ∧
    (D.sole m = true → ∀ n j, b.jobs n = some j → j.tab = tab →
      D.sole j.task.method = false ∧ D.bars j.task.method = false)
  | .answer job _ _ =>
    ∀ j, b.jobs job = some j → stale j.tab → D.isLocal j.task.method = true

/-- Every action that is not refused is orderly. -/
def OrderlyRun (mon : Monitor I δ ε E) (app : App I σ δ ε α M) :
    (ℕ → Prop) → Browser I σ δ ε α M E → List (Action I ε M honest) → Prop
  | _, _, [] => True
  | stale, b, a::as =>
    match exec mon app b a with
    | .ok b' => b.Orderly D stale a ∧ OrderlyRun mon app (overtaken D stale b b' a) b' as
    | .error _ => OrderlyRun mon app stale b as

end Browser

/-- The second discipline allows what the first one does. -/
structure Discipline.Admits (D D' : Discipline I M) : Prop where
  silent : D'.silent = D.silent
  isLocal : ∀ m, D.isLocal m = true → D'.isLocal m = true
  sole : ∀ m, D'.sole m = true → D.sole m = true
  bars : ∀ m, D'.bars m = true → D.sole m = true ∨ D.bars m = true

namespace Browser

section Admits

variable {honest : (q : I.Query) → Except ε (I.Answer q) → Prop} {D D' : Discipline I M}
  {mon : Monitor I δ ε E} {app : App I σ δ ε α M} {stale : ℕ → Prop} {b b' : Browser I σ δ ε α M E}

theorem overtaken_admits (h : D.Admits D') (a : Action I ε M honest) :
    overtaken D' stale b b' a = overtaken D stale b b' a := by
  have hloud : ∀ (c : Browser I σ δ ε α M E) job, c.Loud D' job = c.Loud D job := fun c job => by
    rw [Loud,Loud,h.silent]
  funext t
  cases a <;> simp only [overtaken,Overtakes,hloud]

theorem Orderly.admits (h : D.Admits D') {a : Action I ε M honest} (ha : b.Orderly D stale a) :
    b.Orderly D' stale a := by
  cases a with
  | load => trivial
  | call tab job m writes =>
    refine ⟨fun hover => h.isLocal m (ha.1 hover),fun hm n j hj htab => ?_⟩
    obtain ⟨hsole,hbars⟩ := ha.2 (h.sole m hm) n j hj htab
    refine ⟨?_,?_⟩
    · by_contra hs
      rw [h.sole _ (Bool.not_eq_false _ ▸ hs)] at hsole
      cases hsole
    · by_contra hb
      rcases h.bars _ (Bool.not_eq_false _ ▸ hb) with hs | hb
      · rw [hs] at hsole
        cases hsole
      · rw [hb] at hbars
        cases hbars
  | answer job o writes => exact fun j hj hover => h.isLocal _ (ha j hj hover)

theorem OrderlyRun.admits (h : D.Admits D') {as : List (Action I ε M honest)}
    (hrun : OrderlyRun D mon app stale b as) : OrderlyRun D' mon app stale b as := by
  induction as generalizing b stale with
  | nil => trivial
  | cons a as ih =>
    rw [OrderlyRun] at hrun ⊢
    cases hb : exec mon app b a with
    | ok b' =>
      rw [hb] at hrun
      refine ⟨hrun.1.admits h,?_⟩
      rw [overtaken_admits h]
      exact ih hrun.2
    | error e =>
      rw [hb] at hrun
      exact ih hrun

end Admits

section Settle

variable {mon : Monitor I δ ε E} {b : Browser I σ δ ε α M E} {tab job n : ℕ} {m : M}
  {outcome : Pause I σ δ ε α × σ × δ} {j : Job I σ δ ε α M}

@[simp] theorem settle_tabs : (settle mon b tab job m outcome).tabs = b.tabs.set tab outcome.2.1 := by
  obtain ⟨pause,s,d⟩ := outcome
  cases pause <;> rfl

@[simp] theorem settle_durable : (settle mon b tab job m outcome).durable = outcome.2.2 := by
  obtain ⟨pause,s,d⟩ := outcome
  cases pause <;> rfl

theorem settle_job_of_ne (hn : n ≠ job) :
    (settle mon b tab job m outcome).jobs n = b.jobs n := by
  obtain ⟨pause,s,d⟩ := outcome
  cases pause <;> exact Function.update_of_ne hn _ _

theorem settle_job_finished {r : Except ε α} {s : σ} {d : δ} :
    (settle mon b tab job m (.finished r,s,d)).jobs job = none := Function.update_self ..

theorem settle_job_waiting {w : Waiting I σ δ ε α} {s : σ} {d : δ} :
    (settle mon b tab job m (.waiting w,s,d)).jobs job = some ⟨tab,⟨m,w⟩⟩ := Function.update_self ..

end Settle

/-! ## Runs that are checked action by action -/

section Check

variable {mon : Monitor I δ ε E} {app : App I σ δ ε α M}
  {honest : (q : I.Query) → Except ε (I.Answer q) → Prop} (D : Discipline I M)
  {b b' : Browser I σ δ ε α M E} {stale : List ℕ} {N : ℕ}

/-- The condition on an action, where the job numbers stay below `N`. -/
def isOrderly (N : ℕ) (stale : List ℕ) (b : Browser I σ δ ε α M E) : Action I ε M honest → Bool
  | .load => true
  | .call tab job m _ => decide (job < N) && (!decide (tab ∈ stale) || D.isLocal m) &&
    (!D.sole m || (List.range N).all fun n => (b.jobs n).all fun j =>
      decide (j.tab ≠ tab) || !D.sole j.task.method && !D.bars j.task.method)
  | .answer job _ _ =>
    (b.jobs job).all fun j => !decide (j.tab ∈ stale) || D.isLocal j.task.method

variable {D} in
theorem orderly_of_isOrderly {a : Action I ε M honest} (hjobs : ∀ n, N ≤ n → b.jobs n = none)
    (h : isOrderly D N stale b a = true) : b.Orderly D (· ∈ stale) a := by
  cases a with
  | load => trivial
  | call tab job m writes =>
    simp only [isOrderly,Bool.and_eq_true,Bool.or_eq_true,Bool.not_eq_true',decide_eq_false_iff_not,
      List.all_eq_true,List.mem_range,Option.all_eq_true,decide_eq_true_eq] at h
    refine ⟨fun hover => h.1.2.resolve_left (not_not.2 hover),fun hm n j hj htab => ?_⟩
    have hn : n < N := by
      by_contra hn
      rw [hjobs n (Nat.not_lt.1 hn)] at hj
      cases hj
    have hfree := h.2.resolve_left (by rw [hm]; exact Bool.noConfusion) n hn j hj
    exact hfree.resolve_left (not_not.2 htab)
  | answer job o writes =>
    intro j hj hover
    simp only [isOrderly,Option.all_eq_true,Bool.or_eq_true,Bool.not_eq_true',
      decide_eq_false_iff_not] at h
    exact (h j hj).resolve_left (not_not.2 hover)

variable {D} in
theorem bounded_of_isOrderly {a : Action I ε M honest} (hjobs : ∀ n, N ≤ n → b.jobs n = none)
    (h : isOrderly D N stale b a = true) (hexec : exec mon app b a = .ok b') :
    ∀ n, N ≤ n → b'.jobs n = none := by
  intro n hn
  cases a with
  | load =>
    simp only [exec] at hexec
    split at hexec <;> cases hexec
    exact hjobs n hn
  | call tab job m writes =>
    simp only [isOrderly,Bool.and_eq_true,decide_eq_true_eq] at h
    simp only [exec] at hexec
    split at hexec <;> cases hexec
    rw [settle_job_of_ne (by omega)]
    exact hjobs n hn
  | answer job o writes =>
    simp only [exec] at hexec
    split at hexec
    · cases hexec
    · rename_i j hj
      split at hexec <;> cases hexec
      rw [settle_job_of_ne]
      · exact hjobs n hn
      · rintro rfl
        rw [hjobs n hn] at hj
        cases hj

variable [DecidablePred D.silent]

def isLoud (b : Browser I σ δ ε α M E) (job : ℕ) : Bool :=
  (b.jobs job).any fun j => !decide (D.silent j.task.wait.query)

variable {D} in
theorem isLoud_iff {job : ℕ} : isLoud D b job = true ↔ b.Loud D job := by
  simp [isLoud,Loud,Option.any_eq_true]

variable [DecidableEq δ]

/-- The instances that a step on one of them overtakes. -/
def overtakenBy (b b' : Browser I σ δ ε α M E) (tab job : ℕ) : List ℕ :=
  if decide (b'.durable ≠ b.durable) || isLoud D b job || isLoud D b' job then
    (List.range b.tabs.length).filter (· ≠ tab)
  else []

variable {D} in
theorem mem_overtakenBy {tab job t : ℕ} : t ∈ overtakenBy D b b' tab job ↔
    t ≠ tab ∧ t < b.tabs.length ∧ b.Overtakes D b' job := by
  unfold overtakenBy
  rw [Overtakes,← isLoud_iff,← isLoud_iff,← or_assoc]
  split_ifs with h
  all_goals simp only [Bool.or_eq_true,decide_eq_true_eq] at h
  · simp [h,and_comm]
  · simp [h]

def allOvertaken (stale : List ℕ) (b b' : Browser I σ δ ε α M E) : Action I ε M honest → List ℕ
  | .load => stale
  | .call tab job _ _ => stale ++ overtakenBy D b b' tab job
  | .answer job _ _ => stale ++ (b.jobs job).elim [] fun j => overtakenBy D b b' j.tab job

variable {D} in
theorem mem_allOvertaken {a : Action I ε M honest} :
    (fun t => t ∈ allOvertaken D stale b b' a) = overtaken D (· ∈ stale) b b' a := by
  funext t
  cases a with
  | load => rfl
  | call tab job m writes => simp only [allOvertaken,overtaken,List.mem_append,mem_overtakenBy]
  | answer job o writes =>
    cases hj : b.jobs job with
    | none => simp [allOvertaken,overtaken,hj]
    | some j => simp [allOvertaken,overtaken,hj,mem_overtakenBy]

def isOrderlyRun (mon : Monitor I δ ε E) (app : App I σ δ ε α M) (N : ℕ) :
    List ℕ → Browser I σ δ ε α M E → List (Action I ε M honest) → Bool
  | _, _, [] => true
  | stale, b, a::as =>
    match exec mon app b a with
    | .ok b' => isOrderly D N stale b a && isOrderlyRun mon app N (allOvertaken D stale b b' a) b' as
    | .error _ => isOrderlyRun mon app N stale b as

variable {D} in
theorem orderlyRun_of_isOrderlyRun {as : List (Action I ε M honest)}
    (hjobs : ∀ n, N ≤ n → b.jobs n = none) (h : isOrderlyRun D mon app N stale b as = true) :
    OrderlyRun D mon app (· ∈ stale) b as := by
  induction as generalizing b stale with
  | nil => trivial
  | cons a as ih =>
    rw [isOrderlyRun] at h
    rw [OrderlyRun]
    cases hb : exec mon app b a with
    | ok b' =>
      simp only [hb,Bool.and_eq_true] at h
      refine ⟨orderly_of_isOrderly hjobs h.1,?_⟩
      rw [← mem_allOvertaken]
      exact ih (bounded_of_isOrderly hjobs h.1 hb) h.2
    | error e =>
      simp only [hb] at h
      exact ih hjobs h

end Check

end Browser
end Async
end BpsProtocol
