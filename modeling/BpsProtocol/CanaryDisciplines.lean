import BpsProtocol.CanaryOperatorOverlap

/-! Which disciplines keep the sends at most once.
A discipline may keep a send apart from other sends and from resolutions of the same instance, and
may let the calls of some methods go on where their instance is overtaken.  Each step is sent at
most once if and only if sends are kept apart from both and only `markConnected` goes on. -/
namespace BpsProtocol
namespace Canary

open Async

/-- The methods without their arguments. -/
inductive Kind
  | markConnected
  | preconditions
  | sendCurrent
  | verifyAfterHash
  | reconcile
  | resolveUncertainSend
  deriving DecidableEq

def Method.kind : Method → Kind
  | .markConnected => .markConnected
  | .preconditions _ => .preconditions
  | .sendCurrent _ => .sendCurrent
  | .verifyAfterHash _ => .verifyAfterHash
  | .reconcile => .reconcile
  | .resolveUncertainSend _ => .resolveUncertainSend

/-- The methods of the kinds `goesOn` go on where their instance is overtaken; no send starts on an
instance during another one (`alone`) or during a resolution (`apart`). -/
def disciplineOf (goesOn : Kind → Bool) (alone apart : Bool) : Discipline Rpc Method where
  silent := Silent
  isLocal m := goesOn m.kind
  sole m := alone && decide (m.kind = .sendCurrent)
  bars m := apart && decide (m.kind = .resolveUncertainSend)

instance (goesOn : Kind → Bool) (alone apart : Bool) :
    DecidablePred (disciplineOf goesOn alone apart).silent := inferInstanceAs (DecidablePred Silent)

theorem disciplineOf_admits {goesOn goesOn' : Kind → Bool} {alone alone' apart apart' : Bool}
    (hon : ∀ k, goesOn k = true → goesOn' k = true) (halone : alone' = true → alone = true)
    (hapart : apart' = true → apart = true) :
    (disciplineOf goesOn alone apart).Admits (disciplineOf goesOn' alone' apart') where
  silent := rfl
  isLocal m := hon m.kind
  sole m hm := by
    simp only [disciplineOf,Bool.and_eq_true] at hm ⊢
    exact ⟨halone hm.1,hm.2⟩
  bars m hm := by
    simp only [disciplineOf,Bool.and_eq_true] at hm ⊢
    exact .inr ⟨hapart hm.1,hm.2⟩

/-- Where only `markConnected` goes on and sends are kept apart, the runs are orderly. -/
theorem disciplineOf_admits_overlap {goesOn : Kind → Bool}
    (hon : ∀ k, goesOn k = true → k = .markConnected) :
    (disciplineOf goesOn true true).Admits overlap where
  silent := rfl
  isLocal m hm := by
    have hk := hon m.kind hm
    cases m <;> first | rfl | cases hk
  sole m hm := by
    cases m <;> first | rfl | cases hm
  bars m hm := by
    cases m <;> first | exact .inr rfl | cases hm

theorem Runtime.Orderly.admits {R : Runtime} {D D' : Discipline Rpc Method}
    {acts : List BrowserAction} (h : R.Orderly D acts) (hadmits : D.Admits D') : R.Orderly D' acts :=
  Browser.OrderlyRun.admits hadmits h

/-! ## What each freedom leads to -/

/-- The second step is sent from a new tab. -/
def secondPrompt (tab : ℕ) : List BrowserAction := [.load] ++ prepared 1 tab ++ prompted 1 tab tab

/-- The hash of the first step cannot be recorded, and the send is uncertain. -/
def uncertainPrompt : List BrowserAction :=
  firstPrompt ++ [.answer 0 (sampleOracle 0) [.lost,.confirmed]]

/-- The uncertain send is resolved with the hash of the first step. -/
def resolved (tab job : ℕ) : List BrowserAction :=
  [.call tab job (.resolveUncertainSend (sampleHashOf 0)) []] ++ jobAnswers 1 job 2

/-- Two resolutions overlap, and the later one clears the intent of a send in between. -/
def resolvedTwice : List BrowserAction :=
  uncertainPrompt ++ [.call 0 1 (.resolveUncertainSend (sampleHashOf 0)) []] ++ resolved 0 2 ++
    prompted 1 0 0 ++ jobAnswers 1 1 2 ++ secondPrompt 1

/-- Two tabs are loaded with the first step pending.  One verifies it and sends the next one. -/
def pendingTabs : List BrowserAction :=
  firstPrompt ++ jobAnswers 0 0 1 ++ [.load,.load,.call 2 2 .markConnected []] ++
    jobAnswers 1 2 2 ++ prepared 1 1 ++ prompted 1 1 1

/-- The other tab verifies the first step, too, and clears the intent of the second one. -/
def staleReconcile : List BrowserAction :=
  pendingTabs ++ [.call 2 2 .reconcile []] ++ jobAnswers 1 2 5 ++ secondPrompt 3

def staleVerify : List BrowserAction :=
  pendingTabs ++ [.call 2 2 (.verifyAfterHash (sampleHashOf 0)) []] ++ jobAnswers 1 2 5 ++
    secondPrompt 3

/-- Two tabs resolve the first step, and the second one does it after the next send. -/
def staleResolve : List BrowserAction :=
  uncertainPrompt ++ [.load,.load] ++ resolved 1 1 ++ prepared 1 1 ++ prompted 1 1 1 ++
    resolved 2 2 ++ secondPrompt 3

/-- A check that fails late stores a halt on the first step again, which is then resolved while the
second one is sent. -/
def staleHalt : List BrowserAction :=
  [.load] ++ prepared 0 0 ++ [.call 0 5 (.preconditions 500) []] ++ prompted 0 0 0 ++
    [.answer 0 (sampleOracle 0) [.lost,.confirmed],.load] ++ resolved 1 1 ++ prepared 1 1 ++
    prompted 1 1 1 ++ jobAnswers 1 5 16 ++ [.load] ++ resolved 2 2 ++ prepared 1 2 ++ prompted 1 2 2

/-- A run that uses one kind of freedom and sends a step twice. -/
structure SendsAgain (goesOn : Kind → Bool) (alone apart : Bool) (acts : List BrowserAction) :
    Prop where
  orderly : sampleRuntime.Orderly (disciplineOf goesOn alone apart) acts
  again : ¬AtMostOnce (sampleRuntime.browse acts).log

/-- The runs whose second send is the last event. -/
theorem SendsAgain.of_log {goesOn : Kind → Bool} {alone apart : Bool} {acts : List BrowserAction}
    (l : List SendEvent) (k : ℕ) (J J' : List (Option Entry))
    (horderly : Browser.isOrderlyRun (disciplineOf goesOn alone apart) sends sampleRuntime.app 6 []
      (Browser.blank Storage.empty) acts = true)
    (hlog : (sampleRuntime.browse acts).log = l ++ [.invoked k J,.invoked k J']) :
    SendsAgain goesOn alone apart acts :=
  ⟨Runtime.orderly_of_isOrderlyRun horderly,hlog ▸ not_atMostOnce_again l k J J'⟩

/-- The journal with the first step. -/
abbrev firstJournal : List (Option Entry) := [some (sampleRuntime.entryOf 0 (sampleHashOf 0))]

theorem overlappingCalls_again : SendsAgain (fun _ => false) false true overlappingCalls :=
  .of_log [] 0 [] [] (by decide +kernel) overlappingCalls_log

theorem resolvedTwice_again : SendsAgain (fun _ => false) true false resolvedTwice :=
  .of_log [.invoked 0 []] 1 firstJournal firstJournal (by decide +kernel) (by decide +kernel)

/-- Every method but `markConnected` sends again where it goes on. -/
theorem stale_again (k : Kind) (hk : k ≠ .markConnected) :
    ∃ acts, SendsAgain (fun k' => decide (k' = k)) true true acts := by
  have htwice : ∀ acts, Browser.isOrderlyRun (disciplineOf (fun k' => decide (k' = k)) true true)
      sends sampleRuntime.app 6 [] (Browser.blank Storage.empty) acts = true →
      (sampleRuntime.browse acts).log =
        [.invoked 0 []] ++ [.invoked 1 firstJournal,.invoked 1 firstJournal] →
      ∃ acts, SendsAgain (fun k' => decide (k' = k)) true true acts := fun acts horderly hlog =>
    ⟨acts,.of_log _ _ _ _ horderly hlog⟩
  cases k with
  | markConnected => exact absurd rfl hk
  | preconditions => exact htwice staleHalt (by decide +kernel) (by decide +kernel)
  | sendCurrent => exact ⟨twoTabs,.of_log [] 0 [] [] (by decide +kernel) twoTabs_log⟩
  | verifyAfterHash => exact htwice staleVerify (by decide +kernel) (by decide +kernel)
  | reconcile => exact htwice staleReconcile (by decide +kernel) (by decide +kernel)
  | resolveUncertainSend => exact htwice staleResolve (by decide +kernel) (by decide +kernel)

/-! ## The disciplines that suffice -/

/-- A discipline suffices if and only if it keeps sends apart from sends and resolutions, and lets
only `markConnected` go on where an instance is overtaken. -/
theorem discipline_suffices_iff (goesOn : Kind → Bool) (alone apart : Bool) :
    (∀ (R : Runtime) (acts : List BrowserAction), R.Orderly (disciplineOf goesOn alone apart) acts →
      AtMostOnce (R.browse acts).log) ↔
      alone = true ∧ apart = true ∧ ∀ k, goesOn k = true → k = .markConnected := by
  constructor
  · intro h
    have hrefute : ∀ goesOn' alone' apart' acts, SendsAgain goesOn' alone' apart' acts →
        ¬(disciplineOf goesOn' alone' apart').Admits (disciplineOf goesOn alone apart) :=
      fun _ _ _ acts hagain hadmits =>
        hagain.again (h sampleRuntime acts (hagain.orderly.admits hadmits))
    refine ⟨?_,?_,fun k hk => ?_⟩
    · by_contra hn
      exact hrefute _ _ _ _ overlappingCalls_again
        (disciplineOf_admits nofun (fun hm => absurd hm hn) fun _ => rfl)
    · by_contra hn
      exact hrefute _ _ _ _ resolvedTwice_again
        (disciplineOf_admits nofun (fun _ => rfl) fun hm => absurd hm hn)
    · by_contra hne
      obtain ⟨acts,hagain⟩ := stale_again k hne
      exact hrefute _ _ _ _ hagain
        (disciplineOf_admits (fun k' hk' => of_decide_eq_true hk' ▸ hk) (fun _ => rfl) fun _ => rfl)
  · rintro ⟨rfl,rfl,hon⟩ R acts h
    exact (h.admits (disciplineOf_admits_overlap hon)).recoverable.once

end Canary
end BpsProtocol
