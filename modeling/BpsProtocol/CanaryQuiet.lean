import BpsProtocol.CanaryOperator

/-! The parts of the canary operator that only look.
Everything but the sends, the storage writes and the field updates around them leaves the
instance, the storage and the record of sends as they are. -/
namespace BpsProtocol
namespace Canary

open Async

/-- A query that sends nothing. -/
def Silent (q : Query) : Prop := ¬ q.IsSend

instance : DecidablePred Silent
  | .sendTransaction _ _ => .isFalse fun h => h trivial
  | .chainId | .accounts | .getTransactionCount _ _ | .getCode _ | .getBlockByNumber
  | .getBalance _ | .call _ | .estimateGas _ | .price | .getTransactionByHash _
  | .getTransactionReceipt _ | .sleep => .isTrue id

theorem sends_issued (q : Query) (d : Storage) (h : Silent q) : sends.issued q d = [] := by
  cases q with
  | sendTransaction step tx => exact absurd trivial h
  | _ => rfl

theorem sends_answered (q : Query) (r : Except Failure (Answer q)) (h : Silent q) :
    sends.answered q r = [] := by
  cases q with
  | sendTransaction step tx => exact absurd trivial h
  | _ => rfl

abbrev Looks {α : Type} (p : Program α) : Prop := Quiet (I := Rpc) Silent p

namespace Looks

theorem bind {α β : Type} {p : Program α} {f : α → Program β} (hp : Looks p)
    (hf : ∀ a, Looks (f a)) : Looks (p >>= f) := Quiet.bind hp hf

theorem pure {α : Type} (a : α) : Looks (Pure.pure a) := trivial

theorem throw {α : Type} (e : Failure) : Looks (Prog.throw e : Program α) := trivial

theorem get_bind {α : Type} {f : Memory → Program α} (hf : ∀ s, Looks (f s)) :
    Looks (Prog.get >>= f) := hf

theorem ite {α : Type} {c : Prop} [Decidable c] {p p' : Program α} (h : Looks p)
    (h' : Looks p') : Looks (if c then p else p') := Quiet.ite h h'

theorem req {q : Query} (h : Silent q) : Looks (req q) := Quiet.await.mpr h

theorem tryReq {q : Query} (h : Silent q) : Looks (tryReq q) := Quiet.attempt.mpr h

theorem runCheck {α : Type} (c : Check α) : Looks (runCheck c) := by
  unfold Canary.runCheck
  split <;> trivial

theorem orFail {α : Type} (c : Check α) : Looks (orFail c) := by
  unfold Canary.orFail
  split <;> trivial

theorem allTrue {ps : List (Program Bool)} (h : ∀ p ∈ ps, Looks p) : Looks (allTrue ps) := by
  induction ps with
  | nil => trivial
  | cons p ps ih =>
    refine bind (h p (List.mem_cons_self ..)) fun b => ?_
    cases b with
    | false => trivial
    | true => exact ih fun p hp => h p (List.mem_cons_of_mem _ hp)

theorem inOrder {ps : List (Program (Except String Unit))} (h : ∀ p ∈ ps, Looks p) :
    Looks (inOrder ps) := by
  induction ps with
  | nil => trivial
  | cons p ps ih =>
    refine bind (h p (List.mem_cons_self ..)) fun r => ?_
    cases r with
    | ok _ => exact ih fun p hp => h p (List.mem_cons_of_mem _ hp)
    | error reason => trivial

end Looks

namespace Runtime

variable (R : Runtime)

theorem looks_assertChain : Looks assertChain :=
  .bind (.tryReq id) fun r => by
    cases r <;> trivial

theorem looks_boundaryHolds (t : Step) : Looks (boundaryHolds t) :=
  Looks.ite looks_assertChain trivial

theorem looks_pollReceipt (txHash : Text) (polls : ℕ) : Looks (pollReceipt txHash polls) := by
  induction polls with
  | zero => trivial
  | succ polls ih =>
    refine .bind (.req id) fun rc => ?_
    cases rc with
    | some rc => trivial
    | none => exact .bind (.req id) fun _ => ih

theorem looks_verifyTxAndReceipt (t : Option Step) (txHash : Text) :
    Looks (R.verifyTxAndReceipt t txHash) := by
  cases t with
  | none => trivial
  | some t =>
    refine .bind (looks_boundaryHolds t) fun holds => ?_
    cases holds with
    | false => trivial
    | true =>
      refine .bind (.req id) fun otx => ?_
      cases otx with
      | none => trivial
      | some otx =>
        refine .bind (.runCheck _) fun fields => ?_
        cases fields with
        | error reason => trivial
        | ok _ =>
          refine .bind (looks_pollReceipt txHash R.receiptPolls) fun rc => ?_
          cases rc with
          | none => trivial
          | some rc =>
            refine .bind (.runCheck _) fun mined => ?_
            cases mined <;> trivial

theorem looks_verifyStep (i : ℕ) (txHash : Text) (verifyText postText : String) :
    Looks (R.verifyStep i txHash verifyText postText) := by
  refine .bind (R.looks_verifyTxAndReceipt _ txHash) fun v => ?_
  cases v with
  | error reason => trivial
  | ok v =>
    refine .bind (.runCheck _) fun post => ?_
    cases post <;> trivial

theorem looks_call (target : Address) (sig : String) (args : List Bytes) :
    Looks (R.call target sig args) := .req id

theorem looks_callAddr (target : Address) (sig : String) (args : List Bytes) :
    Looks (R.callAddr target sig args) := .bind (R.looks_call target sig args) fun _ => .orFail _

theorem looks_reads (target : Address) (sig : String) (expected : Address) :
    Looks (R.reads target sig expected) :=
  .bind (R.looks_callAddr target sig []) fun _ => trivial

theorem looks_checkCode (t : Step) : Looks (R.checkCode t) :=
  Looks.ite
    (.bind (.orFail _) fun _ => .bind (.req id) fun _ => Looks.ite trivial trivial)
    trivial

theorem looks_checkSymbol : Looks R.checkSymbol :=
  .bind (.bind (R.looks_call _ _ _) fun _ => .bind (.orFail _) fun _ => trivial) fun _ => trivial

theorem looks_checkVault : Looks R.checkVault := by
  refine .bind (.allTrue fun p hp => ?_) fun _ => trivial
  simp only [List.mem_cons,List.not_mem_nil,or_false] at hp
  rcases hp with rfl | rfl <;> exact R.looks_reads _ _ _

theorem looks_checkStockVault : Looks R.checkStockVault := by
  refine .bind (.bind (R.looks_call _ _ _) fun _ => .bind (.orFail _) fun _ => trivial) fun nvda =>
    .bind (.allTrue fun p hp => ?_) fun _ => trivial
  simp only [List.mem_cons,List.not_mem_nil,or_false] at hp
  rcases hp with rfl | rfl | rfl
  · exact R.looks_reads _ _ _
  · exact R.looks_reads _ _ _
  · trivial

theorem looks_checkRouter : Looks R.checkRouter := by
  refine .bind (.allTrue fun p hp => ?_) fun _ => trivial
  simp only [List.mem_cons,List.not_mem_nil,or_false] at hp
  rcases hp with rfl | rfl | rfl | rfl <;> exact R.looks_reads _ _ _

theorem looks_checkPool : Looks R.checkPool := .bind (R.looks_callAddr _ _ _) fun _ => trivial

theorem looks_mintTokenId : Looks R.mintTokenId := by
  refine .bind (.orFail _) fun t => .get_bind fun s => .bind (.orFail _) fun j => ?_
  cases j with
  | none => trivial
  | some j =>
    refine .bind (.req id) fun rc => ?_
    cases rc <;> trivial

theorem looks_checkOwned (tid : ℕ) : Looks (R.checkOwned tid) := by
  refine .bind (R.looks_callAddr _ _ _) fun owner => .ite trivial ?_
  refine .bind (R.looks_call _ _ _) fun pos => ?_
  exact .bind (.orFail _) fun _ => .bind (.orFail _) fun _ => .bind (.orFail _) fun _ =>
    .bind (.orFail _) fun _ => .bind (.orFail _) fun _ => .bind (.orFail _) fun _ => trivial

theorem looks_positionToken (upto : ℕ) (mintRc : Option Receipt) :
    Looks (R.positionToken upto mintRc) := by
  cases mintRc with
  | none => exact R.looks_mintTokenId
  | some rc => exact .ite trivial R.looks_mintTokenId

theorem looks_checkPosition (upto : ℕ) (mintRc : Option Receipt) :
    Looks (R.checkPosition upto mintRc) := by
  refine .bind (R.looks_positionToken upto mintRc) fun tid => ?_
  cases tid with
  | none => trivial
  | some tid => exact R.looks_checkOwned tid

theorem looks_checkLockedPrincipal : Looks R.checkLockedPrincipal :=
  .bind (.bind (R.looks_call _ _ _) fun _ => .orFail _) fun _ => trivial

theorem looks_checkWhen {c : Bool} {p : Program (Except String Unit)} (h : Looks p) :
    Looks (checkWhen c p) := Looks.ite h trivial

theorem looks_cumulativeCheckpoint (upto : ℕ) (mintRc : Option Receipt) :
    Looks (R.cumulativeCheckpoint upto mintRc) := by
  refine .inOrder fun p hp => ?_
  rcases List.mem_append.mp hp with hcode | hp
  · obtain ⟨t,-,rfl⟩ := List.mem_map.mp hcode
    exact R.looks_checkCode t
  · simp only [List.mem_cons,List.not_mem_nil,or_false] at hp
    rcases hp with rfl | rfl | rfl | rfl | rfl | rfl | rfl
    · exact looks_checkWhen R.looks_checkSymbol
    · exact looks_checkWhen R.looks_checkVault
    · exact looks_checkWhen R.looks_checkStockVault
    · exact looks_checkWhen R.looks_checkRouter
    · exact looks_checkWhen R.looks_checkPool
    · exact looks_checkWhen (R.looks_checkPosition upto mintRc)
    · exact looks_checkWhen R.looks_checkLockedPrincipal

theorem looks_restartCheckpoint : Looks R.restartCheckpoint :=
  .get_bind fun _ => Looks.ite trivial (R.looks_cumulativeCheckpoint _ _)

theorem looks_dependenciesUnchanged (recs : List Dependency) :
    Looks (R.dependenciesUnchanged recs) := by
  induction recs with
  | nil => trivial
  | cons rec recs ih => exact .bind (.req id) fun _ => .bind ih fun _ => trivial

theorem looks_createEmpty (t : Step) : Looks (createEmpty t) :=
  Looks.ite (.bind (.orFail _) fun _ => .bind (.req id) fun _ => trivial) trivial

theorem looks_exposureGate : Looks R.exposureGate :=
  Looks.ite (.bind (.tryReq id) fun r => by cases r <;> trivial) trivial

theorem looks_gates (i : ℕ) (t : Step) (now : ℕ) : Looks (R.gates i t now) :=
  .bind (.req id) fun _ => .bind (.req id) fun _ => .bind (.req id) fun _ =>
    .bind (.req id) fun _ => .get_bind fun _ => .bind (R.looks_dependenciesUnchanged _) fun _ =>
    .bind (looks_createEmpty t) fun _ => .bind (.req id) fun _ => .bind (.req id) fun _ =>
    .bind (.tryReq id) fun _ => .bind (.tryReq id) fun _ => .bind R.looks_exposureGate fun _ =>
    trivial

end Runtime
end Canary
end BpsProtocol
