import BpsProtocol.Erc20

/-! Two-step ownership, as the owned contracts inherit it. -/
namespace BpsProtocol
namespace Ownable

open Checked

structure Ownership where
  owner : Address
  pendingOwner : Address
  deriving DecidableEq

inductive Error
  | unauthorizedAccount (account : Address)
  deriving DecidableEq

def checkOwner (o : Ownership) (sender : Address) : Except Error Unit :=
  revertIf (o.owner ≠ sender) (.unauthorizedAccount sender)

def transferOwnership (o : Ownership) (sender newOwner : Address) : Except Error Ownership := do
  checkOwner o sender
  return { o with pendingOwner := newOwner }

def acceptOwnership (o : Ownership) (sender : Address) : Except Error Ownership := do
  revertIf (o.pendingOwner ≠ sender) (.unauthorizedAccount sender)
  return ⟨sender,0⟩

def renounceOwnership (o : Ownership) (sender : Address) : Except Error Ownership := do
  checkOwner o sender
  return ⟨0,0⟩

inductive Call
  | transferOwnership (newOwner : Address)
  | acceptOwnership
  | renounceOwnership

def Call.exec (sender : Address) : Call → Ownership → Except Error Ownership
  | transferOwnership newOwner, o => Ownable.transferOwnership o sender newOwner
  | acceptOwnership, o => Ownable.acceptOwnership o sender
  | renounceOwnership, o => Ownable.renounceOwnership o sender

@[simp] theorem checkOwner_eq_ok {o : Ownership} {sender : Address} {u : Unit} :
    checkOwner o sender = .ok u ↔ o.owner = sender := by
  simp [checkOwner]

/-- Only the owner or the pending owner changes the ownership. -/
theorem Call.exec_authorized {call : Call} {sender : Address} {o o' : Ownership}
    (h : call.exec sender o = .ok o') : o.owner = sender ∨ o.pendingOwner = sender := by
  cases call with
  | transferOwnership newOwner =>
    simp only [exec,Ownable.transferOwnership,bind_eq_ok,checkOwner_eq_ok,exists_const] at h
    exact Or.inl h.1
  | acceptOwnership =>
    simp only [exec,Ownable.acceptOwnership,bind_eq_ok,revertIf_eq_ok,exists_const] at h
    exact Or.inr (not_not.mp h.1)
  | renounceOwnership =>
    simp only [exec,Ownable.renounceOwnership,bind_eq_ok,checkOwner_eq_ok,exists_const] at h
    exact Or.inl h.1

end Ownable
end BpsProtocol
