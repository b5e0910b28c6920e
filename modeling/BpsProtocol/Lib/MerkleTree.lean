import Mathlib.Data.List.Basic
import Mathlib.Data.List.Induction
import Mathlib.Tactic.Common

/-! Binary hash trees over an abstract node hash.
A proof is a list of siblings, from the leaf up.  Completeness needs the node hash to
commute; soundness needs that the finitely many pairs hashed by the tree and by the proof
do not collide and that leaves are not node hashes.  The shape of the tree is free. -/
namespace BpsProtocol
namespace MerkleTree

inductive Tree (H : Type)
  | leaf (hash : H)
  | node (left right : Tree H)
  deriving DecidableEq

variable {H : Type} (nodeHash : H → H → H)

namespace Tree

def root : Tree H → H
  | leaf h => h
  | node l r => nodeHash l.root r.root

def leaves : Tree H → List H
  | leaf h => [h]
  | node l r => l.leaves ++ r.leaves

/-- The pairs hashed by the internal nodes. -/
def pairs : Tree H → List (H × H)
  | leaf _ => []
  | node l r => (l.root nodeHash,r.root nodeHash)::(l.pairs ++ r.pairs)

/-- Every leaf, in order, with its siblings from the leaf up. -/
def openings : Tree H → List (H × List H)
  | leaf h => [(h,[])]
  | node l r =>
    l.openings.map (fun o => (o.1,o.2 ++ [r.root nodeHash])) ++
    r.openings.map (fun o => (o.1,o.2 ++ [l.root nodeHash]))

theorem openings_leaves (t : Tree H) : (t.openings nodeHash).map Prod.fst = t.leaves := by
  induction t with
  | leaf h => rfl
  | node l r ihl ihr =>
    simp only [openings,leaves,List.map_append,List.map_map,← ihl,← ihr]
    rfl

end Tree

def processProof (hash : H) (proof : List H) : H := proof.foldl nodeHash hash

/-- The pairs hashed while a proof is processed. -/
def proofPairs (hash : H) : List H → List (H × H)
  | [] => []
  | sibling::proof => (hash,sibling)::proofPairs (nodeHash hash sibling) proof

variable {nodeHash}

theorem processProof_append (hash : H) (proof proof' : List H) :
    processProof nodeHash hash (proof ++ proof') =
      processProof nodeHash (processProof nodeHash hash proof) proof' := by
  simp [processProof,List.foldl_append]

theorem proofPairs_append (hash : H) (proof proof' : List H) :
    proofPairs nodeHash hash (proof ++ proof') =
      proofPairs nodeHash hash proof ++
        proofPairs nodeHash (processProof nodeHash hash proof) proof' := by
  induction proof generalizing hash with
  | nil => rfl
  | cons x xs ih => simp [proofPairs,processProof,ih]

/-- Every opening of a tree leads to its root. -/
theorem processProof_opening (hcomm : ∀ a b, nodeHash a b = nodeHash b a) (t : Tree H) :
    ∀ o ∈ t.openings nodeHash, processProof nodeHash o.1 o.2 = t.root nodeHash := by
  induction t with
  | leaf h => simp [Tree.openings,Tree.root,processProof]
  | node l r ihl ihr =>
    intro o ho
    simp only [Tree.openings,List.mem_append,List.mem_map] at ho
    rcases ho with ⟨p,hp,rfl⟩ | ⟨p,hp,rfl⟩
    · rw [processProof_append,ihl p hp]
      rfl
    · rw [processProof_append,ihr p hp]
      exact hcomm _ _

section Branches

variable (nodeHash)

/-- Every subtree, the tree itself included, with its siblings up to the root. -/
def Tree.branches : Tree H → List (Tree H × List H)
  | leaf h => [(leaf h,[])]
  | node l r =>
    (node l r,[])::
      (l.branches.map (fun b => (b.1,b.2 ++ [r.root nodeHash])) ++
        r.branches.map (fun b => (b.1,b.2 ++ [l.root nodeHash])))

def Tree.size : Tree H → ℕ
  | leaf _ => 1
  | node l r => l.size+r.size+1

theorem Tree.self_mem_branches (t : Tree H) : (t,[]) ∈ t.branches nodeHash := by
  cases t <;> simp [Tree.branches]

/-- What is known of a subtree: it is smaller by the length of its branch, and it hashes
only what the whole tree hashes. -/
structure Tree.Below (u : Tree H) (proof : List H) (t : Tree H) : Prop where
  size : u.size+proof.length ≤ t.size
  pairs : ∀ p ∈ u.pairs nodeHash, p ∈ t.pairs nodeHash
  leaves : ∀ x ∈ u.leaves, x ∈ t.leaves
  opening : ∀ x, u = .leaf x → (x,proof) ∈ t.openings nodeHash

theorem Tree.below_of_mem_branches {t : Tree H} :
    ∀ b ∈ t.branches nodeHash, Below nodeHash b.1 b.2 t := by
  induction t with
  | leaf h =>
    intro b hb
    rw [Tree.branches,List.mem_singleton] at hb
    subst hb
    exact ⟨Nat.le_refl _,fun _ h => h,fun _ h => h,fun x hx => by simp [Tree.openings,Tree.leaf.inj hx]⟩
  | node l r ihl ihr =>
    intro b hb
    simp only [Tree.branches,List.mem_cons,List.mem_append,List.mem_map] at hb
    rcases hb with rfl | ⟨c,hc,rfl⟩ | ⟨c,hc,rfl⟩
    · exact ⟨Nat.le_refl _,fun _ h => h,fun _ h => h,fun x hx => nomatch hx⟩
    · have hl := ihl c hc
      refine ⟨?_,fun p hp => ?_,fun x hx => List.mem_append_left _ (hl.leaves x hx),fun x hx => ?_⟩
      · have := hl.size
        simp only [List.length_append,List.length_singleton,Tree.size]
        omega
      · simp [Tree.pairs,hl.pairs p hp]
      · simp only [Tree.openings,List.mem_append,List.mem_map]
        exact .inl ⟨(x,c.2),hl.opening x hx,rfl⟩
    · have hr := ihr c hc
      refine ⟨?_,fun p hp => ?_,fun x hx => List.mem_append_right _ (hr.leaves x hx),fun x hx => ?_⟩
      · have := hr.size
        simp only [List.length_append,List.length_singleton,Tree.size]
        omega
      · simp [Tree.pairs,hr.pairs p hp]
      · simp only [Tree.openings,List.mem_append,List.mem_map]
        exact .inr ⟨(x,c.2),hr.opening x hx,rfl⟩

theorem Tree.exists_pair_of_root (l r : Tree H) :
    ∃ p ∈ (Tree.node l r).pairs nodeHash,
      nodeHash p.1 p.2 = (Tree.node l r).root nodeHash :=
  ⟨(l.root nodeHash,r.root nodeHash),by simp [Tree.pairs],rfl⟩

/-- Two pairs hash to one value only if they are one unordered pair. -/
def Distinct (ps qs : List (H × H)) : Prop :=
  ∀ p ∈ ps, ∀ q ∈ qs, nodeHash p.1 p.2 = nodeHash q.1 q.2 → q = p ∨ q = p.swap

/-- The hashes of a proof collide neither with the nodes of the tree nor with its leaves. -/
structure Separate (t : Tree H) (hash : H) (proof : List H) : Prop where
  pairs : Distinct nodeHash (t.pairs nodeHash) (proofPairs nodeHash hash proof)
  leaves : ∀ x ∈ t.leaves, ∀ q ∈ proofPairs nodeHash hash proof, nodeHash q.1 q.2 ≠ x

/-- The pairs of the tree do not collide, and its leaves are not hashes of pairs. -/
structure Tree.Proper (t : Tree H) : Prop where
  pairs : Distinct nodeHash (t.pairs nodeHash) (t.pairs nodeHash)
  leaves : ∀ x ∈ t.leaves, ∀ q ∈ t.pairs nodeHash, nodeHash q.1 q.2 ≠ x

variable {nodeHash}

theorem Separate.below {t u : Tree H} {hash : H} {proof path : List H}
    (h : Separate nodeHash t hash proof) (hu : Tree.Below nodeHash u path t) :
    Separate nodeHash u hash proof where
  pairs := fun p hp => h.pairs p (hu.pairs p hp)
  leaves := fun x hx => h.leaves x (hu.leaves x hx)

/-- A proof of any length that leads to the root of a tree climbs one of its branches. -/
theorem exists_branch {t : Tree H} {hash : H} {proof : List H}
    (hsep : Separate nodeHash t hash proof)
    (h : processProof nodeHash hash proof = t.root nodeHash) :
    ∃ u, (u,proof) ∈ t.branches nodeHash ∧ u.root nodeHash = hash := by
  induction proof using List.reverseRecOn generalizing t with
  | nil => exact ⟨t,Tree.self_mem_branches nodeHash t,h.symm⟩
  | append_singleton proof sibling ih =>
    rw [processProof_append] at h
    obtain ⟨hpairs,hleaves⟩ := hsep
    rw [proofPairs_append] at hpairs hleaves
    have hlast : (processProof nodeHash hash proof,sibling) ∈
        proofPairs nodeHash hash proof ++
          proofPairs nodeHash (processProof nodeHash hash proof) [sibling] := by
      simp [proofPairs]
    cases t with
    | leaf x => exact absurd h (hleaves x (by simp [Tree.leaves]) _ hlast)
    | node l r =>
      -- the last pair is the root's pair, so the prefix leads to one of the two subtrees
      have hl : Separate nodeHash l hash proof :=
        ⟨fun p hp q hq => hpairs p (by simp [Tree.pairs,hp]) q (List.mem_append_left _ hq),
          fun x hx q hq => hleaves x (List.mem_append_left _ hx) q (List.mem_append_left _ hq)⟩
      have hr : Separate nodeHash r hash proof :=
        ⟨fun p hp q hq => hpairs p (by simp [Tree.pairs,hp]) q (List.mem_append_left _ hq),
          fun x hx q hq => hleaves x (List.mem_append_right _ hx) q (List.mem_append_left _ hq)⟩
      rcases hpairs (l.root nodeHash,r.root nodeHash) (by simp [Tree.pairs]) _ hlast h.symm
        with heq | heq
      · obtain ⟨u,hu,hroot⟩ := ih hl (Prod.mk.inj heq).1
        refine ⟨u,?_,hroot⟩
        simp only [Tree.branches,List.mem_cons,List.mem_append,List.mem_map]
        exact .inr (.inl ⟨(u,proof),hu,by rw [(Prod.mk.inj heq).2]⟩)
      · obtain ⟨u,hu,hroot⟩ := ih hr (Prod.mk.inj heq).1
        refine ⟨u,?_,hroot⟩
        simp only [Tree.branches,List.mem_cons,List.mem_append,List.mem_map]
        exact .inr (.inr ⟨(u,proof),hu,by rw [(Prod.mk.inj heq).2]⟩)

/-- From a hash that no node has, only a leaf's own siblings lead to the root. -/
theorem mem_openings_of_processProof {t : Tree H} {hash : H} {proof : List H}
    (hsep : Separate nodeHash t hash proof)
    (hstart : ∀ p ∈ t.pairs nodeHash, nodeHash p.1 p.2 ≠ hash)
    (h : processProof nodeHash hash proof = t.root nodeHash) :
    (hash,proof) ∈ t.openings nodeHash := by
  obtain ⟨u,hu,hroot⟩ := exists_branch hsep h
  have hbelow := Tree.below_of_mem_branches nodeHash _ hu
  cases u with
  | leaf x =>
    have hx : x = hash := hroot
    exact hbelow.opening hash (congrArg Tree.leaf hx)
  | node l r =>
    obtain ⟨p,hp,heq⟩ := Tree.exists_pair_of_root nodeHash l r
    exact absurd (heq.trans hroot) (hstart p (hbelow.pairs p hp))

/-- No proof leads from the root of a tree back to it. -/
theorem eq_nil_of_processProof_root {t : Tree H} {proof : List H}
    (hsep : Separate nodeHash t (t.root nodeHash) proof)
    (h : processProof nodeHash (t.root nodeHash) proof = t.root nodeHash) : proof = [] := by
  induction hn : t.size using Nat.strongRecOn generalizing t with
  | _ n ih =>
    obtain ⟨u,hu,hroot⟩ := exists_branch hsep h
    have hbelow := Tree.below_of_mem_branches nodeHash _ hu
    by_contra hne
    have hlt : u.size < n := by
      have hsize : u.size+proof.length ≤ t.size := hbelow.size
      have hpos := List.length_pos_iff.2 hne
      omega
    exact hne (ih u.size hlt (by rw [hroot]; exact hsep.below hbelow)
      (by rw [hroot]; exact h) rfl)

/-- One proof does not lead two hashes to one root. -/
theorem processProof_injective {x y : H} {proof : List H}
    (hdist : Distinct nodeHash (proofPairs nodeHash x proof) (proofPairs nodeHash y proof))
    (h : processProof nodeHash x proof = processProof nodeHash y proof) : x = y := by
  induction proof generalizing x y with
  | nil => exact h
  | cons sibling proof ih =>
    have hrest : Distinct nodeHash (proofPairs nodeHash (nodeHash x sibling) proof)
        (proofPairs nodeHash (nodeHash y sibling) proof) :=
      fun p hp q hq => hdist p (List.mem_cons_of_mem _ hp) q (List.mem_cons_of_mem _ hq)
    have hnode : nodeHash x sibling = nodeHash y sibling := ih hrest h
    rcases hdist (x,sibling) (by simp [proofPairs]) (y,sibling) (by simp [proofPairs]) hnode
      with heq | heq
    · exact (Prod.mk.inj heq).1.symm
    · have h' := Prod.mk.inj heq
      exact (h'.1.trans h'.2).symm

/-- A proof in a tree hashes only the tree's own pairs. -/
theorem proofPairs_opening (hcomm : ∀ a b, nodeHash a b = nodeHash b a) {t : Tree H} :
    ∀ o ∈ t.openings nodeHash, ∀ q ∈ proofPairs nodeHash o.1 o.2,
      q ∈ t.pairs nodeHash ∨ q.swap ∈ t.pairs nodeHash := by
  induction t with
  | leaf h => simp [Tree.openings,proofPairs]
  | node l r ihl ihr =>
    intro o ho q hq
    simp only [Tree.openings,List.mem_append,List.mem_map] at ho
    rcases ho with ⟨p,hp,rfl⟩ | ⟨p,hp,rfl⟩
    · rw [proofPairs_append,processProof_opening hcomm l p hp,List.mem_append] at hq
      rcases hq with hq | hq
      · rcases ihl p hp q hq with h | h
        · exact .inl (by simp [Tree.pairs,h])
        · exact .inr (by simp [Tree.pairs,h])
      · rw [proofPairs,proofPairs,List.mem_singleton] at hq
        exact .inl (by simp [Tree.pairs,hq])
    · rw [proofPairs_append,processProof_opening hcomm r p hp,List.mem_append] at hq
      rcases hq with hq | hq
      · rcases ihr p hp q hq with h | h
        · exact .inl (by simp [Tree.pairs,h])
        · exact .inr (by simp [Tree.pairs,h])
      · rw [proofPairs,proofPairs,List.mem_singleton] at hq
        exact .inr (by simp [Tree.pairs,hq])

theorem Tree.Proper.separate (hcomm : ∀ a b, nodeHash a b = nodeHash b a) {t : Tree H}
    (ht : t.Proper nodeHash) {hash : H} {proof : List H}
    (hq : ∀ q ∈ proofPairs nodeHash hash proof, q ∈ t.pairs nodeHash ∨ q.swap ∈ t.pairs nodeHash) :
    Separate nodeHash t hash proof where
  pairs := by
    intro p hp q hmem heq
    rcases hq q hmem with h | h
    · exact ht.pairs p hp q h heq
    · have hswap := ht.pairs p hp q.swap h (heq.trans (hcomm _ _))
      rcases hswap with h' | h'
      · exact .inr (by rw [← h',Prod.swap_swap])
      · exact .inl (by rw [← Prod.swap_swap q,h',Prod.swap_swap])
  leaves := by
    intro x hx q hmem
    rcases hq q hmem with h | h
    · exact ht.leaves x hx q h
    · have hne := ht.leaves x hx q.swap h
      rw [hcomm] at hne
      exact hne

/-- No proof of a leaf extends another past the root. -/
theorem Tree.Proper.openings_append (hcomm : ∀ a b, nodeHash a b = nodeHash b a) {t : Tree H}
    (ht : t.Proper nodeHash) {x : H} {proof extra : List H}
    (h : (x,proof) ∈ t.openings nodeHash) (h' : (x,proof ++ extra) ∈ t.openings nodeHash) :
    extra = [] := by
  have hroot := processProof_opening hcomm t _ h
  have hroot' := processProof_opening hcomm t _ h'
  have hpairs := proofPairs_opening hcomm _ h'
  simp only [processProof_append,proofPairs_append] at hroot hroot' hpairs
  rw [hroot] at hroot' hpairs
  exact eq_nil_of_processProof_root
    (ht.separate hcomm (fun q hq => hpairs q (List.mem_append_right _ hq))) hroot'

theorem exists_last_pair (nodeHash : H → H → H) (hash : H) {proof : List H} (h : proof ≠ []) :
    ∃ q ∈ proofPairs nodeHash hash proof,
      nodeHash q.1 q.2 = processProof nodeHash hash proof := by
  obtain ⟨init,last,rfl⟩ := (List.eq_nil_or_concat' proof).resolve_left h
  refine ⟨(processProof nodeHash hash init,last),?_,?_⟩
  · simp [proofPairs_append,proofPairs]
  · simp [processProof]

/-- No proof of a leaf extends another below the leaf. -/
theorem Tree.Proper.openings_prepend (hcomm : ∀ a b, nodeHash a b = nodeHash b a) {t : Tree H}
    (ht : t.Proper nodeHash) {x : H} {proof extra : List H} (hx : x ∈ t.leaves)
    (h : (x,proof) ∈ t.openings nodeHash) (h' : (x,extra ++ proof) ∈ t.openings nodeHash) :
    extra = [] := by
  by_contra hne
  have hroot := processProof_opening hcomm t _ h
  have hroot' := processProof_opening hcomm t _ h'
  have hpairs := proofPairs_opening hcomm _ h
  have hpairs' := proofPairs_opening hcomm _ h'
  simp only [processProof_append,proofPairs_append] at hroot hroot' hpairs hpairs'
  have hdist : Distinct nodeHash (proofPairs nodeHash x proof)
      (proofPairs nodeHash (processProof nodeHash x extra) proof) := by
    intro p hp q hq heq
    have hsep := ht.separate hcomm (fun q hq => hpairs' q (List.mem_append_right _ hq))
    rcases hpairs p hp with hmem | hmem
    · exact hsep.pairs p hmem q hq heq
    · have hswap := hsep.pairs p.swap hmem q hq ((hcomm _ _).trans heq)
      rw [Prod.swap_swap] at hswap
      exact hswap.symm
  have hstart := processProof_injective hdist (hroot.trans hroot'.symm)
  obtain ⟨q,hq,heq⟩ := exists_last_pair nodeHash x hne
  have hsep := ht.separate hcomm (fun q hq => hpairs' q (List.mem_append_left _ hq))
  exact hsep.leaves x hx q hq (heq.trans hstart.symm)

end Branches

end MerkleTree
end BpsProtocol
