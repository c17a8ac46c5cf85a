import Sncpp.KeyMap
import Sncpp.Steps
/-!
# Conhash — the consistent hash

`lua-conhash` of the login server.  A node stands on the circle at as many places as it has replicas, each at the digest
of its name and the replica's index, where no other node stands already; an object belongs to the node at the first place
from its own digest on.  The red-black tree of the places is a list in the order of the digests.  Names are the kingdoms'
ids.
-/
namespace Sncpp

structure Digest where
  replica : Nat → Nat → Nat
  object : String → Nat

def flat : Digest := ⟨fun _ _ => 0, fun _ => 0⟩

structure Conhash where
  tbl : List (Nat × Nat)
  vnode : List (Nat × Nat)

namespace Conhash

def new : Conhash := ⟨[], []⟩

variable (md : Digest) (c : Conhash)

def nodes : List Nat := c.tbl.map Prod.fst

def addnode (name replicas : Nat) : Conhash :=
  match c.tbl.lookup name with
  | some _ => c
  | none => ⟨c.tbl ++ [(name, replicas)],
      (List.range replicas).foldl (fun vnode i => KeyMap.emplace (md.replica name i) name vnode) c.vnode⟩

def deletenode (name : Nat) : Conhash :=
  match c.tbl.lookup name with
  | none => c
  | some replicas => ⟨c.tbl.filter (fun e => e.1 != name),
      (List.range replicas).foldl (fun vnode i =>
        vnode.filter (fun e => !(e.1 == md.replica name i && e.2 == name))) c.vnode⟩

def lookup (key : String) : Option Nat :=
  (((c.vnode.find? (fun e => md.object key ≤ e.1)).or c.vnode.head?).map Prod.snd).filter (fun name =>
    (c.tbl.lookup name).isSome)

theorem mem_nodes {name : Nat} : name ∈ c.nodes ↔ (c.tbl.lookup name).isSome = true := by
  unfold nodes
  rw [← not_iff_not, Bool.not_eq_true, Option.isSome_eq_false_iff, Option.isNone_iff_eq_none, List.lookup_eq_none_iff]
  simp only [List.mem_map, not_exists, not_and, bne_iff_ne]
  exact ⟨fun h e he heq => h e he heq.symm, fun h e he heq => h e he heq.symm⟩

theorem nodes_addnode (name replicas k : Nat) : k ∈ (c.addnode md name replicas).nodes ↔ k ∈ c.nodes ∨ k = name := by
  unfold addnode
  split
  · next r hr =>
    refine ⟨Or.inl, fun h => h.elim id ?_⟩
    rintro rfl
    rw [mem_nodes, hr]
    rfl
  · unfold nodes
    simp

theorem nodes_deletenode (name k : Nat) : k ∈ (c.deletenode md name).nodes ↔ k ∈ c.nodes ∧ k ≠ name := by
  unfold deletenode
  split
  · next hr =>
    refine ⟨fun h => ⟨h, ?_⟩, And.left⟩
    rintro rfl
    rw [mem_nodes, hr] at h
    cases h
  · unfold nodes
    simp only [List.mem_map, List.mem_filter, bne_iff_ne]
    constructor
    · rintro ⟨e, ⟨he, hne⟩, rfl⟩
      exact ⟨⟨e, he, rfl⟩, hne⟩
    · rintro ⟨⟨e, he, rfl⟩, hne⟩
      exact ⟨e, ⟨he, hne⟩, rfl⟩

theorem nodes_addnodes (names : List Nat) (replicas k : Nat) :
    k ∈ (names.foldl (fun c name => c.addnode md name replicas) c).nodes ↔ k ∈ c.nodes ∨ k ∈ names := by
  induction names generalizing c with
  | nil => simp
  | cons name names ih => rw [List.foldl_cons, ih, nodes_addnode, List.mem_cons, or_assoc]

theorem nodes_deletenodes (names : List Nat) (k : Nat) :
    k ∈ (names.foldl (deletenode md) c).nodes ↔ k ∈ c.nodes ∧ k ∉ names := by
  induction names generalizing c with
  | nil => simp
  | cons name names ih => rw [List.foldl_cons, ih, nodes_deletenode, List.mem_cons, not_or, and_assoc]

end Conhash
end Sncpp
