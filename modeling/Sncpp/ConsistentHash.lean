import Sncpp.KeyMap
import Sncpp.Steps
/-!
# ConsistentHash — which node an object is mapped to (`consistentHash.lua`)

A node stands on the circle at the hashes of its virtual nodes, and an object is mapped to the node at the next place
after its own hash.  Adding a node writes its places, whoever stands there, and removing it clears them, whoever
stands there by then.

The tree map is the list of its entries in the order of their keys.
-/
namespace Sncpp
namespace ConsistentHash

variable {H : Type} [LinearOrder H] (getHash : String → H)

@[irreducible] def VIRTUAL_COPIES : Nat := 1024

def places (nodeId : String) : List H :=
  (List.range' 1 VIRTUAL_COPIES).map (fun idx => getHash (nodeId ++ "#" ++ toString idx))

def addPhysicalNode (nodeId : String) (virtualNodes : List (H × String)) : List (H × String) :=
  (places getHash nodeId).foldl (fun virtualNodes hash => KeyMap.put hash nodeId virtualNodes) virtualNodes

def removePhysicalNode (nodeId : String) (virtualNodes : List (H × String)) : List (H × String) :=
  (places getHash nodeId).foldl (fun virtualNodes hash => KeyMap.remove hash virtualNodes) virtualNodes

def getObjectNode (objectId : String) (virtualNodes : List (H × String)) : Option String :=
  (KeyMap.next (getHash objectId) virtualNodes).map Prod.snd

variable {vs vs' : List (H × String)} {n : String}

omit [LinearOrder H] in
theorem places_ne_nil (n : String) : places getHash n ≠ [] := by
  unfold places VIRTUAL_COPIES
  simp

theorem foldl_write {op : H → List (H × String) → List (H × String)} {w : Option String}
    (hop : ∀ k vs, KeyMap.Ordered vs → KeyMap.Ordered (op k vs) ∧
      ∀ a, (op k vs).lookup a = if a = k then w else vs.lookup a) :
    ∀ (hs : List H) (vs : List (H × String)), KeyMap.Ordered vs →
      KeyMap.Ordered (hs.foldl (fun vs hash => op hash vs) vs) ∧
        ∀ a, (hs.foldl (fun vs hash => op hash vs) vs).lookup a = if a ∈ hs then w else vs.lookup a
  | [], vs, h => ⟨h, fun a => by simp⟩
  | k :: hs, vs, h => by
    obtain ⟨hord, hlook⟩ := foldl_write hop hs _ (hop k vs h).1
    refine ⟨hord, fun a => ?_⟩
    rw [List.foldl_cons, hlook, (hop k vs h).2]
    by_cases ha : a ∈ hs
    · simp [ha]
    · by_cases hk : a = k
      · simp [hk]
      · simp [ha, hk]

theorem add_spec (h : KeyMap.Ordered vs) (n : String) : KeyMap.Ordered (addPhysicalNode getHash n vs) ∧
    ∀ a, (addPhysicalNode getHash n vs).lookup a = if a ∈ places getHash n then some n else vs.lookup a :=
  foldl_write (fun _ _ h => ⟨h.put, fun _ => KeyMap.lookup_put h⟩) _ vs h

theorem remove_spec (h : KeyMap.Ordered vs) (n : String) : KeyMap.Ordered (removePhysicalNode getHash n vs) ∧
    ∀ a, (removePhysicalNode getHash n vs).lookup a = if a ∈ places getHash n then none else vs.lookup a :=
  foldl_write (fun _ _ h => ⟨KeyMap.Ordered.remove h, fun _ => KeyMap.lookup_remove h⟩) _ vs h

theorem node_spec (h : KeyMap.Ordered vs) (hne : vs ≠ []) (o : String) :
    ∃ k v, getObjectNode getHash o vs = some v ∧ KeyMap.next (getHash o) vs = some (k, v) ∧ vs.lookup k = some v := by
  obtain ⟨k, v, heq, hlook, -⟩ := h.next_spec (a := getHash o) hne
  exact ⟨k, v, by rw [getObjectNode, heq]; rfl, heq, hlook⟩

theorem node_of_sub (h : KeyMap.Ordered vs) (h' : KeyMap.Ordered vs') (hsub : ∀ b, vs.lookup b ≠ none → vs'.lookup b ≠ none)
    {o : String} {k : H} {v : String} (hnext : KeyMap.next (getHash o) vs' = some (k, v)) (hk : vs.lookup k = some v) :
    getObjectNode getHash o vs = some v := by
  rw [getObjectNode, KeyMap.next_of_sub h h' hsub hnext hk]
  rfl

theorem add_moves (h : KeyMap.Ordered vs) (o : String) :
    getObjectNode getHash o (addPhysicalNode getHash n vs) = some n ∨
      getObjectNode getHash o (addPhysicalNode getHash n vs) = getObjectNode getHash o vs := by
  obtain ⟨hord, hadd⟩ := add_spec getHash h n
  obtain ⟨a, ha⟩ := List.exists_mem_of_ne_nil _ (places_ne_nil getHash n)
  have hne : addPhysicalNode getHash n vs ≠ [] := by
    intro hnil
    have hlook := hadd a
    rw [if_pos ha, hnil] at hlook
    cases hlook
  obtain ⟨k, v, heq, hnext, hlook⟩ := node_spec getHash hord hne o
  rw [hadd] at hlook
  by_cases hk : k ∈ places getHash n
  · rw [if_pos hk] at hlook
    exact .inl (heq.trans hlook.symm)
  · rw [if_neg hk] at hlook
    refine .inr (heq.trans (node_of_sub getHash h hord (fun b hb => ?_) hnext hlook).symm)
    rw [hadd]
    split
    · exact Option.some_ne_none n
    · exact hb

theorem remove_moves (h : KeyMap.Ordered vs) (hown : ∀ a ∈ places getHash n, ∀ v, vs.lookup a = some v → v = n) (o : String) :
    getObjectNode getHash o vs = some n ∨
      getObjectNode getHash o (removePhysicalNode getHash n vs) = getObjectNode getHash o vs := by
  obtain ⟨hord, hremove⟩ := remove_spec getHash h n
  by_cases hnil : vs = []
  · refine .inr ?_
    have hno : removePhysicalNode getHash n vs = [] := hord.eq_nil (fun a => by
      rw [hremove, hnil]
      split <;> rfl)
    rw [hno, hnil]
  · obtain ⟨k, v, heq, hnext, hlook⟩ := node_spec getHash h hnil o
    by_cases hk : k ∈ places getHash n
    · exact .inl (heq.trans (congrArg some (hown k hk v hlook)))
    · refine .inr ((node_of_sub getHash hord h (fun b hb => ?_) hnext ?_).trans heq.symm)
      · rw [hremove] at hb
        split at hb
        · exact absurd rfl hb
        · exact hb
      · rw [hremove, if_neg hk, hlook]

structure Circle (H : Type) where
  virtualNodes : List (H × String)
  live : List String

inductive Event where
  | addPhysicalNode (nodeId : String)
  | removePhysicalNode (nodeId : String)

namespace Circle

def new : Circle H := ⟨[], []⟩

def step (c : Circle H) : Event → Circle H
  | .addPhysicalNode nodeId => ⟨ConsistentHash.addPhysicalNode getHash nodeId c.virtualNodes, c.live ++ [nodeId]⟩
  | .removePhysicalNode nodeId =>
    ⟨ConsistentHash.removePhysicalNode getHash nodeId c.virtualNodes, c.live.filter (fun m => decide (m ≠ nodeId))⟩

def node (c : Circle H) (objectId : String) : Option String := getObjectNode getHash objectId c.virtualNodes

def Meant (c : Circle H) : Event → Prop
  | .addPhysicalNode nodeId => nodeId ∉ c.live
  | .removePhysicalNode nodeId => nodeId ∈ c.live

/-- **What an event should do**: there is a live node for each object as long as one is live, objects move only to the node
that is added and from the one that is removed, and a node that is added and removed leaves all objects where they were. -/
structure Right (c : Circle H) (e : Event) : Prop where
  found : (c.step getHash e).live ≠ [] → ∀ o, ∃ m ∈ (c.step getHash e).live, (c.step getHash e).node getHash o = some m
  added : ∀ n, e = .addPhysicalNode n → ∀ o, (c.step getHash e).node getHash o ≠ c.node getHash o →
    (c.step getHash e).node getHash o = some n
  removed : ∀ n, e = .removePhysicalNode n → ∀ o, (c.step getHash e).node getHash o ≠ c.node getHash o →
    c.node getHash o = some n
  undone : ∀ n, e = .addPhysicalNode n → ∀ o,
    ((c.step getHash e).step getHash (.removePhysicalNode n)).node getHash o = c.node getHash o

/-- **When it does.**  The node that is added shares no place with a live node. -/
def Apart (c : Circle H) : Event → Prop
  | .addPhysicalNode nodeId => ∀ m ∈ c.live, ∀ a ∈ places getHash nodeId, a ∉ places getHash m
  | .removePhysicalNode _ => True

structure Good (c : Circle H) : Prop where
  ordered : KeyMap.Ordered c.virtualNodes
  places : ∀ a m, c.virtualNodes.lookup a = some m ↔ m ∈ c.live ∧ a ∈ places getHash m

variable {getHash} {c : Circle H}

theorem good_new : (new : Circle H).Good getHash := ⟨List.Pairwise.nil, by simp [new]⟩

theorem Good.unique (h : c.Good getHash) {a : H} {m m' : String} (hm : m ∈ c.live) (hm' : m' ∈ c.live)
    (ha : a ∈ ConsistentHash.places getHash m) (ha' : a ∈ ConsistentHash.places getHash m') : m = m' :=
  Option.some.inj (((h.places a m).2 ⟨hm, ha⟩).symm.trans ((h.places a m').2 ⟨hm', ha'⟩))

theorem Good.step (h : c.Good getHash) {e : Event} (he : c.Meant e) (hapart : c.Apart getHash e) :
    (c.step getHash e).Good getHash := by
  cases e with
  | addPhysicalNode n =>
    obtain ⟨hord, hlook⟩ := add_spec getHash h.ordered n
    refine ⟨hord, fun a m => ?_⟩
    show (ConsistentHash.addPhysicalNode getHash n c.virtualNodes).lookup a = some m ↔ m ∈ c.live ++ [n] ∧ _
    rw [hlook, List.mem_append, List.mem_singleton]
    by_cases ha : a ∈ ConsistentHash.places getHash n
    · rw [if_pos ha]
      constructor
      · intro hm
        obtain rfl := Option.some.inj hm
        exact ⟨.inr rfl, ha⟩
      · rintro ⟨hm | rfl, ham⟩
        · exact absurd ham (hapart m hm a ha)
        · rfl
    · rw [if_neg ha, h.places]
      constructor
      · exact fun hm => ⟨.inl hm.1, hm.2⟩
      · rintro ⟨hm | rfl, ham⟩
        · exact ⟨hm, ham⟩
        · exact absurd ham ha
  | removePhysicalNode n =>
    obtain ⟨hord, hlook⟩ := remove_spec getHash h.ordered n
    refine ⟨hord, fun a m => ?_⟩
    show (ConsistentHash.removePhysicalNode getHash n c.virtualNodes).lookup a = some m ↔
      m ∈ c.live.filter (fun m => decide (m ≠ n)) ∧ _
    rw [hlook, List.mem_filter, decide_eq_true_eq]
    by_cases ha : a ∈ ConsistentHash.places getHash n
    · rw [if_pos ha]
      constructor
      · intro hm
        cases hm
      · rintro ⟨⟨hm, hne⟩, ham⟩
        exact absurd (h.unique hm he ham ha) hne
    · rw [if_neg ha, h.places]
      constructor
      · rintro ⟨hm, ham⟩
        exact ⟨⟨hm, fun heq => ha (heq ▸ ham)⟩, ham⟩
      · rintro ⟨⟨hm, -⟩, ham⟩
        exact ⟨hm, ham⟩

theorem Good.found (h : c.Good getHash) (hlive : c.live ≠ []) (o : String) : ∃ m ∈ c.live, c.node getHash o = some m := by
  obtain ⟨m, hm⟩ := List.exists_mem_of_ne_nil _ hlive
  obtain ⟨a, ha⟩ := List.exists_mem_of_ne_nil _ (places_ne_nil getHash m)
  have hne : c.virtualNodes ≠ [] := by
    intro hnil
    have hlook := (h.places a m).2 ⟨hm, ha⟩
    rw [hnil] at hlook
    cases hlook
  obtain ⟨k, v, heq, -, hlook⟩ := node_spec getHash h.ordered hne o
  exact ⟨v, ((h.places k v).1 hlook).1, heq⟩

theorem Good.right (h : c.Good getHash) {e : Event} (he : c.Meant e) (hapart : c.Apart getHash e) : Right getHash c e where
  found hlive o := (h.step he hapart).found hlive o
  added n heq o hne := by
    subst heq
    exact (add_moves getHash h.ordered o).resolve_right hne
  removed n heq o hne := by
    subst heq
    refine (remove_moves getHash h.ordered (fun a ha v hv => ?_) o).resolve_right hne
    obtain ⟨hm, hav⟩ := (h.places a v).1 hv
    exact h.unique hm he hav ha
  undone n heq o := by
    subst heq
    have hback : ∀ a, ((c.step getHash (.addPhysicalNode n)).step getHash (.removePhysicalNode n)).virtualNodes.lookup a =
        c.virtualNodes.lookup a := by
      intro a
      refine ((remove_spec getHash (add_spec getHash h.ordered n).1 n).2 a).trans ?_
      rw [(add_spec getHash h.ordered n).2]
      by_cases ha : a ∈ ConsistentHash.places getHash n
      · rw [if_pos ha]
        cases hlook : c.virtualNodes.lookup a with
        | none => rfl
        | some m => exact absurd ((h.places a m).1 hlook).2 (hapart m ((h.places a m).1 hlook).1 a ha)
      · rw [if_neg ha, if_neg ha]
    exact congrArg (getObjectNode getHash o)
      (((remove_spec getHash (add_spec getHash h.ordered n).1 n).1).ext h.ordered hback)

/-- **As long as no two live nodes share a place**, an object moves only to a node that is added and from one that is
removed. -/
theorem moved_of_run (es : List Event) (h : Steps.Along (step getHash) (fun c e => c.Meant e ∧ c.Apart getHash e) new es) :
    Steps.Along (step getHash) (Right getHash) new es :=
  Steps.Along.keep (I := Good getHash) (fun _ _ he hc => ⟨hc.step he.1 he.2, hc.right he.1 he.2⟩) es new good_new h

def inTurn : List Event := [.addPhysicalNode "1", .removePhysicalNode "1", .addPhysicalNode "2"]

theorem moved_of_inTurn : Steps.Along (step String.length) (Right String.length) new inTurn :=
  moved_of_run inTurn ⟨⟨by simp [new, Meant], by simp [new, Apart]⟩, ⟨by simp [new, step, Meant], trivial⟩,
    ⟨by simp [new, step, Meant], by simp [new, step, Apart]⟩, trivial⟩

/-- Everything is put at one place, and the second node is removed again: the first is live, and no object finds it. -/
theorem shared_lost : ¬ Steps.Along (step (fun _ => 0)) (Right (fun _ : String => (0 : Nat))) new
    [.addPhysicalNode "1", .addPhysicalNode "2", .removePhysicalNode "2"] := by
  intro h
  have hnil : (KeyMap.Ordered ([] : List (Nat × String))) := List.Pairwise.nil
  have h₁ := add_spec (fun _ : String => 0) hnil "1"
  have h₂ := add_spec (fun _ : String => 0) h₁.1 "2"
  have h₃ := remove_spec (fun _ : String => 0) h₂.1 "2"
  have hempty := h₃.1.eq_nil (fun a => by
    have hsame : places (fun _ : String => (0 : Nat)) "1" = places (fun _ => 0) "2" := rfl
    rw [h₃.2, h₂.2, h₁.2, hsame]
    split
    · rfl
    · rfl)
  obtain ⟨m, -, hm⟩ := h.2.2.1.found (by simp [new, step]) "object"
  have hnode : getObjectNode (fun _ => 0) "object" (removePhysicalNode (fun _ : String => 0) "2"
      (addPhysicalNode (fun _ => 0) "2" (addPhysicalNode (fun _ => 0) "1" []))) = some m := hm
  rw [hempty] at hnode
  cases hnode

end Circle
end ConsistentHash
end Sncpp
