import Mathlib.Algebra.Order.Group.Nat
import Sncpp.Links
/-!
# LinkList — the sorted linked list of the timers (`linkList`)

A node that is inserted goes before the first one that the comparison puts it before.  A node that is put in twice, or taken
out when it is not there, is only logged, so that the list stays a list whatever is asked of it.
-/
namespace Sncpp

open Links (write)

/-- A list with the links of the nodes, of those that are not in it as well. -/
structure LinkList where
  pre : ℕ → Option ℕ
  next : ℕ → Option ℕ
  firstNode : Option ℕ
  lastNode : Option ℕ
  size : Int

namespace LinkList

def new : LinkList := ⟨fun _ => none, fun _ => none, none, none, 0⟩

variable (l : LinkList) (comp : ℕ → ℕ → Bool)

def insertNodePre (newNode node : ℕ) : LinkList :=
  { l with
    next := write (Function.update l.next newNode (some node)) (l.pre node) (some newNode)
    pre := Function.update (Function.update l.pre newNode (l.pre node)) node (some newNode)
    firstNode := if l.pre node = none then some newNode else l.firstNode }

def insertNodeNext (newNode node : ℕ) : LinkList :=
  { l with
    next := Function.update (Function.update l.next newNode (l.next node)) node (some newNode)
    pre := write (Function.update l.pre newNode (some node)) (l.next node) (some newNode)
    lastNode := if l.next node = none then some newNode else l.lastNode }

def empty : Prop := l.firstNode = none ∧ l.size ≤ 0

instance : Decidable l.empty := inferInstanceAs (Decidable (_ ∧ _))

/-- What `insert` and the timers ask of a node, to know whether it is in the list. -/
def linked (node : ℕ) : Prop := l.pre node ≠ none ∨ l.next node ≠ none ∨ l.firstNode = some node

instance (node : ℕ) : Decidable (l.linked node) := inferInstanceAs (Decidable (_ ∨ _ ∨ _))

/-- The loop of `insert`: the node that it stops at, and whether the new one goes before it. -/
def seek (newNode : ℕ) : ℕ → ℕ → ℕ × Bool
  | 0, curNode => (curNode, false)
  | turns + 1, curNode =>
    if comp newNode curNode then (curNode, true)
    else
      match l.next curNode with
      | none => (curNode, false)
      | some next => seek newNode turns next

def insert (node : ℕ) : LinkList :=
  if l.linked node then l -- an exception is logged
  else if l.empty then { l with firstNode := some node, lastNode := some node, size := 1 }
  else
    match l.firstNode with
    | none => l -- it raises
    | some front =>
      let (curNode, isInsert) := l.seek comp node l.size.toNat front
      if isInsert then { l.insertNodePre node curNode with size := l.size + 1 }
      else { l.insertNodeNext node curNode with size := l.size + 1 }

def remove (node : ℕ) : LinkList :=
  let preNode := l.pre node
  let nextNode := l.next node
  let l := { l with pre := Function.update l.pre node none, next := Function.update l.next node none }
  match preNode, nextNode with
  | some preNode, some nextNode => { l with
      next := Function.update l.next preNode (some nextNode)
      pre := Function.update l.pre nextNode (some preNode)
      size := l.size - 1 }
  | some preNode, none => { l with
      next := Function.update l.next preNode none
      lastNode := some preNode
      size := l.size - 1 }
  | none, some nextNode => { l with
      pre := Function.update l.pre nextNode none
      firstNode := some nextNode
      size := l.size - 1 }
  | none, none =>
    if l.firstNode = some node then { l with firstNode := none, lastNode := none, size := l.size - 1 }
    else l -- an exception is logged

/-- **The list is a list of nodes**, with their number as its size; the others are not linked. -/
structure Holds (l : LinkList) (nodes : List ℕ) : Prop where
  links : Links l.next l.pre l.firstNode l.lastNode nodes
  size : l.size = nodes.length
  out : ∀ node, node ∉ nodes → l.pre node = none ∧ l.next node = none

theorem new_holds : Holds new [] := ⟨Links.nil _ _, rfl, fun _ _ => ⟨rfl, rfl⟩⟩

namespace Holds

variable {l : LinkList} {comp : ℕ → ℕ → Bool} {nodes xs ys : List ℕ} {node cur : ℕ}

theorem linked_iff (h : Holds l nodes) (node : ℕ) : l.linked node ↔ node ∈ nodes := by
  constructor
  · rintro (hpre | hnext | hfirst)
    · by_contra hnot
      exact hpre (h.out node hnot).1
    · by_contra hnot
      exact hnext (h.out node hnot).2
    · exact List.mem_of_head? (h.links.head.symm.trans hfirst)
  · intro hmem
    obtain ⟨xs, ys, rfl⟩ := List.append_of_mem hmem
    by_cases hpre : l.pre node = none
    · exact Or.inr (Or.inr (h.links.head_eq.2 hpre))
    · exact Or.inl hpre

theorem remove_eq (h : Holds l (xs ++ node :: ys)) : l.remove node =
    ⟨write (Function.update l.pre node none) (l.next node) (l.pre node),
     write (Function.update l.next node none) (l.pre node) (l.next node),
     if l.firstNode = some node then l.next node else l.firstNode,
     if l.lastNode = some node then l.pre node else l.lastNode, l.size - 1⟩ := by
  have hhead := h.links.head_eq
  have htail := h.links.tail_eq
  unfold LinkList.remove
  cases hpre : l.pre node with
  | none =>
    rw [if_pos (hhead.2 hpre)]
    cases hnext : l.next node with
    | none => simp only [Links.write_none, hhead.2 hpre, htail.2 hnext, if_true]
    | some n =>
      have hlast : l.lastNode ≠ some node := fun heq => by rw [htail.1 heq] at hnext; cases hnext
      simp only [Links.write_none, Links.write_some, if_neg hlast]
  | some p =>
    have hfirst : l.firstNode ≠ some node := fun heq => by rw [hhead.1 heq] at hpre; cases hpre
    rw [if_neg hfirst]
    cases hnext : l.next node with
    | none => simp only [Links.write_none, Links.write_some, htail.2 hnext, if_true]
    | some n =>
      have hlast : l.lastNode ≠ some node := fun heq => by rw [htail.1 heq] at hnext; cases hnext
      simp only [Links.write_some, if_neg hlast]

theorem remove_mid (h : Holds l (xs ++ node :: ys)) : Holds (l.remove node) (xs ++ ys) := by
  have hnot : node ∉ xs ++ ys := (List.nodup_middle.1 h.links.nodup).notMem
  have hpre : ∀ b, b ∉ xs ++ ys → l.pre node ≠ some b := fun b hb heq =>
    hb (List.mem_append_left ys (List.mem_of_getLast? (h.links.mid.1.symm.trans heq)))
  have hnext : ∀ b, b ∉ xs ++ ys → l.next node ≠ some b := fun b hb heq =>
    hb (List.mem_append_right xs (List.mem_of_head? (h.links.mid.2.symm.trans heq)))
  rw [h.remove_eq]
  refine ⟨h.links.cut.congr fun b hb => ?_, ?_, fun b hb => ?_⟩
  · have hbn : b ≠ node := fun heq => hnot (heq ▸ hb)
    simp only [write, Function.update_of_ne hbn, and_self]
  · have hsize := h.size
    rw [List.length_append, List.length_cons] at hsize
    simp only [hsize, List.length_append]
    omega
  · simp only [write, if_neg (hpre b hb), if_neg (hnext b hb), Function.update_apply]
    split
    · exact ⟨rfl, rfl⟩
    · next hbn => exact h.out b fun hmem => (List.mem_cons.1 (List.perm_middle.mem_iff.1 hmem)).elim hbn hb

theorem remove_of_notMem (h : Holds l nodes) (hnot : node ∉ nodes) : l.remove node = l := by
  have hfirst : l.firstNode ≠ some node := fun heq => hnot ((h.linked_iff node).1 (Or.inr (Or.inr heq)))
  obtain ⟨hpre, hnext⟩ := h.out node hnot
  have hpre' : Function.update l.pre node none = l.pre := by rw [← hpre, Function.update_eq_self]
  have hnext' : Function.update l.next node none = l.next := by rw [← hnext, Function.update_eq_self]
  simp only [LinkList.remove, hpre, hnext, if_neg hfirst, hpre', hnext']

theorem remove (h : Holds l nodes) (node : ℕ) : Holds (l.remove node) (nodes.erase node) := by
  by_cases hmem : node ∈ nodes
  · obtain ⟨xs, ys, rfl⟩ := List.append_of_mem hmem
    have hnot : node ∉ xs := fun hx => (List.nodup_middle.1 h.links.nodup).notMem (List.mem_append_left ys hx)
    rw [List.erase_append_right _ hnot, List.erase_cons_head]
    exact h.remove_mid
  · rwa [h.remove_of_notMem hmem, List.erase_of_not_mem hmem]

theorem insertNodePre (h : Holds l (xs ++ cur :: ys)) (hnot : node ∉ xs ++ cur :: ys) :
    Holds { l.insertNodePre node cur with size := l.size + 1 } (xs ++ node :: cur :: ys) := by
  refine ⟨h.links.before hnot, ?_, fun b hb => ?_⟩
  · have hsize := h.size
    simp only [List.length_append, List.length_cons] at hsize ⊢
    omega
  · simp only [List.mem_append, List.mem_cons, not_or] at hb
    obtain ⟨hxs, hbn, hbc, hys⟩ := hb
    have hpre : l.pre cur ≠ some b := fun heq => hxs (List.mem_of_getLast? (h.links.mid.1.symm.trans heq))
    simp only [LinkList.insertNodePre, write, if_neg hpre, Function.update_of_ne hbn, Function.update_of_ne hbc]
    exact h.out b (by simp [hxs, hbc, hys])

theorem insertNodeNext (h : Holds l (xs ++ [cur])) (hnot : node ∉ xs ++ [cur]) :
    Holds { l.insertNodeNext node cur with size := l.size + 1 } (xs ++ [cur, node]) := by
  refine ⟨h.links.after hnot, ?_, fun b hb => ?_⟩
  · have hsize := h.size
    simp only [List.length_append, List.length_cons, List.length_nil] at hsize ⊢
    omega
  · simp only [List.mem_append, List.mem_cons, List.not_mem_nil, or_false, not_or] at hb
    obtain ⟨hxs, hbc, hbn⟩ := hb
    have hnext : l.next cur = none := h.links.mid.2
    simp only [LinkList.insertNodeNext, hnext, Links.write_none, Function.update_of_ne hbn, Function.update_of_ne hbc]
    exact h.out b (by simp [hxs, hbc])

/-- The loop of `insert` stops at the first node that the new one goes before, or else at the last. -/
theorem seek_spec (comp : ℕ → ℕ → Bool) (node : ℕ) : ∀ (ys xs : List ℕ) {cur turns : ℕ},
    Holds l (xs ++ cur :: ys) → ys.length < turns → (∀ x ∈ xs, comp node x = false) →
    (∃ zs c ws, xs ++ cur :: ys = zs ++ c :: ws ∧ l.seek comp node turns cur = (c, true) ∧
      (∀ x ∈ zs, comp node x = false) ∧ comp node c = true) ∨
    (∃ zs c, xs ++ cur :: ys = zs ++ [c] ∧ l.seek comp node turns cur = (c, false) ∧
      ∀ x ∈ xs ++ cur :: ys, comp node x = false)
  | ys, xs, cur, 0, _, hturns, _ => absurd hturns (Nat.not_lt_zero _)
  | ys, xs, cur, turns + 1, h, hturns, hxs => by
    cases hcomp : comp node cur with
    | true => exact Or.inl ⟨xs, cur, ys, rfl, by simp [seek, hcomp], hxs, hcomp⟩
    | false =>
      have hall : ∀ x ∈ xs ++ [cur], comp node x = false := by
        intro x hx
        rcases List.mem_append.1 hx with hx | hx
        · exact hxs x hx
        · exact List.mem_singleton.1 hx ▸ hcomp
      have hnext := h.links.mid.2
      cases ys with
      | nil => exact Or.inr ⟨xs, cur, rfl, by simp [seek, hcomp, hnext], hall⟩
      | cons y ys =>
        have hseek : l.seek comp node (turns + 1) cur = l.seek comp node turns y := by
          simp [seek, hcomp, hnext]
        rw [hseek, List.append_cons]
        exact seek_spec comp node ys (xs ++ [cur]) (List.append_cons xs cur (y :: ys) ▸ h)
          (Nat.lt_of_succ_lt_succ hturns) hall

/-- **A node is put in**, behind all that it does not go before, and before one that it goes before. -/
theorem insert (h : Holds l nodes) (hnot : node ∉ nodes) (comp : ℕ → ℕ → Bool) : ∃ xs ys, nodes = xs ++ ys ∧
    Holds (l.insert comp node) (xs ++ node :: ys) ∧ (∀ x ∈ xs, comp node x = false) ∧
    ∀ y, ys.head? = some y → comp node y = true := by
  have hlinked : ¬l.linked node := fun hl => hnot ((h.linked_iff node).1 hl)
  rw [LinkList.insert, if_neg hlinked]
  cases nodes with
  | nil =>
    have hempty : l.empty := ⟨h.links.head, h.size.le⟩
    rw [if_pos hempty]
    refine ⟨[], [], rfl, ⟨?_, rfl, fun b _ => h.out b List.not_mem_nil⟩, by simp, by simp⟩
    obtain ⟨hpre, hnext⟩ := h.out node hnot
    exact ⟨List.nodup_singleton node, ⟨hpre, hnext, trivial⟩, rfl, rfl⟩
  | cons front rest =>
    have hfirst : l.firstNode = some front := h.links.head
    have hempty : ¬l.empty := fun he => by
      have hnone := he.1
      rw [hfirst] at hnone
      cases hnone
    have hturns : rest.length < l.size.toNat := by
      rw [h.size, List.length_cons]
      omega
    rw [if_neg hempty, hfirst]
    rcases seek_spec comp node rest [] h hturns (fun x hx => absurd hx List.not_mem_nil) with
      ⟨zs, c, ws, heq, hseek, hzs, hc⟩ | ⟨zs, c, heq, hseek, hall⟩
    · rw [List.nil_append] at heq
      rw [heq] at h hnot ⊢
      simp only [hseek, if_true]
      refine ⟨zs, c :: ws, rfl, h.insertNodePre hnot, hzs, fun y hy => ?_⟩
      rwa [← Option.some.inj hy]
    · rw [List.nil_append] at heq hall
      rw [heq] at h hnot hall ⊢
      simp only [hseek]
      refine ⟨zs ++ [c], [], (List.append_nil _).symm, ?_, hall, by simp⟩
      rw [List.append_assoc]
      exact h.insertNodeNext hnot

end Holds
end LinkList
end Sncpp
