import Mathlib.Data.List.Nodup
import Mathlib.Data.List.Perm.Basic
/-!
# Heap — a binary heap whose elements know their places

A vector of elements in which every element stands below its parent, and the place of each element, so that one whose value
has fallen can be moved up from where it is.  Moving up and down only changes places with a parent or a child: the heap has
the elements it was given (`add_perm`, `remove_spec`, `decreaseKey_perm`) and the places are right (`Placed`), whatever
the order is that they are compared by.
-/
namespace Sncpp

structure Heap (α : Type) where
  elts : List α
  key : α → Nat

namespace Heap

variable {α : Type} [DecidableEq α]

/-- Two elements change places. -/
def swap (h : Heap α) (i j : Nat) : Heap α :=
  match h.elts[i]?, h.elts[j]? with
  | some a, some b => ⟨(h.elts.set i b).set j a, Function.update (Function.update h.key b i) a j⟩
  | _, _ => h

theorem length_swap (h : Heap α) (i j : Nat) : (h.swap i j).elts.length = h.elts.length := by
  unfold swap
  split
  · simp
  · rfl

def heapifyUp (greater : α → α → Bool) (h : Heap α) (index : Nat) : Heap α :=
  if index = 0 then h
  else
    match h.elts[(index - 1) / 2]?, h.elts[index]? with
    | some p, some e => if greater p e then heapifyUp greater (h.swap ((index - 1) / 2) index) ((index - 1) / 2) else h
    | _, _ => h
termination_by index

/-- The smaller child of a place, if it has one. -/
def child? (less : α → α → Bool) (h : Heap α) (index : Nat) : Option Nat :=
  match h.elts[index * 2 + 1]?, h.elts[index * 2 + 2]? with
  | none, _ => none
  | some _, none => some (index * 2 + 1)
  | some a, some b => some (if less a b then index * 2 + 1 else index * 2 + 2)

omit [DecidableEq α] in
theorem child?_lt {less : α → α → Bool} {h : Heap α} {index which : Nat} (hc : h.child? less index = some which) :
    index < which ∧ which < h.elts.length := by
  unfold child? at hc
  split at hc
  · cases hc
  · next ha _ =>
    obtain ⟨hlt, -⟩ := List.getElem?_eq_some_iff.1 ha
    rw [← Option.some.inj hc]
    omega
  · next ha hb =>
    obtain ⟨hlt, -⟩ := List.getElem?_eq_some_iff.1 hb
    rw [← Option.some.inj hc]
    split <;> omega

def heapifyDown (less : α → α → Bool) (h : Heap α) (index : Nat) : Heap α :=
  match _hc : h.child? less index with
  | none => h
  | some which =>
    match h.elts[which]?, h.elts[index]? with
    | some c, some e => if less c e then heapifyDown less (h.swap which index) which else h
    | _, _ => h
termination_by h.elts.length - index
decreasing_by
  rw [length_swap]
  have := child?_lt _hc
  omega

def add (greater : α → α → Bool) (h : Heap α) (e : α) : Heap α :=
  heapifyUp greater ⟨h.elts ++ [e], Function.update h.key e h.elts.length⟩ h.elts.length

/-- The first element leaves, and the last one takes its place. -/
def remove (less : α → α → Bool) (h : Heap α) : Option (α × Heap α) :=
  match h.elts with
  | [] => none
  | a :: rest =>
    let last := (a :: rest).getLast (List.cons_ne_nil a rest)
    some (a, heapifyDown less ⟨((a :: rest).set 0 last).dropLast, Function.update h.key last 0⟩ 0)

def decreaseKey (greater : α → α → Bool) (h : Heap α) (e : α) : Heap α := heapifyUp greater h (h.key e)

/-- **Every element knows its place.** -/
def Placed (h : Heap α) : Prop := ∀ (i : Nat) (e : α), h.elts[i]? = some e → h.key e = i

variable {h : Heap α} {a e : α}

omit [DecidableEq α] in
theorem Placed.nodup (hp : h.Placed) : h.elts.Nodup := by
  rw [List.nodup_iff_getElem?_ne_getElem?]
  intro i j hij hj heq
  have hkj := hp j h.elts[j] (List.getElem?_eq_getElem hj)
  have hki := hp i h.elts[j] (heq.trans (List.getElem?_eq_getElem hj))
  omega

theorem swap_perm (h : Heap α) (i j : Nat) : (h.swap i j).elts.Perm h.elts := by
  unfold swap
  split
  · next a b ha hb =>
    obtain ⟨hi, rfl⟩ := List.getElem?_eq_some_iff.1 ha
    obtain ⟨hj, rfl⟩ := List.getElem?_eq_some_iff.1 hb
    exact List.set_set_perm hi hj
  · exact List.Perm.refl _

theorem swap_placed (hp : h.Placed) {i j : Nat} (hij : i ≠ j) : (h.swap i j).Placed := by
  unfold swap
  split
  · next a b ha hb =>
    obtain ⟨hi, -⟩ := List.getElem?_eq_some_iff.1 ha
    obtain ⟨hj, -⟩ := List.getElem?_eq_some_iff.1 hb
    have hab : a ≠ b := by
      rintro rfl
      exact hij ((hp i a ha).symm.trans (hp j a hb))
    intro k e he
    show Function.update (Function.update h.key b i) a j e = k
    have he : ((h.elts.set i b).set j a)[k]? = some e := he
    rw [List.getElem?_set, List.getElem?_set, List.length_set] at he
    by_cases hjk : j = k
    · rw [if_pos hjk, if_pos hj, Option.some.injEq] at he
      rw [← he, Function.update_self, hjk]
    · rw [if_neg hjk] at he
      by_cases hik : i = k
      · rw [if_pos hik, if_pos hi, Option.some.injEq] at he
        rw [← he, Function.update_of_ne hab.symm, Function.update_self, hik]
      · rw [if_neg hik] at he
        have hea : e ≠ a := fun hea => hik ((hp i a ha).symm.trans (hea ▸ hp k e he))
        have heb : e ≠ b := fun heb => hjk ((hp j b hb).symm.trans (heb ▸ hp k e he))
        rw [Function.update_of_ne hea, Function.update_of_ne heb]
        exact hp k e he
  · exact hp

theorem swap_key {i j : Nat} (he : e ∉ h.elts) : (h.swap i j).key e = h.key e := by
  unfold swap
  split
  · next a b ha hb =>
    have hea : e ≠ a := by
      rintro rfl
      exact he (List.mem_of_getElem? ha)
    have heb : e ≠ b := by
      rintro rfl
      exact he (List.mem_of_getElem? hb)
    exact (Function.update_of_ne hea _ _).trans (Function.update_of_ne heb _ _)
  · rfl

/-- What moving an element keeps. -/
structure Moves (h h' : Heap α) : Prop where
  perm : h'.elts.Perm h.elts
  placed : h'.Placed
  key : ∀ e, e ∉ h.elts → h'.key e = h.key e

omit [DecidableEq α] in
theorem Moves.refl (hp : h.Placed) : Moves h h := ⟨List.Perm.refl _, hp, fun _ _ => rfl⟩

omit [DecidableEq α] in
theorem Moves.trans {h' h'' : Heap α} (m : Moves h h') (m' : Moves h' h'') : Moves h h'' :=
  ⟨m'.perm.trans m.perm, m'.placed,
    fun e he => (m'.key e (fun hmem => he (m.perm.mem_iff.1 hmem))).trans (m.key e he)⟩

theorem swap_moves (hp : h.Placed) {i j : Nat} (hij : i ≠ j) : Moves h (h.swap i j) :=
  ⟨swap_perm h i j, swap_placed hp hij, fun _ he => swap_key he⟩

theorem heapifyUp_moves (greater : α → α → Bool) (hp : h.Placed) (index : Nat) :
    Moves h (h.heapifyUp greater index) := by
  fun_induction heapifyUp greater h index with
  | case1 h => exact Moves.refl hp
  | case2 h index hpos p e _ _ hgreater ih =>
    have hswap : Moves h (h.swap ((index - 1) / 2) index) := swap_moves hp (by omega)
    exact hswap.trans (ih hswap.placed)
  | case3 h index hpos p e _ _ hgreater => exact Moves.refl hp
  | case4 h index hpos _ => exact Moves.refl hp

theorem heapifyDown_moves (less : α → α → Bool) (hp : h.Placed) (index : Nat) :
    Moves h (h.heapifyDown less index) := by
  fun_induction heapifyDown less h index with
  | case1 h index _ => exact Moves.refl hp
  | case2 h index which hc c e _ _ hless ih =>
    have hswap : Moves h (h.swap which index) := swap_moves hp (Nat.ne_of_gt (child?_lt hc).1)
    exact hswap.trans (ih hswap.placed)
  | case3 h index which hc c e _ _ hless => exact Moves.refl hp
  | case4 h index which hc _ => exact Moves.refl hp

theorem add_moves (greater : α → α → Bool) (hp : h.Placed) (he : e ∉ h.elts) :
    (h.add greater e).elts.Perm (e :: h.elts) ∧ (h.add greater e).Placed := by
  have hput : Placed ⟨h.elts ++ [e], Function.update h.key e h.elts.length⟩ := by
    intro i x hx
    show Function.update h.key e h.elts.length x = i
    have hx : (h.elts ++ [e])[i]? = some x := hx
    by_cases hi : i < h.elts.length
    · rw [List.getElem?_append_left hi] at hx
      have hxe : x ≠ e := fun hxe => he (hxe ▸ List.mem_of_getElem? hx)
      rw [Function.update_of_ne hxe]
      exact hp i x hx
    · rw [List.getElem?_append_right (Nat.le_of_not_lt hi), List.getElem?_singleton] at hx
      split at hx
      · rw [← Option.some.inj hx, Function.update_self]
        omega
      · cases hx
  have hup := heapifyUp_moves greater hput h.elts.length
  exact ⟨hup.perm.trans (List.perm_append_singleton e h.elts), hup.placed⟩

theorem remove_moves (less : α → α → Bool) (hp : h.Placed) :
    (h.remove less = none ↔ h.elts = []) ∧ ∀ a h', h.remove less = some (a, h') →
      h.elts.Perm (a :: h'.elts) ∧ h'.Placed ∧ h'.key a = 0 := by
  obtain ⟨elts, key⟩ := h
  unfold remove
  cases elts with
  | nil =>
    refine ⟨⟨fun _ => rfl, fun _ => rfl⟩, fun a h' hr => ?_⟩
    cases hr
  | cons x rest =>
    refine ⟨⟨nofun, nofun⟩, fun a h' hr => ?_⟩
    rw [Option.some.injEq, Prod.mk.injEq] at hr
    obtain ⟨rfl, rfl⟩ := hr
    have hx : key x = 0 := hp 0 x rfl
    rcases List.eq_nil_or_concat rest with rfl | ⟨init, last, rfl⟩
    · -- the only element
      have hnil : Placed (⟨[], Function.update key x 0⟩ : Heap α) := fun i e he => by cases he
      have hdown := heapifyDown_moves less hnil 0
      have hempty := List.perm_nil.1 hdown.perm
      refine ⟨?_, hdown.placed, ?_⟩
      · show [x].Perm (x :: (heapifyDown less ⟨[], Function.update key x 0⟩ 0).elts)
        rw [hempty]
      · show (heapifyDown less ⟨[], Function.update key x 0⟩ 0).key x = 0
        rw [hdown.key x (List.not_mem_nil)]
        exact Function.update_self _ _ _
    · rw [List.concat_eq_append] at hp ⊢
      have hlast : (x :: (init ++ [last])).getLast (List.cons_ne_nil _ _) = last := by simp
      have hdrop : ((x :: (init ++ [last])).set 0 last).dropLast = last :: init := by
        rw [List.set_cons_zero, ← List.cons_append, List.dropLast_concat]
      rw [hlast, hdrop]
      have hnodup := hp.nodup
      have hput : Placed (⟨last :: init, Function.update key last 0⟩ : Heap α) := by
        intro i e he
        have he : (last :: init)[i]? = some e := he
        show Function.update key last 0 e = i
        cases i with
        | zero =>
          rw [List.getElem?_cons_zero, Option.some.injEq] at he
          rw [← he, Function.update_self]
        | succ i =>
          rw [List.getElem?_cons_succ] at he
          obtain ⟨hi, -⟩ := List.getElem?_eq_some_iff.1 he
          have hat : (x :: (init ++ [last]))[i + 1]? = some e := by
            rw [List.getElem?_cons_succ, List.getElem?_append_left hi, he]
          have hne : e ≠ last := by
            rintro rfl
            have hend : (x :: (init ++ [e]))[init.length + 1]? = some e := by simp
            have hsame := (hp (i + 1) e hat).symm.trans (hp (init.length + 1) e hend)
            omega
          rw [Function.update_of_ne hne]
          exact hp (i + 1) e hat
      have hdown := heapifyDown_moves less hput 0
      refine ⟨?_, hdown.placed, ?_⟩
      · refine ((List.perm_append_singleton last init).trans hdown.perm.symm).cons x
      · have hout : x ∉ last :: init := by
          simp only [List.nodup_cons, List.mem_append, List.mem_singleton, not_or] at hnodup
          simp only [List.mem_cons, not_or]
          exact ⟨hnodup.1.2, hnodup.1.1⟩
        have hxl : x ≠ last := fun hxl => hout (hxl ▸ List.mem_cons_self)
        show (heapifyDown less ⟨last :: init, Function.update key last 0⟩ 0).key x = 0
        rw [hdown.key x hout]
        exact (Function.update_of_ne hxl _ _).trans hx

theorem decreaseKey_moves (greater : α → α → Bool) (hp : h.Placed) (e : α) : Moves h (h.decreaseKey greater e) :=
  heapifyUp_moves greater hp (h.key e)

theorem decreaseKey_zero (greater : α → α → Bool) (he : h.key e = 0) : h.decreaseKey greater e = h := by
  unfold decreaseKey heapifyUp
  rw [he, if_pos rfl]

end Heap
end Sncpp
