import Mathlib.Algebra.Order.BigOperators.Group.List
import Mathlib.Algebra.Ring.Int.Defs
import Mathlib.Data.List.Nodup
/-!
# Tally — counts kept under ids

A list of items, each a count under an id; an id may stand in several of them.  `total k` is what the list holds of `k`,
and `own k` the items of `k` in their order, on which `total k` depends alone.
-/
namespace Sncpp

structure Item (ι : Type) where
  id : ι
  count : Int
deriving DecidableEq

namespace Tally

variable {ι : Type} [DecidableEq ι]

/-- The items of one id. -/
def own (k : ι) (l : List (Item ι)) : List (Item ι) := l.filter (fun v => v.id = k)

/-- What the items hold of one id. -/
def total (k : ι) (l : List (Item ι)) : Int := ((own k l).map Item.count).sum

def ids (l : List (Item ι)) : List ι := l.map Item.id

/-- Every count is positive. -/
def Positive (l : List (Item ι)) : Prop := ∀ v ∈ l, 0 < v.count

theorem own_cons (k : ι) (v : Item ι) (l : List (Item ι)) :
    own k (v :: l) = if v.id = k then v :: own k l else own k l := by
  unfold own
  rw [List.filter_cons]
  simp

@[simp] theorem own_append (k : ι) (l l' : List (Item ι)) : own k (l ++ l') = own k l ++ own k l' := List.filter_append ..

@[simp] theorem own_reverse (k : ι) (l : List (Item ι)) : own k l.reverse = (own k l).reverse := List.filter_reverse ..

@[simp] theorem total_nil (k : ι) : total k [] = 0 := rfl

@[simp] theorem total_cons (k : ι) (v : Item ι) (l : List (Item ι)) :
    total k (v :: l) = (if v.id = k then v.count else 0) + total k l := by
  unfold total
  rw [own_cons]
  split <;> simp

@[simp] theorem total_append (k : ι) (l l' : List (Item ι)) : total k (l ++ l') = total k l + total k l' := by
  unfold total
  rw [own_append, List.map_append, List.sum_append]

@[simp] theorem total_reverse (k : ι) (l : List (Item ι)) : total k l.reverse = total k l := by
  unfold total
  rw [own_reverse, List.map_reverse, List.sum_reverse]

theorem own_eq_nil_of_not_mem {k : ι} {l : List (Item ι)} (h : k ∉ ids l) : own k l = [] := by
  refine List.filter_eq_nil_iff.2 (fun v hv => ?_)
  intro hk
  exact h (List.mem_map.2 ⟨v, hv, by simpa using hk⟩)

theorem total_eq_zero_of_not_mem {k : ι} {l : List (Item ι)} (h : k ∉ ids l) : total k l = 0 := by
  unfold total
  rw [own_eq_nil_of_not_mem h]
  rfl

theorem total_congr {k : ι} {l l' : List (Item ι)} (h : own k l = own k l') : total k l = total k l' := by
  unfold total
  rw [h]

theorem total_nonneg (k : ι) : ∀ {l : List (Item ι)}, Positive l → 0 ≤ total k l
  | [], _ => le_refl _
  | v :: l, h => by
    have h1 := h v List.mem_cons_self
    have h2 := total_nonneg k (fun u hu => h u (List.mem_cons_of_mem _ hu) : Positive l)
    rw [total_cons]
    split <;> omega

theorem total_pos {l : List (Item ι)} (hp : Positive l) {k : ι} (hk : k ∈ ids l) : 0 < total k l := by
  induction l with
  | nil => cases hk
  | cons v l ih =>
    have hv := hp v List.mem_cons_self
    have hl : Positive l := fun u hu => hp u (List.mem_cons_of_mem _ hu)
    have h0 := total_nonneg k hl
    rw [total_cons]
    rcases List.mem_cons.1 hk with rfl | hk
    · rw [if_pos rfl]
      omega
    · have := ih hl hk
      split <;> omega

theorem total_eq_of_mem : ∀ {l : List (Item ι)} {v : Item ι}, (ids l).Nodup → v ∈ l → total v.id l = v.count
  | u :: l, v, hn, hv => by
    obtain ⟨hu, hn'⟩ := List.nodup_cons.1 hn
    rw [total_cons]
    rcases List.mem_cons.1 hv with rfl | hv
    · rw [if_pos rfl, total_eq_zero_of_not_mem hu, add_zero]
    · have hne : u.id ≠ v.id := fun e => hu (e ▸ List.mem_map_of_mem hv)
      rw [if_neg hne, zero_add]
      exact total_eq_of_mem hn' hv

theorem own_filter (k : ι) (p : ι → Bool) (l : List (Item ι)) :
    own k (l.filter (fun v => p v.id)) = if p k then own k l else [] := by
  unfold own
  rw [List.filter_filter]
  split
  · rename_i hp
    refine List.filter_congr (fun v _ => ?_)
    by_cases hv : v.id = k
    · simp [hv, hp]
    · simp [hv]
  · rename_i hp
    refine List.filter_eq_nil_iff.2 (fun v _ => ?_)
    by_cases hv : v.id = k
    · simp [hv, hp]
    · simp [hv]

theorem total_filter (k : ι) (p : ι → Bool) (l : List (Item ι)) :
    total k (l.filter (fun v => p v.id)) = if p k then total k l else 0 := by
  unfold total
  rw [own_filter]
  split <;> rfl

theorem total_filter_ne_zero (k : ι) : ∀ l : List (Item ι), total k (l.filter (fun v => v.count ≠ 0)) = total k l
  | [] => rfl
  | v :: l => by
    rw [List.filter_cons]
    by_cases hv : v.count = 0
    · rw [if_neg (by simp [hv]), total_cons, hv, total_filter_ne_zero k l]
      simp
    · rw [if_pos (by simp [hv]), total_cons, total_cons, total_filter_ne_zero k l]

theorem eq_nil_of_total_eq_zero {l : List (Item ι)} (hp : Positive l) (h : ∀ k, total k l = 0) : l = [] := by
  cases l with
  | nil => rfl
  | cons v l =>
    have h1 := hp v List.mem_cons_self
    have h2 := total_nonneg v.id (fun u hu => hp u (List.mem_cons_of_mem _ hu) : Positive l)
    have h3 := h v.id
    rw [total_cons, if_pos rfl] at h3
    omega

end Tally
end Sncpp
