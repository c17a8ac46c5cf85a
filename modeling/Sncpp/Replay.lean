import Mathlib.Data.List.Basic
/-!
# Replay — a list that is copied by its changes

A change names a position, from 1, and what is to stand there; one without it removes the position.  An owner who only sets
positions and appends may collect the positions while it works and send what stands there in the end: if every position that
differs was collected, and no position skips one (`Covers`), the copy that takes the changes in order ends as the list does
(`Covers.replay`).
-/
namespace Sncpp
namespace Replay

variable {α : Type}

structure Change (α : Type) where
  idx : Nat
  item : Option α
deriving DecidableEq

/-- What the copy does with a change: it sets or appends, or removes. -/
def Change.apply (l : List α) (ch : Change α) : List α :=
  match ch.item with
  | some v =>
    if ch.idx ≤ l.length then l.set (ch.idx - 1) v
    else if ch.idx = l.length + 1 then l ++ [v]
    else l
  | none => l.eraseIdx (ch.idx - 1)

def replay (l : List α) (changes : List (Change α)) : List α := changes.foldl Change.apply l

theorem replay_remove (l : List α) (v : α) (l' : List α) (changes : List (Change α)) :
    replay (l ++ v :: l') (⟨l.length + 1, none⟩ :: changes) = replay (l ++ l') changes := by
  have herase : (l ++ v :: l').eraseIdx l.length = l ++ l' := by
    rw [List.eraseIdx_append_of_length_le (Nat.le_refl _), Nat.sub_self]
    rfl
  show replay ((l ++ v :: l').eraseIdx l.length) changes = _
  rw [herase]

theorem replay_set (l : List α) (v v' : α) (l' : List α) (changes : List (Change α)) :
    replay (l ++ v :: l') (⟨l.length + 1, some v'⟩ :: changes) = replay (l ++ v' :: l') changes := by
  have hle : l.length + 1 ≤ (l ++ v :: l').length := by simp
  have hset : Change.apply (l ++ v :: l') ⟨l.length + 1, some v'⟩ = l ++ v' :: l' := by
    unfold Change.apply
    simp only
    rw [if_pos hle, Nat.add_sub_cancel, List.set_append_right _ _ (Nat.le_refl _), Nat.sub_self]
    rfl
  show replay (Change.apply (l ++ v :: l') ⟨l.length + 1, some v'⟩) changes = _
  rw [hset]

/-- The length of a list after positions are set or appended, one after another. -/
def grow : Nat → List Nat → Option Nat
  | n, [] => some n
  | n, k :: ks =>
    if k = 0 then none
    else if k ≤ n then grow n ks
    else if k = n + 1 then grow (n + 1) ks
    else none

theorem grow_append : ∀ (ks : List Nat) (n : Nat) (ks' : List Nat), grow n (ks ++ ks') = (grow n ks).bind (grow · ks')
  | [], _, _ => rfl
  | k :: ks, n, ks' => by
    rw [List.cons_append, grow, grow, grow_append ks, grow_append ks]
    split
    · rfl
    · split
      · rfl
      · split <;> rfl

theorem le_of_grow : ∀ {ks : List Nat} {n m : Nat}, grow n ks = some m → n ≤ m
  | [], _, _, h => Nat.le_of_eq (Option.some.inj h)
  | k :: ks, n, m, h => by
    rw [grow] at h
    split at h
    · cases h
    · split at h
      · exact le_of_grow h
      · split at h
        · exact Nat.le_of_succ_le (le_of_grow h)
        · cases h

/-- **`ks` covers the change of `l` to `l'`**: the positions are set or appended in turn, and what is not among them is as
it was. -/
structure Covers (l : List α) (ks : List Nat) (l' : List α) : Prop where
  grow : grow l.length ks = some l'.length
  rest : ∀ i, i < l.length → i + 1 ∉ ks → l'[i]? = l[i]?

theorem Covers.refl (l : List α) : Covers l [] l := ⟨rfl, fun _ _ _ => rfl⟩

theorem Covers.trans {l l' l'' : List α} {ks ks' : List Nat} (h : Covers l ks l') (h' : Covers l' ks' l'') :
    Covers l (ks ++ ks') l'' where
  grow := by
    rw [grow_append, h.grow]
    exact h'.grow
  rest := by
    intro i hi hk
    obtain ⟨hk1, hk2⟩ := not_or.1 (fun hm => hk (List.mem_append.2 hm))
    rw [h'.rest i (Nat.lt_of_lt_of_le hi (le_of_grow h.grow)) hk2, h.rest i hi hk1]

theorem Covers.push (l : List α) (v : α) : Covers l [l.length + 1] (l ++ [v]) where
  grow := by
    rw [Replay.grow, if_neg (Nat.succ_ne_zero _), if_neg (by omega), if_pos rfl, List.length_append]
    rfl
  rest := fun i hi _ => List.getElem?_append_left hi

theorem Covers.at (l : List α) (v v' : α) (l' : List α) : Covers (l ++ v :: l') [l.length + 1] (l ++ v' :: l') where
  grow := by
    have hlen : (l ++ v' :: l').length = (l ++ v :: l').length := by simp
    have hle : l.length + 1 ≤ (l ++ v :: l').length := by simp
    rw [Replay.grow, if_neg (Nat.succ_ne_zero _), if_pos hle, hlen]
    rfl
  rest := by
    intro i _ hk
    have hne : i ≠ l.length := fun h => hk (List.mem_singleton.2 (congrArg (· + 1) h))
    rcases Nat.lt_or_gt_of_ne hne with hlt | hgt
    · rw [List.getElem?_append_left hlt, List.getElem?_append_left hlt]
    · obtain ⟨j, hj⟩ := Nat.exists_eq_add_of_lt hgt
      rw [hj, List.getElem?_append_right (by omega), List.getElem?_append_right (by omega)]
      have hsub : l.length + j + 1 - l.length = j + 1 := by omega
      rw [hsub]
      rfl

/-- What is sent for the positions, when the list is `l'`. -/
def sent (l' : List α) (ks : List Nat) : List (Change α) := ks.map (fun k => ⟨k, l'[k - 1]?⟩)

/-- **The copy ends as the list does**, by induction on the positions: what the copy has and is not still to be sent is
right. -/
theorem Covers.replay {l' : List α} : ∀ {ks : List Nat} {l : List α}, Covers l ks l' → replay l (sent l' ks) = l'
  | [], l, h => by
    have hlen : l.length = l'.length := Option.some.inj h.grow
    refine List.ext_getElem? (fun i => ?_)
    by_cases hi : i < l.length
    · exact (h.rest i hi List.not_mem_nil).symm
    · show l[i]? = l'[i]?
      rw [List.getElem?_eq_none (by omega), List.getElem?_eq_none (by omega)]
  | k :: ks, l, h => by
    have hgrow := h.grow
    rw [Replay.grow] at hgrow
    split at hgrow
    · cases hgrow
    · rename_i hk0
      show Replay.replay (Change.apply l ⟨k, l'[k - 1]?⟩) (sent l' ks) = l'
      split at hgrow
      · rename_i hkn
        have hlt : k - 1 < l'.length := by
          have := le_of_grow hgrow
          omega
        have happly : Change.apply l ⟨k, l'[k - 1]?⟩ = l.set (k - 1) l'[k - 1] := by
          rw [List.getElem?_eq_getElem hlt]
          exact if_pos hkn
        rw [happly]
        refine Covers.replay ⟨by rw [List.length_set]; exact hgrow, fun i hi hks => ?_⟩
        rw [List.length_set] at hi
        by_cases hik : i = k - 1
        · subst hik
          rw [List.getElem?_set_self hi, List.getElem?_eq_getElem hlt]
        · rw [List.getElem?_set_ne (Ne.symm hik)]
          exact h.rest i hi (List.not_mem_cons_of_ne_of_not_mem (by omega) hks)
      · rename_i hkn
        split at hgrow
        · rename_i hk
          subst hk
          have hlt : l.length < l'.length := le_of_grow hgrow
          have happly : Change.apply l ⟨l.length + 1, l'[l.length + 1 - 1]?⟩ = l ++ [l'[l.length]] := by
            rw [Nat.add_sub_cancel, List.getElem?_eq_getElem hlt]
            exact (if_neg hkn).trans (if_pos rfl)
          rw [happly]
          refine Covers.replay ⟨by rw [List.length_append]; exact hgrow, fun i hi hks => ?_⟩
          rw [List.length_append, List.length_singleton] at hi
          by_cases hil : i = l.length
          · subst hil
            rw [List.getElem?_eq_getElem hlt, List.getElem?_concat_length]
          · have hlt' : i < l.length := by omega
            rw [List.getElem?_append_left hlt']
            exact h.rest i hlt' (List.not_mem_cons_of_ne_of_not_mem (by omega) hks)
        · cases hgrow

end Replay
end Sncpp
