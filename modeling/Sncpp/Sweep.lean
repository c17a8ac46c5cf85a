import Mathlib.Data.List.Basic
/-!
# Sweep — removing from a list while going through it from its end

The loop looks at one position after another, from the last one down, and where it finds a dead element it removes the
first one with the same key.  The positions that are left move with every removal, and still nothing dead stays behind
(`sweep_alive`); that nothing else goes is so exactly when no live element stands before a dead one of its key
(`sweep_eq_filter_iff`).
-/
namespace Sncpp
namespace Sweep

variable {α κ : Type} [DecidableEq κ] (key : α → κ) (dead : α → Bool)

/-- The loop from position `k` down. -/
def sweep : Nat → List α → List α
  | 0, l => l
  | k + 1, l =>
    match l[k]? with
    | none => sweep k l
    | some r => if dead r then sweep k (l.eraseP (fun x => decide (key x = key r))) else sweep k l

theorem eraseP_key {l : List α} {r : α} (hr : r ∈ l) : ∃ a l₁ l₂, l = l₁ ++ a :: l₂ ∧ key a = key r ∧
    (∀ x ∈ l₁, key x ≠ key r) ∧
    l.eraseP (fun x => decide (key x = key r)) = l₁ ++ l₂ := by
  obtain ⟨a, l₁, l₂, hl₁, ha, hl, herase⟩ := List.exists_of_eraseP (p := fun x => decide (key x = key r)) hr (by simp)
  exact ⟨a, l₁, l₂, hl, of_decide_eq_true ha, fun x hx => by simpa using hl₁ x hx, herase⟩

theorem drop_eraseP {l : List α} {k : Nat} {r : α} (hr : l[k]? = some r) :
    (l.eraseP (fun x => decide (key x = key r))).drop k = l.drop (k + 1) := by
  obtain ⟨hk, rfl⟩ := List.getElem?_eq_some_iff.1 hr
  have hsplit : l = l.take k ++ l[k] :: l.drop (k + 1) := by
    rw [← List.drop_eq_getElem_cons hk, List.take_append_drop]
  have hlen : (l.take k).length = k := by
    rw [List.length_take]
    omega
  generalize l.drop (k + 1) = post at hsplit ⊢
  generalize l[k] = r at hsplit ⊢
  generalize l.take k = pre at hsplit hlen
  subst hsplit
  by_cases hex : ∃ x ∈ pre, key x = key r
  · obtain ⟨x, hx, he⟩ := hex
    rw [List.eraseP_append_left (a := x) (by simpa using he) _ hx]
    have hlen' : (pre.eraseP (fun x => decide (key x = key r))).length = k - 1 := by
      rw [List.length_eraseP_of_mem hx (by simpa using he), hlen]
    have hpos : 0 < pre.length := List.length_pos_of_mem hx
    rw [List.drop_append, hlen', List.drop_eq_nil_of_le (by omega), List.nil_append]
    have hone : k - (k - 1) = 1 := by omega
    rw [hone]
    rfl
  · have hnone : ∀ x ∈ pre, ¬ decide (key x = key r) = true := fun x hx he => hex ⟨x, hx, of_decide_eq_true he⟩
    rw [List.eraseP_append_right _ hnone, List.eraseP_cons_of_pos (by simp), ← hlen, List.drop_left]

/-- **Nothing dead is left**, if nothing dead stood behind position `k`. -/
theorem sweep_alive : ∀ (k : Nat) (l : List α), (∀ x ∈ l.drop k, dead x = false) → ∀ x ∈ sweep key dead k l, dead x = false
  | 0, _, h => h
  | k + 1, l, h => by
    rw [sweep]
    cases hr : l[k]? with
    | none =>
      refine sweep_alive k l ?_
      rw [List.drop_eq_nil_of_le (List.getElem?_eq_none_iff.1 hr)]
      exact fun x hx => absurd hx List.not_mem_nil
    | some r =>
      simp only
      split
      · refine sweep_alive k _ ?_
        rw [drop_eraseP key hr]
        exact h
      · rename_i hdead
        refine sweep_alive k l ?_
        obtain ⟨hk, rfl⟩ := List.getElem?_eq_some_iff.1 hr
        rw [List.drop_eq_getElem_cons hk]
        intro x hx
        rcases List.mem_cons.1 hx with rfl | hx
        · simpa using hdead
        · exact h x hx

theorem sweep_sublist : ∀ (k : Nat) (l : List α), (sweep key dead k l).Sublist l
  | 0, _ => List.Sublist.refl _
  | k + 1, l => by
    rw [sweep]
    split
    · exact sweep_sublist k l
    · split
      · exact (sweep_sublist k _).trans List.eraseP_sublist
      · exact sweep_sublist k l

/-- No live element stands before a dead one of its key. -/
def Apart (l : List α) : Prop := l.Pairwise (fun x y => dead y = true → dead x = false → key x ≠ key y)

theorem sweep_eq_filter : ∀ (k : Nat) (l : List α), (∀ x ∈ l.drop k, dead x = false) →
    (sweep key dead k l = l.filter (fun x => !dead x) ↔ Apart key dead l)
  | 0, l, h => by
    have hall : l.filter (fun x => !dead x) = l := List.filter_eq_self.2 (fun x hx => by simpa using h x hx)
    rw [hall]
    refine ⟨fun _ => List.Pairwise.imp_of_mem (R := fun _ _ =>
      True) (fun _ hy _ hdead => ?_) (List.pairwise_of_forall fun _ _ => trivial), fun _ => rfl⟩
    rw [h _ hy] at hdead
    cases hdead
  | k + 1, l, h => by
    rw [sweep]
    cases hr : l[k]? with
    | none =>
      refine sweep_eq_filter k l ?_
      rw [List.drop_eq_nil_of_le (List.getElem?_eq_none_iff.1 hr)]
      exact fun x hx => absurd hx List.not_mem_nil
    | some r =>
      simp only
      cases hdead : dead r with
      | false =>
        rw [if_neg Bool.false_ne_true]
        refine sweep_eq_filter k l ?_
        obtain ⟨hk, rfl⟩ := List.getElem?_eq_some_iff.1 hr
        rw [List.drop_eq_getElem_cons hk]
        intro x hx
        rcases List.mem_cons.1 hx with rfl | hx
        · exact hdead
        · exact h x hx
      | true =>
        rw [if_pos rfl]
        have hrest : ∀ x ∈ (l.eraseP (fun x => decide (key x = key r))).drop k, dead x = false := by
          rw [drop_eraseP key hr]
          exact h
        have ih := sweep_eq_filter k _ hrest
        have halive := sweep_alive key dead k _ hrest
        have hsub := sweep_sublist key dead k (l.eraseP (fun x => decide (key x = key r)))
        obtain ⟨a, l₁, l₂, hl, hkey, hfirst, herase⟩ := eraseP_key key (List.mem_of_getElem? hr)
        rw [herase] at ih halive hsub ⊢
        have hmem : r ∈ l₁ ++ a :: l₂ := hl ▸ List.mem_of_getElem? hr
        rw [hl]
        cases ha : dead a with
        | true =>
          -- a dead one goes: the live ones are the same
          have hfilter : (l₁ ++ a :: l₂).filter (fun x => !dead x) = (l₁ ++ l₂).filter (fun x => !dead x) := by
            rw [List.filter_append, List.filter_append, List.filter_cons_of_neg (by simp [ha])]
          have hapart : Apart key dead (l₁ ++ a :: l₂) ↔ Apart key dead (l₁ ++ l₂) := by
            refine ⟨fun hp => hp.sublist ((List.sublist_cons_self a l₂).append_left l₁), fun hp => ?_⟩
            obtain ⟨h₁, h₂, hcross⟩ := List.pairwise_append.1 hp
            refine List.pairwise_append.2 ⟨h₁, List.pairwise_cons.2 ⟨fun y _ _ hlive => ?_, h₂⟩, fun x hx y hy => ?_⟩
            · rw [ha] at hlive
              cases hlive
            · rcases List.mem_cons.1 hy with rfl | hy
              · exact fun _ _ he => hfirst x hx (he.trans hkey)
              · exact hcross x hx y hy
          rw [hfilter, hapart]
          exact ih
        | false =>
          -- a live one goes: it stood before the dead one of its key
          constructor
          · intro heq
            have hle := (hsub.filter (fun x => !dead x)).length_le
            have hself : (sweep key dead k (l₁ ++ l₂)).filter (fun x => !dead x) = sweep key dead k (l₁ ++ l₂) :=
              List.filter_eq_self.2 (fun x hx => by simpa using halive x hx)
            rw [hself, heq, List.filter_append, List.filter_append, List.filter_cons_of_pos (by simp [ha])] at hle
            simp only [List.length_append, List.length_cons] at hle
            omega
          · intro hp
            have hr₂ : r ∈ l₂ := by
              rcases List.mem_append.1 hmem with hm | hm
              · exact absurd rfl (hfirst r hm)
              · rcases List.mem_cons.1 hm with rfl | hm
                · rw [ha] at hdead
                  cases hdead
                · exact hm
            have hp₂ := (List.pairwise_append.1 hp).2.1
            exact absurd hkey ((List.pairwise_cons.1 hp₂).1 r hr₂ hdead ha)

theorem sweep_eq_filter_iff (l : List α) : sweep key dead l.length l = l.filter (fun x => !dead x) ↔ Apart key dead l :=
  sweep_eq_filter key dead _ _ (by simp)

end Sweep
end Sncpp
