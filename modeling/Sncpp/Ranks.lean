import Mathlib.Data.Finset.Card
/-!
# Ranks — relations without cycles

A relation has no cycle if each step of it goes to a lesser rank.  The ranks of things that are numbered below a bound can
be kept below it, and a step that closes no cycle can be added.
-/
namespace Sncpp

variable {α : Type} {child : α → α → Prop}

/-- **Each step goes to a lesser rank.** -/
def Ranked (child : α → α → Prop) (rank : α → Nat) : Prop := ∀ a b, child a b → rank b < rank a

namespace Ranked

variable {rank : α → Nat}

theorem mono (h : Ranked child rank) {child' : α → α → Prop} (hsub : ∀ a b, child' a b → child a b) : Ranked child' rank :=
  fun a b hab => h a b (hsub a b hab)

/-- A step is added, from `n` to what does not lead to `n`: what leads to `n` gets a higher rank. -/
theorem add (h : Ranked child rank) {n m : α} (hnot : ¬Relation.ReflTransGen child m n) :
    ∃ rank', Ranked (fun a b => child a b ∨ a = n ∧ b = m) rank' := by
  classical
  refine ⟨fun a => if Relation.ReflTransGen child a n then rank a + rank m + 1 else rank a, ?_⟩
  rintro a b (hab | ⟨rfl, rfl⟩)
  · have hlt := h a b hab
    by_cases hb : Relation.ReflTransGen child b n
    · simp only [hb, Relation.ReflTransGen.head hab hb, if_true]
      omega
    · simp only [hb, if_false]
      split <;> omega
  · simp only [hnot, Relation.ReflTransGen.refl, if_true, if_false]
    omega

/-- **Ranks that are bounded by a number of things**, which all that a step leads to are numbered below. -/
theorem bounded {child : Nat → Nat → Prop} {rank : Nat → Nat} (h : Ranked child rank) {size : Nat}
    (hsize : ∀ a b, child a b → b < size) : ∃ rank', Ranked child rank' ∧ ∀ a, rank' a ≤ size := by
  refine ⟨fun a => ((Finset.range size).filter fun c => rank c < rank a).card, fun a b hab => ?_, fun a => ?_⟩
  · have hlt := h a b hab
    refine Finset.card_lt_card (Finset.ssubset_iff_of_subset ?_ |>.2 ⟨b, ?_, ?_⟩)
    · intro c hc
      obtain ⟨hrange, hc⟩ := Finset.mem_filter.1 hc
      exact Finset.mem_filter.2 ⟨hrange, hc.trans hlt⟩
    · exact Finset.mem_filter.2 ⟨Finset.mem_range.2 (hsize a b hab), hlt⟩
    · exact fun hb => lt_irrefl _ (Finset.mem_filter.1 hb).2
  · exact (Finset.card_filter_le _ _).trans_eq (Finset.card_range size)

end Ranked
end Sncpp
