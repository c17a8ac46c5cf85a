import Mathlib.Data.List.Sort
import Mathlib.Data.Prod.Lex
/-!
# Zset — a sorted map from members to scores

Each member has one score, and the members stand in the order of their scores; members of one score stand in their own
order.  What holds of a member comes from the last `add` or `rem` of it (`score_add`, `score_rem`).
-/
namespace Sncpp

structure Zset (S M : Type) [LinearOrder S] [LinearOrder M] where
  items : List (S ×ₗ M)
  sorted : items.Pairwise (· ≤ ·)
  one : (items.map (fun e => (ofLex e).2)).Nodup

namespace Zset

variable {S M : Type} [LinearOrder S] [LinearOrder M]

def new : Zset S M := ⟨[], List.Pairwise.nil, List.nodup_nil⟩

variable (z : Zset S M)

def score (m : M) : Option S := (z.items.find? (fun e => (ofLex e).2 = m)).map (fun e => (ofLex e).1)

def rem (m : M) : Zset S M :=
  ⟨z.items.filter (fun e => (ofLex e).2 ≠ m), z.sorted.filter _, (List.filter_sublist.map _).nodup z.one⟩

theorem not_mem_rem (m : M) : m ∉ (z.rem m).items.map (fun e => (ofLex e).2) := by
  intro h
  obtain ⟨e, he, hm⟩ := List.mem_map.1 h
  have hne := (List.mem_filter.1 he).2
  simp [hm] at hne

def add (s : S) (m : M) : Zset S M :=
  if z.score m = some s then z
  else ⟨(z.rem m).items.orderedInsert (· ≤ ·) (toLex (s, m)), List.Pairwise.orderedInsert _ _ (z.rem m).sorted, by
    rw [((List.perm_orderedInsert _ _ _).map _).nodup_iff, List.map_cons, List.nodup_cons]
    exact ⟨z.not_mem_rem m, (z.rem m).one⟩⟩

def range_by_score (s₁ s₂ : S) : List M :=
  (z.items.filter (fun e => s₁ ≤ (ofLex e).1 ∧ (ofLex e).1 ≤ s₂)).map (fun e => (ofLex e).2)

def range (r : Nat) : List M := (z.items.take r).map (fun e => (ofLex e).2)

theorem score_eq_some {m : M} {s : S} : z.score m = some s ↔ toLex (s, m) ∈ z.items := by
  unfold score
  rw [Option.map_eq_some_iff]
  constructor
  · rintro ⟨e, he, rfl⟩
    have hm : (ofLex e).2 = m := by simpa using List.find?_some he
    rw [← hm]
    exact List.mem_of_find?_eq_some he
  · intro h
    cases hfind : z.items.find? (fun e => (ofLex e).2 = m) with
    | none => exact absurd (List.find?_eq_none.1 hfind _ h) (by simp)
    | some e =>
      have hm : (ofLex e).2 = m := by simpa using List.find?_some hfind
      have heq := List.inj_on_of_nodup_map z.one (List.mem_of_find?_eq_some hfind) h hm
      exact ⟨e, rfl, by rw [heq]; rfl⟩

@[simp] theorem score_new (m : M) : (new : Zset S M).score m = none := rfl

theorem score_rem (m k : M) : (z.rem m).score k = if k = m then none else z.score k := by
  refine Option.ext (fun s => ?_)
  rw [score_eq_some]
  show toLex (s, k) ∈ z.items.filter (fun e => (ofLex e).2 ≠ m) ↔ _
  rw [List.mem_filter]
  by_cases hk : k = m
  · simp [hk]
  · simp [hk, score_eq_some]

theorem score_add (s : S) (m k : M) : (z.add s m).score k = if k = m then some s else z.score k := by
  unfold add
  split
  · next h =>
    split
    · next hk => rw [hk, h]
    · rfl
  · refine Option.ext (fun s' => ?_)
    rw [score_eq_some]
    show toLex (s', k) ∈ (z.rem m).items.orderedInsert (· ≤ ·) (toLex (s, m)) ↔ _
    rw [List.mem_orderedInsert, ← score_eq_some, score_rem]
    by_cases hk : k = m
    · simp [hk, eq_comm]
    · simp [hk]

theorem mem_range {s₁ s₂ : S} {m : M} : m ∈ z.range_by_score s₁ s₂ ↔ ∃ s, z.score m = some s ∧ s₁ ≤ s ∧ s ≤ s₂ := by
  unfold range_by_score
  rw [List.mem_map]
  constructor
  · rintro ⟨e, he, rfl⟩
    obtain ⟨hmem, hle⟩ := List.mem_filter.1 he
    exact ⟨(ofLex e).1, z.score_eq_some.2 hmem, by simpa using hle⟩
  · rintro ⟨s, hs, hle⟩
    exact ⟨toLex (s, m), List.mem_filter.2 ⟨z.score_eq_some.1 hs, decide_eq_true hle⟩, rfl⟩

theorem nodup_range (s₁ s₂ : S) : (z.range_by_score s₁ s₂).Nodup := (List.filter_sublist.map _).nodup z.one

theorem range_one {m : M} (h : (z.range 1).head? = some m) : z.range 1 = [m] := by
  rw [range] at h ⊢
  cases hitems : z.items with
  | nil =>
    rw [hitems] at h
    cases h
  | cons e items =>
    rw [hitems] at h
    obtain rfl := Option.some.inj h
    rfl

theorem head?_range_eq_none : (z.range 1).head? = none ↔ ∀ m, z.score m = none := by
  rw [List.head?_eq_none_iff, range, List.map_eq_nil_iff, List.take_eq_nil_iff, or_iff_right (by decide)]
  constructor
  · intro hnil m
    rw [score, hnil]
    rfl
  · intro h
    refine List.eq_nil_iff_forall_not_mem.2 fun e he => ?_
    have hscore : z.score (ofLex e).2 = some (ofLex e).1 := z.score_eq_some.2 he
    rw [h] at hscore
    cases hscore

theorem head?_range {m : M} (h : (z.range 1).head? = some m) :
    ∃ s, z.score m = some s ∧ ∀ m' s', z.score m' = some s' → s ≤ s' := by
  have hrange := z.range_one h
  rw [range] at hrange
  cases hitems : z.items with
  | nil =>
    rw [hitems] at hrange
    cases hrange
  | cons e items =>
    rw [hitems] at hrange
    obtain rfl : (ofLex e).2 = m := (List.cons.inj hrange).1
    refine ⟨(ofLex e).1, z.score_eq_some.2 (by rw [hitems]; exact List.mem_cons_self), fun m' s' hs' => ?_⟩
    have he := z.score_eq_some.1 hs'
    rw [hitems] at he
    have hsorted := z.sorted
    rw [hitems, List.pairwise_cons] at hsorted
    rcases List.mem_cons.1 he with heq | he
    · rw [← heq]
      rfl
    · exact (Prod.Lex.le_iff.1 (hsorted.1 _ he)).elim le_of_lt fun heq => heq.1.le

end Zset
end Sncpp
