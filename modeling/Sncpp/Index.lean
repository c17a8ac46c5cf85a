import Mathlib.Logic.Function.Basic
/-!
# Index — a map, and a second one that finds its values by their label

Each value knows its key, and some have a label.  Two maps agree when the second has exactly the labelled values of the
first.  A value that is added goes into both; one that is taken out is taken out under its key and under its label,
whatever stands there by now (`Agree.erase` says when that is right).
-/
namespace Sncpp
namespace Index

variable {K L V : Type} {key : V → K} {label : V → Option L}

structure Agree (key : V → K) (label : V → Option L) (f : K → Option V) (g : L → Option V) : Prop where
  keyed : ∀ k v, f k = some v → key v = k
  index : ∀ l v, g l = some v ↔ f (key v) = some v ∧ label v = some l

/-- The second map where the label of `v` is written. -/
def write [DecidableEq L] (label : V → Option L) (g : L → Option V) (v : V) (o : Option V) : L → Option V :=
  match label v with
  | some l => Function.update g l o
  | none => g

theorem write_of_label [DecidableEq L] {v : V} {l : L} (h : label v = some l) (g : L → Option V) (o : Option V) :
    write label g v o = Function.update g l o := by
  unfold write
  rw [h]

theorem write_of_ne [DecidableEq L] {v : V} {l : L} (h : label v ≠ some l) (g : L → Option V) (o : Option V) :
    write label g v o l = g l := by
  unfold write
  cases hl : label v with
  | none => rfl
  | some l' =>
    have hne : l ≠ l' := fun heq => h (by rw [hl, heq])
    exact Function.update_of_ne hne o g

variable {f : K → Option V} {g : L → Option V} {v v' : V} {k k' : K} {l : L}

theorem Agree.mem (h : Agree key label f g) (hk : f k = some v) (hl : label v = some l) : g l = some v :=
  (h.index l v).2 ⟨h.keyed k v hk ▸ hk, hl⟩

theorem Agree.unique (h : Agree key label f g) (hk : f k = some v) (hl : label v = some l) (hk' : f k' = some v')
    (hl' : label v' = some l) : k' = k ∧ v' = v := by
  have hv : v' = v := Option.some.inj ((h.mem hk' hl').symm.trans (h.mem hk hl))
  subst hv
  exact ⟨(h.keyed k' v' hk').symm.trans (h.keyed k v' hk), rfl⟩

theorem Agree.eq_none_iff (h : Agree key label f g) : g l = none ↔ ∀ k v, f k = some v → label v ≠ some l := by
  constructor
  · intro hnone k v hk hl
    rw [h.mem hk hl] at hnone
    cases hnone
  · intro hno
    cases hg : g l with
    | none => rfl
    | some v =>
      obtain ⟨hk, hl⟩ := (h.index l v).1 hg
      exact absurd hl (hno (key v) v hk)

variable [DecidableEq K] [DecidableEq L]

theorem Agree.insert (h : Agree key label f g) (hkey : f (key v) = none) (hlabel : ∀ l, label v = some l → g l = none) :
    Agree key label (Function.update f (key v) (some v)) (write label g v (some v)) where
  keyed k u hu := by
    by_cases hk : k = key v
    · subst hk
      rw [Function.update_self] at hu
      rw [Option.some.inj hu]
    · rw [Function.update_of_ne hk] at hu
      exact h.keyed k u hu
  index l u := by
    by_cases hl : label v = some l
    · rw [write_of_label hl, Function.update_self]
      constructor
      · intro hu
        cases hu
        exact ⟨Function.update_self _ _ _, hl⟩
      · rintro ⟨hu, hul⟩
        by_cases hk : key u = key v
        · rw [hk, Function.update_self] at hu
          exact hu
        · rw [Function.update_of_ne hk] at hu
          have hfree := hlabel l hl
          rw [h.mem hu hul] at hfree
          cases hfree
    · rw [write_of_ne hl, h.index l u]
      constructor
      · rintro ⟨hu, hul⟩
        have hk : key u ≠ key v := by
          intro heq
          rw [heq, hkey] at hu
          cases hu
        exact ⟨by rwa [Function.update_of_ne hk], hul⟩
      · rintro ⟨hu, hul⟩
        by_cases hk : key u = key v
        · rw [hk, Function.update_self] at hu
          rw [Option.some.inj hu] at hl
          exact absurd hul hl
        · rw [Function.update_of_ne hk] at hu
          exact ⟨hu, hul⟩

/-- **A value that is taken out**, though it may have been replaced: under its key nothing stands that has another label,
and under its label nothing that has another key. -/
theorem Agree.erase (h : Agree key label f g) (hkey : ∀ u l, f (key v) = some u → label u = some l → label v = some l)
    (hlabel : ∀ l u, label v = some l → g l = some u → key u = key v) :
    Agree key label (Function.update f (key v) none) (write label g v none) where
  keyed k u hu := by
    by_cases hk : k = key v
    · rw [hk, Function.update_self] at hu
      cases hu
    · rw [Function.update_of_ne hk] at hu
      exact h.keyed k u hu
  index l u := by
    by_cases hl : label v = some l
    · rw [write_of_label hl, Function.update_self]
      constructor
      · intro hu
        cases hu
      · rintro ⟨hu, hul⟩
        by_cases hk : key u = key v
        · rw [hk, Function.update_self] at hu
          cases hu
        · rw [Function.update_of_ne hk] at hu
          exact absurd (hlabel l u hl (h.mem hu hul)) hk
    · rw [write_of_ne hl, h.index l u]
      constructor
      · rintro ⟨hu, hul⟩
        have hk : key u ≠ key v := by
          intro heq
          rw [heq] at hu
          exact hl (hkey u l hu hul)
        exact ⟨by rwa [Function.update_of_ne hk], hul⟩
      · rintro ⟨hu, hul⟩
        by_cases hk : key u = key v
        · rw [hk, Function.update_self] at hu
          cases hu
        · rw [Function.update_of_ne hk] at hu
          exact ⟨hu, hul⟩

end Index
end Sncpp
