import Mathlib.Data.List.AList
import Mathlib.Data.List.Sort
/-!
# FilterList — the deduplicating task queue (`framework/lib/filterList.lua`)

`dataList` maps an id to its task; `sortSet` is the sorted set of ids under the time of their last push, ties by id.
The two hold the same ids (`sync`), which every operation keeps, so a queue whose halves disagree cannot be built.
-/
namespace Sncpp

def scoreLe {κ : Type} [LinearOrder κ] (a b : Nat × κ) : Prop := a.1 < b.1 ∨ (a.1 = b.1 ∧ a.2 ≤ b.2)

instance {κ : Type} [LinearOrder κ] (a b : Nat × κ) : Decidable (scoreLe a b) :=
  inferInstanceAs (Decidable (_ ∨ _))

instance {κ : Type} [LinearOrder κ] : Std.Total (@scoreLe κ _) where
  total a b := by
    unfold scoreLe
    rcases Nat.lt_trichotomy a.1 b.1 with h | h | h
    · exact .inl (.inl h)
    · rcases le_total a.2 b.2 with h' | h'
      · exact .inl (.inr ⟨h, h'⟩)
      · exact .inr (.inr ⟨h.symm, h'⟩)
    · exact .inr (.inl h)

instance {κ : Type} [LinearOrder κ] : IsTrans (Nat × κ) scoreLe where
  trans a b c := by
    rintro (h | ⟨h, h'⟩) (g | ⟨g, g'⟩)
    · exact .inl (by omega)
    · exact .inl (by omega)
    · exact .inl (by omega)
    · exact .inr ⟨by omega, le_trans h' g'⟩

structure FilterList (κ α : Type) [LinearOrder κ] where
  dataList : AList (fun _ : κ => α)
  sortSet : List (Nat × κ)
  sync : ∀ id, id ∈ dataList ↔ id ∈ sortSet.map Prod.snd
  nodup : (sortSet.map Prod.snd).Nodup
  sorted : sortSet.Pairwise scoreLe

namespace FilterList

variable {κ α : Type} [LinearOrder κ]

def empty : FilterList κ α := ⟨∅, [], by simp, by simp, by simp⟩

def rem (id : κ) (l : List (Nat × κ)) : List (Nat × κ) := l.filter (fun p => p.2 ≠ id)

theorem mem_rem (id x : κ) (l : List (Nat × κ)) : x ∈ (rem id l).map Prod.snd ↔ x ≠ id ∧ x ∈ l.map Prod.snd := by
  simp only [rem, List.mem_map, List.mem_filter, decide_eq_true_eq, ne_eq]
  constructor
  · rintro ⟨p, ⟨hp, hne⟩, rfl⟩; exact ⟨hne, p, hp, rfl⟩
  · rintro ⟨hne, p, hp, rfl⟩; exact ⟨p, ⟨hp, hne⟩, rfl⟩

theorem nodup_rem (id : κ) {l : List (Nat × κ)} (h : (l.map Prod.snd).Nodup) : ((rem id l).map Prod.snd).Nodup :=
  h.sublist ((List.filter_sublist).map _)

def add (score : Nat) (id : κ) (l : List (Nat × κ)) : List (Nat × κ) :=
  (rem id l).orderedInsert scoreLe (score, id)

theorem perm_add (score : Nat) (id : κ) (l : List (Nat × κ)) : (add score id l).Perm ((score, id) :: rem id l) :=
  List.perm_orderedInsert _ _ _

def push (l : FilterList κ α) (now : Nat) (id : κ) (data : α) : FilterList κ α where
  dataList := l.dataList.insert id data
  sortSet := add now id l.sortSet
  sync x := by
    rw [((perm_add now id l.sortSet).map Prod.snd).mem_iff]
    simp only [AList.mem_insert, List.map_cons, List.mem_cons, mem_rem, l.sync x]
    by_cases hx : x = id <;> simp [hx]
  nodup := by
    rw [((perm_add now id l.sortSet).map Prod.snd).nodup_iff, List.map_cons, List.nodup_cons]
    exact ⟨fun h => ((mem_rem id id _).1 h).1 rfl, nodup_rem id l.nodup⟩
  sorted := (l.sorted.filter _).orderedInsert _ _

def erase (l : FilterList κ α) (id : κ) : FilterList κ α where
  dataList := l.dataList.erase id
  sortSet := rem id l.sortSet
  sync x := by rw [AList.mem_erase, mem_rem, l.sync x]
  nodup := nodup_rem id l.nodup
  sorted := l.sorted.filter _

def get (l : FilterList κ α) (id : κ) : Option α := l.dataList.lookup id

def has (l : FilterList κ α) (id : κ) : Bool := (l.get id).isSome

/-- `filterList:remove`: the task, if there is one, and the queue without it. -/
def remove (l : FilterList κ α) (id : κ) : Option α × FilterList κ α :=
  if l.has id then (l.get id, l.erase id) else (none, l)

/-- `filterList:pop`: the oldest task and the queue without it. -/
def pop (l : FilterList κ α) : Option α × FilterList κ α :=
  match l.sortSet with
  | [] => (none, l)
  | p :: _ => (l.get p.2, l.erase p.2)

def keys (l : FilterList κ α) (find : κ → Bool) : List κ := l.dataList.keys.filter find

def count (l : FilterList κ α) : Nat := l.sortSet.length

@[simp] theorem get_empty (id : κ) : (empty : FilterList κ α).get id = none := rfl

@[simp] theorem get_push (l : FilterList κ α) (now : Nat) (id x : κ) (data : α) :
    (l.push now id data).get x = if x = id then some data else l.get x := by
  unfold get push
  by_cases h : x = id
  · subst h; simp
  · simp [h, AList.lookup_insert_ne h]

@[simp] theorem get_erase (l : FilterList κ α) (id x : κ) :
    (l.erase id).get x = if x = id then none else l.get x := by
  unfold get erase
  by_cases h : x = id
  · subst h; simp
  · simp [h, AList.lookup_erase_ne h]

@[simp] theorem get_remove (l : FilterList κ α) (id x : κ) :
    (l.remove id).2.get x = if x = id then none else l.get x := by
  unfold remove
  by_cases h : l.has id
  · simp [h]
  · simp only [h, Bool.false_eq_true, if_false]
    by_cases hx : x = id
    · subst hx; simpa [has] using h
    · simp [hx]

def first (l : FilterList κ α) : Option κ := l.sortSet.head?.map Prod.snd

theorem pop_of_first {l : FilterList κ α} {id : κ} (h : l.first = some id) :
    ∃ d, l.get id = some d ∧ l.pop = (some d, l.erase id) := by
  unfold first at h
  cases hs : l.sortSet with
  | nil => simp [hs] at h
  | cons p ps =>
    simp only [hs, List.head?_cons, Option.map_some, Option.some.injEq] at h
    subst h
    have hm : p.2 ∈ l.dataList := (l.sync p.2).2 (by simp [hs])
    obtain ⟨d, hd⟩ := Option.isSome_iff_exists.1 (AList.lookup_isSome.2 hm)
    exact ⟨d, hd, by simp [pop, hs, get, hd]⟩

theorem pop_some {l : FilterList κ α} {d : α} (h : l.pop.1 = some d) :
    ∃ id, l.get id = some d ∧ l.pop = (some d, l.erase id) := by
  cases hf : l.first with
  | none =>
    unfold first at hf
    rw [Option.map_eq_none_iff, List.head?_eq_none_iff] at hf
    simp [pop, hf] at h
  | some id =>
    obtain ⟨d', hget, hpop⟩ := pop_of_first hf
    rw [hpop] at h
    obtain rfl : d' = d := Option.some.inj h
    exact ⟨id, hget, hpop⟩

theorem count_eq_zero (l : FilterList κ α) : l.count = 0 ↔ ∀ id, l.get id = none := by
  unfold count get
  rw [List.length_eq_zero_iff]
  constructor
  · intro h id
    rw [AList.lookup_eq_none, l.sync id, h]
    simp
  · intro h
    cases hs : l.sortSet with
    | nil => rfl
    | cons p ps =>
      have hm : p.2 ∈ l.dataList := (l.sync p.2).2 (by simp [hs])
      exact absurd hm (AList.lookup_eq_none.1 (h p.2))

end FilterList
end Sncpp
