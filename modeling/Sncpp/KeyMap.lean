import Mathlib.Order.Lattice
import Mathlib.Data.List.Pairwise
/-!
# KeyMap — a map as a list of pairs in the order of their keys

`emplace` adds a key that is not there and leaves one that is, `alter` writes the value of a key that is there.  A map
that is filled from a list through a function of the keys has for each key the first value that was offered
(`lookup_collect`).
-/
namespace Sncpp
namespace KeyMap

variable {K V W : Type} [LinearOrder K]

def emplace (k : K) (v : V) : List (K × V) → List (K × V)
  | [] => [(k, v)]
  | (k', v') :: l => if k < k' then (k, v) :: (k', v') :: l else if k = k' then (k', v') :: l else (k', v') :: emplace k v l

def alter (k : K) (f : V → V) (l : List (K × V)) : List (K × V) := l.map (fun e => if e.1 = k then (e.1, f e.2) else e)

/-- The keys stand in order, each once. -/
def Ordered (l : List (K × V)) : Prop := l.Pairwise (fun a b => a.1 < b.1)

variable {l : List (K × V)} {k a : K} {v : V}

theorem Ordered.lookup_none (h : ∀ e ∈ l, a < e.1) : l.lookup a = none := by
  rw [List.lookup_eq_none_iff]
  intro e he
  exact bne_iff_ne.2 (ne_of_lt (h e he))

theorem Ordered.lookup_of_mem (h : Ordered l) (hm : (a, v) ∈ l) : l.lookup a = some v := by
  induction l with
  | nil => cases hm
  | cons x l ih =>
    obtain ⟨hx, hl⟩ := List.pairwise_cons.1 h
    rw [List.lookup_cons]
    rcases List.mem_cons.1 hm with rfl | hm
    · rw [beq_self_eq_true]
    · rw [beq_false_of_ne (ne_of_gt (hx (a, v) hm))]
      exact ih hl hm

theorem mem_emplace {e : K × V} : e ∈ emplace k v l → e = (k, v) ∨ e ∈ l := by
  induction l with
  | nil => exact fun h => Or.inl (List.mem_singleton.1 h)
  | cons x l ih =>
    intro h
    unfold emplace at h
    split at h
    · exact List.mem_cons.1 h
    split at h
    · exact Or.inr h
    rcases List.mem_cons.1 h with rfl | h
    · exact Or.inr List.mem_cons_self
    · exact (ih h).imp_right (List.mem_cons_of_mem x)

theorem Ordered.emplace (h : Ordered l) : Ordered (emplace k v l) := by
  induction l with
  | nil => exact List.pairwise_singleton _ _
  | cons x l ih =>
    obtain ⟨hx, hl⟩ := List.pairwise_cons.1 h
    unfold KeyMap.emplace
    split
    · next hlt =>
      refine List.pairwise_cons.2 ⟨fun e he => ?_, h⟩
      rcases List.mem_cons.1 he with rfl | he
      · exact hlt
      · exact hlt.trans (hx e he)
    split
    · exact h
    · next hlt hne =>
      refine List.pairwise_cons.2 ⟨fun e he => ?_, ih hl⟩
      rcases mem_emplace he with rfl | he
      · exact lt_of_le_of_ne (not_lt.1 hlt) (Ne.symm hne)
      · exact hx e he

theorem lookup_emplace (h : Ordered l) :
    (emplace k v l).lookup a = (l.lookup a).or (if a = k then some v else none) := by
  induction l with
  | nil =>
    unfold emplace
    rw [List.lookup_cons]
    by_cases hak : a = k
    · simp [hak]
    · rw [beq_false_of_ne hak, if_neg hak]
      rfl
  | cons x l ih =>
    obtain ⟨hx, hl⟩ := List.pairwise_cons.1 h
    unfold emplace
    split
    · next hlt =>
      rw [List.lookup_cons]
      by_cases hak : a = k
      · subst hak
        rw [Ordered.lookup_none (l := x :: l)]
        · simp
        · intro e he
          rcases List.mem_cons.1 he with rfl | he
          · exact hlt
          · exact hlt.trans (hx e he)
      · rw [beq_false_of_ne hak, if_neg hak, Option.or_none]
    split
    · next hk =>
      by_cases hak : a = k
      · rw [List.lookup_cons, hak, hk, beq_self_eq_true]
        rfl
      · rw [if_neg hak, Option.or_none]
    · rw [List.lookup_cons, List.lookup_cons, ih hl]
      split
      · rfl
      · rfl

theorem Ordered.alter (h : Ordered l) (f : V → V) : Ordered (alter k f l) := by
  unfold Ordered KeyMap.alter
  rw [List.pairwise_map]
  refine List.Pairwise.imp (fun {a b} hab => ?_) h
  have hkey : ∀ e : K × V, (if e.1 = k then (e.1, f e.2) else e).1 = e.1 := by
    intro e
    split <;> rfl
  rwa [hkey, hkey]

theorem lookup_alter (f : V → V) : (alter k f l).lookup a = if a = k then (l.lookup a).map f else l.lookup a := by
  induction l with
  | nil => simp [alter]
  | cons x l ih =>
    unfold alter at ih ⊢
    rw [List.map_cons, List.lookup_cons, List.lookup_cons, ih]
    by_cases hxk : x.1 = k
    · rw [if_pos hxk]
      by_cases hak : a = k
      · simp [hxk, hak]
      · have hax : (a == x.1) = false := beq_false_of_ne (fun h => hak (h.trans hxk))
        simp [hak, hax]
    · rw [if_neg hxk]
      by_cases hak : a = k
      · have hax : (a == x.1) = false := beq_false_of_ne (fun h => hxk (h.symm.trans hak))
        rw [hax, if_pos hak]
      · simp [hak]

/-! ## Keys that are written and removed -/

def put (k : K) (v : V) (l : List (K × V)) : List (K × V) := emplace k v (alter k (fun _ => v) l)

def remove (k : K) (l : List (K × V)) : List (K × V) := l.filter (fun e => decide (e.1 ≠ k))

theorem Ordered.mem_iff (h : Ordered l) : (a, v) ∈ l ↔ l.lookup a = some v := by
  refine ⟨h.lookup_of_mem, fun hl => ?_⟩
  obtain ⟨l₁, l₂, rfl, -⟩ := List.lookup_eq_some_iff.1 hl
  exact List.mem_append_right _ List.mem_cons_self

theorem Ordered.eq_nil (h : Ordered l) (hno : ∀ a, l.lookup a = none) : l = [] := by
  refine List.eq_nil_iff_forall_not_mem.2 (fun e he => ?_)
  have hlook := h.mem_iff.1 he
  rw [hno] at hlook
  cases hlook

theorem Ordered.put (h : Ordered l) : Ordered (put k v l) := (h.alter _).emplace

theorem lookup_put (h : Ordered l) : (put k v l).lookup a = if a = k then some v else l.lookup a := by
  unfold put
  rw [lookup_emplace (h.alter _), lookup_alter]
  by_cases hak : a = k
  · rw [if_pos hak, if_pos hak, if_pos hak]
    cases l.lookup a <;> rfl
  · rw [if_neg hak, if_neg hak, if_neg hak, Option.or_none]

theorem Ordered.remove (h : Ordered l) : Ordered (remove k l) := h.sublist List.filter_sublist

theorem lookup_remove (h : Ordered l) : (remove k l).lookup a = if a = k then none else l.lookup a := by
  have hmem : ∀ v, (remove k l).lookup a = some v ↔ a ≠ k ∧ l.lookup a = some v := by
    intro v
    rw [← h.mem_iff, ← (Ordered.remove h).mem_iff]
    unfold remove
    rw [List.mem_filter, and_comm, decide_eq_true_eq]
  refine Option.ext (fun v => (hmem v).trans ?_)
  by_cases hak : a = k
  · simp [hak]
  · simp [hak]

theorem Ordered.ext {l' : List (K × V)} (h : Ordered l) (h' : Ordered l') (heq : ∀ a, l.lookup a = l'.lookup a) : l = l' := by
  induction l generalizing l' with
  | nil => exact (h'.eq_nil (fun a => (heq a).symm)).symm
  | cons x l ih =>
    obtain ⟨hx, hl⟩ := List.pairwise_cons.1 h
    cases l' with
    | nil => exact h.eq_nil heq
    | cons y l' =>
      obtain ⟨hy, hl'⟩ := List.pairwise_cons.1 h'
      have hmem : ∀ e, e ∈ x :: l ↔ e ∈ y :: l' := fun e => by rw [h.mem_iff, h'.mem_iff, heq]
      have hxy : x = y := by
        rcases List.mem_cons.1 ((hmem x).1 List.mem_cons_self) with hxy | hin
        · exact hxy
        · rcases List.mem_cons.1 ((hmem y).2 List.mem_cons_self) with hyx | hin'
          · exact hyx.symm
          · exact absurd (hx y hin') (not_lt.2 (hy x hin).le)
      subst hxy
      refine congrArg _ (ih hl hl' (fun a => ?_))
      have ha := heq a
      rw [List.lookup_cons, List.lookup_cons] at ha
      split at ha
      · next hax =>
        obtain rfl := eq_of_beq hax
        rw [Ordered.lookup_none hx, Ordered.lookup_none hy]
      · exact ha

/-- The entry after `a` on the circle: the next, or else the first. -/
def next (a : K) (l : List (K × V)) : Option (K × V) := (l.find? (fun e => decide (a < e.1))).or l.head?

/-- `k` is the next key with `P` after `a` on the circle. -/
def Next (P : K → Prop) (a k : K) : Prop :=
  (a < k ∧ ∀ b, P b → a < b → k ≤ b) ∨ ((∀ b, P b → b ≤ a) ∧ ∀ b, P b → k ≤ b)

theorem Next.mono {P Q : K → Prop} (h : Next P a k) (hsub : ∀ b, Q b → P b) : Next Q a k :=
  h.imp (fun h => ⟨h.1, fun b hb => h.2 b (hsub b hb)⟩) (fun h => ⟨fun b hb => h.1 b (hsub b hb), fun b hb => h.2 b (hsub b hb)⟩)

theorem Next.unique {P : K → Prop} {k' : K} (h : Next P a k) (h' : Next P a k') (hk : P k) (hk' : P k') : k = k' := by
  rcases h with ⟨hlt, hmin⟩ | ⟨hall, hmin⟩
  · rcases h' with ⟨hlt', hmin'⟩ | ⟨hall', -⟩
    · exact le_antisymm (hmin k' hk' hlt') (hmin' k hk hlt)
    · exact absurd (hall' k hk) (not_le.2 hlt)
  · rcases h' with ⟨hlt', -⟩ | ⟨-, hmin'⟩
    · exact absurd (hall k' hk') (not_le.2 hlt')
    · exact le_antisymm (hmin k' hk') (hmin' k hk)

theorem Ordered.next_spec (h : Ordered l) (hne : l ≠ []) :
    ∃ k v, next a l = some (k, v) ∧ l.lookup k = some v ∧ Next (fun b => l.lookup b ≠ none) a k := by
  have hkeys : ∀ b, l.lookup b ≠ none → ∃ v, (b, v) ∈ l := fun b hb => by
    obtain ⟨v, hv⟩ := Option.ne_none_iff_exists'.1 hb
    exact ⟨v, h.mem_iff.2 hv⟩
  unfold next
  cases hfind : l.find? (fun e => decide (a < e.1)) with
  | some e =>
    obtain ⟨k, v⟩ := e
    obtain ⟨hlt, l₁, l₂, hl, hbefore⟩ := List.find?_eq_some_iff_append.1 hfind
    have hpair := h
    rw [hl] at hpair
    have hafter := (List.pairwise_cons.1 (List.pairwise_append.1 hpair).2.1).1
    refine ⟨k, v, rfl, h.mem_iff.1 (List.mem_of_find?_eq_some hfind), .inl ⟨of_decide_eq_true hlt, fun b hb hab => ?_⟩⟩
    obtain ⟨v', hv'⟩ := hkeys b hb
    rw [hl] at hv'
    rcases List.mem_append.1 hv' with hv' | hv'
    · exact absurd hab (by simpa using hbefore _ hv')
    · rcases List.mem_cons.1 hv' with heq | hv'
      · exact (congrArg Prod.fst heq).ge
      · exact (hafter _ hv').le
  | none =>
    have hall := List.find?_eq_none.1 hfind
    obtain ⟨e, t, rfl⟩ := List.exists_cons_of_ne_nil hne
    obtain ⟨k, v⟩ := e
    have hafter := (List.pairwise_cons.1 h).1
    refine ⟨k, v, rfl, h.mem_iff.1 List.mem_cons_self, .inr ⟨fun b hb => ?_, fun b hb => ?_⟩⟩
    · obtain ⟨v', hv'⟩ := hkeys b hb
      simpa using hall _ hv'
    · obtain ⟨v', hv'⟩ := hkeys b hb
      rcases List.mem_cons.1 hv' with heq | hv'
      · exact (congrArg Prod.fst heq).ge
      · exact (hafter _ hv').le

/-- **An entry that is next in a larger map and stands in the smaller one is next there.** -/
theorem next_of_sub {l' : List (K × V)} (h : Ordered l) (h' : Ordered l')
    (hsub : ∀ b, l.lookup b ≠ none → l'.lookup b ≠ none) (hnext : next a l' = some (k, v)) (hk : l.lookup k = some v) :
    next a l = some (k, v) := by
  have hne : ∀ {m : List (K × V)} {b : K} {v : V}, m.lookup b = some v → m ≠ [] := by
    rintro m b v hm rfl
    cases hm
  have hkey : ∀ {b : K}, l.lookup b = some v → l.lookup b ≠ none := fun hb hno => by
    rw [hno] at hb
    cases hb
  obtain ⟨k₁, v₁, heq₁, hlook₁, hnext₁⟩ := h.next_spec (a := a) (hne hk)
  have hne' : l' ≠ [] := by
    rintro rfl
    cases hnext
  obtain ⟨k₂, v₂, heq₂, -, hnext₂⟩ := h'.next_spec (a := a) hne'
  obtain ⟨rfl, rfl⟩ := Prod.mk.inj (Option.some.inj (hnext.symm.trans heq₂))
  obtain rfl := hnext₁.unique (hnext₂.mono hsub) (by rw [hlook₁]; exact Option.some_ne_none _) (hkey hk)
  rw [heq₁, Option.some.inj (hlook₁.symm.trans hk)]

/-- A map filled from a list: the first value offered for a key stays. -/
def collect (f : K → K) (g : V → W) (l : List (K × V)) : List (K × W) :=
  l.foldl (fun m e => emplace (f e.1) (g e.2) m) []

theorem lookup_collect (f : K → K) (g : V → W) (l : List (K × V)) (a : K) :
    (collect f g l).lookup a = (l.find? (fun e => f e.1 = a)).map (fun e => g e.2) := by
  have hfill : ∀ (l : List (K × V)) (m : List (K × W)), Ordered m →
      (l.foldl (fun m e => emplace (f e.1) (g e.2) m) m).lookup a =
        (m.lookup a).or ((l.find? (fun e => f e.1 = a)).map (fun e => g e.2)) := by
    intro l
    induction l with
    | nil => simp
    | cons x l ih =>
      intro m hm
      rw [List.foldl_cons, ih _ hm.emplace, lookup_emplace hm, List.find?_cons, Option.or_assoc]
      by_cases hx : f x.1 = a
      · simp [hx]
      · simp [hx, Ne.symm hx]
  unfold collect
  rw [hfill l [] List.Pairwise.nil]
  rfl

end KeyMap
end Sncpp
