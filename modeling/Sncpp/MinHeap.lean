import Mathlib.Data.List.Perm.Basic
import Sncpp.Steps
/-!
# MinHeap — a heap by a comparison (`minHeap`)

The nodes stand at the places from 1 on, and the parent of a place is at half of it.  A node goes up or down unless it
is strictly apart from the one it is compared with, so that equal nodes change places too.
-/
namespace Sncpp
namespace MinHeap

/-- A strict weak order. -/
structure Cmp (κ : Type) where
  cmp : κ → κ → Bool
  irrefl : ∀ a, ¬cmp a a
  trans : ∀ a b c, cmp a b → cmp b c → cmp a c
  incomp : ∀ a b c, ¬cmp a b → ¬cmp b a → ¬cmp b c → ¬cmp c b → ¬cmp a c

variable {α κ : Type}

/-- The node at a place. -/
def place (data : List α) (index : ℕ) : Option α := data[index - 1]?

/-- The order in which `pairs` goes through a table. -/
structure Pairs where
  order : List ℕ → List ℕ
  perm : ∀ l, (order l).Perm l

/-- The place at which it comes to a node first. -/
def Pairs.find [DecidableEq α] (p : Pairs) (data : List α) (node : α) : Option ℕ :=
  (p.order ((List.range data.length).map (· + 1))).find? (fun i => place data i = some node)

/-- Two nodes change places. -/
def swap (data : List α) (i j : ℕ) : List α :=
  match place data i, place data j with
  | some a, some b => (data.set (i - 1) b).set (j - 1) a
  | _, _ => data

section Percolate

variable (lt : α → α → Bool)

def percolateUp (data : List α) (index : ℕ) : List α :=
  if index ≤ 1 then data
  else
    let pIndex := if index % 2 = 0 then index / 2 else (index - 1) / 2
    match place data pIndex, place data index with
    | some parent, some node => if !lt parent node then percolateUp (swap data pIndex index) pIndex else data
    | _, _ => data -- a comparison with nil
termination_by index
decreasing_by split <;> omega

/-- The child that a node is compared with. -/
def minIndex (data : List α) (index : ℕ) : Option ℕ :=
  let lfIndex := index * 2
  let rtIndex := lfIndex + 1
  if data.length < rtIndex then
    if data.length < lfIndex then none else some lfIndex
  else
    match place data lfIndex, place data rtIndex with
    | some lf, some rt => if lt lf rt then some lfIndex else some rtIndex
    | _, _ => none -- a comparison with nil

theorem length_swap (data : List α) (i j : ℕ) : (swap data i j).length = data.length := by
  unfold swap
  split
  · rw [List.length_set, List.length_set]
  · rfl

theorem minIndex_le {data : List α} {index which : ℕ} (h : minIndex lt data index = some which) :
    (which = index * 2 ∨ which = index * 2 + 1) ∧ which ≤ data.length := by
  unfold minIndex at h
  simp only at h
  split at h
  · split at h
    · cases h
    · obtain rfl := Option.some.inj h
      omega
  · split at h
    · split at h <;> obtain rfl := Option.some.inj h <;> omega
    · cases h

def percolateDown (data : List α) (index : ℕ) : List α :=
  if index = 0 then data -- there is no such place
  else
    match _hc : minIndex lt data index with
    | none => data
    | some which =>
      match place data index, place data which with
      | some node, some child => if !lt node child then percolateDown (swap data index which) which else data
      | _, _ => data -- a comparison with nil
termination_by data.length - index
decreasing_by
  have := minIndex_le lt _hc
  rw [length_swap]
  omega

def push (data : List α) (node : Option α) : List α :=
  match node with
  | none => data
  | some node => percolateUp lt (data ++ [node]) (data.length + 1)

def pop (data : List α) : Option α × List α :=
  match data with
  | [] => (none, [])
  | root :: rest =>
    let data := ((root :: rest).set 0 ((root :: rest).getLast (List.cons_ne_nil root rest))).dropLast
    (some root, if 1 < data.length then percolateDown lt data 1 else data)

def heapify (data : List α) : List α :=
  ((List.range (data.length / 2)).reverse.map (· + 1)).foldl (percolateDown lt) data

def heapifyNode [DecidableEq α] (p : Pairs) (data : List α) (node : α) : List α :=
  match p.find data node with
  | none => data
  | some i => percolateUp lt (percolateDown lt data i) i

/-- All nodes, popped one after another. -/
def popAll : ℕ → List α → List α
  | 0, _ => []
  | n + 1, data => (pop lt data).1.toList ++ popAll n (pop lt data).2

end Percolate

inductive Event (α κ : Type) where
  | push (node : Option α)
  | pop
  /-- The keys of the nodes are changed, and `heapify()` is called. -/
  | heapify (key : α → κ)
  /-- The key of a node is changed, and `heapify(node)` is called. -/
  | heapifyNode (node : α) (key : κ)

/-- The heap, the keys of the nodes, and the nodes that have been pushed and not popped. -/
structure World (α κ : Type) where
  data : List α
  key : α → κ
  held : List α

section Run

variable [DecidableEq α] (c : Cmp κ) (p : Pairs)

/-- The comparison of two nodes by their keys. -/
def Cmp.lt (key : α → κ) (a b : α) : Bool := c.cmp (key a) (key b)

def step (w : World α κ) : Event α κ → World α κ
  | .push node => { w with data := push (c.lt w.key) w.data node, held := node.toList ++ w.held }
  | .pop => { w with
      data := (pop (c.lt w.key) w.data).2
      held := ((pop (c.lt w.key) w.data).1.map w.held.erase).getD w.held }
  | .heapify key => { w with data := heapify (c.lt key) w.data, key := key }
  | .heapifyNode node key =>
    let key := Function.update w.key node key
    { w with data := heapifyNode (c.lt key) p w.data node, key := key }

/-- **No node is below a strictly larger parent.** -/
def Ordered (lt : α → α → Bool) (data : List α) : Prop :=
  ∀ index, 2 ≤ index → ∀ node ∈ place data index, ∀ parent ∈ place data (index / 2), ¬lt node parent

/-- **The heap is a priority queue after an event**: it has the nodes that were pushed and not popped, in the order of a
heap, and gives them in the order of their keys; and `pop` has returned a node without a smaller one, or nil from an empty
heap. -/
def Right (w : World α κ) (e : Event α κ) : Prop :=
  let w' := step c p w e
  w'.data.Perm w'.held ∧ Ordered (c.lt w'.key) w'.data ∧
    (popAll (c.lt w'.key) w'.data.length w'.data).Pairwise (fun a b => ¬c.lt w'.key b a) ∧
    (popAll (c.lt w'.key) w'.data.length w'.data).Perm w'.data ∧
    (e matches .pop → match (pop (c.lt w.key) w.data).1 with
      | none => w.data = []
      | some root => root ∈ w.data ∧ ∀ node ∈ w.data, ¬c.lt w.key node root)

/-- A node whose key is changed alone is in the heap once. -/
def Fits (w : World α κ) : Event α κ → Prop
  | .heapifyNode node key => key = w.key node ∨ w.data.count node ≤ 1
  | _ => True

instance [DecidableEq κ] (w : World α κ) (e : Event α κ) : Decidable (Fits w e) := by
  cases e <;> unfold Fits <;> infer_instance

def start (key : α → κ) : World α κ := ⟨[], key, []⟩

end Run

theorem place_eq_some {data : List α} {i : ℕ} {a : α} (h : place data i = some a) : i - 1 < data.length :=
  (List.getElem?_eq_some_iff.1 h).1

theorem exists_place (data : List α) {i : ℕ} (hpos : 1 ≤ i) (hle : i ≤ data.length) : ∃ a, place data i = some a :=
  ⟨data[i - 1], List.getElem?_eq_getElem (by omega)⟩

theorem place_of_lt {data : List α} {i : ℕ} (hlt : data.length < i) : place data i = none :=
  List.getElem?_eq_none (by omega)

theorem swap_perm (data : List α) (i j : ℕ) : (swap data i j).Perm data := by
  unfold swap
  split
  · next a b ha hb =>
    obtain ⟨hi, rfl⟩ := List.getElem?_eq_some_iff.1 ha
    obtain ⟨hj, rfl⟩ := List.getElem?_eq_some_iff.1 hb
    exact List.set_set_perm hi hj
  · exact List.Perm.refl _

theorem place_swap {data : List α} {i j : ℕ} {a b : α} (hi : 1 ≤ i) (hij : i < j) (ha : place data i = some a)
    (hb : place data j = some b) (k : ℕ) (hk : 1 ≤ k) :
    place (swap data i j) k = if k = i then some b else if k = j then some a else place data k := by
  have hilt := place_eq_some ha
  have hjlt := place_eq_some hb
  simp only [swap, ha, hb]
  unfold place
  rw [List.getElem?_set, List.getElem?_set, List.length_set]
  by_cases hki : k = i
  · rw [if_neg (by omega), if_pos (by omega), if_pos hki, if_pos hilt]
  · rw [if_neg hki]
    by_cases hkj : k = j
    · rw [if_pos (by omega), if_pos hkj, if_pos hjlt]
    · rw [if_neg (by omega), if_neg (by omega), if_neg hkj]

/-- A comparison of nodes as by their keys. -/
structure Weak (lt : α → α → Bool) : Prop where
  irrefl : ∀ a, ¬lt a a
  trans : ∀ a b c, lt a b → lt b c → lt a c
  not_trans : ∀ a b c, ¬lt b a → ¬lt c b → ¬lt c a

theorem Cmp.weak (c : Cmp κ) (key : α → κ) : Weak (c.lt key) := by
  refine ⟨fun a => c.irrefl _, fun a b d => c.trans _ _ _, fun a b d hba hdb hda => ?_⟩
  have hbd : ¬c.cmp (key b) (key d) := fun h => hba (c.trans _ _ _ h hda)
  have hab : ¬c.cmp (key a) (key b) := fun h => hdb (c.trans _ _ _ hda h)
  exact c.incomp (key d) (key b) (key a) hdb hbd hba hab hda

variable {lt : α → α → Bool}

theorem Weak.asymm (h : Weak lt) {a b : α} (hab : lt a b) : ¬lt b a := fun hba => h.irrefl a (h.trans a b a hab hba)

/-- A node and its parent are in order, if the parent is at a place from `lo` on. -/
def Above (lt : α → α → Bool) (lo : ℕ) (data : List α) (index : ℕ) : Prop :=
  2 ≤ index → lo ≤ index / 2 → ∀ node ∈ place data index, ∀ parent ∈ place data (index / 2), ¬lt node parent

theorem ordered_iff {data : List α} : Ordered lt data ↔ ∀ j, Above lt 0 data j :=
  ⟨fun h j hj _ => h j hj, fun h j hj => h j hj (Nat.zero_le _)⟩

/-- The nodes below a place are in order with the node above it. -/
def Across (lt : α → α → Bool) (lo : ℕ) (data : List α) (index : ℕ) : Prop :=
  2 ≤ index → lo ≤ index / 2 → ∀ j, j / 2 = index → ∀ node ∈ place data j, ∀ top ∈ place data (index / 2), ¬lt node top

/-- A node at one place may be out of order. -/
structure Loose (lt : α → α → Bool) (lo : ℕ) (data : List α) (index : ℕ) : Prop where
  above : ∀ j, j ≠ index → j / 2 ≠ index → Above lt lo data j
  across : Across lt lo data index

theorem swap_up (hlt : Weak lt) {data : List α} {index : ℕ} {x y : α} (hgt : 2 ≤ index)
    (hy : place data (index / 2) = some y) (hx : place data index = some x) (hyx : ¬lt y x) (habove : ∀ j, j ≠ index → Above lt 0 data j)
    (hacross : Across lt 0 data index) : (∀ j, j ≠ index / 2 → Above lt 0 (swap data (index / 2) index) j) ∧
      Across lt 0 (swap data (index / 2) index) (index / 2) := by
  obtain ⟨hp, hq⟩ : 1 ≤ index / 2 ∧ index / 2 < index := by omega
  have hat := fun k hk => place_swap hp hq hy hx k hk
  refine ⟨fun j hj h2 h0 node hnode parent hparent => ?_, fun h2 h0 j hj node hnode top htop => ?_⟩
  · rw [hat j (by omega), if_neg hj] at hnode
    rw [hat (j / 2) (by omega)] at hparent
    by_cases hji : j = index
    · rw [if_pos hji] at hnode
      rw [if_pos (by omega)] at hparent
      rwa [← Option.some.inj hnode, ← Option.some.inj hparent]
    · rw [if_neg hji] at hnode
      by_cases hjp : j / 2 = index / 2
      · rw [if_pos hjp] at hparent
        rw [← Option.some.inj hparent]
        exact hlt.not_trans x y node hyx (habove j hji h2 h0 node hnode y (by rw [hjp]; exact hy))
      · rw [if_neg hjp] at hparent
        by_cases hjq : j / 2 = index
        · rw [if_pos hjq] at hparent
          rw [← Option.some.inj hparent]
          exact hacross hgt (Nat.zero_le _) j hjq node hnode y hy
        · rw [if_neg hjq] at hparent
          exact habove j hji h2 h0 node hnode parent hparent
  · rw [hat j (by omega), if_neg (by omega)] at hnode
    rw [hat (index / 2 / 2) (by omega), if_neg (by omega), if_neg (by omega)] at htop
    have hyz : ¬lt y top := habove (index / 2) (by omega) h2 h0 y hy top htop
    by_cases hji : j = index
    · rw [if_pos hji] at hnode
      rwa [← Option.some.inj hnode]
    · rw [if_neg hji] at hnode
      exact hlt.not_trans top y node hyz (habove j hji (by omega) (Nat.zero_le _) node hnode y (by rw [hj]; exact hy))

theorem percolateUp_spec (hlt : Weak lt) : ∀ (index : ℕ) {data : List α}, (∀ j, j ≠ index → Above lt 0 data j) →
    Across lt 0 data index → (percolateUp lt data index).Perm data ∧ ∀ j, Above lt 0 (percolateUp lt data index) j := by
  intro index
  induction index using Nat.strongRecOn with
  | ind index ih =>
    intro data habove hacross
    rw [percolateUp]
    split
    · next hle =>
      refine ⟨List.Perm.refl _, fun j => ?_⟩
      by_cases hj : j = index
      · exact fun h2 => absurd h2 (by omega)
      · exact habove j hj
    · next hgt =>
      have hhalf : (if index % 2 = 0 then index / 2 else (index - 1) / 2) = index / 2 := by
        split <;> omega
      simp only [hhalf]
      split
      · next y x hy hx =>
        split
        · next hle =>
          have hyx : ¬lt y x := by simpa using hle
          obtain ⟨habove', hacross'⟩ := swap_up hlt (by omega) hy hx hyx habove hacross
          obtain ⟨hperm, hall⟩ := ih (index / 2) (by omega) habove' hacross'
          exact ⟨hperm.trans (swap_perm _ _ _), hall⟩
        · next hlt' =>
          refine ⟨List.Perm.refl _, fun j => ?_⟩
          by_cases hj : j = index
          · subst hj
            intro _ _ node hnode parent hparent
            obtain rfl := Option.some.inj (hx.symm.trans hnode)
            obtain rfl := Option.some.inj (hy.symm.trans hparent)
            exact hlt.asymm (by simpa using hlt')
          · exact habove j hj
      · next hnone =>
        refine ⟨List.Perm.refl _, fun j => ?_⟩
        by_cases hj : j = index
        · subst hj
          intro _ _ node hnode parent hparent
          exact absurd hnode (hnone parent node hparent)
        · exact habove j hj

theorem minIndex_none {data : List α} {index : ℕ} (hpos : 1 ≤ index) (h : minIndex lt data index = none) :
    data.length < index * 2 := by
  by_contra hle
  unfold minIndex at h
  simp only at h
  split at h
  · cases h
  · next hrt =>
    obtain ⟨lf, hlf⟩ := exists_place data (by omega : 1 ≤ index * 2) (by omega)
    obtain ⟨rt, hrt⟩ := exists_place data (by omega : 1 ≤ index * 2 + 1) (by omega)
    simp only [hlf, hrt] at h
    split at h <;> cases h

theorem minIndex_spec (hlt : Weak lt) {data : List α} {index which : ℕ}
    (h : minIndex lt data index = some which) {c : α} (hc : place data which = some c) :
    ∀ j, j / 2 = index → ∀ node ∈ place data j, ¬lt node c := by
  intro j hj node hnode
  by_cases hjw : j = which
  · rw [hjw] at hnode
    obtain rfl := Option.some.inj (hc.symm.trans hnode)
    exact hlt.irrefl c
  unfold minIndex at h
  simp only at h
  split at h
  · next hshort =>
    split at h
    · cases h
    · obtain rfl := Option.some.inj h
      rw [place_of_lt (by omega)] at hnode
      cases hnode
  · split at h
    · next lf rt hlf hrt =>
      split at h
      · next hless =>
        obtain rfl := Option.some.inj h
        obtain rfl : j = index * 2 + 1 := by omega
        obtain rfl := Option.some.inj (hrt.symm.trans hnode)
        obtain rfl := Option.some.inj (hlf.symm.trans hc)
        exact hlt.asymm hless
      · next hless =>
        obtain rfl := Option.some.inj h
        obtain rfl : j = index * 2 := by omega
        obtain rfl := Option.some.inj (hlf.symm.trans hnode)
        obtain rfl := Option.some.inj (hrt.symm.trans hc)
        exact hless
    · cases h

theorem swap_down {data : List α} {lo index which : ℕ} {x c : α} (hpos : 1 ≤ index) (hlo : lo ≤ index)
    (hwhich : which / 2 = index) (hx : place data index = some x) (hc : place data which = some c) (hxc : ¬lt x c)
    (hmin : ∀ j, j / 2 = index → ∀ node ∈ place data j, ¬lt node c) (h : Loose lt lo data index) :
    Loose lt lo (swap data index which) which ∧ Above lt lo (swap data index which) which := by
  have hlt : index < which := by omega
  have hat := fun k hk => place_swap hpos hlt hx hc k hk
  refine ⟨⟨fun j hj hjw h2 hlo' node hnode parent hparent => ?_, fun h2 _ j hj node hnode top htop => ?_⟩,
    fun h2 _ node hnode parent hparent => ?_⟩
  · rw [hat j (by omega)] at hnode
    rw [hat (j / 2) (by omega)] at hparent
    by_cases hji : j = index
    · rw [if_pos hji] at hnode
      rw [if_neg (by omega), if_neg hjw] at hparent
      subst hji
      rw [← Option.some.inj hnode]
      exact h.across h2 hlo' which hwhich c hc parent hparent
    · rw [if_neg hji, if_neg hj] at hnode
      by_cases hjp : j / 2 = index
      · rw [if_pos hjp] at hparent
        rw [← Option.some.inj hparent]
        exact hmin j hjp node hnode
      · rw [if_neg hjp, if_neg hjw] at hparent
        exact h.above j hji hjp h2 hlo' node hnode parent hparent
  · rw [hat j (by omega), if_neg (by omega), if_neg (by omega)] at hnode
    rw [hat (which / 2) (by omega), if_pos hwhich] at htop
    rw [← Option.some.inj htop]
    exact h.above j (by omega) (by omega) (by omega) (by omega) node hnode c (by rw [hj]; exact hc)
  · rw [hat which (by omega), if_neg (by omega), if_pos rfl] at hnode
    rw [hat (which / 2) (by omega), if_pos hwhich] at hparent
    rwa [← Option.some.inj hnode, ← Option.some.inj hparent]

theorem percolateDown_spec (hlt : Weak lt) {lo : ℕ} : ∀ (n : ℕ) {data : List α} {index : ℕ}, data.length - index = n →
    1 ≤ index → lo ≤ index → index ≤ data.length → Loose lt lo data index →
    (percolateDown lt data index).Perm data ∧ (∀ j, j ≠ index → Above lt lo (percolateDown lt data index) j) ∧
      Across lt lo (percolateDown lt data index) index ∧
      (Above lt lo data index → Above lt lo (percolateDown lt data index) index) := by
  intro n
  induction n using Nat.strongRecOn with
  | ind n ih =>
    intro data index hn hpos hlo hlen h
    rw [percolateDown, if_neg (by omega)]
    split
    · next hnone =>
      have hshort := minIndex_none hpos hnone
      refine ⟨List.Perm.refl _, fun j hj => ?_, h.across, id⟩
      by_cases hjp : j / 2 = index
      · intro _ _ node hnode
        rw [place_of_lt (by omega)] at hnode
        cases hnode
      · exact h.above j hj hjp
    · next which hsome =>
      obtain ⟨hchild, hwlen⟩ := minIndex_le lt hsome
      have hwhich : which / 2 = index := by omega
      obtain ⟨x, hx⟩ := exists_place data hpos hlen
      obtain ⟨c, hc⟩ := exists_place data (by omega : 1 ≤ which) hwlen
      have hmin := minIndex_spec hlt hsome hc
      simp only [hx, hc]
      split
      · next hle =>
        obtain ⟨hloose, habove⟩ := swap_down hpos hlo hwhich hx hc (by simpa using hle) hmin h
        obtain ⟨hperm, hall, -, hwhich'⟩ := ih ((swap data index which).length - which) (by rw [length_swap]; omega) rfl
          (by omega) (by omega) (by rw [length_swap]; exact hwlen) hloose
        have hall' : ∀ j, Above lt lo (percolateDown lt (swap data index which) which) j := by
          intro j
          by_cases hj : j = which
          · rw [hj]
            exact hwhich' habove
          · exact hall j hj
        refine ⟨hperm.trans (swap_perm _ _ _), fun j _ => hall' j, fun h2 hlo' j hj node hnode top htop => ?_,
          fun _ => hall' index⟩
        obtain ⟨y, hy⟩ := exists_place (percolateDown lt (swap data index which) which) hpos
          (by rw [hperm.length_eq, length_swap]; exact hlen)
        exact hlt.not_trans top y node (hall' index h2 hlo' y hy top htop)
          (hall' j (by omega) (by omega) node hnode y (by rw [hj]; exact hy))
      · next hless =>
        refine ⟨List.Perm.refl _, fun j hj => ?_, h.across, id⟩
        by_cases hjp : j / 2 = index
        · intro _ _ node hnode parent hparent hlt'
          rw [hjp] at hparent
          obtain rfl := Option.some.inj (hx.symm.trans hparent)
          exact hmin j hjp node hnode (hlt.trans node x c hlt' (by simpa using hless))
        · exact h.above j hj hjp

section Ops

variable {data : List α}

theorem push_spec (hlt : Weak lt) (h : Ordered lt data) (node : Option α) :
    (push lt data node).Perm (node.toList ++ data) ∧ Ordered lt (push lt data node) := by
  cases node with
  | none => exact ⟨List.Perm.refl _, h⟩
  | some node =>
    have hplace : ∀ j, 1 ≤ j → j ≤ data.length → place (data ++ [node]) j = place data j := fun j hj hle =>
      List.getElem?_append_left (by omega)
    have hlen : (data ++ [node]).length = data.length + 1 := List.length_append
    have habove : ∀ j, j ≠ data.length + 1 → Above lt 0 (data ++ [node]) j := by
      intro j hj h2 _ x hx parent hparent
      have hle : j ≤ data.length := by
        have := place_eq_some hx
        omega
      rw [hplace j (by omega) hle] at hx
      rw [hplace (j / 2) (by omega) (by omega)] at hparent
      exact h j h2 x hx parent hparent
    have hacross : Across lt 0 (data ++ [node]) (data.length + 1) := by
      intro _ _ j hj x hx
      rw [place_of_lt (by omega)] at hx
      cases hx
    obtain ⟨hperm, hall⟩ := percolateUp_spec hlt (data.length + 1) habove hacross
    exact ⟨hperm.trans List.perm_append_comm, ordered_iff.2 hall⟩

theorem root_le (hlt : Weak lt) (h : Ordered lt data) {root : α} (hroot : place data 1 = some root) :
    ∀ (j : ℕ), 1 ≤ j → ∀ node ∈ place data j, ¬lt node root := by
  intro j
  induction j using Nat.strongRecOn with
  | ind j ih =>
    intro hj node hnode
    by_cases h1 : j = 1
    · subst h1
      obtain rfl := Option.some.inj (hroot.symm.trans hnode)
      exact hlt.irrefl root
    · have hle := place_eq_some hnode
      obtain ⟨parent, hparent⟩ := exists_place data (by omega : 1 ≤ j / 2) (by omega)
      exact hlt.not_trans root parent node (ih (j / 2) (by omega) (by omega) parent hparent)
        (h j (by omega) node hnode parent hparent)

theorem exists_place_of_mem {node : α} (h : node ∈ data) : ∃ j, 1 ≤ j ∧ place data j = some node := by
  obtain ⟨i, hi⟩ := List.mem_iff_getElem?.1 h
  exact ⟨i + 1, by omega, hi⟩

theorem pop_concat (root z : α) (ys : List α) : pop lt (root :: (ys ++ [z])) =
    (some root, if 1 < (z :: ys).length then percolateDown lt (z :: ys) 1 else z :: ys) := by
  have hdata : ((root :: (ys ++ [z])).set 0 ((root :: (ys ++ [z])).getLast (List.cons_ne_nil _ _))).dropLast = z :: ys := by
    rw [List.getLast_cons (by simp), List.getLast_append_singleton, List.set_cons_zero, ← List.cons_append,
      List.dropLast_concat]
  simp only [pop, hdata]

/-- **`pop` leaves a heap of the other nodes.** -/
theorem pop_spec (hlt : Weak lt) (h : Ordered lt data) : Ordered lt (pop lt data).2 ∧
    ((pop lt data).1.toList ++ (pop lt data).2).Perm data := by
  cases data with
  | nil => exact ⟨h, List.Perm.refl _⟩
  | cons root rest =>
    rcases List.eq_nil_or_concat rest with rfl | ⟨ys, z, rfl⟩
    · exact ⟨fun j h2 node hnode => by rw [place, pop] at hnode; simp at hnode, List.Perm.refl _⟩
    · rw [List.concat_eq_append] at h ⊢
      rw [pop_concat]
      have hplace : ∀ j, 2 ≤ j → ∀ node ∈ place (z :: ys) j, node ∈ place (root :: (ys ++ [z])) j := by
        intro j hj node hnode
        obtain ⟨k, rfl⟩ : ∃ k, j = k + 2 := ⟨j - 2, by omega⟩
        obtain ⟨hk, hget⟩ := List.getElem?_eq_some_iff.1 (hnode : ys[k]? = some node)
        exact (List.getElem?_append_left hk).trans hnode
      have hperm : (root :: (z :: ys)).Perm (root :: (ys ++ [z])) := (List.perm_append_singleton z ys).symm.cons root
      split
      · next hlen =>
        have hloose : Loose lt 0 (z :: ys) 1 := by
          refine ⟨fun j hj hjp h2 _ node hnode parent hparent => ?_, fun h2 => absurd h2 (by omega)⟩
          exact h j h2 node (hplace j h2 node hnode) parent (hplace (j / 2) (by omega) parent hparent)
        obtain ⟨hdown, hall, -, -⟩ :=
          percolateDown_spec hlt _ rfl (Nat.le_refl 1) (Nat.zero_le 1) (Nat.le_of_lt hlen) hloose
        refine ⟨fun j h2 => hall j (by omega) h2 (Nat.zero_le _), (hdown.cons root).trans hperm⟩
      · next hlen =>
        refine ⟨fun j h2 node hnode => ?_, hperm⟩
        have hnone : place (z :: ys) j = none := place_of_lt (by omega)
        cases hnone.symm.trans hnode

theorem pop_eq_none : (pop lt data).1 = none ↔ data = [] := by
  cases data with
  | nil => exact iff_of_true rfl rfl
  | cons root rest => exact iff_of_false (Option.some_ne_none root) (List.cons_ne_nil root rest)

/-- **`pop` returns a node without a smaller one.** -/
theorem pop_le (hlt : Weak lt) (h : Ordered lt data) : ∀ root ∈ (pop lt data).1, ∀ node ∈ data, ¬lt node root := by
  intro root hroot node hnode
  obtain ⟨j, hj, hplace⟩ := exists_place_of_mem hnode
  have hfirst : place data 1 = some root := by
    cases data with
    | nil => cases hroot
    | cons x rest => exact hroot
  exact root_le hlt h hfirst j hj node hplace

theorem heapify_from (hlt : Weak lt) : ∀ (m : ℕ) {data : List α}, m ≤ data.length → (∀ j, Above lt (m + 1) data j) →
    (((List.range m).reverse.map (· + 1)).foldl (percolateDown lt) data).Perm data ∧
      ∀ j, Above lt 1 (((List.range m).reverse.map (· + 1)).foldl (percolateDown lt) data) j
  | 0, data, _, h => ⟨List.Perm.refl _, h⟩
  | m + 1, data, hm, h => by
    have hloose : Loose lt (m + 1) data (m + 1) :=
      ⟨fun j _ hjp h2 hlo => h j h2 (by omega), fun _ hlo => absurd hlo (by omega)⟩
    obtain ⟨hdown, hall, -, -⟩ := percolateDown_spec hlt _ rfl (Nat.le_add_left 1 m) (Nat.le_refl _) hm hloose
    have hrest := heapify_from hlt m (by rw [hdown.length_eq]; omega : m ≤ (percolateDown lt data (m + 1)).length)
      (fun j => ?_)
    · rw [List.range_succ, List.reverse_append, List.reverse_singleton, List.singleton_append, List.map_cons,
        List.foldl_cons]
      exact ⟨hrest.1.trans hdown, hrest.2⟩
    · by_cases hj : j = m + 1
      · exact fun _ hlo => absurd hlo (by omega)
      · exact hall j hj

theorem heapify_spec (hlt : Weak lt) (data : List α) : (heapify lt data).Perm data ∧ Ordered lt (heapify lt data) := by
  obtain ⟨hperm, hall⟩ := heapify_from hlt (data.length / 2) (Nat.div_le_self _ _) fun j h2 hlo node hnode => by
    rw [place_of_lt (by omega)] at hnode
    cases hnode
  exact ⟨hperm, fun j h2 => hall j h2 (by omega)⟩

theorem Pairs.found [DecidableEq α] {p : Pairs} {node : α} {i : ℕ} (h : p.find data node = some i) :
    1 ≤ i ∧ place data i = some node := by
  obtain ⟨j, -, rfl⟩ := List.mem_map.1 ((p.perm _).mem_iff.1 (List.mem_of_find?_eq_some h))
  exact ⟨Nat.le_add_left 1 j, by simpa using List.find?_some h⟩

theorem Pairs.missing [DecidableEq α] {p : Pairs} {node : α} (h : p.find data node = none) : node ∉ data := by
  intro hmem
  obtain ⟨i, hi, hplace⟩ := exists_place_of_mem hmem
  have hlen := place_eq_some hplace
  have hin : i ∈ p.order ((List.range data.length).map (· + 1)) :=
    (p.perm _).mem_iff.2 (List.mem_map.2 ⟨i - 1, List.mem_range.2 hlen, by omega⟩)
  exact List.find?_eq_none.1 h i hin (decide_eq_true hplace)

theorem heapifyNode_spec [DecidableEq α] {lt' : α → α → Bool} (hlt : Weak lt) (hlt' : Weak lt') (p : Pairs)
    (h : Ordered lt data) {node : α} (hsame : ∀ a b, a ≠ node → b ≠ node → lt' a b = lt a b)
    (hone : lt' = lt ∨ ∀ i j, 1 ≤ i → 1 ≤ j → place data i = some node → place data j = some node → i = j) :
    (heapifyNode lt' p data node).Perm data ∧ Ordered lt' (heapifyNode lt' p data node) := by
  unfold heapifyNode
  cases hfind : p.find data node with
  | none =>
    have hmissing := Pairs.missing hfind
    have hne : ∀ j, ∀ a ∈ place data j, a ≠ node := fun j a ha heq =>
      hmissing (heq ▸ List.mem_of_getElem? ha)
    refine ⟨List.Perm.refl _, fun j h2 a ha b hb => ?_⟩
    rw [hsame a b (hne j a ha) (hne (j / 2) b hb)]
    exact h j h2 a ha b hb
  | some i =>
    obtain ⟨hpos, hi⟩ := Pairs.found hfind
    have hagree : ∀ j k, 1 ≤ j → 1 ≤ k → j ≠ i → k ≠ i → ∀ a ∈ place data j, ∀ b ∈ place data k, lt' a b = lt a b := by
      intro j k hj hk hji hki a ha b hb
      rcases hone with rfl | hone
      · rfl
      · refine hsame a b (fun heq => hji ?_) (fun heq => hki ?_)
        · exact hone j i hj hpos (heq ▸ ha) hi
        · exact hone k i hk hpos (heq ▸ hb) hi
    have hloose : Loose lt' 0 data i := by
      refine ⟨fun j hj hjp h2 _ a ha b hb => ?_, fun h2 _ j hj a ha top htop => ?_⟩
      · rw [hagree j (j / 2) (by omega) (by omega) hj hjp a ha b hb]
        exact h j h2 a ha b hb
      · rw [hagree j (i / 2) (by omega) (by omega) (by omega) (by omega) a ha top htop]
        exact hlt.not_trans top node a (h i h2 node hi top htop) (h j (by omega) a ha node (by rw [hj]; exact hi))
    have hlen : i ≤ data.length := by
      have := place_eq_some hi
      omega
    obtain ⟨hdown, hall, hacross, -⟩ := percolateDown_spec hlt' _ rfl hpos (Nat.zero_le i) hlen hloose
    obtain ⟨hup, hall'⟩ := percolateUp_spec hlt' i hall hacross
    exact ⟨hup.trans hdown, ordered_iff.2 hall'⟩

theorem popAll_spec (hlt : Weak lt) : ∀ (n : ℕ) {data : List α}, data.length = n → Ordered lt data →
    (popAll lt n data).Pairwise (fun a b => ¬lt b a) ∧ (popAll lt n data).Perm data
  | 0, data, hn, _ => by
    rw [List.length_eq_zero_iff.1 hn]
    exact ⟨List.Pairwise.nil, List.Perm.refl _⟩
  | n + 1, data, hn, h => by
    obtain ⟨hrest, hperm⟩ := pop_spec hlt h
    have hmin := pop_le hlt h
    cases hroot : (pop lt data).1 with
    | none =>
      rw [pop_eq_none.1 hroot] at hn
      cases hn
    | some root =>
      rw [hroot] at hperm
      have hlen : (pop lt data).2.length = n := by
        have := hperm.length_eq
        rw [hn] at this
        exact Nat.succ.inj this
      obtain ⟨hsorted, hall⟩ := popAll_spec hlt n hlen hrest
      rw [popAll, hroot]
      refine ⟨List.pairwise_cons.2 ⟨fun b hb => ?_, hsorted⟩, (hall.cons root).trans hperm⟩
      exact hmin root hroot b (hperm.mem_iff.1 (List.mem_cons_of_mem root (hall.mem_iff.1 hb)))

end Ops

variable [DecidableEq α] {c : Cmp κ} {p : Pairs} {w : World α κ}

/-- The heap has the nodes that are held, in order. -/
structure Good (c : Cmp κ) (w : World α κ) : Prop where
  perm : w.data.Perm w.held
  ordered : Ordered (c.lt w.key) w.data

omit [DecidableEq α] in
theorem start_good (key : α → κ) : Good c (start key : World α κ) :=
  ⟨List.Perm.refl _, fun j _ node hnode => by cases hnode⟩

theorem two_le_count {data : List α} {node : α} {i j : ℕ} (hi : 1 ≤ i) (hij : i < j) (hni : place data i = some node)
    (hnj : place data j = some node) : 2 ≤ data.count node := by
  have htake : (data.take (j - 1))[i - 1]? = some node := by
    rw [List.getElem?_take, if_pos (by omega)]
    exact hni
  have hdrop : (data.drop (j - 1))[0]? = some node := by
    rw [List.getElem?_drop]
    exact hnj
  have hone := List.count_pos_iff.2 (List.mem_of_getElem? htake)
  have htwo := List.count_pos_iff.2 (List.mem_of_getElem? hdrop)
  rw [← List.take_append_drop (j - 1) data, List.count_append]
  omega

theorem place_unique {data : List α} {node : α} (h : data.count node ≤ 1) {i j : ℕ} (hi : 1 ≤ i) (hj : 1 ≤ j)
    (hni : place data i = some node) (hnj : place data j = some node) : i = j := by
  rcases Nat.lt_trichotomy i j with hlt | heq | hlt
  · exact absurd (two_le_count hi hlt hni hnj) (by omega)
  · exact heq
  · exact absurd (two_le_count hj hlt hnj hni) (by omega)

theorem step_good (w : World α κ) (e : Event α κ) (hfits : Fits w e) (h : Good c w) : Good c (step c p w e) := by
  have hweak := c.weak w.key
  cases e with
  | push node =>
    obtain ⟨hperm, hordered⟩ := push_spec hweak h.ordered node
    exact ⟨hperm.trans (h.perm.append_left _), hordered⟩
  | pop =>
    obtain ⟨hordered, hperm⟩ := pop_spec hweak h.ordered
    refine ⟨?_, hordered⟩
    simp only [step]
    cases hroot : (pop (c.lt w.key) w.data).1 with
    | none =>
      rw [hroot] at hperm
      exact hperm.trans h.perm
    | some root =>
      rw [hroot] at hperm
      have hall := (hperm.trans h.perm).erase root
      rwa [Option.toList_some, List.singleton_append, List.erase_cons_head] at hall
  | heapify key =>
    obtain ⟨hperm, hordered⟩ := heapify_spec (c.weak key) w.data
    exact ⟨hperm.trans h.perm, hordered⟩
  | heapifyNode node key =>
    have hsame : ∀ a b, a ≠ node → b ≠ node → c.lt (Function.update w.key node key) a b = c.lt w.key a b := by
      intro a b ha hb
      rw [Cmp.lt, Cmp.lt, Function.update_of_ne ha, Function.update_of_ne hb]
    have hone : c.lt (Function.update w.key node key) = c.lt w.key ∨
        ∀ i j, 1 ≤ i → 1 ≤ j → place w.data i = some node → place w.data j = some node → i = j := by
      refine hfits.imp (fun heq => ?_) fun hcount i j hi hj hni hnj => place_unique hcount hi hj hni hnj
      rw [heq, Function.update_eq_self]
    obtain ⟨hperm, hordered⟩ := heapifyNode_spec hweak (c.weak _) p h.ordered hsame hone
    exact ⟨hperm.trans h.perm, hordered⟩

theorem Good.right {e : Event α κ} (h : Good c w) (h' : Good c (step c p w e)) : Right c p w e := by
  have hweak := c.weak (step c p w e).key
  obtain ⟨hsorted, hall⟩ := popAll_spec hweak _ rfl h'.ordered
  refine ⟨h'.perm, h'.ordered, hsorted, hall, fun _ => ?_⟩
  split
  · next hnone => exact pop_eq_none.1 hnone
  · next root hroot =>
    refine ⟨?_, pop_le (c.weak w.key) h.ordered root hroot⟩
    have hperm := (pop_spec (c.weak w.key) h.ordered).2
    rw [hroot] at hperm
    exact hperm.mem_iff.1 List.mem_cons_self

/-- **A heap is a priority queue in every run in which a node whose key is changed alone is in the heap once.** -/
theorem heap_of_run (c : Cmp κ) (p : Pairs) (key : α → κ) (es : List (Event α κ))
    (h : Steps.Along (step c p) Fits (start key) es) : Steps.Along (step c p) (Right c p) (start key) es :=
  Steps.Along.keep (I := Good c) (fun w e hfits hw => ⟨step_good w e hfits hw, hw.right (step_good w e hfits hw)⟩) es
    (start key) (start_good key) h

/-- The order of the numbers. -/
def natCmp : Cmp ℕ where
  cmp a b := decide (a < b)
  irrefl a h := Nat.lt_irrefl a (of_decide_eq_true h)
  trans a b c hab hbc := decide_eq_true (Nat.lt_trans (of_decide_eq_true hab) (of_decide_eq_true hbc))
  incomp a b c hab hba hbc hcb hac := by
    simp only [decide_eq_true_eq] at hab hba hbc hcb hac
    omega

def inOrder : Pairs := ⟨id, fun _ => List.Perm.refl _⟩

theorem heap_of_run_three : Steps.Along (step natCmp inOrder) (Right natCmp inOrder) (start (fun node => node))
    [.push (some 3), .push (some 1), .push (some 2), .heapifyNode 3 0, .heapify (fun node => 9 - node), .pop] :=
  heap_of_run natCmp inOrder _ _ (by decide +kernel)

/-- A node that has been pushed twice is put right at one of its places only. -/
theorem pushedTwice_disordered : ¬Steps.Along (step natCmp inOrder) (Right natCmp inOrder) (start (fun node => node))
    [.push (some 0), .push (some 2), .push (some 3), .push (some 5), .push (some 9), .push (some 5), .heapifyNode 5 1] := by
  intro h
  have hordered := h.2.2.2.2.2.2.1.2.1 6 (by decide) 5 (by decide +kernel) 3 (by decide +kernel)
  revert hordered
  decide +kernel

end MinHeap
end Sncpp
