import Mathlib.Data.List.AList
import Sncpp.Ranks
/-!
# TableMonitor — tables whose changes are told (`tableMonitor`)

`encode` puts what a table holds aside, in place, and so for each table in it; a metatable reads and writes it there, and
tells each write that changes a value.  Tables are known by their numbers, which `encode` and `decode` keep: what is read of
a table is the same before and after (`encode_spec`).
-/
namespace Sncpp
namespace TableMonitor

variable {κ σ : Type} [DecidableEq κ]

/-- A value other than nil; `==` of scalars is that of the language, where a NaN is not equal to itself. -/
inductive Value (σ : Type) where
  | scalar (s : σ)
  | table (n : Nat)
deriving BEq

/-- What a table holds; no key is `__real`. -/
abbrev Fields (κ σ : Type) := AList (fun _ : κ => Value σ)

/-- What is aside in `__real`, with the path that the functions of the metatable have. -/
structure Real (κ σ : Type) where
  path : List κ
  fields : Fields κ σ

/-- A table: what it holds itself, and `__real`, which comes with the metatable. -/
structure Node (κ σ : Type) where
  fields : Fields κ σ
  real : Option (Real κ σ)

structure Heap (κ σ : Type) where
  node : Nat → Node κ σ
  fresh : Nat

/-- The order in which `pairs` goes through what a table holds. -/
structure Pairs (κ σ : Type) where
  order : List (Sigma fun _ : κ => Value σ) → List (Sigma fun _ : κ => Value σ)
  perm : ∀ l, (order l).Perm l

structure Call (κ σ : Type) where
  path : List κ
  key : κ
  value : Option (Value σ)

/-- `t[k] = v` of a table without a metatable. -/
def rawset (fields : Fields κ σ) (k : κ) : Option (Value σ) → Fields κ σ
  | none => fields.erase k
  | some v => fields.insert k v

/-- The lengths that `#` may give: a number whose next is nil, and which is not nil itself; `index` has the keys that are
numbers. -/
def Border (fields : Fields κ σ) (index : Nat → κ) (len : Nat) : Prop :=
  (len = 0 ∨ fields.lookup (index len) ≠ none) ∧ fields.lookup (index (len + 1)) = none

namespace Heap

variable (p : Pairs κ σ) (h : Heap κ σ)

def setNode (n : Nat) (x : Node κ σ) : Heap κ σ := { h with node := Function.update h.node n x }

def setFields (n : Nat) (fields : Fields κ σ) : Heap κ σ := h.setNode n { h.node n with fields := fields }

def new (fields : Fields κ σ) : Heap κ σ := ⟨Function.update h.node h.fresh ⟨fields, none⟩, h.fresh + 1⟩

/-- `t[k]`; what the table does not hold itself is asked of `__index`. -/
def read (n : Nat) (k : κ) : Option (Value σ) :=
  match (h.node n).fields.lookup k with
  | some v => some v
  | none => (h.node n).real.bind (fun real => real.fields.lookup k)

def own (n : Nat) : Fields κ σ :=
  match (h.node n).real with
  | some real => real.fields
  | none => (h.node n).fields

def pairs (n : Nat) : List (Sigma fun _ : κ => Value σ) := p.order (h.own n).entries

def Len (index : Nat → κ) (n len : Nat) : Prop := Border (h.own n) index len

/-- A turn of the loop of `_encode`: a key of the table `n` goes into `real`. -/
def encodeField (encode : Heap κ σ → List κ → Value σ → Option (Heap κ σ)) (n : Nat) (path : List κ)
    (acc : Heap κ σ × Fields κ σ) (e : Sigma fun _ : κ => Value σ) : Option (Heap κ σ × Fields κ σ) := do
  let h := acc.1.setFields n ((acc.1.node n).fields.erase e.1)
  let h ← encode h (path ++ [e.1]) e.2
  pure (h, acc.2.insert e.1 e.2)

/-- `_encode`, in place; nothing comes back when the fuel does not last. -/
def encode : Nat → Heap κ σ → List κ → Value σ → Option (Heap κ σ)
  | _, h, _, .scalar _ => some h
  | 0, _, _, .table _ => none
  | fuel + 1, h, path, .table n =>
    match (h.node n).real with
    | some _ => some h
    | none => do
      let (h, real) ← (p.order (h.node n).fields.entries).foldlM (encodeField (encode fuel) n path) (h, ∅)
      pure (h.setNode n { h.node n with real := some ⟨path, real⟩ })

def encodeWritten (path : List κ) : Option (Value σ) → Option (Heap κ σ)
  | none => some h
  | some v => encode p (h.fresh + 1) h path v

/-- `t[k] = v`, and the call of the callback; `f` is whether there is one. -/
def write [BEq σ] (f : Bool) (n : Nat) (k : κ) (v : Option (Value σ)) : Option (Heap κ σ × Option (Call κ σ)) :=
  if ((h.node n).fields.lookup k).isSome then some (h.setFields n (rawset (h.node n).fields k v), none)
  else
    match (h.node n).real with
    | none => some (h.setFields n (rawset (h.node n).fields k v), none)
    | some closure => do
      let h ← h.encodeWritten p (closure.path ++ [k]) v
      let real ← (h.node n).real
      let old := real.fields.lookup k
      let h := h.setNode n { h.node n with real := some { real with fields := rawset real.fields k v } }
      pure (h, if f && old != v then some ⟨closure.path, k, v⟩ else none)

/-- A turn of the loops of `_decode`: a key of the table `n` is set again. -/
def decodeField (decode : Heap κ σ → Value σ → Option (Heap κ σ)) (n : Nat) (h : Heap κ σ)
    (e : Sigma fun _ : κ => Value σ) : Option (Heap κ σ) := do
  let h ← decode h e.2
  pure (h.setFields n ((h.node n).fields.insert e.1 e.2))

def decode : Nat → Heap κ σ → Value σ → Option (Heap κ σ)
  | _, h, .scalar _ => some h
  | 0, _, .table _ => none
  | fuel + 1, h, .table n =>
    (p.order (h.own n).entries).foldlM (decodeField (decode fuel) n) (h.setNode n { h.node n with real := none })

/-- A turn of the loops of `_getReal`: a key of the copy `ret`. -/
def copyField (getReal : Heap κ σ → Value σ → Option (Heap κ σ × Value σ)) (ret : Nat) (h : Heap κ σ)
    (e : Sigma fun _ : κ => Value σ) : Option (Heap κ σ) := do
  let (h, v) ← getReal h e.2
  pure (h.setFields ret ((h.node ret).fields.insert e.1 v))

def getReal : Nat → Heap κ σ → Value σ → Option (Heap κ σ × Value σ)
  | _, h, .scalar s => some (h, .scalar s)
  | 0, _, .table _ => none
  | fuel + 1, h, .table n => do
    let ret := h.fresh
    let h ← (p.order (h.own n).entries).foldlM (copyField (getReal fuel) ret) (h.new ∅)
    pure (h, .table ret)

end Heap

namespace Heap

variable {p : Pairs κ σ} {h : Heap κ σ}

def Child (h : Heap κ σ) (n m : Nat) : Prop := ∃ k, h.read n k = some (.table m)

omit [DecidableEq κ] in
@[simp] theorem setNode_self (h : Heap κ σ) (n : Nat) (x : Node κ σ) : (h.setNode n x).node n = x := Function.update_self ..

omit [DecidableEq κ] in
theorem setNode_of_ne (h : Heap κ σ) {n m : Nat} (hm : m ≠ n) (x : Node κ σ) : (h.setNode n x).node m = h.node m := by
  rw [setNode]
  exact Function.update_of_ne hm x h.node

theorem read_congr {h h' : Heap κ σ} {n : Nat} (heq : h'.node n = h.node n) (k : κ) : h'.read n k = h.read n k := by
  rw [read, read, heq]

theorem read_own (n : Nat) (hbare : (h.node n).real.isSome → (h.node n).fields = ∅) (k : κ) :
    h.read n k = (h.own n).lookup k := by
  unfold read own
  cases hreal : (h.node n).real with
  | none => cases (h.node n).fields.lookup k <;> rfl
  | some real =>
    rw [hbare (by rw [hreal]; rfl)]
    rfl

theorem read_bare {n : Nat} (hreal : (h.node n).real = none) (k : κ) : h.read n k = (h.node n).fields.lookup k := by
  rw [read, hreal]
  cases (h.node n).fields.lookup k <;> rfl

theorem lookup_erase_some {fields : Fields κ σ} {k k' : κ} {v : Value σ} (h : (fields.erase k).lookup k' = some v) :
    k' ≠ k ∧ fields.lookup k' = some v := by
  by_cases hk : k' = k
  · rw [hk, AList.lookup_erase] at h
    cases h
  · rw [AList.lookup_erase_ne hk] at h
    exact ⟨hk, h⟩

/-- **Below a table that tells its changes all tables do**, and none holds anything itself. -/
structure Closed (h : Heap κ σ) : Prop where
  bare : ∀ n, (h.node n).real.isSome → (h.node n).fields = ∅
  real : ∀ n m, (h.node n).real.isSome → h.Child n m → (h.node m).real.isSome

theorem Closed.read (hclosed : h.Closed) (n : Nat) (k : κ) : h.read n k = (h.own n).lookup k :=
  read_own n (hclosed.bare n) k

/-- **What encoding does to the tables of a rank below `bound`**: they may come to tell their changes. -/
structure Wraps (rank : Nat → Nat) (bound : Nat) (h h' : Heap κ σ) : Prop where
  fresh : h'.fresh = h.fresh
  read : ∀ n k, h'.read n k = h.read n k
  node : ∀ n, h'.node n = h.node n ∨ (h.node n).real = none ∧ (h'.node n).real.isSome ∧ rank n < bound
  closed : h.Closed → h'.Closed

namespace Wraps

variable {rank : Nat → Nat} {bound : Nat} {h h' h'' : Heap κ σ}

theorem refl : Wraps rank bound h h := ⟨rfl, fun _ _ => rfl, fun _ => Or.inl rfl, id⟩

theorem isSome (hw : Wraps rank bound h h') {n : Nat} (hn : (h.node n).real.isSome) : (h'.node n).real.isSome := by
  rcases hw.node n with heq | ⟨hnone, -, -⟩
  · rwa [heq]
  · rw [hnone] at hn
    cases hn

theorem ranked (hw : Wraps rank bound h h') (hrank : Ranked h.Child rank) : Ranked h'.Child rank :=
  hrank.mono fun n _ ⟨k, hk⟩ => ⟨k, (hw.read n k).symm.trans hk⟩

end Wraps

/-- What the loop over what `n` holds does to the other tables. -/
structure Apart (rank : Nat → Nat) (n : Nat) (h h' : Heap κ σ) : Prop where
  fresh : h'.fresh = h.fresh
  read : ∀ m ≠ n, ∀ k, h'.read m k = h.read m k
  node : ∀ m ≠ n, h'.node m = h.node m ∨ (h.node m).real = none ∧ (h'.node m).real.isSome ∧ rank m < rank n
  closed : h.Closed → h'.Closed

namespace Apart

variable {rank : Nat → Nat} {n : Nat} {h h' h'' : Heap κ σ}

theorem refl : Apart rank n h h := ⟨rfl, fun _ _ _ => rfl, fun _ _ => Or.inl rfl, id⟩

theorem trans (ha : Apart rank n h h') (ha' : Apart rank n h' h'') : Apart rank n h h'' := by
  refine ⟨ha'.fresh.trans ha.fresh, fun m hm k => (ha'.read m hm k).trans (ha.read m hm k), fun m hm => ?_,
    fun hclosed => ha'.closed (ha.closed hclosed)⟩
  rcases ha.node m hm with heq | ⟨hnone, hsome, hlt⟩
  · rw [← heq]
    exact ha'.node m hm
  · rcases ha'.node m hm with heq' | ⟨hnone', -, -⟩
    · exact Or.inr ⟨hnone, by rwa [heq'], hlt⟩
    · rw [hnone'] at hsome
      cases hsome

theorem isSome (ha : Apart rank n h h') {m : Nat} (hn : m ≠ n) (hm : (h.node m).real.isSome) : (h'.node m).real.isSome := by
  rcases ha.node m hn with heq | ⟨hnone, -, -⟩
  · rwa [heq]
  · rw [hnone] at hm
    cases hm

theorem setFields (h : Heap κ σ) (hreal : (h.node n).real = none) (fields : Fields κ σ) :
    Apart rank n h (h.setFields n fields) := by
  have hother : ∀ m ≠ n, (h.setFields n fields).node m = h.node m := fun m hm => h.setNode_of_ne hm _
  have hself : ((h.setFields n fields).node n).real = none := by
    rw [Heap.setFields, setNode_self]
    exact hreal
  refine ⟨rfl, fun m hm k => read_congr (hother m hm) k, fun m hm => Or.inl (hother m hm), fun hclosed => ⟨?_, ?_⟩⟩
  · intro m hm
    by_cases hmn : m = n
    · rw [hmn, hself] at hm
      cases hm
    · rw [hother m hmn] at hm ⊢
      exact hclosed.bare m hm
  · rintro m c hm ⟨k, hk⟩
    by_cases hmn : m = n
    · rw [hmn, hself] at hm
      cases hm
    · rw [read_congr (hother m hmn)] at hk
      rw [hother m hmn] at hm
      have hc := hclosed.real m c hm ⟨k, hk⟩
      by_cases hcn : c = n
      · rw [hcn, hreal] at hc
        cases hc
      · rwa [hother c hcn]

end Apart

theorem Wraps.apart {rank : Nat → Nat} {n : Nat} {h h' : Heap κ σ} (hw : Wraps rank (rank n) h h') :
    Apart rank n h h' ∧ h'.node n = h.node n := by
  refine ⟨⟨hw.fresh, fun m _ => hw.read m, fun m _ => hw.node m, hw.closed⟩, ?_⟩
  rcases hw.node n with heq | ⟨-, -, hlt⟩
  · exact heq
  · exact absurd hlt (lt_irrefl _)

def Below (rank : Nat → Nat) (bound : Nat) (v : Value σ) : Prop := ∀ m, v = .table m → rank m < bound

def Encodes (p : Pairs κ σ) (rank : Nat → Nat) (fuel : Nat) : Prop :=
  ∀ (h : Heap κ σ) (path : List κ) (v : Value σ) (bound : Nat), Ranked h.Child rank → Below rank fuel v → Below rank bound v →
    ∃ h', encode p fuel h path v = some h' ∧ Wraps rank bound h h' ∧ ∀ m, v = .table m → (h'.node m).real.isSome

/-- **The loop of `_encode`**: what the table holds goes aside, key by key. -/
theorem encode_loop {rank : Nat → Nat} {fuel : Nat} (ih : Encodes p rank fuel) {n : Nat} (hfuel : rank n ≤ fuel) (path : List κ)
    (es : List (Sigma fun _ : κ => Value σ)) : ∀ (h : Heap κ σ) (real : Fields κ σ), (h.node n).real = none →
    Ranked h.Child rank → (∀ e ∈ es, (h.node n).fields.lookup e.1 = some e.2) → (es.map Sigma.fst).Nodup →
      ∃ h' real', es.foldlM (encodeField (encode p fuel) n path) (h, real) = some (h', real') ∧ Apart rank n h h' ∧
        (h'.node n).real = none ∧
        (∀ k, (h'.node n).fields.lookup k = if k ∈ es.map Sigma.fst then none else (h.node n).fields.lookup k) ∧
        (∀ k, real'.lookup k = if k ∈ es.map Sigma.fst then (h.node n).fields.lookup k else real.lookup k) ∧
        ∀ e ∈ es, ∀ m, e.2 = .table m → (h'.node m).real.isSome := by
  induction es with
  | nil =>
    intro h real hreal _ _ _
    exact ⟨h, real, rfl, Apart.refl, hreal, fun k => by simp, fun k => by simp, fun e he => by cases he⟩
  | cons e es iht =>
    intro h real hreal hrank hes hnodup
    obtain ⟨hnot, hnodup⟩ := List.nodup_cons.1 hnodup
    have hnode : (h.setFields n ((h.node n).fields.erase e.1)).node n = ⟨(h.node n).fields.erase e.1, none⟩ := by
      rw [setFields, setNode_self, ← hreal]
    have hset : Apart rank n h (h.setFields n ((h.node n).fields.erase e.1)) := Apart.setFields h hreal _
    have hread : ∀ k, h.read n k = (h.node n).fields.lookup k := fun k => read_bare hreal k
    have hrank' : Ranked (h.setFields n ((h.node n).fields.erase e.1)).Child rank := by
      refine hrank.mono fun m c ⟨k, hk⟩ => ⟨k, ?_⟩
      by_cases hm : m = n
      · rw [hm, read_bare (by rw [hnode]), hnode] at hk
        rw [hm, hread]
        exact (lookup_erase_some hk).2
      · rwa [hset.read m hm] at hk
    have hbelow : ∀ m, e.2 = .table m → rank m < rank n := fun m hm =>
      hrank n m ⟨e.1, by rw [hread, hes e List.mem_cons_self, hm]⟩
    obtain ⟨h₂, hencode, hwraps, htold⟩ := ih _ (path ++ [e.1]) e.2 (rank n) hrank'
      (fun m hm => lt_of_lt_of_le (hbelow m hm) hfuel) hbelow
    obtain ⟨hapart, hsame⟩ := hwraps.apart
    rw [hnode] at hsame
    have hes' : ∀ e' ∈ es, (h₂.node n).fields.lookup e'.1 = some e'.2 := by
      intro e' he'
      have hne : e'.1 ≠ e.1 := fun heq => hnot (by rw [← heq]; exact List.mem_map_of_mem he')
      rw [hsame, AList.lookup_erase_ne hne]
      exact hes e' (List.mem_cons_of_mem e he')
    obtain ⟨h', real', hloop, hapart', hreal', hfields, hlookup, hchildren⟩ := iht h₂ (real.insert e.1 e.2) (by rw [hsame])
      (hwraps.ranked hrank') hes' hnodup
    refine ⟨h', real', ?_, hset.trans (hapart.trans hapart'), hreal', fun k => ?_, fun k => ?_, fun e' he' m hm => ?_⟩
    · rw [List.foldlM_cons]
      simp only [encodeField, hencode, Option.bind_eq_bind, Option.bind_some, Option.pure_def]
      exact hloop
    · rw [hfields, hsame]
      simp only [List.map_cons, List.mem_cons]
      by_cases hk : k = e.1
      · rw [hk, AList.lookup_erase, ite_self, if_pos (Or.inl rfl)]
      · simp only [hk, AList.lookup_erase_ne hk, false_or]
    · rw [hlookup, hsame]
      simp only [List.map_cons, List.mem_cons]
      by_cases hk : k = e.1
      · rw [if_neg (by rwa [hk]), if_pos (Or.inl hk), hk, AList.lookup_insert, hes e List.mem_cons_self]
      · simp only [hk, AList.lookup_erase_ne hk, AList.lookup_insert_ne hk, false_or]
    · rcases List.mem_cons.1 he' with rfl | he'
      · have hmn : m ≠ n := fun heq => absurd (hbelow m hm) (by rw [heq]; exact lt_irrefl _)
        exact hapart'.isSome hmn (htold m hm)
      · exact hchildren e' he' m hm

theorem eq_empty {fields : Fields κ σ} (h : ∀ k, fields.lookup k = none) : fields = ∅ := by
  refine AList.ext (List.eq_nil_iff_forall_not_mem.2 fun e he => ?_)
  have hmem := AList.mem_lookup_iff.2 he
  rw [h] at hmem
  cases hmem

theorem mem_order (p : Pairs κ σ) (fields : Fields κ σ) (e : Sigma fun _ : κ => Value σ) :
    e ∈ p.order fields.entries ↔ fields.lookup e.1 = some e.2 := by
  rw [(p.perm _).mem_iff]
  exact AList.mem_lookup_iff.symm

omit [DecidableEq κ] in
theorem nodup_order (p : Pairs κ σ) (fields : Fields κ σ) : ((p.order fields.entries).map Sigma.fst).Nodup :=
  ((p.perm _).map _).nodup_iff.2 fields.keys_nodup

theorem mem_order_keys (p : Pairs κ σ) (fields : Fields κ σ) (k : κ) :
    k ∈ (p.order fields.entries).map Sigma.fst ↔ fields.lookup k ≠ none := by
  rw [List.mem_map]
  constructor
  · rintro ⟨e, he, rfl⟩
    rw [(mem_order p fields e).1 he]
    exact Option.some_ne_none _
  · intro hk
    obtain ⟨v, hv⟩ := Option.ne_none_iff_exists'.1 hk
    exact ⟨⟨k, v⟩, (mem_order p fields _).2 hv, rfl⟩

theorem Apart.aside {rank : Nat → Nat} {n bound : Nat} {h h' : Heap κ σ} (ha : Apart rank n h h') (path : List κ)
    {real : Fields κ σ} (hreal : (h.node n).real = none)
    (hempty : (h'.node n).fields = ∅) (hread : ∀ k, real.lookup k = h.read n k)
    (hchildren : ∀ k m, h.read n k = some (.table m) → (h'.node m).real.isSome) (hbound : rank n < bound) :
    Wraps rank bound h (h'.setNode n { h'.node n with real := some ⟨path, real⟩ }) := by
  have hself : (h'.setNode n { h'.node n with real := some ⟨path, real⟩ }).node n = ⟨∅, some ⟨path, real⟩⟩ := by
    rw [setNode_self, ← hempty]
  have hother : ∀ m ≠ n, (h'.setNode n { h'.node n with real := some ⟨path, real⟩ }).node m = h'.node m :=
    fun m hm => h'.setNode_of_ne hm _
  have hreadn : ∀ k, (h'.setNode n { h'.node n with real := some ⟨path, real⟩ }).read n k = h.read n k := by
    intro k
    rw [Heap.read, hself]
    exact hread k
  refine ⟨ha.fresh, fun m k => ?_, fun m => ?_, fun hclosed => ⟨fun m hm => ?_, ?_⟩⟩
  · by_cases hm : m = n
    · rw [hm, hreadn]
    · rw [read_congr (hother m hm), ha.read m hm]
  · by_cases hm : m = n
    · rw [hm, hself]
      exact Or.inr ⟨hreal, rfl, hbound⟩
    · rw [hother m hm]
      exact (ha.node m hm).imp_right fun ⟨hnone, hsome, hlt⟩ => ⟨hnone, hsome, hlt.trans hbound⟩
  · by_cases hmn : m = n
    · rw [hmn, hself]
    · rw [hother m hmn] at hm ⊢
      exact (ha.closed hclosed).bare m hm
  · rintro m c hm ⟨k, hk⟩
    have hc : c = n ∨ (h'.node c).real.isSome := by
      by_cases hmn : m = n
      · rw [hmn, hreadn] at hk
        exact Or.inr (hchildren k c hk)
      · rw [hother m hmn] at hm
        rw [read_congr (hother m hmn)] at hk
        exact Or.inr ((ha.closed hclosed).real m c hm ⟨k, hk⟩)
    by_cases hcn : c = n
    · rw [hcn, hself]
      rfl
    · rw [hother c hcn]
      exact hc.resolve_left hcn

/-- **What `_encode` does**: every table in the value comes to tell its changes, and nothing else is changed. -/
theorem encode_spec (p : Pairs κ σ) (rank : Nat → Nat) : ∀ fuel : Nat, Encodes p rank fuel
  | fuel, h, path, .scalar s, bound, _, _, _ => ⟨h, by cases fuel <;> rfl, Wraps.refl, fun m hm => by cases hm⟩
  | 0, h, path, .table n, bound, _, hfuel, _ => absurd (hfuel n rfl) (Nat.not_lt_zero _)
  | fuel + 1, h, path, .table n, bound, hrank, hfuel, hbound => by
    cases hreal : (h.node n).real with
    | some real =>
      refine ⟨h, by rw [encode, hreal], Wraps.refl, fun m hm => ?_⟩
      rw [← Value.table.inj hm, hreal]
      rfl
    | none =>
      obtain ⟨h', real', hloop, hapart, -, hfields, hlookup, hchildren⟩ :=
        encode_loop (encode_spec p rank fuel) (Nat.le_of_lt_succ (hfuel n rfl)) path (p.order (h.node n).fields.entries) h ∅
          hreal hrank (fun e he => (mem_order p _ e).1 he) (nodup_order p _)
      have hempty : (h'.node n).fields = ∅ := by
        refine eq_empty fun k => ?_
        rw [hfields]
        split
        · rfl
        · next hk => rwa [mem_order_keys, not_not] at hk
      have hread : ∀ k, real'.lookup k = h.read n k := by
        intro k
        rw [hlookup, read_bare hreal]
        split
        · rfl
        · next hk =>
          rw [mem_order_keys, not_not] at hk
          rw [hk]
          rfl
      refine ⟨h'.setNode n { h'.node n with real := some ⟨path, real'⟩}, ?_, ?_, fun m hm => ?_⟩
      · rw [encode, hreal]
        have hbind := congrArg (fun r => r.bind fun acc : Heap κ σ × Fields κ σ =>
          some (acc.1.setNode n { acc.1.node n with real := some ⟨path, acc.2⟩ })) hloop
        exact hbind
      · refine hapart.aside path hreal hempty hread (fun k m hk => ?_) (hbound n rfl)
        rw [read_bare hreal] at hk
        exact hchildren ⟨k, .table m⟩ ((mem_order p _ _).2 hk) m rfl
      · rw [← Value.table.inj hm, setNode_self]
        rfl

end Heap
end TableMonitor
end Sncpp
