import Mathlib.Algebra.Order.Group.Nat
import Sncpp.Links
import Sncpp.Steps
/-!
# LruCache — the cache of the values that were used last (`LRUCache`)

The nodes of a cache are linked from the one that was used last to the one that was used first, and `key2Node` finds
them.
-/
namespace Sncpp
namespace LruCache

open Links (write)

variable {κ ν : Type} [DecidableEq κ]

/-- A cache with the fields of its nodes; a value of `none` is nil. -/
structure Cache (κ ν : Type) where
  maxSize : Int
  key2Node : κ → Option ℕ
  cacheHead : Option ℕ
  cacheTail : Option ℕ
  count : Int
  key : ℕ → κ
  value : ℕ → Option ν
  preNode : ℕ → Option ℕ
  nextNode : ℕ → Option ℕ
  fresh : ℕ

namespace Cache

def New [Inhabited κ] (capacity : Int) : Cache κ ν :=
  ⟨capacity, fun _ => none, none, none, 0, fun _ => default, fun _ => none, fun _ => none, fun _ => none, 0⟩

variable (c : Cache κ ν)

def SetMaxSize (maxSize : Int) : Cache κ ν := if 0 < maxSize then { c with maxSize := maxSize } else c

def Check (key : κ) : Option ν :=
  match c.cacheHead with
  | none => none
  | some _ => (c.key2Node key).bind c.value

/-- An error is the cache as the raise leaves it. -/
def PushFront (node : ℕ) : Except (Cache κ ν) (Cache κ ν) :=
  if c.cacheHead = some node then .ok c
  else
    let c := { c with cacheTail := if c.cacheTail = some node then c.preNode node else c.cacheTail }
    match c.preNode node with
    | none => .error c
    | some pre =>
      let c := { c with nextNode := write c.nextNode (some pre) (c.nextNode node) }
      let c := { c with preNode := write c.preNode (c.nextNode node) (c.preNode node) }
      let c := { c with
        nextNode := Function.update c.nextNode node c.cacheHead
        preNode := Function.update c.preNode node none }
      match c.cacheHead with
      | none => .error c
      | some head => .ok { c with preNode := write c.preNode (some head) (some node), cacheHead := some node }

def Get (key : κ) : Except (Cache κ ν) (Cache κ ν × Option ν) :=
  match c.cacheHead with
  | none => .ok (c, none)
  | some _ =>
    match c.key2Node key with
    | none => .ok (c, none)
    | some node =>
      match c.PushFront node with
      | .error c => .error c
      | .ok c =>
        match c.cacheHead with
        | none => .error c
        | some head => .ok (c, c.value head)

def create (key : κ) (value : Option ν) (nextNode : Option ℕ) : Cache κ ν :=
  { c with
    key := Function.update c.key c.fresh key
    value := Function.update c.value c.fresh value
    preNode := Function.update c.preNode c.fresh none
    nextNode := Function.update c.nextNode c.fresh nextNode
    fresh := c.fresh + 1 }

def entry (node : ℕ) : κ × Option ν := (c.key node, c.value node)

def evict : Except (Cache κ ν) (Cache κ ν × (κ × Option ν)) :=
  match c.cacheTail with
  | none => .error c
  | some tail =>
    let c := { c with key2Node := Function.update c.key2Node (c.key tail) none }
    match c.preNode tail with
    | none => .error c
    | some pre => .ok ({ c with
        nextNode := write c.nextNode (some pre) none
        cacheTail := some pre
        count := c.count - 1 }, c.entry tail)

/-- The loop; as every turn counts down by one, it has no more turns than these. -/
def shrink : ℕ → Cache κ ν → List (κ × Option ν) → Except (Cache κ ν) (Cache κ ν × List (κ × Option ν))
  | 0, c, callbackCache => .ok (c, callbackCache)
  | turns + 1, c, callbackCache =>
    if c.maxSize ≤ c.count then
      match c.evict with
      | .error c => .error c
      | .ok (c, e) => shrink turns c (callbackCache ++ [e])
    else .ok (c, callbackCache)

def first (key : κ) (value : Option ν) : Cache κ ν :=
  { c.create key value none with
    key2Node := Function.update c.key2Node key (some c.fresh)
    cacheHead := some c.fresh
    cacheTail := some c.fresh
    count := c.count + 1 }

def again (head : ℕ) (key : κ) (value : Option ν) : Cache κ ν :=
  { c with
    key2Node := Function.update (Function.update c.key2Node (c.key head) none) key (some head)
    key := Function.update c.key head key
    value := Function.update c.value head value }

def before (head : ℕ) (key : κ) (value : Option ν) : Cache κ ν :=
  { c.create key value (some head) with
    preNode := write (c.create key value (some head)).preNode (some head) (some c.fresh)
    cacheHead := some c.fresh
    key2Node := Function.update c.key2Node key (some c.fresh)
    count := c.count + 1 }

/-- `Set` with the capacity that it has then: the cache, and what the callback is told. -/
def place (key : κ) (value : Option ν) : Except (Cache κ ν) (Cache κ ν × List (κ × Option ν)) :=
  match c.cacheHead with
  | none => .ok (c.first key value, [])
  | some head =>
    match c.key2Node key with
    | some node =>
      match PushFront { c with value := Function.update c.value node value } node with
      | .error c => .error c
      | .ok c => .ok (c, [])
    | none =>
      if c.count = c.maxSize ∧ some head = c.cacheTail then .ok (c.again head key value, [c.entry head])
      else
        match shrink (c.count + 1 - c.maxSize).toNat c [] with
        | .error c => .error c
        | .ok (c, callbackCache) => .ok (c.before head key value, callbackCache)

def Set (key : κ) (value : Option ν) (bForce : Bool) :
    Except (Cache κ ν) (Cache κ ν × List (κ × Option ν)) :=
  if c.maxSize < 1 then .ok (c, [])
  else place (if bForce then { c with maxSize := c.maxSize + 1 } else c) key value

def Remove (key : κ) : Cache κ ν × Option ν :=
  match c.cacheHead with
  | none => (c, none)
  | some _ =>
    match c.key2Node key with
    | none => (c, none)
    | some node =>
      let c := { c with cacheHead := if c.cacheHead = some node then c.nextNode node else c.cacheHead }
      let c := { c with cacheTail := if c.cacheTail = some node then c.preNode node else c.cacheTail }
      let c := { c with preNode := write c.preNode (c.nextNode node) (c.preNode node) }
      let c := { c with nextNode := write c.nextNode (c.preNode node) (c.nextNode node) }
      ({ c with key2Node := Function.update c.key2Node key none, count := c.count - 1 }, c.value node)

end Cache

inductive Event (κ ν : Type) where
  | Set (key : κ) (value : Option ν) (bForce : Bool)
  | Get (key : κ)
  | Check (key : κ)
  | Remove (key : κ)
  | SetMaxSize (maxSize : Int)

/-- What an operation returns, what the callback is told of, and whether it raises. -/
structure Reply (κ ν : Type) where
  value : Option ν
  removed : List (κ × Option ν)
  raised : Bool

def Cache.call (c : Cache κ ν) : Event κ ν → Cache κ ν × Reply κ ν
  | .Set key value bForce =>
    match c.Set key value bForce with
    | .error c => (c, ⟨none, [], true⟩)
    | .ok (c, removed) => (c, ⟨none, removed, false⟩)
  | .Get key =>
    match c.Get key with
    | .error c => (c, ⟨none, [], true⟩)
    | .ok (c, value) => (c, ⟨value, [], false⟩)
  | .Check key => (c, ⟨c.Check key, [], false⟩)
  | .Remove key => ((c.Remove key).1, ⟨(c.Remove key).2, [], false⟩)
  | .SetMaxSize maxSize => (c.SetMaxSize maxSize, ⟨none, [], false⟩)

/-! ## The entries that were used last -/

def put (key : κ) (value : Option ν) (es : List (κ × Option ν)) : List (κ × Option ν) :=
  (key, value) :: es.filter (fun e => e.1 ≠ key)

structure Lru (κ ν : Type) where
  maxSize : Int
  entries : List (κ × Option ν)
  nodup : (entries.map Prod.fst).Nodup

omit [DecidableEq κ] in
theorem nodup_of_sublist {es es' : List (κ × Option ν)} (h : (es.map Prod.fst).Nodup) (hsub : es'.Sublist es) :
    (es'.map Prod.fst).Nodup := h.sublist (hsub.map Prod.fst)

theorem put_nodup {es : List (κ × Option ν)} (key : κ) (value : Option ν) (h : (es.map Prod.fst).Nodup) :
    ((put key value es).map Prod.fst).Nodup := by
  refine List.nodup_cons.2 ⟨fun hmem => ?_, nodup_of_sublist h List.filter_sublist⟩
  obtain ⟨e, he, heq⟩ := List.mem_map.1 hmem
  exact of_decide_eq_true (List.mem_filter.1 he).2 heq

namespace Lru

variable (l : Lru κ ν)

def find (key : κ) : Option (Option ν) := (l.entries.find? (fun e => e.1 = key)).map Prod.snd

def room (key : κ) : ℕ := if (l.find key).isSome then l.entries.length else (l.maxSize - 1).toNat

def place (key : κ) (value : Option ν) : Lru κ ν × List (κ × Option ν) :=
  (⟨l.maxSize, put key value (l.entries.take (l.room key)),
    put_nodup key value (nodup_of_sublist l.nodup (List.take_sublist _ _))⟩, (l.entries.drop (l.room key)).reverse)

def Set (key : κ) (value : Option ν) (bForce : Bool) : Lru κ ν × List (κ × Option ν) :=
  if l.maxSize < 1 then (l, [])
  else place (if bForce then ⟨l.maxSize + 1, l.entries, l.nodup⟩ else l) key value

def Get (key : κ) : Lru κ ν :=
  match l.find key with
  | none => l
  | some value => ⟨l.maxSize, put key value l.entries, put_nodup key value l.nodup⟩

def Remove (key : κ) : Lru κ ν :=
  ⟨l.maxSize, l.entries.filter (fun e => e.1 ≠ key), nodup_of_sublist l.nodup List.filter_sublist⟩

def SetMaxSize (maxSize : Int) : Lru κ ν := if 0 < maxSize then ⟨maxSize, l.entries, l.nodup⟩ else l

def call : Event κ ν → Lru κ ν × List (κ × Option ν)
  | .Set key value bForce => l.Set key value bForce
  | .Get key => (l.Get key, [])
  | .Check _ => (l, [])
  | .Remove key => (l.Remove key, [])
  | .SetMaxSize maxSize => (l.SetMaxSize maxSize, [])

end Lru

/-- The cache, the map, and the values that were set last, of the keys that have not been evicted or removed since. -/
structure World (κ ν : Type) where
  cache : Cache κ ν
  lru : Lru κ ν
  last : κ → Option (Option ν)

variable (w : World κ ν)

/-- What an event leaves of the values that were set, if these are the entries that the callback has been told of. -/
def told (removed : List (κ × Option ν)) : Event κ ν → κ → Option (Option ν)
  | .Set key value _ =>
    if w.cache.maxSize < 1 then w.last
    else Function.update (fun k => if k ∈ removed.map Prod.fst then none else w.last k) key (some value)
  | .Remove key => Function.update w.last key none
  | _ => w.last

def step (w : World κ ν) (e : Event κ ν) : World κ ν :=
  ⟨(w.cache.call e).1, (w.lru.call e).1, told w (w.cache.call e).2.removed e⟩

def value : Event κ ν → Option ν
  | .Get key => (w.last key).join
  | .Check key => (w.last key).join
  | .Remove key => (w.last key).join
  | _ => none

def start [Inhabited κ] (capacity : Int) : World κ ν :=
  ⟨Cache.New capacity, ⟨capacity, [], List.nodup_nil⟩, fun _ => none⟩

/-- **The nodes of a cache**: they are linked from head to tail, found by their keys and counted. -/
structure Holds (c : Cache κ ν) (nodes : List ℕ) : Prop where
  links : Links c.nextNode c.preNode c.cacheHead c.cacheTail nodes
  found : ∀ key node, c.key2Node key = some node ↔ node ∈ nodes ∧ c.key node = key
  count : c.count = nodes.length
  old : ∀ node ∈ nodes, node < c.fresh

def Rep (c : Cache κ ν) (l : Lru κ ν) : Prop :=
  ∃ nodes, Holds c nodes ∧ nodes.map c.entry = l.entries ∧ c.maxSize = l.maxSize

/-- **An event does what it does to the map**: it does not raise, it leaves the entries of the map in their order, it tells
the callback of those that the map evicts, and returns the value that was set last; and a new key is in a cache that is not
too large. -/
def Right (w : World κ ν) (e : Event κ ν) : Prop :=
  (w.cache.call e).2.raised = false ∧ Rep (step w e).cache (step w e).lru ∧
    (w.cache.call e).2.removed = (w.lru.call e).2 ∧ (w.cache.call e).2.value = value w e ∧
    ∀ key value bForce, e = .Set key value bForce → w.cache.key2Node key = none → (step w e).cache.key2Node key ≠ none →
      (step w e).cache.count ≤ (step w e).cache.maxSize

/-- A new key does not have to have room made for it in a cache for one node that holds several. -/
def Fits (w : World κ ν) : Event κ ν → Prop
  | .Set key _ bForce => bForce = false → w.cache.maxSize = 1 → 2 ≤ w.cache.count → w.cache.key2Node key ≠ none
  | _ => True

namespace Holds

variable {c : Cache κ ν} {nodes xs ys : List ℕ} {node : ℕ}

omit [DecidableEq κ] in
theorem of_mem (h : Holds c nodes) (hmem : node ∈ nodes) : c.key2Node (c.key node) = some node :=
  (h.found _ _).2 ⟨hmem, rfl⟩

theorem find? (h : Holds c nodes) (key : κ) : nodes.find? (fun node => c.key node = key) = c.key2Node key := by
  cases hnode : c.key2Node key with
  | none =>
    refine List.find?_eq_none.2 fun node hmem heq => ?_
    rw [(h.found key node).2 ⟨hmem, of_decide_eq_true heq⟩] at hnode
    cases hnode
  | some node =>
    obtain ⟨hmem, hkey⟩ := (h.found key node).1 hnode
    cases hfind : nodes.find? (fun node => c.key node = key) with
    | none => exact absurd (decide_eq_true hkey) (List.find?_eq_none.1 hfind node hmem)
    | some node' =>
      have hkey' : c.key node' = key := by simpa using List.find?_some hfind
      rw [← hnode]
      exact ((h.found key node').2 ⟨List.mem_of_find?_eq_some hfind, hkey'⟩).symm

omit [DecidableEq κ] in
theorem perm {c' : Cache κ ν} {nodes' : List ℕ} (h : Holds c nodes)
    (hlinks : Links c'.nextNode c'.preNode c'.cacheHead c'.cacheTail nodes') (hmem : ∀ node, node ∈ nodes' ↔ node ∈ nodes)
    (hlen : nodes'.length = nodes.length) (hfound : c'.key2Node = c.key2Node) (hkey : c'.key = c.key)
    (hcount : c'.count = c.count) (hfresh : c'.fresh = c.fresh) : Holds c' nodes' := by
  refine ⟨hlinks, fun key node => ?_, ?_, fun node hnode => ?_⟩
  · rw [hfound, hkey, hmem, h.found]
  · rw [hcount, h.count, hlen]
  · rw [hfresh]
    exact h.old node ((hmem node).1 hnode)

omit [DecidableEq κ] in
theorem head_ne (h : Holds c (xs ++ node :: ys)) (hxs : xs ≠ []) : c.cacheHead ≠ some node := by
  obtain ⟨x, xs, rfl⟩ := List.exists_cons_of_ne_nil hxs
  rw [h.links.head]
  intro heq
  obtain rfl : x = node := Option.some.inj heq
  exact (List.nodup_cons.1 h.links.nodup).1 (List.mem_append_right _ List.mem_cons_self)

omit [DecidableEq κ] in
theorem pushFront (h : Holds c (xs ++ node :: ys)) : ∃ c', c.PushFront node = .ok c' ∧ Holds c' (node :: (xs ++ ys)) ∧
    c'.entry = c.entry ∧ c'.maxSize = c.maxSize := by
  rcases List.eq_nil_or_concat xs with rfl | ⟨zs, p, rfl⟩
  · exact ⟨c, if_pos h.links.head, h, rfl, rfl⟩
  rw [List.concat_eq_append] at h ⊢
  have hne := h.head_ne (List.concat_ne_nil p zs)
  have hpre : c.preNode node = some p := h.links.mid.1.trans List.getLast?_concat
  have hnext : write c.nextNode (some p) (c.nextNode node) node = c.nextNode node :=
    if_neg (hpre ▸ h.links.ne_self.1)
  have hcut := h.links.cut
  rw [if_neg hne, hpre] at hcut
  have hpush := hcut.push (List.nodup_middle.1 h.links.nodup).notMem
  cases hhead : c.cacheHead with
  | none =>
    have hnil := hcut.head
    rw [hhead] at hnil
    simp at hnil
  | some head =>
    rw [hhead] at hpush
    have htail : ∃ x, (if c.cacheTail = some node then some p else c.cacheTail) = some x := by
      split
      · exact ⟨p, rfl⟩
      · rw [h.links.tail]
        exact ⟨_, List.getLast?_eq_some_getLast (List.append_ne_nil_of_right_ne_nil _ (List.cons_ne_nil node ys))⟩
    obtain ⟨x, htail⟩ := htail
    rw [htail, Option.some_or] at hpush
    have hok : c.PushFront node = .ok { c with
        nextNode := Function.update (write c.nextNode (some p) (c.nextNode node)) node (some head)
        preNode := write (Function.update (write c.preNode (c.nextNode node) (some p)) node none) (some head) (some node)
        cacheHead := some node
        cacheTail := some x } := by
      rw [hhead] at hne
      simp only [Cache.PushFront, hpre, hnext, hhead, htail]
      exact if_neg hne
    have hperm : (node :: (zs ++ [p] ++ ys)).Perm (zs ++ [p] ++ node :: ys) := List.perm_middle.symm
    exact ⟨_, hok, h.perm hpush (fun b => hperm.mem_iff) hperm.length_eq rfl rfl rfl rfl, rfl, rfl⟩

theorem erase {c' : Cache κ ν} (h : Holds c (xs ++ node :: ys))
    (hlinks : Links c'.nextNode c'.preNode c'.cacheHead c'.cacheTail (xs ++ ys))
    (hfound : c'.key2Node = Function.update c.key2Node (c.key node) none) (hkey : c'.key = c.key)
    (hcount : c'.count = c.count - 1) (hfresh : c'.fresh = c.fresh) : Holds c' (xs ++ ys) := by
  have hmem : ∀ n, n ∈ xs ++ node :: ys ↔ n = node ∨ n ∈ xs ++ ys := fun n => by
    rw [List.perm_middle.mem_iff, List.mem_cons]
  have hnot : node ∉ xs ++ ys := (List.nodup_middle.1 h.links.nodup).notMem
  refine ⟨hlinks, fun key n => ?_, ?_, fun n hn => ?_⟩
  · rw [hfound, hkey, Function.update_apply]
    split
    · next heq =>
      refine ⟨fun hn => (nomatch hn), fun hn => ?_⟩
      have hsame := h.of_mem ((hmem n).2 (Or.inr hn.1))
      rw [hn.2, heq, h.of_mem ((hmem node).2 (Or.inl rfl))] at hsame
      exact absurd (Option.some.inj hsame ▸ hn.1) hnot
    · next hne =>
      rw [h.found, hmem]
      refine and_congr_left fun hk => or_iff_right fun heq => hne ?_
      rw [← hk, heq]
  · rw [hcount, h.count, List.length_append, List.length_append, List.length_cons]
    omega
  · rw [hfresh]
    exact h.old n ((hmem n).2 (Or.inr hn))

theorem add {c' : Cache κ ν} {key : κ} (h : Holds c nodes) (hnone : c.key2Node key = none)
    (hlinks : Links c'.nextNode c'.preNode c'.cacheHead c'.cacheTail (c.fresh :: nodes))
    (hfound : c'.key2Node = Function.update c.key2Node key (some c.fresh))
    (hkey : c'.key = Function.update c.key c.fresh key) (hcount : c'.count = c.count + 1) (hfresh : c'.fresh = c.fresh + 1) : Holds c' (c.fresh :: nodes) := by
  have hnew : ∀ n ∈ nodes, n ≠ c.fresh := fun n hn => (h.old n hn).ne
  refine ⟨hlinks, fun k n => ?_, ?_, fun n hn => ?_⟩
  · rw [hfound, hkey, Function.update_apply, List.mem_cons]
    by_cases hk : k = key
    · rw [if_pos hk]
      refine ⟨fun hn => ?_, fun hn => ?_⟩
      · obtain rfl := Option.some.inj hn
        exact ⟨Or.inl rfl, (Function.update_self _ _ _).trans hk.symm⟩
      · rcases hn.1 with heq | hmem
        · rw [heq]
        · have hsome := h.of_mem hmem
          rw [← Function.update_of_ne (hnew n hmem) key c.key, hn.2, hk, hnone] at hsome
          cases hsome
    · rw [if_neg hk, h.found]
      refine ⟨fun hn => ⟨Or.inr hn.1, by rw [Function.update_of_ne (hnew n hn.1), hn.2]⟩, fun hn => ?_⟩
      rcases hn.1 with heq | hmem
      · rw [heq, Function.update_self] at hn
        exact absurd hn.2.symm hk
      · rw [Function.update_of_ne (hnew n hmem)] at hn
        exact ⟨hmem, hn.2⟩
  · rw [hcount, h.count, List.length_cons]
    push_cast
    rfl
  · rw [hfresh]
    rcases List.mem_cons.1 hn with rfl | hn
    · exact Nat.lt_succ_self _
    · exact Nat.lt_succ_of_lt (h.old n hn)

theorem evict (h : Holds c (xs ++ [node])) (hxs : xs ≠ []) : ∃ c', c.evict = .ok (c', c.entry node) ∧ Holds c' xs ∧
    c'.entry = c.entry ∧ c'.maxSize = c.maxSize ∧ c'.cacheHead = c.cacheHead := by
  have hne := h.head_ne hxs
  have htail : c.cacheTail = some node := h.links.tail.trans List.getLast?_concat
  obtain ⟨hpre, hnext⟩ := h.links.mid
  have hcut := h.links.cut
  rw [if_neg hne, if_pos htail, hnext] at hcut
  cases hp : c.preNode node with
  | none => exact absurd (List.getLast?_eq_none_iff.1 (hpre.symm.trans hp)) hxs
  | some p =>
    rw [hp] at hcut
    have hok : c.evict = .ok ({ c with
        key2Node := Function.update c.key2Node (c.key node) none
        nextNode := write c.nextNode (some p) none
        cacheTail := some p
        count := c.count - 1 }, c.entry node) := by
      simp only [Cache.evict, htail, hp, Cache.entry]
    have herase : Holds { c with
        key2Node := Function.update c.key2Node (c.key node) none
        nextNode := write c.nextNode (some p) none
        cacheTail := some p
        count := c.count - 1 } (xs ++ []) := h.erase hcut rfl rfl rfl rfl
    rw [List.append_nil] at herase
    exact ⟨_, hok, herase, rfl, rfl, rfl⟩

theorem remove (h : Holds c (xs ++ node :: ys)) : Holds (c.Remove (c.key node)).1 (xs ++ ys) ∧
    (c.Remove (c.key node)).1.entry = c.entry ∧ (c.Remove (c.key node)).1.maxSize = c.maxSize ∧
    (c.Remove (c.key node)).2 = c.value node := by
  have hnode := h.of_mem (List.mem_append_right xs List.mem_cons_self)
  have hpre : write c.preNode (c.nextNode node) (c.preNode node) node = c.preNode node := if_neg h.links.ne_self.2
  have hcut := h.links.cut
  cases hhead : c.cacheHead with
  | none =>
    have hnil := h.links.head
    rw [hhead] at hnil
    simp at hnil
  | some head =>
    rw [hhead] at hcut
    have hremove : c.Remove (c.key node) = ({ c with
        cacheHead := if some head = some node then c.nextNode node else some head
        cacheTail := if c.cacheTail = some node then c.preNode node else c.cacheTail
        preNode := write c.preNode (c.nextNode node) (c.preNode node)
        nextNode := write c.nextNode (c.preNode node) (c.nextNode node)
        key2Node := Function.update c.key2Node (c.key node) none
        count := c.count - 1 }, c.value node) := by
      simp only [Cache.Remove, hhead, hnode, hpre]
    rw [hremove]
    exact ⟨h.erase hcut rfl rfl rfl rfl, rfl, rfl, rfl⟩

/-- **The loop of `Set` keeps the nodes in front**, if there is a place for one beside the new one. -/
theorem shrink : ∀ (turns : ℕ) {c : Cache κ ν} {nodes : List ℕ} (callbackCache : List (κ × Option ν)), Holds c nodes →
    2 ≤ c.maxSize → (c.count + 1 - c.maxSize).toNat = turns →
    ∃ c', Cache.shrink turns c callbackCache =
        .ok (c', callbackCache ++ ((nodes.map c.entry).drop (c.maxSize - 1).toNat).reverse) ∧
      Holds c' (nodes.take (c.maxSize - 1).toNat) ∧ c'.entry = c.entry ∧ c'.maxSize = c.maxSize ∧ c'.cacheHead = c.cacheHead
  | 0, c, nodes, callbackCache, h, _, hturns => by
    have hlen : nodes.length ≤ (c.maxSize - 1).toNat := by
      have hcount := h.count
      omega
    refine ⟨c, ?_, ?_, rfl, rfl, rfl⟩
    · rw [List.drop_eq_nil_of_le ((List.length_map c.entry).trans_le hlen), List.reverse_nil, List.append_nil]
      rfl
    · rwa [List.take_of_length_le hlen]
  | turns + 1, c, nodes, callbackCache, h, hmax, hturns => by
    have hcount := h.count
    have hle : c.maxSize ≤ c.count := by omega
    rcases List.eq_nil_or_concat nodes with rfl | ⟨xs, node, rfl⟩
    · rw [List.length_nil] at hcount
      omega
    · rw [List.concat_eq_append] at h hcount ⊢
      rw [List.length_append, List.length_singleton] at hcount
      have hxs : xs ≠ [] := by
        rintro rfl
        rw [List.length_nil] at hcount
        omega
      obtain ⟨c', hevict, hnodes, hentry, hsize, hhead⟩ := h.evict hxs
      have hroom : (c.maxSize - 1).toNat ≤ xs.length := by omega
      have hturns' : (c'.count + 1 - c'.maxSize).toNat = turns := by
        rw [hnodes.count, hsize]
        omega
      obtain ⟨c'', hshrink, hnodes', hentry', hsize', hhead'⟩ := shrink turns (callbackCache ++ [c.entry node])
        hnodes (hsize.symm ▸ hmax) hturns'
      refine ⟨c'', ?_, ?_, hentry'.trans hentry, hsize'.trans hsize, hhead'.trans hhead⟩
      · rw [Cache.shrink, if_pos hle, hevict]
        simp only
        rw [hshrink, hentry, hsize, List.map_append, List.drop_append_of_le_length ((List.length_map c.entry).symm ▸ hroom),
          List.reverse_append, List.append_assoc]
        rfl
      · rw [List.take_append_of_le_length hroom, ← hsize]
        exact hnodes'

theorem shrink_error : ∀ {turns : ℕ} {c : Cache κ ν} {nodes : List ℕ} (callbackCache : List (κ × Option ν)), Holds c nodes →
    c.maxSize = 1 → c.count = turns → nodes ≠ [] → ∃ c', Cache.shrink turns c callbackCache = .error c'
  | 0, c, nodes, callbackCache, h, _, hturns, hne => by
    rw [h.count] at hturns
    exact absurd (List.length_eq_zero_iff.1 (by omega)) hne
  | turns + 1, c, nodes, callbackCache, h, hmax, hturns, hne => by
    have hle : c.maxSize ≤ c.count := by omega
    rw [Cache.shrink, if_pos hle]
    rcases List.eq_nil_or_concat nodes with rfl | ⟨xs, node, rfl⟩
    · exact absurd rfl hne
    · rw [List.concat_eq_append] at h
      by_cases hxs : xs = []
      · subst hxs
        have htail : c.cacheTail = some node := h.links.tail
        have hpre : c.preNode node = none := h.links.mid.1
        simp only [Cache.evict, htail, hpre]
        exact ⟨_, rfl⟩
      · obtain ⟨c', hevict, hnodes, -, hsize, -⟩ := h.evict hxs
        rw [hevict]
        refine shrink_error _ hnodes (hsize.trans hmax) ?_ hxs
        have hcount := h.count
        rw [List.length_append, List.length_singleton] at hcount
        rw [hnodes.count]
        omega

end Holds
theorem find?_put (key k : κ) (value : Option ν) (es : List (κ × Option ν)) :
    ((put key value es).find? (fun e => e.1 = k)).map Prod.snd =
      if k = key then some value else (es.find? (fun e => e.1 = k)).map Prod.snd := by
  rw [put, List.find?_cons]
  by_cases hk : k = key
  · rw [if_pos hk]
    simp [hk]
  · rw [if_neg hk, decide_eq_false (Ne.symm hk), List.find?_filter]
    refine congrArg (fun p => (es.find? p).map Prod.snd) (funext fun e => ?_)
    by_cases he : e.1 = k
    · simp [he, hk]
    · simp [he]

theorem find?_take {es : List (κ × Option ν)} (h : (es.map Prod.fst).Nodup) (n : ℕ) (k : κ) :
    (es.take n).find? (fun e => e.1 = k) =
      if k ∈ (es.drop n).map Prod.fst then none else es.find? (fun e => e.1 = k) := by
  have hsplit : es.find? (fun e => e.1 = k) =
      ((es.take n).find? (fun e => e.1 = k)).or ((es.drop n).find? (fun e => e.1 = k)) := by
    rw [← List.find?_append, List.take_append_drop]
  split
  · next hmem =>
    refine List.find?_eq_none.2 fun e he heq => ?_
    rw [← List.take_append_drop n es, List.map_append] at h
    exact List.disjoint_of_nodup_append h (List.mem_map_of_mem he) (of_decide_eq_true heq ▸ hmem)
  · next hmem =>
    have hnone : (es.drop n).find? (fun e => e.1 = k) = none :=
      List.find?_eq_none.2 fun e he heq => hmem (of_decide_eq_true heq ▸ List.mem_map_of_mem he)
    rw [hsplit, hnone, Option.or_none]

namespace Holds

variable {c : Cache κ ν} {nodes xs ys : List ℕ} {node : ℕ}

theorem filter (h : Holds c (xs ++ node :: ys)) :
    ((xs ++ node :: ys).map c.entry).filter (fun e => e.1 ≠ c.key node) = (xs ++ ys).map c.entry := by
  have hne : ∀ n ∈ xs ++ ys, c.key n ≠ c.key node := by
    intro n hn heq
    have hmem : n ∈ xs ++ node :: ys := List.perm_middle.mem_iff.2 (List.mem_cons_of_mem node hn)
    have hsame := h.of_mem hmem
    rw [heq, h.of_mem (List.mem_append_right xs List.mem_cons_self)] at hsame
    exact (List.nodup_middle.1 h.links.nodup).notMem (Option.some.inj hsame ▸ hn)
  have hself : (xs ++ ys).filter ((fun e => decide (e.1 ≠ c.key node)) ∘ c.entry) = xs ++ ys :=
    List.filter_eq_self.2 fun n hn => decide_eq_true (hne n hn)
  rw [List.filter_map, List.filter_append, List.filter_cons_of_neg (by simp [Cache.entry]), ← List.filter_append, hself]

end Holds

namespace Rep

variable {c : Cache κ ν} {l : Lru κ ν}

theorem find (h : Rep c l) (key : κ) : l.find key = (c.key2Node key).map c.value := by
  obtain ⟨nodes, hnodes, hentries, -⟩ := h
  rw [Lru.find, ← hentries, List.find?_map, Option.map_map, ← hnodes.find? key]
  rfl

omit [DecidableEq κ] in
theorem find_of_none (h : Rep c l) (hhead : c.cacheHead = none) : l.entries = [] ∧ ∀ key, c.key2Node key = none := by
  obtain ⟨nodes, hnodes, hentries, -⟩ := h
  have hnil : nodes = [] := List.head?_eq_none_iff.1 (hnodes.links.head.symm.trans hhead)
  subst hnil
  refine ⟨hentries.symm, fun key => ?_⟩
  cases hnode : c.key2Node key with
  | none => rfl
  | some node => exact absurd ((hnodes.found key node).1 hnode).1 List.not_mem_nil

omit [DecidableEq κ] in
theorem setMaxSize (h : Rep c l) (maxSize : Int) : Rep (c.SetMaxSize maxSize) (l.SetMaxSize maxSize) := by
  obtain ⟨nodes, hnodes, hentries, hmax⟩ := h
  unfold Cache.SetMaxSize Lru.SetMaxSize
  split
  · exact ⟨nodes, ⟨hnodes.links, hnodes.found, hnodes.count, hnodes.old⟩, hentries, rfl⟩
  · exact ⟨nodes, hnodes, hentries, hmax⟩

theorem check (h : Rep c l) (key : κ) : c.Check key = (l.find key).join := by
  rw [Cache.Check, h.find]
  split
  · next hhead =>
    rw [(h.find_of_none hhead).2 key]
    rfl
  · cases c.key2Node key <;> rfl

theorem get (h : Rep c l) (key : κ) : ∃ c', c.Get key = .ok (c', (l.find key).join) ∧ Rep c' (l.Get key) := by
  have hfind := h.find key
  unfold Cache.Get Lru.Get
  cases hhead : c.cacheHead with
  | none =>
    rw [(h.find_of_none hhead).2 key] at hfind
    rw [hfind]
    exact ⟨c, rfl, h⟩
  | some head =>
    cases hnode : c.key2Node key with
    | none =>
      rw [hnode] at hfind
      rw [hfind]
      exact ⟨c, rfl, h⟩
    | some node =>
      rw [hnode] at hfind
      rw [hfind]
      obtain ⟨nodes, hnodes, hentries, hmax⟩ := h
      obtain ⟨hmem, rfl⟩ := (hnodes.found key node).1 hnode
      obtain ⟨xs, ys, rfl⟩ := List.append_of_mem hmem
      obtain ⟨c', hfront, hnodes', hentry, hsize⟩ := hnodes.pushFront
      have hhead' : c'.cacheHead = some node := hnodes'.links.head
      have hvalue : c'.value node = c.value node := congrArg Prod.snd (congrFun hentry node)
      simp only [hfront, hhead', hvalue]
      have hfilter : l.entries.filter (fun e => e.1 ≠ c.key node) = (xs ++ ys).map c.entry := by
        rw [← hentries, hnodes.filter]
      refine ⟨c', rfl, node :: (xs ++ ys), hnodes', ?_, hsize.trans hmax⟩
      rw [hentry, List.map_cons, ← hfilter]
      rfl

theorem remove (h : Rep c l) (key : κ) : (c.Remove key).2 = (l.find key).join ∧ Rep (c.Remove key).1 (l.Remove key) := by
  have hfind := h.find key
  cases hnode : c.key2Node key with
  | none =>
    have hsame : c.Remove key = (c, none) := by
      unfold Cache.Remove
      rw [hnode]
      cases c.cacheHead <;> rfl
    rw [hsame, hfind, hnode]
    obtain ⟨nodes, hnodes, hentries, hmax⟩ := h
    refine ⟨rfl, nodes, hnodes, hentries.trans ?_, hmax⟩
    rw [hnode] at hfind
    refine (List.filter_eq_self.2 fun e he => ?_).symm
    exact decide_eq_true fun heq => List.find?_eq_none.1 (Option.map_eq_none_iff.1 hfind) e he (decide_eq_true heq)
  | some node =>
    obtain ⟨nodes, hnodes, hentries, hmax⟩ := h
    obtain ⟨hmem, rfl⟩ := (hnodes.found key node).1 hnode
    obtain ⟨xs, ys, rfl⟩ := List.append_of_mem hmem
    obtain ⟨hrest, hentry, hsize, hvalue⟩ := hnodes.remove
    rw [hfind, hnode]
    have hfilter : l.entries.filter (fun e => e.1 ≠ c.key node) = (xs ++ ys).map c.entry := by
      rw [← hentries, hnodes.filter]
    refine ⟨hvalue, xs ++ ys, hrest, ?_, hsize.trans hmax⟩
    rw [hentry, ← hfilter]
    rfl

theorem place_first (h : Rep c l) (hhead : c.cacheHead = none) (key : κ) (value : Option ν) :
    ∃ c', c.place key value = .ok (c', (l.place key value).2) ∧ Rep c' (l.place key value).1 ∧ c'.count = 1 ∧
      c'.maxSize = c.maxSize := by
  obtain ⟨hnil, hnone⟩ := h.find_of_none hhead
  obtain ⟨nodes, hnodes, hentries, hmax⟩ := h
  have hempty : nodes = [] := List.map_eq_nil_iff.1 (hentries.trans hnil)
  subst hempty
  have hlinks : Links (Function.update c.nextNode c.fresh none) (Function.update c.preNode c.fresh none) (some c.fresh)
      (some c.fresh) [c.fresh] :=
    ⟨List.nodup_singleton _, ⟨Function.update_self _ _ _, Function.update_self _ _ _, trivial⟩, rfl, rfl⟩
  have hfirst : Holds (c.first key value) [c.fresh] := hnodes.add (hnone key) hlinks rfl rfl rfl rfl
  have hcount : (c.first key value).count = 1 := hfirst.count
  have hplace : c.place key value = .ok (c.first key value, []) := by
    rw [Cache.place, hhead]
  have hmap : l.place key value = (⟨l.maxSize, [(key, value)], List.nodup_singleton _⟩, []) := by
    simp only [Lru.place, hnil, put, List.take_nil, List.drop_nil, List.reverse_nil, List.filter_nil]
  rw [hmap]
  refine ⟨_, hplace, ⟨_, hfirst, ?_, hmax⟩, hcount, rfl⟩
  simp [Cache.entry, Cache.first, Cache.create]

theorem place_found (h : Rep c l) {key : κ} {node : ℕ} (hnode : c.key2Node key = some node) (value : Option ν) :
    ∃ c', c.place key value = .ok (c', (l.place key value).2) ∧ Rep c' (l.place key value).1 := by
  have hfind := h.find key
  rw [hnode] at hfind
  obtain ⟨nodes, hnodes, hentries, hmax⟩ := h
  obtain ⟨hmem, rfl⟩ := (hnodes.found key node).1 hnode
  obtain ⟨xs, ys, rfl⟩ := List.append_of_mem hmem
  have hroom : l.room (c.key node) = l.entries.length := by
    rw [Lru.room, hfind]
    rfl
  have hwritten : Holds { c with value := Function.update c.value node value } (xs ++ node :: ys) :=
    hnodes.perm hnodes.links (fun _ => Iff.rfl) rfl rfl rfl rfl rfl
  obtain ⟨c', hfront, hnodes', hentry, hsize⟩ := hwritten.pushFront
  have hhead : ∃ head, c.cacheHead = some head := by
    rw [hnodes.links.head]
    cases xs <;> exact ⟨_, rfl⟩
  obtain ⟨head, hhead⟩ := hhead
  have hplace : c.place (c.key node) value = .ok (c', []) := by
    rw [Cache.place]
    split
    · next hnil => cases hhead.symm.trans hnil
    · rw [hnode]
      simp only
      rw [hfront]
  have hfilter : l.entries.filter (fun e => e.1 ≠ c.key node) = (xs ++ ys).map c.entry := by
    rw [← hentries, hnodes.filter]
  have hother : (xs ++ ys).map c'.entry = (xs ++ ys).map c.entry := by
    refine List.map_congr_left fun n hn => ?_
    have hne : n ≠ node := fun heq => (List.nodup_middle.1 hnodes.links.nodup).notMem (heq ▸ hn)
    rw [hentry]
    exact congrArg (Prod.mk (c.key n)) (Function.update_of_ne hne _ _)
  have hself : c'.entry node = (c.key node, value) := by
    rw [hentry]
    exact congrArg (Prod.mk (c.key node)) (Function.update_self _ _ _)
  refine ⟨c', ?_, node :: (xs ++ ys), hnodes', ?_, hsize.trans hmax⟩
  · simp only [hplace, Lru.place, hroom, List.drop_length, List.reverse_nil]
  · rw [List.map_cons, hother, hself, ← hfilter]
    simp only [Lru.place, hroom, List.take_length, put]

theorem place_again (h : Rep c l) {key : κ} (hnode : c.key2Node key = none) {head : ℕ} (hhead : c.cacheHead = some head)
    (hfull : c.count = c.maxSize ∧ some head = c.cacheTail) (value : Option ν) :
    ∃ c', c.place key value = .ok (c', (l.place key value).2) ∧ Rep c' (l.place key value).1 ∧
      c'.count = c.maxSize ∧ c'.maxSize = c.maxSize := by
  have hfind := h.find key
  rw [hnode] at hfind
  obtain ⟨nodes, hnodes, hentries, hmax⟩ := h
  obtain rfl : nodes = [head] := by
    have hlinks := hnodes.links
    rw [← hfull.2, hhead] at hlinks
    exact hlinks.singleton
  have hkey : c.key head ≠ key := by
    intro heq
    rw [(hnodes.found key head).2 ⟨List.mem_singleton_self head, heq⟩] at hnode
    cases hnode
  have hroom : l.room key = 0 := by
    have hcount := hnodes.count
    rw [List.length_singleton] at hcount
    rw [Lru.room, hfind, ← hmax, ← hfull.1, hcount]
    rfl
  have hagain : Holds (c.again head key value) [head] := by
    refine ⟨hnodes.links, fun k n => ?_, hnodes.count, hnodes.old⟩
    simp only [Cache.again, List.mem_singleton, Function.update_apply]
    by_cases hk : k = key
    · rw [if_pos hk]
      refine ⟨fun hn => ?_, fun hn => hn.1 ▸ rfl⟩
      obtain rfl := Option.some.inj hn
      exact ⟨rfl, by rw [if_pos rfl, hk]⟩
    · rw [if_neg hk]
      refine ⟨fun hn => ?_, fun hn => ?_⟩
      · split at hn
        · cases hn
        · next hne =>
          obtain ⟨hmem, hsame⟩ := (hnodes.found k n).1 hn
          rw [List.mem_singleton.1 hmem] at hsame
          exact absurd hsame.symm hne
      · rw [if_pos hn.1] at hn
        exact absurd hn.2.symm hk
  have hplace : c.place key value = .ok (c.again head key value, [c.entry head]) := by
    simp only [Cache.place, hhead, hnode]
    exact if_pos hfull
  have hentry : (c.again head key value).entry head = (key, value) := by
    simp [Cache.entry, Cache.again]
  refine ⟨_, ?_, ⟨_, hagain, ?_, hmax⟩, hfull.1, rfl⟩
  · simp only [hplace, Lru.place, hroom, ← hentries, List.drop_zero]
    rfl
  · simp only [Lru.place, hroom, List.take_zero, put, List.filter_nil, List.map_cons, List.map_nil, hentry]

theorem place_before (h : Rep c l) {key : κ} (hnode : c.key2Node key = none) {head : ℕ} (hhead : c.cacheHead = some head)
    (hfull : ¬(c.count = c.maxSize ∧ some head = c.cacheTail)) (hmax2 : 2 ≤ c.maxSize) (value : Option ν) :
    ∃ c', c.place key value = .ok (c', (l.place key value).2) ∧ Rep c' (l.place key value).1 ∧
      c'.count ≤ c.maxSize ∧ c'.maxSize = c.maxSize := by
  have hfind := h.find key
  rw [hnode] at hfind
  obtain ⟨nodes, hnodes, hentries, hmax⟩ := h
  have hroom : l.room key = (c.maxSize - 1).toNat := by
    rw [Lru.room, hfind, hmax]
    rfl
  obtain ⟨c', hshrink, hkept, hentry, hsize, hhead'⟩ := hnodes.shrink (c.count + 1 - c.maxSize).toNat [] hmax2 rfl
  have hplace : c.place key value =
      .ok (c'.before head key value, ((nodes.map c.entry).drop (c.maxSize - 1).toNat).reverse) := by
    simp only [Cache.place, hhead, hnode, if_neg hfull, hshrink, List.nil_append]
  have hnone : c'.key2Node key = none := by
    cases hn : c'.key2Node key with
    | none => rfl
    | some n =>
      obtain ⟨hmem, hkey⟩ := (hkept.found key n).1 hn
      have hsame : c'.key n = c.key n := congrArg Prod.fst (congrFun hentry n)
      rw [hsame] at hkey
      rw [(hnodes.found key n).2 ⟨List.mem_of_mem_take hmem, hkey⟩] at hnode
      cases hnode
  have hlinks := hkept.links.push (a := c'.fresh) fun hmem => (hkept.old _ hmem).ne rfl
  rw [hhead'.trans hhead] at hlinks
  have htail : ∃ x, c'.cacheTail = some x := by
    cases hx : c'.cacheTail with
    | some x => exact ⟨x, rfl⟩
    | none =>
      have hnil := List.getLast?_eq_none_iff.1 (hkept.links.tail.symm.trans hx)
      have hno := hkept.links.head
      rw [hnil, hhead'.trans hhead] at hno
      cases hno
  obtain ⟨x, hx⟩ := htail
  rw [hx, Option.some_or, ← hx] at hlinks
  have hbefore : Holds (c'.before head key value) (c'.fresh :: nodes.take (c.maxSize - 1).toNat) :=
    hkept.add hnone hlinks rfl rfl rfl rfl
  have hself : (c'.before head key value).entry c'.fresh = (key, value) := by
    simp [Cache.entry, Cache.before, Cache.create]
  have hother : (nodes.take (c.maxSize - 1).toNat).map (c'.before head key value).entry =
      l.entries.take (c.maxSize - 1).toNat := by
    rw [← hentries, ← List.map_take, ← hentry]
    refine List.map_congr_left fun n hn => ?_
    have hne := (hkept.old n hn).ne
    exact congrArg₂ Prod.mk (Function.update_of_ne hne _ _) (Function.update_of_ne hne _ _)
  have hfilter : (l.entries.take (c.maxSize - 1).toNat).filter (fun e => e.1 ≠ key) =
      l.entries.take (c.maxSize - 1).toNat := by
    refine List.filter_eq_self.2 fun e he => decide_eq_true fun heq => ?_
    exact List.find?_eq_none.1 (Option.map_eq_none_iff.1 hfind) e (List.mem_of_mem_take he) (decide_eq_true heq)
  refine ⟨_, ?_, ⟨_, hbefore, ?_, hsize.trans hmax⟩, ?_, hsize⟩
  · simp only [hplace, Lru.place, hroom, hentries]
  · rw [List.map_cons, hself, hother]
    simp only [Lru.place, hroom, put, hfilter]
  · rw [hbefore.count, List.length_cons, List.length_take]
    omega

theorem place_error (h : Rep c l) {key : κ} (hnode : c.key2Node key = none) (hmax : c.maxSize = 1) (hcount : 2 ≤ c.count)
    (value : Option ν) : ∃ c', c.place key value = .error c' := by
  obtain ⟨nodes, hnodes, -⟩ := h
  have hlen := hnodes.count
  have hne : nodes ≠ [] := by
    rintro rfl
    rw [List.length_nil] at hlen
    omega
  obtain ⟨head, rest, rfl⟩ := List.exists_cons_of_ne_nil hne
  have hhead : c.cacheHead = some head := hnodes.links.head
  have hturns : c.count = (c.count + 1 - c.maxSize).toNat := by omega
  obtain ⟨c', hshrink⟩ := hnodes.shrink_error [] hmax hturns hne
  refine ⟨c', ?_⟩
  simp only [Cache.place, hhead, hnode, hshrink]
  exact if_neg fun hfull => absurd hfull.1 (by omega)


/-- **An entry is placed as in the map**, if a new key does not need the place of the last node. -/
theorem place (h : Rep c l) (key : κ) (hpos : 1 ≤ c.maxSize)
    (hfits : c.maxSize = 1 → 2 ≤ c.count → c.key2Node key ≠ none) (value : Option ν) :
    ∃ c', c.place key value = .ok (c', (l.place key value).2) ∧ Rep c' (l.place key value).1 ∧
      (c.key2Node key = none → c'.count ≤ c'.maxSize) := by
  cases hnode : c.key2Node key with
  | some node =>
    obtain ⟨c', hplace, hrep⟩ := h.place_found hnode value
    exact ⟨c', hplace, hrep, fun hnone => (nomatch hnone)⟩
  | none =>
    cases hhead : c.cacheHead with
    | none =>
      obtain ⟨c', hplace, hrep, hcount, hmax⟩ := h.place_first hhead key value
      exact ⟨c', hplace, hrep, fun _ => by omega⟩
    | some head =>
      by_cases hfull : c.count = c.maxSize ∧ some head = c.cacheTail
      · obtain ⟨c', hplace, hrep, hcount, hmax⟩ := h.place_again hnode hhead hfull value
        exact ⟨c', hplace, hrep, fun _ => by omega⟩
      · have hmax2 : 2 ≤ c.maxSize := by
          by_contra hlt
          have hone : c.maxSize = 1 := by omega
          refine hfull ?_
          obtain ⟨nodes, hnodes, -⟩ := h
          have hcount := hnodes.count
          have hlinks := hnodes.links
          have hlt2 : ¬2 ≤ c.count := fun hle => hfits hone hle hnode
          match nodes, hcount, hlinks with
          | [], _, hlinks => exact absurd (hhead.symm.trans hlinks.head) (by simp)
          | [node], hcount, hlinks => exact ⟨hcount.trans hone.symm, (hhead.symm.trans hlinks.head).trans hlinks.tail.symm⟩
          | a :: b :: nodes, hcount, _ =>
            rw [List.length_cons, List.length_cons] at hcount
            omega
        obtain ⟨c', hplace, hrep, hcount, hmax⟩ := h.place_before hnode hhead hfull hmax2 value
        exact ⟨c', hplace, hrep, fun _ => by omega⟩

omit [DecidableEq κ] in
theorem force (h : Rep c l) (bForce : Bool) : Rep (if bForce then { c with maxSize := c.maxSize + 1 } else c)
    (if bForce then ⟨l.maxSize + 1, l.entries, l.nodup⟩ else l) := by
  obtain ⟨nodes, hnodes, hentries, hmax⟩ := h
  cases bForce
  · exact ⟨nodes, hnodes, hentries, hmax⟩
  · exact ⟨nodes, ⟨hnodes.links, hnodes.found, hnodes.count, hnodes.old⟩, hentries, congrArg (· + 1) hmax⟩

omit [DecidableEq κ] in
theorem maxSize_eq (h : Rep c l) : c.maxSize = l.maxSize := by
  obtain ⟨_, _, _, hmax⟩ := h
  exact hmax

/-- **A `Set` does what it does to the map.** -/
theorem set (h : Rep c l) {key : κ} {bForce : Bool}
    (hfits : bForce = false → c.maxSize = 1 → 2 ≤ c.count → c.key2Node key ≠ none) (value : Option ν) :
    ∃ c', c.Set key value bForce = .ok (c', (l.Set key value bForce).2) ∧ Rep c' (l.Set key value bForce).1 ∧
      (c.key2Node key = none → c'.key2Node key ≠ none → c'.count ≤ c'.maxSize) := by
  unfold Cache.Set Lru.Set
  rw [← h.maxSize_eq]
  split
  · exact ⟨c, rfl, h, fun hnone hsome => absurd hnone hsome⟩
  · next hpos =>
    have hplace := (h.force bForce).place key ?_ ?_ value
    · obtain ⟨c', hplace, hrep, hcount⟩ := hplace
      rw [h.maxSize_eq] at hplace ⊢
      refine ⟨c', hplace, hrep, fun hnone _ => hcount ?_⟩
      cases bForce <;> exact hnone
    · cases bForce
      · exact not_lt.1 hpos
      · exact (not_lt.1 hpos).trans (Int.le_add_one le_rfl)
    · cases bForce
      · exact hfits rfl
      · intro hone
        have hone' : c.maxSize + 1 = 1 := hone
        omega

theorem set_error (h : Rep c l) {key : κ} (hmax : c.maxSize = 1) (hcount : 2 ≤ c.count) (hnode : c.key2Node key = none)
    (value : Option ν) : ∃ c', c.Set key value false = .error c' := by
  obtain ⟨c', hplace⟩ := h.place_error hnode hmax hcount value
  refine ⟨c', ?_⟩
  rw [Cache.Set, if_neg (by omega)]
  exact hplace

end Rep

structure Good (w : World κ ν) : Prop where
  rep : Rep w.cache w.lru
  last : ∀ key, w.last key = w.lru.find key

theorem start_good [Inhabited κ] (capacity : Int) : Good (start capacity : World κ ν) := by
  refine ⟨⟨[], ⟨Links.nil _ _, fun key node => ?_, rfl, fun node hnode => ?_⟩, rfl, rfl⟩, fun key => rfl⟩
  · exact ⟨fun hnode => (nomatch hnode), fun hnode => absurd hnode.1 List.not_mem_nil⟩
  · exact absurd hnode List.not_mem_nil

theorem Lru.find_place (l : Lru κ ν) (key k : κ) (value : Option ν) : (l.place key value).1.find k =
    if k = key then some value else if k ∈ (l.place key value).2.map Prod.fst then none else l.find k := by
  have hfind := find?_put key k value (l.entries.take (l.room key))
  refine hfind.trans ?_
  rw [find?_take l.nodup]
  simp only [Lru.place, List.map_reverse, List.mem_reverse]
  split
  · rfl
  · split <;> rfl

namespace Good

variable {w : World κ ν}

theorem told_call (h : Good w) (e : Event κ ν) (k : κ) : told w (w.lru.call e).2 e k = (w.lru.call e).1.find k := by
  cases e with
  | Set key value bForce =>
    rw [told, h.rep.maxSize_eq, Lru.call, Lru.Set]
    split
    · exact h.last k
    · rw [Lru.find_place, Function.update_apply, h.last]
      cases bForce <;> rfl
  | Get key =>
    change w.last k = (w.lru.Get key).find k
    rw [h.last, Lru.Get]
    split
    · rfl
    · next value hfind =>
      refine (Eq.trans ?_ (find?_put key k value w.lru.entries).symm)
      split
      · next hk => rw [hk, hfind]
      · rfl
  | Check key => exact h.last k
  | Remove key =>
    rw [told, Lru.call, Lru.Remove, Lru.find, Function.update_apply, List.find?_filter, h.last]
    split
    · next hk =>
      refine (congrArg (Option.map Prod.snd) (List.find?_eq_none.2 fun e _ he => ?_)).symm
      simp [hk] at he
    · next hk =>
      refine congrArg (fun p => (w.lru.entries.find? p).map Prod.snd) (funext fun e => ?_)
      by_cases he : e.1 = k
      · simp [he, hk]
      · simp [he]
  | SetMaxSize maxSize =>
    change w.last k = (w.lru.SetMaxSize maxSize).find k
    rw [h.last, Lru.SetMaxSize]
    split <;> rfl

theorem right_of_call (h : Good w) {e : Event κ ν} {c' : Cache κ ν}
    (hcall : w.cache.call e = (c', ⟨value w e, (w.lru.call e).2, false⟩)) (hrep : Rep c' (w.lru.call e).1)
    (hcount : ∀ key value bForce, e = .Set key value bForce → w.cache.key2Node key = none → c'.key2Node key ≠ none →
      c'.count ≤ c'.maxSize) : Right w e ∧ Good (step w e) := by
  have hcache : (step w e).cache = c' := congrArg Prod.fst hcall
  have hremoved : (w.cache.call e).2.removed = (w.lru.call e).2 := congrArg (fun p => p.2.removed) hcall
  have hrep' : Rep (step w e).cache (step w e).lru := hcache ▸ hrep
  refine ⟨⟨congrArg (fun p => p.2.raised) hcall, hrep', hremoved, congrArg (fun p => p.2.value) hcall, ?_⟩, hrep', ?_⟩
  · rw [hcache]
    exact hcount
  · intro k
    rw [step, hremoved]
    exact h.told_call e k

/-- **An event that fits does what it does to the map, and one that does not fit raises.** -/
theorem step_iff (h : Good w) (e : Event κ ν) : (Right w e ↔ Fits w e) ∧ (Fits w e → Good (step w e)) := by
  have hother : ∀ {e : Event κ ν}, Fits w e → Right w e ∧ Good (step w e) →
      (Right w e ↔ Fits w e) ∧ (Fits w e → Good (step w e)) :=
    fun hfits hright => ⟨iff_of_true hright.1 hfits, fun _ => hright.2⟩
  cases e with
  | Set key value bForce =>
    by_cases hfits : bForce = false → w.cache.maxSize = 1 → 2 ≤ w.cache.count → w.cache.key2Node key ≠ none
    · obtain ⟨c', hset, hrep, hcount⟩ := h.rep.set hfits value
      refine hother hfits (h.right_of_call ?_ hrep fun key' value' bForce' heq => ?_)
      · rw [Cache.call, hset]
        rfl
      · obtain ⟨rfl, -, -⟩ := Event.Set.inj heq
        exact hcount
    · have hraised : (w.cache.call (.Set key value bForce)).2.raised = true := by
        push Not at hfits
        obtain ⟨rfl, hmax, hcount, hnode⟩ := hfits
        obtain ⟨c', hset⟩ := h.rep.set_error hmax hcount hnode value
        rw [Cache.call, hset]
      exact ⟨iff_of_false (fun hright => absurd (hraised.symm.trans hright.1) (by decide)) hfits,
        fun hfits' => absurd hfits' hfits⟩
  | Get key =>
    obtain ⟨c', hget, hrep⟩ := h.rep.get key
    refine hother trivial (h.right_of_call ?_ hrep fun _ _ _ heq => (nomatch heq))
    rw [Cache.call, hget, value, h.last]
    rfl
  | Check key =>
    refine hother trivial (h.right_of_call ?_ h.rep fun _ _ _ heq => (nomatch heq))
    rw [Cache.call, h.rep.check, value, h.last]
    rfl
  | Remove key =>
    obtain ⟨hvalue, hrep⟩ := h.rep.remove key
    refine hother trivial (h.right_of_call ?_ hrep fun _ _ _ heq => (nomatch heq))
    rw [Cache.call, hvalue, value, h.last]
    rfl
  | SetMaxSize maxSize =>
    exact hother trivial (h.right_of_call rfl (h.rep.setMaxSize maxSize)
      fun _ _ _ heq => (nomatch heq))

end Good

/-- **A cache is the list of its entries in the order of their use, as long as no new key comes to a cache for one node that
holds several**: each operation then does what it does to the list, and none raises. -/
theorem lru_iff_of_run [Inhabited κ] (capacity : Int) (es : List (Event κ ν)) :
    Steps.Along step Right (start capacity) es ↔ Steps.Along step Fits (start capacity) es :=
  Steps.along_iff (I := Good) (fun _ e hw => hw.step_iff e) es (start capacity) (start_good capacity)

theorem shrunk_raises : ¬Steps.Along step Right (start 2 : World ℕ ℕ)
    [.Set 1 (some 1) false, .Set 2 (some 2) false, .SetMaxSize 1, .Set 3 (some 3) false] := by
  intro h
  have hraised := h.2.2.2.1.1
  revert hraised
  decide

/-- The entries that are evicted, the one that was used first before the other. -/
example : (([.Set 1 (some 1) false, .Set 2 (some 2) false, .Set 3 (some 3) false, .Get 1, .SetMaxSize 2].foldl step
    (start 3 : World ℕ ℕ)).cache.call (.Set 4 (some 4) false)).2.removed = [(2, some 2), (3, some 3)] := by decide

end LruCache
end Sncpp
