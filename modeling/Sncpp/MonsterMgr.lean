import Mathlib.Algebra.BigOperators.Group.List.Basic
import Mathlib.Algebra.GroupWithZero.Nat
import Mathlib.Algebra.Order.Group.Nat
import Mathlib.Data.List.Nodup
import Sncpp.Steps
/-!
# MonsterMgr — the monsters of a chunk and its configuration (`mapObjMonsterMgr.lua`)

A chunk has an index of its monsters of each kind, and a refresh is to bring their number to the configured one.  No
monster is ever born: the rates are asked for an index by a function that adds tables to a number, and where there are
none nothing happens.  Where there are too many, a monster that may not be removed drops out of the index as the scan
comes to it.
-/
namespace Sncpp
namespace MonsterMgr

variable {γ κ ι : Type} [DecidableEq γ] [DecidableEq κ] [DecidableEq ι]

/-- An entry of `monster_refresh`, with its rate of each level. -/
structure Cfg where
  Num : Nat
  Lv : Nat → Option Nat

/-- An entry of `monster_refresh_day`. -/
structure Day (κ : Type) where
  monster_type : κ
  day : Nat
  monster_lv : Nat

structure Area where
  Level : Option Nat
  TerrBuild : Option Nat

/-- What the configuration has, lists in the order in which `pairs` comes to the entries. -/
structure Conf (γ κ : Type) where
  area : γ → Option Area
  terr_no_monster : Nat → Bool
  monster_refresh : Nat → List (κ × Cfg)
  monster_refresh_day : List (Day κ)
  nodup : ∀ chunckLv, ((monster_refresh chunckLv).map Prod.fst).Nodup

/-- An entry of `refreshPool`. -/
structure Pool where
  num : Nat
  totalRate : Nat
  random : List (Nat × Nat)

def rates (cfg : Cfg) (maxlv : Nat) : List (Nat × Nat) :=
  (List.range' 1 maxlv).filterMap fun lv =>
    let rate := (cfg.Lv lv).getD 0
    if 0 < rate then some (lv, rate) else none

def Conf.refresh_monster_pool (conf : Conf γ κ) (day : Nat) (chunckLv : Nat) : List (κ × Pool) :=
  (conf.monster_refresh chunckLv).map fun (subMapType, cfg) =>
    match conf.monster_refresh_day.reverse.find? (fun dcfg => dcfg.monster_type = subMapType ∧ dcfg.day ≤ max day 1) with
    | none => (subMapType, ⟨cfg.Num, 0, []⟩)
    | some dcfg => (subMapType, ⟨cfg.Num, ((rates cfg dcfg.monster_lv).map Prod.snd).sum, rates cfg dcfg.monster_lv⟩)

inductive Rate where
  | number (n : Nat)
  | table

def total : List Rate → Option Nat
  | [] => some 0
  | .table :: _ => none
  | .number n :: l => (total l).map (n + ·)

def indexFrom (randNum : Nat) : Nat → Nat → List Rate → List Nat
  | index, curTotalRate, .number n :: l =>
    if randNum ≤ curTotalRate + n then [index] else indexFrom randNum (index + 1) (curTotalRate + n) l
  | _, _, _ => []

/-- What `getRandomIndex` returns, none if it raises. -/
def getRandomIndex (random : Nat → Nat) (rates : List Rate) : Option (List Nat) :=
  (total rates).map fun totalRate => if 0 < totalRate then indexFrom (random totalRate) 1 0 rates else []

structure Monster (γ κ ι : Type) where
  objectid : ι
  chunckid : γ
  subtype : κ

/-- The order in which `pairs` comes to the entries of an index. -/
structure Pairs (ι : Type) where
  order : List ι → List ι
  perm : ∀ l, (order l).Perm l

structure World (γ κ ι : Type) where
  objs : List (Monster γ κ ι)
  cantRemove : ι → Bool
  chunckObjs : γ → κ → List ι
  refreshPool : Nat → List (κ × Pool)
  lastLv : Nat

namespace World

def new : World γ κ ι := ⟨[], fun _ => false, fun _ _ => [], fun _ => [], 1⟩

variable (w : World γ κ ι)

def get_object (objectid : ι) : Option (Monster γ κ ι) := w.objs.find? (fun obj => obj.objectid = objectid)

def canRemove (objectid : ι) : Bool := !w.cantRemove objectid

def setChunckObjs (chunckid : γ) (subtype : κ) (l : List ι) : World γ κ ι :=
  { w with chunckObjs := Function.update w.chunckObjs chunckid (Function.update (w.chunckObjs chunckid) subtype l) }

def add_object (obj : Monster γ κ ι) : World γ κ ι :=
  let w := { w with objs := w.objs.filter (fun (o : Monster γ κ ι) => o.objectid ≠ obj.objectid) ++ [obj] }
  w.setChunckObjs obj.chunckid obj.subtype
    ((w.chunckObjs obj.chunckid obj.subtype).filter (fun id => id ≠ obj.objectid) ++ [obj.objectid])

def remove_object (obj : Monster γ κ ι) : World γ κ ι :=
  let w := { w with objs := w.objs.filter (fun (o : Monster γ κ ι) => o.objectid ≠ obj.objectid) }
  w.setChunckObjs obj.chunckid obj.subtype
    ((w.chunckObjs obj.chunckid obj.subtype).filter (fun id => id ≠ obj.objectid))

/-- The loop of `remove_monster`: what is to be removed, and what drops out of the index. -/
def scan : Nat → List ι → List (Monster γ κ ι) × List ι
  | _, [] => ([], [])
  | 0, _ :: _ => ([], [])
  | n + 1, objectid :: ids =>
    match (w.get_object objectid).filter (fun _ => w.canRemove objectid) with
    | some object =>
      let r := scan n ids
      (object :: r.1, r.2)
    | none =>
      let r := scan (n + 1) ids
      (r.1, objectid :: r.2)

def remove_monster (p : Pairs ι) (chunckid : γ) (subMapType : κ) (num : Nat) : World γ κ ι :=
  let temp := w.chunckObjs chunckid subMapType
  let r := w.scan num (p.order temp)
  r.1.foldl remove_object (w.setChunckObjs chunckid subMapType (temp.filter (fun id => id ∉ r.2)))

/-- `born_monster`, none if it raises.  Of what `getRandomIndex` returns it takes the second value, which is to be an entry
of `random`; what comes after that has a number for the entry. -/
def born_monster (random : Nat → Nat) (refreshCfg : Pool) : Option (World γ κ ι) :=
  match getRandomIndex random (refreshCfg.random.map (fun _ => .table)) with
  | none => none
  | some ret =>
    match ret[1]? with
    | none => some w
    | some _ => none

def chunckLv (conf : Conf γ κ) (chunckid : γ) : Nat := ((conf.area chunckid).bind (·.Level)).getD w.lastLv

def noMonster (conf : Conf γ κ) (chunckid : γ) : Bool :=
  ((conf.area chunckid).bind (·.TerrBuild)).any conf.terr_no_monster

/-- The loop of `refresh_chunck_monster`, and whether it raises. -/
def refreshLoop (random : Nat → Nat) (p : Pairs ι) (chunckid : γ) : List (κ × Pool) → World γ κ ι → World γ κ ι × Bool
  | [], w => (w, false)
  | (subMapType, v) :: kinds, w =>
    let count := (w.chunckObjs chunckid subMapType).length
    if count < v.num then
      match w.born_monster random v with
      | none => (w, true)
      | some w => refreshLoop random p chunckid kinds w
    else if v.num < count then
      refreshLoop random p chunckid kinds (w.remove_monster p chunckid subMapType (count - v.num))
    else refreshLoop random p chunckid kinds w

def refresh_chunck_monster (conf : Conf γ κ) (random : Nat → Nat) (p : Pairs ι) (chunckid : γ) : World γ κ ι × Bool :=
  if noMonster conf chunckid then (w, false)
  else
    let chunckLv := w.chunckLv conf chunckid
    if w.refreshPool chunckLv = [] then (w, false)
    else refreshLoop random p chunckid (w.refreshPool chunckLv) { w with lastLv := chunckLv }

def resetLoop (p : Pairs ι) (chunckid : γ) (kinds : List (κ × Pool)) : World γ κ ι :=
  kinds.foldl (fun w (kind : κ × Pool) =>
    let count := (w.chunckObjs chunckid kind.1).length
    if 0 < count then w.remove_monster p chunckid kind.1 count else w) w

/-- `reset_chunck` as far as it does not refresh: the level and the loop, if the level is in the pool. -/
def resetKinds (conf : Conf γ κ) (p : Pairs ι) (chunckid : γ) : World γ κ ι :=
  let chunckLv := w.chunckLv conf chunckid
  if w.refreshPool chunckLv = [] then w
  else { w with lastLv := chunckLv }.resetLoop p chunckid (w.refreshPool chunckLv)

def reset_chunck (conf : Conf γ κ) (random : Nat → Nat) (p : Pairs ι) (chunckid : γ) : World γ κ ι × Bool :=
  if w.refreshPool (w.chunckLv conf chunckid) = [] then (w, false)
  else (w.resetKinds conf p chunckid).refresh_chunck_monster conf random p chunckid

end World

/-- What happens; `free` is the number of positions that are free in the chunk when it is refreshed. -/
inductive Event (γ κ ι : Type) where
  | refresh_monster_pool (day : Nat)
  | add_object (obj : Monster γ κ ι)
  | remove_object (objectid : ι)
  | mark (objectid : ι) (cantRemove : Bool)
  | refresh_chunck_monster (chunckid : γ) (random : Nat → Nat) (p : Pairs ι) (free : Nat)
  | reset_chunck (chunckid : γ) (random : Nat → Nat) (p : Pairs ι) (free : Nat)

def step (conf : Conf γ κ) (w : World γ κ ι) : Event γ κ ι → World γ κ ι
  | .refresh_monster_pool day => { w with refreshPool := conf.refresh_monster_pool day }
  | .add_object obj => w.add_object obj
  | .remove_object objectid =>
    match w.get_object objectid with
    | none => w
    | some obj => w.remove_object obj
  | .mark objectid cantRemove => { w with cantRemove := Function.update w.cantRemove objectid cantRemove }
  | .refresh_chunck_monster chunckid random p _ => (w.refresh_chunck_monster conf random p chunckid).1
  | .reset_chunck chunckid random p _ => (w.reset_chunck conf random p chunckid).1

/-! ## What is right, and when it is -/

namespace World

variable (w : World γ κ ι)

def live (chunckid : γ) (subtype : κ) : List ι :=
  (w.objs.filter (fun obj => obj.chunckid = chunckid ∧ obj.subtype = subtype)).map (·.objectid)

/-- **The index of a chunk and a kind has exactly the live monsters of that kind in that chunk.** -/
def Indexed : Prop := ∀ chunckid subtype objectid, objectid ∈ w.chunckObjs chunckid subtype ↔
  objectid ∈ w.live chunckid subtype

/-- What a chunk is configured to have: nothing in a territory without monsters, or at a level that is not configured. -/
def kinds (conf : Conf γ κ) (chunckid : γ) : List (κ × Pool) :=
  if noMonster conf chunckid then [] else w.refreshPool (w.chunckLv conf chunckid)

def missing (chunckid : γ) (kinds : List (κ × Pool)) : Nat :=
  (kinds.map (fun kind => kind.2.num - (w.live chunckid kind.1).length)).sum

/-- **A refresh does not raise**, and leaves what it should: no more than were there or are configured; as many as are
configured where there were fewer and the free positions suffice; and where there were more, so many of those that were
there, or only some that have to stay, the others having gone of those that had not. -/
structure Refreshed (chunckid : γ) (kinds : List (κ × Pool)) (free : Nat) (r : World γ κ ι × Bool) : Prop where
  returns : r.2 = false
  indexed : r.1.Indexed
  le : ∀ kind ∈ kinds, (r.1.live chunckid kind.1).length ≤ max kind.2.num (w.live chunckid kind.1).length
  born : w.missing chunckid kinds ≤ free → ∀ kind ∈ kinds, (w.live chunckid kind.1).length < kind.2.num →
    (r.1.live chunckid kind.1).length = kind.2.num
  removed : ∀ kind ∈ kinds, kind.2.num < (w.live chunckid kind.1).length →
    (∀ objectid ∈ r.1.live chunckid kind.1, objectid ∈ w.live chunckid kind.1) ∧
      (∀ objectid ∈ w.live chunckid kind.1, objectid ∉ r.1.live chunckid kind.1 → w.canRemove objectid = true) ∧
        ((r.1.live chunckid kind.1).length = kind.2.num ∨ kind.2.num ≤ (r.1.live chunckid kind.1).length ∧
          ∀ objectid ∈ r.1.live chunckid kind.1, w.canRemove objectid = false)

/-- What a refresh has to find of one kind: it has no rates where it lacks monsters, and the scan for those that are too many
comes to none that has to stay. -/
structure ReadyKind (p : Pairs ι) (chunckid : γ) (kind : κ × Pool) : Prop where
  rates : (w.chunckObjs chunckid kind.1).length < kind.2.num → kind.2.random = []
  scan : ∀ objectid ∈ (p.order (w.chunckObjs chunckid kind.1)).take
    ((w.chunckObjs chunckid kind.1).length - kind.2.num), w.canRemove objectid = true

/-- What a refresh has to find: that of each kind, and nothing missing, or no room. -/
structure Ready (p : Pairs ι) (chunckid : γ) (kinds : List (κ × Pool)) (free : Nat) : Prop where
  each : ∀ kind ∈ kinds, w.ReadyKind p chunckid kind
  room : w.missing chunckid kinds = 0 ∨ free < w.missing chunckid kinds

end World

def Right (conf : Conf γ κ) (w : World γ κ ι) (e : Event γ κ ι) : Prop :=
  (step conf w e).Indexed ∧
    match e with
    | .refresh_chunck_monster chunckid random p free =>
      w.Refreshed chunckid (w.kinds conf chunckid) free (w.refresh_chunck_monster conf random p chunckid)
    | .reset_chunck chunckid random p free => w.refreshPool (w.chunckLv conf chunckid) ≠ [] →
      (w.resetKinds conf p chunckid).Refreshed chunckid (w.kinds conf chunckid) free
        (w.reset_chunck conf random p chunckid)
    | _ => True

/-- **When it is.**  A monster is added that is not live elsewhere; a refresh is ready; and a reset finds only monsters
that may be removed, and then either nothing to be born, or no rates and no room. -/
def Fits (conf : Conf γ κ) (w : World γ κ ι) : Event γ κ ι → Prop
  | .add_object obj => ∀ o ∈ w.objs, o.objectid = obj.objectid → o.chunckid = obj.chunckid ∧ o.subtype = obj.subtype
  | .refresh_chunck_monster chunckid _ p free => w.Ready p chunckid (w.kinds conf chunckid) free
  | .reset_chunck chunckid _ _ free =>
    (∀ kind ∈ w.refreshPool (w.chunckLv conf chunckid), ∀ objectid ∈ w.chunckObjs chunckid kind.1,
      w.canRemove objectid = true) ∧
    (∀ kind ∈ w.kinds conf chunckid, 0 < kind.2.num → kind.2.random = []) ∧
    (((w.kinds conf chunckid).map (·.2.num)).sum = 0 ∨ free < ((w.kinds conf chunckid).map (·.2.num)).sum)
  | _ => True

namespace World

variable {w : World γ κ ι}

/-- The ids of the live monsters are different, and an index has each of its own once. -/
structure Sound (w : World γ κ ι) : Prop where
  ids : (w.objs.map (·.objectid)).Nodup
  index : ∀ chunckid subtype, (w.chunckObjs chunckid subtype).Nodup
  live : ∀ chunckid subtype objectid, objectid ∈ w.chunckObjs chunckid subtype → ⟨objectid, chunckid, subtype⟩ ∈ w.objs

omit [DecidableEq ι] in
theorem mem_live {chunckid : γ} {subtype : κ} {objectid : ι} :
    objectid ∈ w.live chunckid subtype ↔ ⟨objectid, chunckid, subtype⟩ ∈ w.objs := by
  unfold live
  rw [List.mem_map]
  constructor
  · rintro ⟨obj, hobj, rfl⟩
    obtain ⟨hmem, hat⟩ := List.mem_filter.1 hobj
    obtain ⟨rfl, rfl⟩ : obj.chunckid = chunckid ∧ obj.subtype = subtype := by simpa using hat
    exact hmem
  · exact fun h => ⟨_, List.mem_filter.2 ⟨h, by simp⟩, rfl⟩

omit [DecidableEq ι] in
theorem Sound.nodup_live (h : w.Sound) (chunckid : γ) (subtype : κ) : (w.live chunckid subtype).Nodup :=
  (List.filter_sublist.map _).nodup h.ids

omit [DecidableEq γ] [DecidableEq κ] in
theorem Sound.get_object (h : w.Sound) {obj : Monster γ κ ι} (hobj : obj ∈ w.objs) :
    w.get_object obj.objectid = some obj := by
  unfold World.get_object
  cases hfind : w.objs.find? (fun o => o.objectid = obj.objectid) with
  | none => exact absurd (List.find?_eq_none.1 hfind obj hobj) (by simp)
  | some o =>
    have hid : o.objectid = obj.objectid := by simpa using List.find?_some hfind
    rw [List.inj_on_of_nodup_map h.ids (List.mem_of_find?_eq_some hfind) hobj hid]

omit [DecidableEq ι] in
theorem setChunckObjs_apply (chunckid c : γ) (subtype k : κ) (l : List ι) :
    (w.setChunckObjs chunckid subtype l).chunckObjs c k =
      if c = chunckid ∧ k = subtype then l else w.chunckObjs c k := by
  show Function.update w.chunckObjs chunckid _ c k = _
  by_cases hc : c = chunckid
  · subst hc
    rw [Function.update_self, Function.update_apply]
    exact if_congr (and_iff_right rfl).symm rfl rfl
  · rw [Function.update_of_ne hc, if_neg (fun h => hc h.1)]

structure Gone (w w' : World γ κ ι) (chunckid : γ) (subtype : κ) (removed dropped : List ι) : Prop where
  objs : w'.objs = w.objs.filter (fun obj => obj.objectid ∉ removed)
  index : ∀ c k, w'.chunckObjs c k = if c = chunckid ∧ k = subtype then
    (w.chunckObjs c k).filter (fun id => id ∉ dropped ∧ id ∉ removed) else w.chunckObjs c k
  cantRemove : w'.cantRemove = w.cantRemove
  refreshPool : w'.refreshPool = w.refreshPool
  lastLv : w'.lastLv = w.lastLv

theorem gone_foldl {chunckid : γ} {subtype : κ} : ∀ (ms : List (Monster γ κ ι)) (w : World γ κ ι),
    (∀ obj ∈ ms, obj.chunckid = chunckid ∧ obj.subtype = subtype) →
      Gone w (ms.foldl remove_object w) chunckid subtype (ms.map (·.objectid)) []
  | [], w, _ => by
    refine ⟨?_, fun c k => ?_, rfl, rfl, rfl⟩
    · simp
    · split <;> simp
  | obj :: ms, w, h => by
    obtain ⟨⟨rfl, rfl⟩, hms⟩ := List.forall_mem_cons.1 h
    have ih := gone_foldl ms (w.remove_object obj) hms
    refine ⟨?_, fun c k => ?_, ih.cantRemove, ih.refreshPool, ih.lastLv⟩
    · rw [List.foldl_cons, ih.objs]
      show (w.objs.filter _).filter _ = _
      rw [List.filter_filter]
      refine List.filter_congr fun o _ => ?_
      simp only [List.map_cons, List.mem_cons, not_or, ne_eq, Bool.decide_and, Bool.and_comm]
    · rw [List.foldl_cons, ih.index]
      have hone : (w.remove_object obj).chunckObjs c k = if c = obj.chunckid ∧ k = obj.subtype then
          (w.chunckObjs obj.chunckid obj.subtype).filter (fun id => id ≠ obj.objectid) else w.chunckObjs c k :=
        setChunckObjs_apply _ _ _ _ _
      rw [hone]
      split
      · next hck =>
        rw [hck.1, hck.2, List.filter_filter]
        refine List.filter_congr fun o _ => ?_
        simp only [List.map_cons, List.mem_cons, not_or, ne_eq, List.not_mem_nil, not_false_eq_true, true_and, Bool.decide_and,
          Bool.and_comm]
      · rfl

omit [DecidableEq γ] [DecidableEq κ] in
theorem scan_spec (h : w.Sound) {chunckid : γ} {subtype : κ} : ∀ (n : Nat) (ids : List ι),
    (∀ id ∈ ids, ⟨id, chunckid, subtype⟩ ∈ w.objs) →
      (∀ obj ∈ (w.scan n ids).1, obj.objectid ∈ ids ∧ obj.chunckid = chunckid ∧ obj.subtype = subtype ∧
        w.canRemove obj.objectid = true) ∧
      (∀ id ∈ (w.scan n ids).2, id ∈ ids ∧ w.canRemove id = false) ∧
      ((∀ id ∈ ids.take n, w.canRemove id = true) →
        (w.scan n ids).1.map (·.objectid) = ids.take n ∧ (w.scan n ids).2 = []) ∧
      ((w.scan n ids).2 = [] → ∀ id ∈ ids.take n, w.canRemove id = true)
  | _, [], _ => by
    rw [scan]
    exact ⟨nofun, nofun, fun _ => ⟨by simp, rfl⟩, fun _ => by simp⟩
  | 0, _ :: _, _ => by
    rw [scan]
    exact ⟨nofun, nofun, fun _ => ⟨rfl, rfl⟩, fun _ => by simp⟩
  | n + 1, id :: ids, hids => by
    obtain ⟨hid, hids⟩ := List.forall_mem_cons.1 hids
    have hget : w.get_object id = some ⟨id, chunckid, subtype⟩ := h.get_object hid
    rw [scan, hget, Option.filter_some]
    by_cases hcan : w.canRemove id = true
    · obtain ⟨hR, hD, hall, hnone⟩ := scan_spec h n ids hids
      simp only [hcan, if_true]
      refine ⟨?_, fun x hx => ⟨List.mem_cons_of_mem id (hD x hx).1, (hD x hx).2⟩, fun hpre => ?_, fun hempty => ?_⟩
      · refine List.forall_mem_cons.2 ⟨⟨List.mem_cons_self, rfl, rfl, hcan⟩, fun obj hobj => ?_⟩
        exact ⟨List.mem_cons_of_mem id (hR obj hobj).1, (hR obj hobj).2⟩
      · rw [List.take_succ_cons] at hpre ⊢
        obtain ⟨heq, hempty⟩ := hall (List.forall_mem_cons.1 hpre).2
        exact ⟨by rw [List.map_cons, heq], hempty⟩
      · rw [List.take_succ_cons]
        exact List.forall_mem_cons.2 ⟨hcan, hnone hempty⟩
    · obtain ⟨hR, hD, -, -⟩ := scan_spec h (n + 1) ids hids
      simp only [hcan, if_false, Bool.false_eq_true]
      refine ⟨fun obj hobj => ⟨List.mem_cons_of_mem id (hR obj hobj).1, (hR obj hobj).2⟩, ?_, fun hpre => ?_, fun hempty => ?_⟩
      · refine List.forall_mem_cons.2 ⟨⟨List.mem_cons_self, Bool.eq_false_iff.2 hcan⟩, fun x hx => ?_⟩
        exact ⟨List.mem_cons_of_mem id (hD x hx).1, (hD x hx).2⟩
      · rw [List.take_succ_cons] at hpre
        exact absurd (List.forall_mem_cons.1 hpre).1 hcan
      · cases hempty

/-- **What a removal does**: what the scan found that may be removed goes, and what has to stay drops out of the index. -/
theorem remove_monster_spec (h : w.Sound) (p : Pairs ι) (chunckid : γ) (subtype : κ) (num : Nat) :
    ∃ removed dropped : List ι, Gone w (w.remove_monster p chunckid subtype num) chunckid subtype removed dropped ∧
      (∀ id ∈ removed, id ∈ w.chunckObjs chunckid subtype ∧ w.canRemove id = true) ∧
      (∀ id ∈ dropped, id ∈ w.chunckObjs chunckid subtype ∧ w.canRemove id = false) ∧
      ((∀ id ∈ (p.order (w.chunckObjs chunckid subtype)).take num, w.canRemove id = true) →
        removed = (p.order (w.chunckObjs chunckid subtype)).take num ∧ dropped = []) ∧
      (dropped = [] → ∀ id ∈ (p.order (w.chunckObjs chunckid subtype)).take num, w.canRemove id = true) := by
  have hperm := p.perm (w.chunckObjs chunckid subtype)
  obtain ⟨hR, hD, hall, hnone⟩ := scan_spec h num (p.order (w.chunckObjs chunckid subtype))
    (fun id hid => h.live chunckid subtype id (hperm.mem_iff.1 hid))
  refine ⟨(w.scan num (p.order (w.chunckObjs chunckid subtype))).1.map (·.objectid),
    (w.scan num (p.order (w.chunckObjs chunckid subtype))).2, ?_, fun id hid => ?_,
    fun id hid => ⟨hperm.mem_iff.1 (hD id hid).1, (hD id hid).2⟩, hall, hnone⟩
  · have hgone := gone_foldl (w.scan num (p.order (w.chunckObjs chunckid subtype))).1
      (w.setChunckObjs chunckid subtype ((w.chunckObjs chunckid subtype).filter
        (fun id => id ∉ (w.scan num (p.order (w.chunckObjs chunckid subtype))).2)))
      (fun obj hobj => ⟨(hR obj hobj).2.1, (hR obj hobj).2.2.1⟩)
    refine ⟨hgone.objs, fun c k => ?_, hgone.cantRemove, hgone.refreshPool, hgone.lastLv⟩
    rw [remove_monster, hgone.index, setChunckObjs_apply]
    split
    · next hck =>
      rw [hck.1, hck.2, List.filter_filter]
      refine List.filter_congr fun id _ => ?_
      simp only [List.not_mem_nil, not_false_eq_true, true_and, Bool.decide_and, Bool.and_comm]
    · rfl
  · obtain ⟨obj, hobj, rfl⟩ := List.mem_map.1 hid
    obtain ⟨hmem, -, -, hcan⟩ := hR obj hobj
    exact ⟨hperm.mem_iff.1 hmem, hcan⟩

/-- What every loop does: it makes the index of a chunk smaller, and removes monsters of the chunk that may be removed. -/
structure Shrinks (w w' : World γ κ ι) (chunckid : γ) (subtypes : List κ) : Prop where
  sound : w'.Sound
  index : ∀ c k id, id ∈ w'.chunckObjs c k → id ∈ w.chunckObjs c k
  objs : ∀ obj ∈ w'.objs, obj ∈ w.objs
  gone : ∀ obj ∈ w.objs, obj ∉ w'.objs → w.canRemove obj.objectid = true
  cantRemove : w'.cantRemove = w.cantRemove
  refreshPool : w'.refreshPool = w.refreshPool
  same : ∀ c k, ¬(c = chunckid ∧ k ∈ subtypes) → w'.chunckObjs c k = w.chunckObjs c k ∧ w'.live c k = w.live c k

omit [DecidableEq ι] in
theorem Shrinks.refl (h : w.Sound) (chunckid : γ) (subtypes : List κ) : Shrinks w w chunckid subtypes :=
  ⟨h, fun _ _ _ => id, fun _ => id, fun _ hobj hno => absurd hobj hno, rfl, rfl, fun _ _ _ => ⟨rfl, rfl⟩⟩

omit [DecidableEq ι] in
theorem Sound.level (h : w.Sound) (chunckid : γ) (lastLv : Nat) : Shrinks w { w with lastLv := lastLv } chunckid [] :=
  ⟨⟨h.ids, h.index, h.live⟩, fun _ _ _ => id, fun _ => id, fun _ hobj hno => absurd hobj hno, rfl, rfl,
    fun _ _ _ => ⟨rfl, rfl⟩⟩

omit [DecidableEq ι] in
theorem Shrinks.trans {w₁ w₂ : World γ κ ι} {chunckid : γ} {ks ks' : List κ} (h : Shrinks w w₁ chunckid ks)
    (h' : Shrinks w₁ w₂ chunckid ks') : Shrinks w w₂ chunckid (ks ++ ks') where
  sound := h'.sound
  index c k id hid := h.index c k id (h'.index c k id hid)
  objs obj hobj := h.objs obj (h'.objs obj hobj)
  gone obj hobj hno := by
    by_cases hmid : obj ∈ w₁.objs
    · have hcan := h'.gone obj hmid hno
      rwa [canRemove, h.cantRemove] at hcan
    · exact h.gone obj hobj hmid
  cantRemove := h'.cantRemove.trans h.cantRemove
  refreshPool := h'.refreshPool.trans h.refreshPool
  same c k hno := by
    have h₁ := h.same c k (fun hck => hno ⟨hck.1, List.mem_append_left _ hck.2⟩)
    have h₂ := h'.same c k (fun hck => hno ⟨hck.1, List.mem_append_right _ hck.2⟩)
    exact ⟨h₂.1.trans h₁.1, h₂.2.trans h₁.2⟩

theorem Gone.live {w' : World γ κ ι} {chunckid : γ} {subtype : κ} {removed dropped : List ι}
    (h : Gone w w' chunckid subtype removed dropped) (c : γ) (k : κ) :
    w'.live c k = (w.live c k).filter (fun id => id ∉ removed) := by
  unfold World.live
  rw [h.objs, List.filter_map, List.filter_filter, List.filter_filter]
  refine congrArg _ (List.filter_congr fun obj _ => ?_)
  simp only [Function.comp_apply, Bool.and_comm]

theorem Gone.shrinks {w' : World γ κ ι} {chunckid : γ} {subtype : κ} {removed dropped : List ι}
    (h : Gone w w' chunckid subtype removed dropped) (hw : w.Sound)
    (hremoved : ∀ id ∈ removed, id ∈ w.chunckObjs chunckid subtype ∧ w.canRemove id = true) :
    Shrinks w w' chunckid [subtype] := by
  have hat : ∀ obj ∈ w.objs, obj.objectid ∈ removed → obj.chunckid = chunckid ∧ obj.subtype = subtype := by
    intro obj hobj hid
    have hlive := hw.live chunckid subtype _ (hremoved _ hid).1
    have heq := List.inj_on_of_nodup_map hw.ids hobj hlive rfl
    exact ⟨congrArg Monster.chunckid heq, congrArg Monster.subtype heq⟩
  have hindex : ∀ c k id, id ∈ w'.chunckObjs c k → id ∈ w.chunckObjs c k ∧ id ∉ removed := by
    intro c k id hid
    rw [h.index] at hid
    split at hid
    · obtain ⟨hmem, hnot⟩ := List.mem_filter.1 hid
      exact ⟨hmem, (of_decide_eq_true hnot).2⟩
    · next hck =>
      refine ⟨hid, fun hrem => hck ?_⟩
      exact hat ⟨id, c, k⟩ (hw.live c k id hid) hrem
  refine ⟨⟨?_, fun c k => ?_, fun c k id hid => ?_⟩, fun c k id hid => (hindex c k id hid).1, fun obj hobj => ?_,
    fun obj hobj hno => ?_, h.cantRemove, h.refreshPool, fun c k hck => ⟨?_, ?_⟩⟩
  · rw [h.objs]
    exact (List.filter_sublist.map _).nodup hw.ids
  · rw [h.index]
    split
    · exact (hw.index c k).filter _
    · exact hw.index c k
  · obtain ⟨hmem, hnot⟩ := hindex c k id hid
    rw [h.objs]
    exact List.mem_filter.2 ⟨hw.live c k id hmem, decide_eq_true hnot⟩
  · rw [h.objs] at hobj
    exact (List.mem_filter.1 hobj).1
  · rw [h.objs, List.mem_filter, not_and] at hno
    have hrem : obj.objectid ∈ removed := by
      by_contra hnot
      exact hno hobj (decide_eq_true hnot)
    exact (hremoved _ hrem).2
  · rw [h.index, if_neg]
    exact fun hck' => hck ⟨hck'.1, List.mem_singleton.2 hck'.2⟩
  · rw [h.live]
    refine List.filter_eq_self.2 fun id hid => decide_eq_true fun hrem => hck ?_
    obtain ⟨hc, hk⟩ := hat ⟨id, c, k⟩ (mem_live.1 hid) hrem
    exact ⟨hc, List.mem_singleton.2 hk⟩

def Lost (w : World γ κ ι) : Prop := ∃ chunckid subtype objectid, objectid ∈ w.live chunckid subtype ∧
  objectid ∉ w.chunckObjs chunckid subtype ∧ w.canRemove objectid = false

omit [DecidableEq ι] in
theorem Lost.not_indexed (h : w.Lost) : ¬ w.Indexed := by
  obtain ⟨chunckid, subtype, objectid, hlive, hno, -⟩ := h
  exact fun hindexed => hno ((hindexed chunckid subtype objectid).2 hlive)

omit [DecidableEq ι] in
theorem Lost.shrinks {w' : World γ κ ι} {chunckid : γ} {ks : List κ} (h : w.Lost) (hs : Shrinks w w' chunckid ks) :
    w'.Lost := by
  obtain ⟨c, k, objectid, hlive, hno, hstay⟩ := h
  refine ⟨c, k, objectid, mem_live.2 ?_, fun hmem => hno (hs.index c k objectid hmem), ?_⟩
  · by_contra hgone
    have hcan := hs.gone _ (mem_live.1 hlive) hgone
    rw [hstay] at hcan
    cases hcan
  · rwa [canRemove, hs.cantRemove]

omit [DecidableEq γ] [DecidableEq κ] [DecidableEq ι] in
theorem born_monster_eq (random : Nat → Nat) (v : Pool) :
    w.born_monster random v = if v.random = [] then some w else none := by
  unfold born_monster getRandomIndex
  cases v.random with
  | nil => rfl
  | cons x l => rfl

theorem Gone.indexed {w' : World γ κ ι} {chunckid : γ} {subtype : κ} {removed : List ι}
    (hgone : Gone w w' chunckid subtype removed []) (h : w.Sound) (hindexed : w.Indexed)
    (hremoved : ∀ id ∈ removed, id ∈ w.chunckObjs chunckid subtype) : w'.Indexed := by
  intro c k id
  rw [hgone.live, List.mem_filter, ← hindexed c k id, hgone.index]
  split
  · rw [List.mem_filter]
    simp
  · next hck =>
    refine ⟨fun hid => ⟨hid, decide_eq_true fun hrem => hck ?_⟩, fun hid => hid.1⟩
    have hlive := h.live chunckid subtype id (hremoved id hrem)
    have heq := List.inj_on_of_nodup_map h.ids (h.live c k id hid) hlive rfl
    exact ⟨congrArg Monster.chunckid heq, congrArg Monster.subtype heq⟩

theorem remove_monster_ready (h : w.Sound) (hindexed : w.Indexed) (p : Pairs ι) (chunckid : γ) (subtype : κ) (num : Nat)
    (hscan : ∀ id ∈ (p.order (w.chunckObjs chunckid subtype)).take num, w.canRemove id = true) :
    (w.remove_monster p chunckid subtype num).Indexed ∧
      ((w.remove_monster p chunckid subtype num).chunckObjs chunckid subtype).length =
        (w.chunckObjs chunckid subtype).length - num := by
  obtain ⟨removed, dropped, hgone, -, -, hall, -⟩ := remove_monster_spec h p chunckid subtype num
  obtain ⟨rfl, rfl⟩ := hall hscan
  have hperm := p.perm (w.chunckObjs chunckid subtype)
  have hnodup := hperm.nodup_iff.2 (h.index chunckid subtype)
  refine ⟨hgone.indexed h hindexed fun id hid => hperm.mem_iff.1 (List.mem_of_mem_take hid), ?_⟩
  · rw [hgone.index, if_pos ⟨rfl, rfl⟩]
    generalize p.order (w.chunckObjs chunckid subtype) = l at hperm hnodup
    have hlen : ((w.chunckObjs chunckid subtype).filter (fun id => id ∉ ([] : List ι) ∧ id ∉ l.take num)).length =
        (l.filter (fun id => id ∉ l.take num)).length := by
      refine ((hperm.symm.filter _).length_eq).trans (congrArg List.length (List.filter_congr fun id _ => ?_))
      simp
    have hdrop : l.filter (fun id => id ∉ l.take num) = l.drop num := by
      have hdisjoint := List.disjoint_take_drop hnodup (Nat.le_refl num)
      conv_lhs => rw [← List.take_append_drop num l]
      rw [List.filter_append, List.filter_eq_nil_iff.2, List.nil_append, List.filter_eq_self.2]
      · intro id hid
        rw [List.take_append_drop]
        exact decide_eq_true fun htake => hdisjoint htake hid
      · intro id hid hno
        rw [List.take_append_drop] at hno
        exact of_decide_eq_true hno hid
    rw [hlen, hdrop, List.length_drop, hperm.length_eq]

theorem remove_monster_lost (h : w.Sound) (p : Pairs ι) (chunckid : γ) (subtype : κ) (num : Nat)
    (hscan : ¬ ∀ id ∈ (p.order (w.chunckObjs chunckid subtype)).take num, w.canRemove id = true) :
    (w.remove_monster p chunckid subtype num).Lost := by
  obtain ⟨removed, dropped, hgone, hremoved, hdropped, -, hnone⟩ := remove_monster_spec h p chunckid subtype num
  obtain ⟨id, hid⟩ := List.exists_mem_of_ne_nil dropped (fun hnil => hscan (hnone hnil))
  obtain ⟨hmem, hstay⟩ := hdropped id hid
  refine ⟨chunckid, subtype, id, ?_, ?_, ?_⟩
  · rw [hgone.live]
    refine List.mem_filter.2 ⟨mem_live.2 (h.live chunckid subtype id hmem), decide_eq_true fun hrem => ?_⟩
    rw [(hremoved id hrem).2] at hstay
    cases hstay
  · rw [hgone.index, if_pos ⟨rfl, rfl⟩, List.mem_filter]
    exact fun hin => (of_decide_eq_true hin.2).1 hid
  · rwa [canRemove, hgone.cantRemove]

theorem remove_monster_shrinks (h : w.Sound) (p : Pairs ι) (chunckid : γ) (subtype : κ) (num : Nat) :
    Shrinks w (w.remove_monster p chunckid subtype num) chunckid [subtype] := by
  obtain ⟨removed, dropped, hgone, hremoved, -⟩ := remove_monster_spec h p chunckid subtype num
  exact hgone.shrinks h hremoved

theorem refreshLoop_shrinks (random : Nat → Nat) (p : Pairs ι) (chunckid : γ) : ∀ (kinds : List (κ × Pool))
    (w : World γ κ ι), w.Sound → Shrinks w (refreshLoop random p chunckid kinds w).1 chunckid (kinds.map Prod.fst)
  | [], w, h => Shrinks.refl h chunckid []
  | kind :: kinds, w, h => by
    rw [refreshLoop, born_monster_eq]
    split
    · split
      · next hsome =>
        exact (Shrinks.refl h chunckid [kind.1]).trans (Shrinks.refl h chunckid (kinds.map Prod.fst))
      · next hsome =>
        split at hsome
        · obtain rfl := Option.some.inj hsome
          exact (Shrinks.refl h chunckid [kind.1]).trans (refreshLoop_shrinks random p chunckid kinds w h)
        · cases hsome
    · split
      · have hone := remove_monster_shrinks h p chunckid kind.1 ((w.chunckObjs chunckid kind.1).length - kind.2.num)
        exact hone.trans (refreshLoop_shrinks random p chunckid kinds _ hone.sound)
      · exact (Shrinks.refl h chunckid [kind.1]).trans (refreshLoop_shrinks random p chunckid kinds w h)

omit [DecidableEq ι] in
theorem Shrinks.readyKind {w' : World γ κ ι} {chunckid : γ} {ks : List κ} (h : Shrinks w w' chunckid ks) (p : Pairs ι)
    {kind : κ × Pool} (hkind : kind.1 ∉ ks) : w'.ReadyKind p chunckid kind ↔ w.ReadyKind p chunckid kind := by
  have hindex := (h.same chunckid kind.1 (fun hck => hkind hck.2)).1
  have hcan : ∀ id, w'.canRemove id = w.canRemove id := fun id => congrArg Bool.not (congrFun h.cantRemove id)
  constructor
  · rintro ⟨hrates, hscan⟩
    rw [hindex] at hrates hscan
    exact ⟨hrates, fun id hid => (hcan id).symm.trans (hscan id hid)⟩
  · rintro ⟨hrates, hscan⟩
    rw [← hindex] at hrates hscan
    exact ⟨hrates, fun id hid => (hcan id).trans (hscan id hid)⟩

structure Looped (w : World γ κ ι) (p : Pairs ι) (chunckid : γ) (kinds : List (κ × Pool)) (r : World γ κ ι × Bool) : Prop where
  ready : (∀ kind ∈ kinds, w.ReadyKind p chunckid kind) → r.2 = false ∧ r.1.Indexed ∧ ∀ kind ∈ kinds,
    (r.1.chunckObjs chunckid kind.1).length = min (w.chunckObjs chunckid kind.1).length kind.2.num
  not : (¬ ∀ kind ∈ kinds, w.ReadyKind p chunckid kind) → r.2 = true ∨ r.1.Lost

omit [DecidableEq ι] in
theorem Looped.cons {w₁ : World γ κ ι} {p : Pairs ι} {chunckid : γ} {kind : κ × Pool} {kinds : List (κ × Pool)}
    {r : World γ κ ι × Bool} (hone : Shrinks w w₁ chunckid [kind.1]) (hrest : Shrinks w₁ r.1 chunckid (kinds.map Prod.fst))
    (hkind : kind.1 ∉ kinds.map Prod.fst) (hready : w.ReadyKind p chunckid kind)
    (hlen : (w₁.chunckObjs chunckid kind.1).length = min (w.chunckObjs chunckid kind.1).length kind.2.num)
    (h : w₁.Looped p chunckid kinds r) : w.Looped p chunckid (kind :: kinds) r := by
  have hne : ∀ k ∈ kinds, k.1 ∉ [kind.1] := by
    intro k hk hmem
    exact hkind (List.mem_singleton.1 hmem ▸ List.mem_map_of_mem hk)
  refine ⟨fun hall => ?_, fun hno => h.not fun hall => hno ?_⟩
  · obtain ⟨hfalse, hindexed, hcount⟩ := h.ready fun k hk =>
      (hone.readyKind p (hne k hk)).2 (hall k (List.mem_cons_of_mem kind hk))
    refine ⟨hfalse, hindexed, List.forall_mem_cons.2 ⟨?_, fun k hk => ?_⟩⟩
    · rw [(hrest.same chunckid kind.1 (fun hck => hkind hck.2)).1, hlen]
    · rw [hcount k hk, (hone.same chunckid k.1 (fun hck => hne k hk hck.2)).1]
  · exact List.forall_mem_cons.2 ⟨hready, fun k hk => (hone.readyKind p (hne k hk)).1 (hall k hk)⟩

/-- **A refresh comes to the configured number exactly if it is ready**, as far as there were more. -/
theorem refreshLoop_spec (random : Nat → Nat) (p : Pairs ι) (chunckid : γ) : ∀ (kinds : List (κ × Pool)) (w : World γ κ ι),
    w.Sound → w.Indexed → (kinds.map Prod.fst).Nodup → w.Looped p chunckid kinds (refreshLoop random p chunckid kinds w)
  | [], w, _, hindexed, _ => ⟨fun _ => ⟨rfl, hindexed, nofun⟩, fun hno => absurd nofun hno⟩
  | kind :: kinds, w, h, hindexed, hnodup => by
    obtain ⟨hkind, hnodup⟩ := List.nodup_cons.1 hnodup
    -- the index of the kind is as long as is configured, or shorter, and stays as it is
    have hsame : w.ReadyKind p chunckid kind → (w.chunckObjs chunckid kind.1).length ≤ kind.2.num →
        refreshLoop random p chunckid (kind :: kinds) w = refreshLoop random p chunckid kinds w →
        w.Looped p chunckid (kind :: kinds) (refreshLoop random p chunckid (kind :: kinds) w) := by
      intro hready hle heq
      rw [heq]
      exact Looped.cons (Shrinks.refl h chunckid [kind.1]) (refreshLoop_shrinks random p chunckid kinds w h) hkind hready
        (Nat.min_eq_left hle).symm (refreshLoop_spec random p chunckid kinds w h hindexed hnodup)
    have hnone : (w.chunckObjs chunckid kind.1).length ≤ kind.2.num → ∀ objectid ∈
        (p.order (w.chunckObjs chunckid kind.1)).take ((w.chunckObjs chunckid kind.1).length - kind.2.num),
        w.canRemove objectid = true := by
      intro hle objectid hid
      rw [Nat.sub_eq_zero_of_le hle, List.take_zero] at hid
      cases hid
    rcases Nat.lt_trichotomy (w.chunckObjs chunckid kind.1).length kind.2.num with hlt | heq | hgt
    · by_cases hempty : kind.2.random = []
      · refine hsame ⟨fun _ => hempty, hnone hlt.le⟩ hlt.le ?_
        rw [refreshLoop, if_pos hlt, born_monster_eq, if_pos hempty]
      · have hraise : refreshLoop random p chunckid (kind :: kinds) w = (w, true) := by
          rw [refreshLoop, if_pos hlt, born_monster_eq, if_neg hempty]
        rw [hraise]
        exact ⟨fun hall => absurd ((hall kind List.mem_cons_self).rates hlt) hempty, fun _ => .inl rfl⟩
    · refine hsame ⟨fun hlt => absurd heq hlt.ne, hnone heq.le⟩ heq.le ?_
      rw [refreshLoop, if_neg (Nat.not_lt.2 heq.ge), if_neg (Nat.not_lt.2 heq.le)]
    · have hloop : refreshLoop random p chunckid (kind :: kinds) w = refreshLoop random p chunckid kinds
          (w.remove_monster p chunckid kind.1 ((w.chunckObjs chunckid kind.1).length - kind.2.num)) := by
        rw [refreshLoop, if_neg (Nat.not_lt.2 hgt.le), if_pos hgt]
      have hone := remove_monster_shrinks h p chunckid kind.1 ((w.chunckObjs chunckid kind.1).length - kind.2.num)
      have hrest := refreshLoop_shrinks random p chunckid kinds _ hone.sound
      rw [hloop]
      by_cases hscan : ∀ id ∈ (p.order (w.chunckObjs chunckid kind.1)).take
          ((w.chunckObjs chunckid kind.1).length - kind.2.num), w.canRemove id = true
      · obtain ⟨hindexed', hlen⟩ := remove_monster_ready h hindexed p chunckid kind.1 _ hscan
        refine Looped.cons hone hrest hkind ⟨fun hlt => absurd hlt hgt.not_gt, hscan⟩ ?_
          (refreshLoop_spec random p chunckid kinds _ hone.sound hindexed' hnodup)
        rw [hlen, Nat.min_eq_right hgt.le]
        omega
      · refine ⟨fun hall => absurd (hall kind List.mem_cons_self).scan hscan, fun _ => .inr ?_⟩
        exact (remove_monster_lost h p chunckid kind.1 _ hscan).shrinks hrest

omit [DecidableEq ι] in
theorem Sound.length_live (h : w.Sound) (hindexed : w.Indexed) (chunckid : γ) (subtype : κ) :
    (w.live chunckid subtype).length = (w.chunckObjs chunckid subtype).length :=
  ((List.perm_ext_iff_of_nodup (h.nodup_live chunckid subtype) (h.index chunckid subtype)).2
    fun id => (hindexed chunckid subtype id).symm).length_eq

theorem refresh_chunck_monster_eq (w : World γ κ ι) (conf : Conf γ κ) (random : Nat → Nat) (p : Pairs ι) (chunckid : γ) :
    ∃ lastLv, w.refresh_chunck_monster conf random p chunckid =
      refreshLoop random p chunckid (w.kinds conf chunckid) { w with lastLv := lastLv } := by
  unfold refresh_chunck_monster kinds
  by_cases hno : noMonster conf chunckid = true
  · rw [if_pos hno, if_pos hno]
    exact ⟨w.lastLv, rfl⟩
  · rw [if_neg hno, if_neg hno]
    by_cases hpool : w.refreshPool (w.chunckLv conf chunckid) = []
    · simp only [hpool, if_true]
      exact ⟨w.lastLv, rfl⟩
    · simp only [hpool, if_false]
      exact ⟨w.chunckLv conf chunckid, rfl⟩

theorem Sound.refresh_shrinks (h : w.Sound) (conf : Conf γ κ) (random : Nat → Nat) (p : Pairs ι) (chunckid : γ) :
    Shrinks w (w.refresh_chunck_monster conf random p chunckid).1 chunckid ((w.kinds conf chunckid).map Prod.fst) := by
  obtain ⟨lastLv, heq⟩ := w.refresh_chunck_monster_eq conf random p chunckid
  rw [heq]
  exact (h.level chunckid lastLv).trans (refreshLoop_shrinks random p chunckid _ _ (h.level chunckid lastLv).sound)

structure Good (w : World γ κ ι) : Prop extends w.Sound where
  indexed : w.Indexed
  pool : ∀ chunckLv, ((w.refreshPool chunckLv).map Prod.fst).Nodup

omit [DecidableEq ι] in
theorem Good.kinds (h : w.Good) (conf : Conf γ κ) (chunckid : γ) : ((w.kinds conf chunckid).map Prod.fst).Nodup := by
  unfold World.kinds
  split
  · exact List.nodup_nil
  · exact h.pool _

omit [DecidableEq ι] in
theorem missing_eq_zero {chunckid : γ} {kinds : List (κ × Pool)} :
    w.missing chunckid kinds = 0 ↔ ∀ kind ∈ kinds, kind.2.num ≤ (w.live chunckid kind.1).length := by
  unfold missing
  rw [List.sum_eq_zero_iff_forall_eq_nat]
  simp only [List.mem_map, forall_exists_index, and_imp, forall_apply_eq_imp_iff₂, Nat.sub_eq_zero_iff_le]

omit [DecidableEq ι] in
theorem Looped.refreshed_iff {p : Pairs ι} {chunckid : γ} {kinds : List (κ × Pool)} {r : World γ κ ι × Bool}
    (h : w.Looped p chunckid kinds r) (hw : w.Sound) (hindexed : w.Indexed)
    (hs : Shrinks w r.1 chunckid (kinds.map Prod.fst)) (free : Nat) :
    w.Refreshed chunckid kinds free r ↔ w.Ready p chunckid kinds free := by
  have hlen : r.1.Indexed → (∀ kind ∈ kinds, (r.1.chunckObjs chunckid kind.1).length =
      min (w.chunckObjs chunckid kind.1).length kind.2.num) → ∀ kind ∈ kinds, (r.1.live chunckid kind.1).length =
        min (w.live chunckid kind.1).length kind.2.num := by
    intro hindexed' hcount kind hkind
    rw [hs.sound.length_live hindexed', hw.length_live hindexed, hcount kind hkind]
  constructor
  · intro hr
    have hready : ∀ kind ∈ kinds, w.ReadyKind p chunckid kind := by
      by_contra hno
      rcases h.not hno with htrue | hlost
      · exact Bool.false_ne_true (hr.returns.symm.trans htrue)
      · exact hlost.not_indexed hr.indexed
    obtain ⟨-, hindexed', hcount⟩ := h.ready hready
    refine ⟨hready, ?_⟩
    rcases Nat.lt_or_ge free (w.missing chunckid kinds) with hlt | hge
    · exact .inr hlt
    · refine .inl (missing_eq_zero.2 fun kind hkind => ?_)
      by_contra hfew
      have hborn := hr.born hge kind hkind (Nat.lt_of_not_le hfew)
      rw [hlen hindexed' hcount kind hkind] at hborn
      omega
  · intro hready
    obtain ⟨hfalse, hindexed', hcount⟩ := h.ready hready.each
    have hlive := hlen hindexed' hcount
    refine ⟨hfalse, hindexed', fun kind hkind => ?_, fun hge kind hkind hfew => ?_, fun kind hkind hmany => ⟨?_, ?_, .inl ?_⟩⟩
    · rw [hlive kind hkind]
      omega
    · have hzero := hready.room.resolve_right (Nat.not_lt.2 hge)
      exact absurd (missing_eq_zero.1 hzero kind hkind) (Nat.not_le.2 hfew)
    · exact fun id hid => mem_live.2 (hs.objs _ (mem_live.1 hid))
    · exact fun id hid hno => hs.gone _ (mem_live.1 hid) (fun hmem => hno (mem_live.2 hmem))
    · rw [hlive kind hkind]
      omega

theorem Good.refreshed_iff (h : w.Good) (conf : Conf γ κ) (random : Nat → Nat) (p : Pairs ι) (chunckid : γ) (free : Nat) :
    w.Refreshed chunckid (w.kinds conf chunckid) free (w.refresh_chunck_monster conf random p chunckid) ↔
      w.Ready p chunckid (w.kinds conf chunckid) free := by
  obtain ⟨lastLv, heq⟩ := w.refresh_chunck_monster_eq conf random p chunckid
  have hlevel := h.toSound.level chunckid lastLv
  have hlooped := refreshLoop_spec random p chunckid (w.kinds conf chunckid) { w with lastLv := lastLv } hlevel.sound
    h.indexed (h.kinds conf chunckid)
  have hs := refreshLoop_shrinks random p chunckid (w.kinds conf chunckid) { w with lastLv := lastLv } hlevel.sound
  have hiff : (∀ kind ∈ w.kinds conf chunckid, ReadyKind { w with lastLv := lastLv } p chunckid kind) ↔
      ∀ kind ∈ w.kinds conf chunckid, w.ReadyKind p chunckid kind :=
    forall₂_congr fun kind _ => hlevel.readyKind p List.not_mem_nil
  have hlooped' : w.Looped p chunckid (w.kinds conf chunckid)
      (refreshLoop random p chunckid (w.kinds conf chunckid) { w with lastLv := lastLv }) :=
    ⟨fun hall => hlooped.ready (hiff.2 hall), fun hno => hlooped.not fun hall => hno (hiff.1 hall)⟩
  rw [heq]
  exact hlooped'.refreshed_iff h.toSound h.indexed (hlevel.trans hs) free

theorem resetLoop_shrinks (p : Pairs ι) (chunckid : γ) : ∀ (kinds : List (κ × Pool)) (w : World γ κ ι), w.Sound →
    Shrinks w (w.resetLoop p chunckid kinds) chunckid (kinds.map Prod.fst)
  | [], w, h => Shrinks.refl h chunckid []
  | kind :: kinds, w, h => by
    rw [resetLoop, List.foldl_cons]
    dsimp only
    split
    · have hone := remove_monster_shrinks h p chunckid kind.1 (w.chunckObjs chunckid kind.1).length
      exact hone.trans (resetLoop_shrinks p chunckid kinds _ hone.sound)
    · exact (Shrinks.refl h chunckid [kind.1]).trans (resetLoop_shrinks p chunckid kinds w h)

theorem resetLoop_spec (p : Pairs ι) (chunckid : γ) : ∀ (kinds : List (κ × Pool)) (w : World γ κ ι), w.Sound →
    w.Indexed → (kinds.map Prod.fst).Nodup → Shrinks w (w.resetLoop p chunckid kinds) chunckid (kinds.map Prod.fst) ∧
      ((∀ kind ∈ kinds, ∀ id ∈ w.chunckObjs chunckid kind.1, w.canRemove id = true) →
        (w.resetLoop p chunckid kinds).Indexed ∧
          ∀ kind ∈ kinds, (w.resetLoop p chunckid kinds).chunckObjs chunckid kind.1 = []) ∧
      ((¬ ∀ kind ∈ kinds, ∀ id ∈ w.chunckObjs chunckid kind.1, w.canRemove id = true) →
        (w.resetLoop p chunckid kinds).Lost)
  | [], w, h, hindexed, _ => ⟨Shrinks.refl h chunckid [], fun _ => ⟨hindexed, nofun⟩, fun hno => absurd nofun hno⟩
  | kind :: kinds, w, h, hindexed, hnodup => by
    obtain ⟨hkind, hnodup⟩ := List.nodup_cons.1 hnodup
    have hperm := p.perm (w.chunckObjs chunckid kind.1)
    have htake : (p.order (w.chunckObjs chunckid kind.1)).take (w.chunckObjs chunckid kind.1).length =
        p.order (w.chunckObjs chunckid kind.1) := by rw [← hperm.length_eq, List.take_length]
    -- one kind, whether there is a monster of it or not
    obtain ⟨w₁, hw₁, hone, hready, hlost⟩ : ∃ w₁, w.resetLoop p chunckid (kind :: kinds) = w₁.resetLoop p chunckid kinds ∧
        Shrinks w w₁ chunckid [kind.1] ∧
        ((∀ id ∈ w.chunckObjs chunckid kind.1, w.canRemove id = true) → w₁.Indexed ∧ w₁.chunckObjs chunckid kind.1 = []) ∧
        ((¬ ∀ id ∈ w.chunckObjs chunckid kind.1, w.canRemove id = true) → w₁.Lost) := by
      by_cases hpos : 0 < (w.chunckObjs chunckid kind.1).length
      · refine ⟨w.remove_monster p chunckid kind.1 (w.chunckObjs chunckid kind.1).length, ?_,
          remove_monster_shrinks h p chunckid kind.1 _, fun hall => ?_, fun hno => ?_⟩
        · rw [resetLoop, List.foldl_cons]
          simp only [if_pos hpos]
          rfl
        · obtain ⟨hindexed', hlen⟩ := remove_monster_ready h hindexed p chunckid kind.1
            (w.chunckObjs chunckid kind.1).length (fun id hid => hall id (hperm.mem_iff.1 (htake ▸ hid)))
          exact ⟨hindexed', List.length_eq_zero_iff.1 (hlen.trans (Nat.sub_self _))⟩
        · refine remove_monster_lost h p chunckid kind.1 _ fun hall => hno fun id hid => hall id ?_
          rw [htake]
          exact hperm.mem_iff.2 hid
      · have hnil : w.chunckObjs chunckid kind.1 = [] := List.length_eq_zero_iff.1 (Nat.eq_zero_of_not_pos hpos)
        refine ⟨w, ?_, Shrinks.refl h chunckid [kind.1], fun _ => ⟨hindexed, hnil⟩, fun hno => ?_⟩
        · rw [resetLoop, List.foldl_cons]
          simp only [if_neg hpos]
          rfl
        · exact absurd (fun id hid => by rw [hnil] at hid; cases hid) hno
    have hsame : ∀ k ∈ kinds, (∀ id ∈ w₁.chunckObjs chunckid k.1, w₁.canRemove id = true) ↔
        ∀ id ∈ w.chunckObjs chunckid k.1, w.canRemove id = true := by
      intro k hk
      have hne : k.1 ∉ [kind.1] := fun hmem => hkind (List.mem_singleton.1 hmem ▸ List.mem_map_of_mem hk)
      rw [(hone.same chunckid k.1 (fun hck => hne hck.2)).1]
      simp only [canRemove, hone.cantRemove]
    rw [hw₁]
    by_cases hall : ∀ id ∈ w.chunckObjs chunckid kind.1, w.canRemove id = true
    · obtain ⟨hindexed₁, hnil⟩ := hready hall
      obtain ⟨hs, hrest, hrest'⟩ := resetLoop_spec p chunckid kinds w₁ hone.sound hindexed₁ hnodup
      refine ⟨hone.trans hs, fun hkinds => ?_, fun hno => hrest' fun hkinds => hno ?_⟩
      · obtain ⟨hindexed', hnils⟩ := hrest fun k hk => (hsame k hk).2 (hkinds k (List.mem_cons_of_mem kind hk))
        refine ⟨hindexed', List.forall_mem_cons.2 ⟨?_, hnils⟩⟩
        rw [(hs.same chunckid kind.1 (fun hck => hkind hck.2)).1, hnil]
      · exact List.forall_mem_cons.2 ⟨hall, fun k hk => (hsame k hk).1 (hkinds k hk)⟩
    · have hs := resetLoop_shrinks p chunckid kinds w₁ hone.sound
      exact ⟨hone.trans hs, fun hkinds => absurd (hkinds kind List.mem_cons_self) hall, fun _ => (hlost hall).shrinks hs⟩

theorem Good.resetKinds (h : w.Good) (conf : Conf γ κ) (p : Pairs ι) (chunckid : γ)
    (hpool : w.refreshPool (w.chunckLv conf chunckid) ≠ []) :
    Shrinks w (w.resetKinds conf p chunckid) chunckid ((w.refreshPool (w.chunckLv conf chunckid)).map Prod.fst) ∧
      ((∀ kind ∈ w.refreshPool (w.chunckLv conf chunckid), ∀ id ∈ w.chunckObjs chunckid kind.1, w.canRemove id = true) →
        (w.resetKinds conf p chunckid).Good ∧ ∀ kind ∈ w.refreshPool (w.chunckLv conf chunckid),
          (w.resetKinds conf p chunckid).chunckObjs chunckid kind.1 = []) ∧
      ((¬ ∀ kind ∈ w.refreshPool (w.chunckLv conf chunckid), ∀ id ∈ w.chunckObjs chunckid kind.1, w.canRemove id = true) →
        (w.resetKinds conf p chunckid).Lost) := by
  have hlevel := h.toSound.level chunckid (w.chunckLv conf chunckid)
  have heq : w.resetKinds conf p chunckid = resetLoop { w with lastLv := w.chunckLv conf chunckid } p chunckid
      (w.refreshPool (w.chunckLv conf chunckid)) := if_neg hpool
  obtain ⟨hs, hall, hno⟩ := resetLoop_spec p chunckid (w.refreshPool (w.chunckLv conf chunckid))
    { w with lastLv := w.chunckLv conf chunckid } hlevel.sound h.indexed (h.pool _)
  rw [heq]
  refine ⟨hlevel.trans hs, fun hkinds => ?_, hno⟩
  obtain ⟨hindexed, hnil⟩ := hall hkinds
  exact ⟨⟨hs.sound, hindexed, fun chunckLv => by rw [hs.refreshPool]; exact h.pool chunckLv⟩, hnil⟩

theorem kinds_resetKinds (conf : Conf γ κ) (p : Pairs ι) (chunckid : γ) {ks : List κ}
    (hs : Shrinks w (w.resetKinds conf p chunckid) chunckid ks) (hpool : w.refreshPool (w.chunckLv conf chunckid) ≠ []) :
    (w.resetKinds conf p chunckid).kinds conf chunckid = w.kinds conf chunckid := by
  have hlast : ∀ (kinds : List (κ × Pool)) (w : World γ κ ι), (w.resetLoop p chunckid kinds).lastLv = w.lastLv := by
    intro kinds
    induction kinds with
    | nil => exact fun _ => rfl
    | cons kind kinds ih =>
      intro w
      rw [resetLoop, List.foldl_cons]
      refine (ih _).trans ?_
      dsimp only
      split
      · rw [remove_monster]
        have hfold : ∀ (ms : List (Monster γ κ ι)) (w : World γ κ ι), (ms.foldl remove_object w).lastLv = w.lastLv := by
          intro ms
          induction ms with
          | nil => exact fun _ => rfl
          | cons obj ms ih => exact fun w => ih (w.remove_object obj)
        exact hfold _ _
      · rfl
  have heq : w.resetKinds conf p chunckid = resetLoop { w with lastLv := w.chunckLv conf chunckid } p chunckid
      (w.refreshPool (w.chunckLv conf chunckid)) := if_neg hpool
  have hlv : (w.resetKinds conf p chunckid).chunckLv conf chunckid = w.chunckLv conf chunckid := by
    have hsame : (w.resetKinds conf p chunckid).lastLv = w.chunckLv conf chunckid := by rw [heq, hlast]
    rw [chunckLv, hsame, chunckLv]
    cases (conf.area chunckid).bind (·.Level) with
    | none => rfl
    | some lv => rfl
  unfold kinds
  rw [hlv, hs.refreshPool]

omit [DecidableEq γ] [DecidableEq κ] [DecidableEq ι] in
theorem mem_of_mem_kinds {conf : Conf γ κ} {chunckid : γ} {kind : κ × Pool} (h : kind ∈ w.kinds conf chunckid) :
    kind ∈ w.refreshPool (w.chunckLv conf chunckid) := by
  unfold kinds at h
  split at h
  · cases h
  · exact h

omit [DecidableEq ι] in
theorem ready_of_nil (h : w.Good) (p : Pairs ι) {chunckid : γ} {kinds : List (κ × Pool)} (free : Nat)
    (hnil : ∀ kind ∈ kinds, w.chunckObjs chunckid kind.1 = []) : w.Ready p chunckid kinds free ↔
      (∀ kind ∈ kinds, 0 < kind.2.num → kind.2.random = []) ∧
        ((kinds.map (·.2.num)).sum = 0 ∨ free < (kinds.map (·.2.num)).sum) := by
  have hmissing : w.missing chunckid kinds = (kinds.map (·.2.num)).sum := by
    refine congrArg List.sum (List.map_congr_left fun kind hkind => ?_)
    rw [h.length_live h.indexed, hnil kind hkind]
    rfl
  have heach : (∀ kind ∈ kinds, w.ReadyKind p chunckid kind) ↔
      ∀ kind ∈ kinds, 0 < kind.2.num → kind.2.random = [] := by
    refine forall₂_congr fun kind hkind => ⟨fun hk hpos => hk.rates ?_, fun hk => ⟨fun hlt => hk ?_, ?_⟩⟩
    · rw [hnil kind hkind]
      exact hpos
    · rw [hnil kind hkind] at hlt
      exact hlt
    · rw [hnil kind hkind, List.perm_nil.1 (p.perm [])]
      simp
  rw [← hmissing, ← heach]
  exact ⟨fun hr => ⟨hr.each, hr.room⟩, fun hr => ⟨hr.1, hr.2⟩⟩

omit [DecidableEq ι] in
theorem good_new : (new : World γ κ ι).Good :=
  ⟨⟨List.nodup_nil, fun _ _ => List.nodup_nil, nofun⟩, fun _ _ _ => ⟨nofun, nofun⟩, fun _ => List.nodup_nil⟩

theorem Good.refreshed (h : w.Good) (conf : Conf γ κ) (random : Nat → Nat) (p : Pairs ι) (chunckid : γ) {kinds : List (κ × Pool)}
    {free : Nat} (hr : w.Refreshed chunckid kinds free (w.refresh_chunck_monster conf random p chunckid)) :
    (w.refresh_chunck_monster conf random p chunckid).1.Good := by
  have hs := h.toSound.refresh_shrinks conf random p chunckid
  exact ⟨hs.sound, hr.indexed, fun chunckLv => by rw [hs.refreshPool]; exact h.pool chunckLv⟩

theorem Good.add_object (h : w.Good) (obj : Monster γ κ ι) :
    ((w.add_object obj).Indexed ↔
      ∀ o ∈ w.objs, o.objectid = obj.objectid → o.chunckid = obj.chunckid ∧ o.subtype = obj.subtype) ∧
      ((w.add_object obj).Indexed → (w.add_object obj).Good) := by
  have hindex : ∀ c k, (w.add_object obj).chunckObjs c k = if c = obj.chunckid ∧ k = obj.subtype then
      (w.chunckObjs c k).filter (fun id => id ≠ obj.objectid) ++ [obj.objectid] else w.chunckObjs c k := by
    intro c k
    refine (setChunckObjs_apply _ _ _ _ _).trans ?_
    split
    · next hck => rw [hck.1, hck.2]
    · rfl
  have hobjs : ∀ o, o ∈ (w.add_object obj).objs ↔ (o ∈ w.objs ∧ o.objectid ≠ obj.objectid) ∨ o = obj := by
    intro o
    show o ∈ w.objs.filter (fun (o : Monster γ κ ι) => o.objectid ≠ obj.objectid) ++ [obj] ↔ _
    simp
  have hids : ((w.add_object obj).objs.map (·.objectid)).Nodup := by
    show ((w.objs.filter (fun (o : Monster γ κ ι) => o.objectid ≠ obj.objectid) ++ [obj]).map (·.objectid)).Nodup
    rw [List.map_append, List.nodup_append]
    refine ⟨(List.filter_sublist.map _).nodup h.ids, List.nodup_singleton _, ?_⟩
    rintro a ha b hb rfl
    obtain ⟨o, ho, rfl⟩ := List.mem_map.1 ha
    have hne : o.objectid ≠ obj.objectid := by simpa using (List.mem_filter.1 ho).2
    exact hne (List.mem_singleton.1 hb)
  refine ⟨⟨fun hindexed o ho hid => ?_, fun hfits c k id => ?_⟩, fun hindexed => ⟨⟨hids, fun c k => ?_, ?_⟩, hindexed, h.pool⟩⟩
  · by_contra hck
    have hmem : o.objectid ∈ (w.add_object obj).chunckObjs o.chunckid o.subtype := by
      rw [hindex, if_neg hck]
      exact (h.indexed _ _ _).2 (mem_live.2 ho)
    rcases (hobjs _).1 (mem_live.1 ((hindexed _ _ _).1 hmem)) with ⟨-, hne⟩ | heq
    · exact hne hid
    · exact hck ⟨congrArg Monster.chunckid heq, congrArg Monster.subtype heq⟩
  · rw [mem_live, hobjs, hindex, ← mem_live, ← h.indexed]
    by_cases hck : c = obj.chunckid ∧ k = obj.subtype
    · obtain ⟨rfl, rfl⟩ := hck
      rw [if_pos ⟨rfl, rfl⟩, List.mem_append, List.mem_filter, List.mem_singleton, decide_eq_true_eq]
      refine or_congr Iff.rfl ⟨fun hid => by rw [hid], fun heq => congrArg Monster.objectid heq⟩
    · rw [if_neg hck]
      refine ⟨fun hmem => .inl ⟨hmem, fun hid => hck ?_⟩, ?_⟩
      · exact hfits ⟨id, c, k⟩ (mem_live.1 ((h.indexed c k id).1 hmem)) hid
      · rintro (hmem | rfl)
        · exact hmem.1
        · exact absurd ⟨rfl, rfl⟩ hck
  · rw [hindex]
    split
    · refine List.nodup_append.2 ⟨(h.index c k).filter _, List.nodup_singleton _, ?_⟩
      rintro a ha b hb rfl
      exact (of_decide_eq_true (List.mem_filter.1 ha).2) (List.mem_singleton.1 hb)
    · exact h.index c k
  · exact fun c k id hid => mem_live.1 ((hindexed c k id).1 hid)

theorem Good.remove_object (h : w.Good) {obj : Monster γ κ ι} (hobj : obj ∈ w.objs) : (w.remove_object obj).Good := by
  have hgone : Gone w (w.remove_object obj) obj.chunckid obj.subtype [obj.objectid] [] :=
    gone_foldl [obj] w (List.forall_mem_singleton.2 ⟨rfl, rfl⟩)
  have hmem : ∀ id ∈ [obj.objectid], id ∈ w.chunckObjs obj.chunckid obj.subtype :=
    List.forall_mem_singleton.2 ((h.indexed _ _ _).2 (mem_live.2 hobj))
  have hindexed := hgone.indexed h.toSound h.indexed hmem
  refine ⟨⟨?_, fun c k => ?_, fun c k id hid => mem_live.1 ((hindexed c k id).1 hid)⟩, hindexed, ?_⟩
  · rw [hgone.objs]
    exact (List.filter_sublist.map _).nodup h.ids
  · rw [hgone.index]
    split
    · exact (h.index c k).filter _
    · exact h.index c k
  · rw [hgone.refreshPool]
    exact h.pool

end World

/-- **Exactly then is what an event leaves right**, and so is what the next one finds. -/
theorem right_iff (conf : Conf γ κ) {w : World γ κ ι} (h : w.Good) (e : Event γ κ ι) :
    (Right conf w e ↔ Fits conf w e) ∧ (Fits conf w e → (step conf w e).Good) := by
  cases e with
  | refresh_monster_pool day =>
    refine ⟨iff_of_true ⟨h.indexed, trivial⟩ trivial, fun _ => ⟨⟨h.ids, h.index, h.live⟩, h.indexed, fun chunckLv => ?_⟩⟩
    have heq : (conf.refresh_monster_pool day chunckLv).map Prod.fst = (conf.monster_refresh chunckLv).map Prod.fst := by
      unfold Conf.refresh_monster_pool
      rw [List.map_map]
      refine List.map_congr_left fun kind _ => ?_
      simp only [Function.comp_apply]
      split <;> rfl
    exact heq ▸ conf.nodup chunckLv
  | add_object obj =>
    obtain ⟨hiff, hgood⟩ := h.add_object obj
    exact ⟨(and_iff_left trivial).trans hiff, fun hfits => hgood (hiff.2 hfits)⟩
  | remove_object objectid =>
    have hgood : (step conf w (.remove_object objectid)).Good := by
      rw [step]
      cases hfind : w.get_object objectid with
      | none => exact h
      | some obj => exact h.remove_object (List.mem_of_find?_eq_some hfind)
    exact ⟨iff_of_true ⟨hgood.indexed, trivial⟩ trivial, fun _ => hgood⟩
  | mark objectid cantRemove =>
    exact ⟨iff_of_true ⟨h.indexed, trivial⟩ trivial, fun _ => ⟨⟨h.ids, h.index, h.live⟩, h.indexed, h.pool⟩⟩
  | refresh_chunck_monster chunckid random p free =>
    have hiff := h.refreshed_iff conf random p chunckid free
    refine ⟨⟨fun hr => hiff.1 hr.2, fun hready => ⟨(hiff.2 hready).indexed, hiff.2 hready⟩⟩, fun hready => ?_⟩
    exact h.refreshed conf random p chunckid (hiff.2 hready)
  | reset_chunck chunckid random p free =>
    by_cases hpool : w.refreshPool (w.chunckLv conf chunckid) = []
    · have hstep : step conf w (.reset_chunck chunckid random p free) = w := congrArg Prod.fst (if_pos hpool)
      have hkinds : w.kinds conf chunckid = [] := by
        rw [World.kinds, hpool, ite_self]
      refine ⟨iff_of_true ⟨hstep.symm ▸ h.indexed, fun hne => absurd hpool hne⟩ ?_, fun _ => hstep.symm ▸ h⟩
      rw [Fits, hpool, hkinds]
      exact ⟨nofun, nofun, .inl rfl⟩
    · have hreset : w.reset_chunck conf random p chunckid =
          (w.resetKinds conf p chunckid).refresh_chunck_monster conf random p chunckid := if_neg hpool
      have hstep : step conf w (.reset_chunck chunckid random p free) =
          ((w.resetKinds conf p chunckid).refresh_chunck_monster conf random p chunckid).1 := congrArg Prod.fst hreset
      obtain ⟨hs, hall, hno⟩ := h.resetKinds conf p chunckid hpool
      by_cases hcan : ∀ kind ∈ w.refreshPool (w.chunckLv conf chunckid), ∀ id ∈ w.chunckObjs chunckid kind.1,
          w.canRemove id = true
      · obtain ⟨hgood, hnil⟩ := hall hcan
        have hkinds := World.kinds_resetKinds conf p chunckid hs hpool
        have hrefreshed := hgood.refreshed_iff conf random p chunckid free
        have hready : (w.resetKinds conf p chunckid).Ready p chunckid (w.kinds conf chunckid) free ↔
            (∀ kind ∈ w.kinds conf chunckid, 0 < kind.2.num → kind.2.random = []) ∧
              (((w.kinds conf chunckid).map (·.2.num)).sum = 0 ∨ free < ((w.kinds conf chunckid).map (·.2.num)).sum) :=
          World.ready_of_nil hgood p free (fun kind hkind => hnil kind (World.mem_of_mem_kinds hkind))
        rw [hkinds, ← hreset] at hrefreshed
        have hiff : Right conf w (.reset_chunck chunckid random p free) ↔
            (w.resetKinds conf p chunckid).Ready p chunckid (w.kinds conf chunckid) free := by
          refine ⟨fun hr => hrefreshed.1 (hr.2 hpool), fun hready => ⟨?_, fun _ => hrefreshed.2 hready⟩⟩
          rw [hstep, ← hreset]
          exact (hrefreshed.2 hready).indexed
        refine ⟨hiff.trans (hready.trans (and_iff_right hcan).symm), fun hfits => ?_⟩
        rw [hstep]
        exact hgood.refreshed conf random p chunckid (hreset ▸ hrefreshed.2 (hready.2 hfits.2))
      · have hlost := (hno hcan).shrinks (hs.sound.refresh_shrinks conf random p chunckid)
        refine ⟨iff_of_false (fun hr => ?_) (fun hfits => hcan hfits.1), fun hfits => absurd hfits.1 hcan⟩
        exact hlost.not_indexed (hstep ▸ hr.1)

/-- **After every event of a run the index is right and every refresh has left what it should exactly if every event
fits**, for every configuration. -/
theorem right_iff_of_run (conf : Conf γ κ) (es : List (Event γ κ ι)) :
    Steps.Along (step conf) (Right conf) World.new es ↔ Steps.Along (step conf) (Fits conf) World.new es :=
  Steps.along_iff (I := World.Good) (fun _ e h => right_iff conf h e) es World.new World.good_new

def oneMonster : Conf Unit Unit where
  area _ := some ⟨some 1, none⟩
  terr_no_monster _ := false
  monster_refresh chunckLv := if chunckLv = 1 then [((), ⟨1, fun lv => if lv = 1 then some 100 else none⟩)] else []
  monster_refresh_day := [⟨(), 1, 1⟩]
  nodup chunckLv := by
    split
    · exact List.nodup_singleton _
    · exact List.nodup_nil

def firstRefresh : List (Event Unit Unit Nat) :=
  [.refresh_monster_pool 1, .refresh_chunck_monster () id ⟨id, .refl⟩ 1]

theorem firstRefresh_raises : ¬ Steps.Along (step oneMonster) (Right oneMonster) World.new firstRefresh := by
  intro h
  have hr := h.2.1.2.returns
  revert hr
  decide

end MonsterMgr
end Sncpp
