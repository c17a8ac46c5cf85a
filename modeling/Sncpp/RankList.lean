import Mathlib
import Sncpp.Zset
/-!
# RankList — pages of a board and single ranks (`rankList.lua`)

The board is a sorted set of redis.  And all of this is so only if the functions of the library take the key first, as
they are called here: those of `redisLib.lua` are methods, so each call of them that is made with a dot raises.
-/
namespace Sncpp
namespace RankList

abbrev Board := Zset Rat String

/-- What a text of a reply is: a member, or a score, which is read back as the number it is the text of. -/
inductive Reply
  | member (s : String)
  | score (x : Rat)

def tonumber : Reply → Option Rat
  | .member s => s.toInt?.map (fun id => (id : Rat))
  | .score x => some x

def tostring (id : Int) : String := id.repr

def rows (z : Board) : List (String × Rat) := (z.items.map (fun e => ((ofLex e).2, (ofLex e).1))).reverse

def zRevRank (z : Board) (member : String) : Option Nat := ((rows z).map Prod.fst).idxOf? member

def zRevPage (z : Board) (start stop : Nat) : List (String × Rat) := ((rows z).drop start).take (stop + 1 - start)

/-- With scores a reply is flat: each member is followed by its score. -/
def zRevRange (z : Board) (start stop : Nat) (isWithscores : Bool) : List Reply :=
  if isWithscores then (zRevPage z start stop).flatMap (fun row => [.member row.1, .score row.2])
  else (zRevPage z start stop).map (fun row => .member row.1)

/-- The functions of the library take the key first, or they are methods and are given the key for the library, on which
they look for `call`. -/
inductive RedisLib
  | functions
  | methods

/-- What a call with a dot comes to; one that raises comes to nothing. -/
def RedisLib.command {α : Type} : RedisLib → α → Option α
  | .functions, r => some r
  | .methods, _ => none

section

variable (redisLib : RedisLib) (z : Board)

def addRank : Option Int → Option Rat → Option Board
  | some id, some score => redisLib.command (z.add score (tostring id))
  | _, _ => some z

def getRank : Option Int → Option Nat
  | none => some 0
  | some id => (redisLib.command (zRevRank z (tostring id))).map (fun rank => (rank.map (fun rank => rank + 1)).getD 0)

structure Entry where
  rankidx : Nat
  id : Option Rat
  score : Option Rat

def scoredLoop (isFloor : Bool) : List Reply → Nat → List Entry
  | member :: score :: range, k =>
    ⟨(k + 1) / 2, tonumber member,
      if isFloor then (tonumber score).map (fun x => (⌊x⌋ : Rat)) else tonumber score⟩ :: scoredLoop isFloor range (k + 2)
  | _, _ => []

def getRange (startRank endRank : Nat) (withScore isFloor : Bool) : Option (List Entry) :=
  (redisLib.command (zRevRange z startRank endRank withScore)).map (fun range =>
    if withScore then scoredLoop isFloor range 1
    else range.mapIdx (fun i v => ⟨i + 1, tonumber v, none⟩))

def getScore : Option Int → Option Int
  | none => some 0
  | some id => (redisLib.command (z.score (tostring id))).map (fun score => ⌊score.getD 0⌋)

def clear : Option Board := redisLib.command Zset.new

def clearId : Option Int → Option Board
  | none => some z
  | some id => redisLib.command (z.rem (tostring id))

end

inductive Op
  | addRank (id : Option Int) (score : Option Rat)
  | clearId (id : Option Int)
  | clear

def step (redisLib : RedisLib) (z : Board) : Op → Option Board
  | .addRank id score => addRank redisLib z id score
  | .clearId id => clearId redisLib z id
  | .clear => clear redisLib

def run (redisLib : RedisLib) (ops : List Op) : Option Board := ops.foldlM (step redisLib) Zset.new

/-- **A page agrees with the single ranks and scores.** -/
structure PageAgrees (redisLib : RedisLib) (z : Board) (s e : Nat) (withScore isFloor : Bool) (ret : List Entry) :
    Prop where
  listed : ∃ ids : List Int, ret.map Entry.id = ids.map (fun id : Int => some (id : Rat)) ∧
    (∀ id, id ∈ ids ↔ ∃ rank, getRank redisLib z (some id) = some rank ∧ s + 1 ≤ rank ∧ rank ≤ e + 1) ∧
    ids.Pairwise (fun id id' => ∃ rank rank', getRank redisLib z (some id) = some rank ∧
      getRank redisLib z (some id') = some rank' ∧ rank < rank')
  ranks : ∀ entry ∈ ret, ∀ id : Int, entry.id = some (id : Rat) → getRank redisLib z (some id) = some entry.rankidx
  scores : withScore = true → isFloor = true → ∀ entry ∈ ret, ∀ id : Int, entry.id = some (id : Rat) →
    ∃ x : Int, getScore redisLib z (some id) = some x ∧ entry.score = some (x : Rat)

def Agrees (redisLib : RedisLib) (ops : List Op) (s e : Nat) (withScore isFloor : Bool) : Prop :=
  ∃ z ret, run redisLib ops = some z ∧ getRange redisLib z s e withScore isFloor = some ret ∧
    PageAgrees redisLib z s e withScore isFloor ret

def act (z : Board) : Op → Board
  | .addRank (some id) (some score) => z.add score (tostring id)
  | .clearId (some id) => z.rem (tostring id)
  | .clear => Zset.new
  | _ => z

def board (ops : List Op) : Board := ops.foldl act Zset.new

theorem step_functions (z : Board) (op : Op) : step .functions z op = some (act z op) := by
  cases op with
  | addRank id score => cases id <;> cases score <;> rfl
  | clearId id => cases id <;> rfl
  | clear => rfl

theorem run_functions (ops : List Op) : run .functions ops = some (board ops) := by
  have hfold : ∀ (ops : List Op) (z : Board), ops.foldlM (step .functions) z = some (ops.foldl act z) := by
    intro ops
    induction ops with
    | nil => exact fun _ => rfl
    | cons op ops ih =>
      intro z
      rw [List.foldlM_cons, step_functions]
      exact ih (act z op)
  exact hfold ops Zset.new

def Members (z : Board) : Prop := ∀ row ∈ rows z, ∃ id : Int, row.1 = tostring id

theorem mem_rows {z : Board} {m : String} {x : Rat} : (m, x) ∈ rows z ↔ z.score m = some x := by
  rw [Zset.score_eq_some, rows, List.mem_reverse, List.mem_map]
  constructor
  · rintro ⟨e, he, heq⟩
    obtain ⟨rfl, rfl⟩ := Prod.mk.inj heq
    exact he
  · exact fun h => ⟨_, h, rfl⟩

theorem members_act {z : Board} (h : Members z) (op : Op) : Members (act z op) := by
  rintro ⟨m, x⟩ hrow
  rw [mem_rows] at hrow
  have hold : z.score m = some x → ∃ id : Int, m = tostring id := fun hx => h (m, x) (mem_rows.2 hx)
  cases op with
  | addRank id score =>
    cases id with
    | none => exact hold hrow
    | some id =>
      cases score with
      | none => exact hold hrow
      | some score =>
        rw [act, Zset.score_add] at hrow
        split at hrow
        · next heq => exact ⟨id, heq⟩
        · exact hold hrow
  | clearId id =>
    cases id with
    | none => exact hold hrow
    | some id =>
      rw [act, Zset.score_rem] at hrow
      split at hrow
      · cases hrow
      · exact hold hrow
  | clear => cases hrow

theorem members_board (ops : List Op) : Members (board ops) := by
  have hfold : ∀ (ops : List Op) (z : Board), Members z → Members (ops.foldl act z) := by
    intro ops
    induction ops with
    | nil => exact fun _ h => h
    | cons op ops ih => exact fun z h => ih (act z op) (members_act h op)
  exact hfold ops Zset.new (fun row hrow => absurd hrow List.not_mem_nil)

theorem nodup_rows (z : Board) : ((rows z).map Prod.fst).Nodup := by
  rw [rows, List.map_reverse, List.nodup_reverse, List.map_map]
  exact z.one

theorem tonumber_tostring (id : Int) : tonumber (.member (tostring id)) = some (id : Rat) := by
  rw [tonumber, tostring, Int.toInt?_repr]
  rfl

theorem tostring_inj {id id' : Int} : tostring id = tostring id' ↔ id = id' := Int.repr_inj

theorem getRank_eq {z : Board} {id : Int} {i : Nat} :
    getRank .functions z (some id) = some (i + 1) ↔ ((rows z)[i]?).map Prod.fst = some (tostring id) := by
  have hplace : zRevRank z (tostring id) = some i ↔ ((rows z)[i]?).map Prod.fst = some (tostring id) := by
    rw [zRevRank, ← List.getElem?_map]
    constructor
    · intro h
      obtain ⟨hlt, heq, -⟩ := List.idxOf?_eq_some_iff.1 h
      rw [List.getElem?_eq_getElem hlt, heq]
    · intro h
      obtain ⟨hlt, heq⟩ := List.getElem?_eq_some_iff.1 h
      refine List.idxOf?_eq_some_iff.2 ⟨hlt, heq, fun j hj hsame => hj.ne ?_⟩
      exact (nodup_rows z).getElem_inj_iff.1 (hsame.trans heq.symm)
  rw [← hplace, getRank, RedisLib.command, Option.map_some, Option.some_inj]
  cases zRevRank z (tostring id) with
  | none => simp
  | some rank => simp

def entryOf (withScore isFloor : Bool) (i : Nat) (row : String × Rat) : Entry :=
  ⟨i + 1, tonumber (.member row.1), if withScore then some (if isFloor then (⌊row.2⌋ : Rat) else row.2) else none⟩

theorem scoredLoop_flat (isFloor : Bool) : ∀ (l : List (String × Rat)) (i : Nat),
    scoredLoop isFloor (l.flatMap (fun row => [.member row.1, .score row.2])) (2 * i + 1) =
      l.mapIdx (fun j => entryOf true isFloor (i + j))
  | [], _ => rfl
  | row :: l, i => by
    have hrec := scoredLoop_flat isFloor l (i + 1)
    rw [List.flatMap_cons, List.mapIdx_cons]
    refine congrArg₂ List.cons ?_ ?_
    · have hidx : (2 * i + 1 + 1) / 2 = i + 1 := by omega
      cases isFloor <;> simp [entryOf, tonumber, hidx]
    · rw [show 2 * (i + 1) + 1 = 2 * i + 1 + 2 by ring] at hrec
      refine hrec.trans (congrArg (fun f => l.mapIdx f) (funext (fun j => ?_)))
      rw [add_right_comm, add_assoc]

theorem getRange_eq (z : Board) (s e : Nat) (withScore isFloor : Bool) :
    getRange .functions z s e withScore isFloor = some ((zRevPage z s e).mapIdx (entryOf withScore isFloor)) := by
  cases withScore with
  | true =>
    have hflat := scoredLoop_flat isFloor (zRevPage z s e) 0
    simp only [Nat.zero_add] at hflat
    exact congrArg some hflat
  | false =>
    refine congrArg some (List.ext_getElem? (fun i => ?_))
    simp only [zRevRange, Bool.false_eq_true, if_false, List.getElem?_mapIdx, List.getElem?_map, Option.map_map]
    rfl

theorem zRevPage_at (z : Board) (s e i : Nat) :
    (zRevPage z s e)[i]? = if i < e + 1 - s then (rows z)[s + i]? else none := by
  rw [zRevPage, List.getElem?_take, List.getElem?_drop]

variable {z : Board} {s e : Nat}

theorem zRevPage_rank {i : Nat} {id : Int} : ((zRevPage z s e)[i]?).map Prod.fst = some (tostring id) ↔
    i < e + 1 - s ∧ getRank .functions z (some id) = some (s + i + 1) := by
  rw [zRevPage_at, getRank_eq]
  split
  · next hlt => simp [hlt]
  · next hge => simp [hge]

theorem exists_ids (h : Members z) (hse : s ≤ e) : ∃ ids : List Int,
    (zRevPage z s e).map Prod.fst = ids.map tostring ∧
    (∀ id, id ∈ ids ↔ ∃ rank, getRank .functions z (some id) = some rank ∧ s + 1 ≤ rank ∧ rank ≤ e + 1) ∧
    ids.Pairwise (fun id id' => ∃ rank rank', getRank .functions z (some id) = some rank ∧
      getRank .functions z (some id') = some rank' ∧ rank < rank') := by
  have hrange : (zRevPage z s e).map Prod.fst ∈ Set.range (List.map tostring) := by
    rw [Set.range_list_map]
    intro m hm
    obtain ⟨row, hrow, rfl⟩ := List.mem_map.1 hm
    obtain ⟨id, hid⟩ := h row (List.mem_of_mem_drop (List.mem_of_mem_take hrow))
    exact ⟨id, hid.symm⟩
  obtain ⟨ids, hids⟩ := hrange
  have hplace : ∀ i id, ids[i]? = some id ↔ i < e + 1 - s ∧ getRank .functions z (some id) = some (s + i + 1) := by
    intro i id
    rw [← zRevPage_rank, ← List.getElem?_map, ← hids, List.getElem?_map, Option.map_eq_some_iff]
    constructor
    · exact fun hid => ⟨id, hid, rfl⟩
    · rintro ⟨id', hid', heq⟩
      rw [hid', tostring_inj.1 heq]
  refine ⟨ids, hids.symm, fun id => ?_, List.pairwise_iff_getElem.2 (fun i j hi hj hij => ?_)⟩
  · rw [List.mem_iff_getElem?]
    constructor
    · rintro ⟨i, hi⟩
      obtain ⟨hlt, hrank⟩ := (hplace i id).1 hi
      exact ⟨_, hrank, by omega, by omega⟩
    · rintro ⟨rank, hrank, hs, he⟩
      refine ⟨rank - (s + 1), (hplace _ id).2 ⟨by omega, ?_⟩⟩
      rw [hrank]
      congr 1
      omega
  · obtain ⟨-, hranki⟩ := (hplace i _).1 (List.getElem?_eq_getElem hi)
    obtain ⟨-, hrankj⟩ := (hplace j _).1 (List.getElem?_eq_getElem hj)
    exact ⟨_, _, hranki, hrankj, by omega⟩

theorem entry_spec (h : Members z) {withScore isFloor : Bool} {entry : Entry}
    (hentry : entry ∈ (zRevPage z s e).mapIdx (entryOf withScore isFloor)) {id : Int} (hid : entry.id = some (id : Rat)) :
    getRank .functions z (some id) = some (s + entry.rankidx) ∧
    (withScore = true → isFloor = true →
      ∃ x : Int, getScore .functions z (some id) = some x ∧ entry.score = some (x : Rat)) := by
  obtain ⟨i, hi⟩ := List.mem_iff_getElem?.1 hentry
  rw [List.getElem?_mapIdx, Option.map_eq_some_iff] at hi
  obtain ⟨row, hrow, rfl⟩ := hi
  have hmem : row ∈ rows z := List.mem_of_mem_drop (List.mem_of_mem_take (List.mem_of_getElem? hrow))
  have hmember : row.1 = tostring id := by
    obtain ⟨id', hid'⟩ := h row hmem
    have htext : some (id' : Rat) = some (id : Rat) := by
      rw [← tonumber_tostring, ← hid']
      exact hid
    rw [hid', Int.cast_injective (Option.some_injective _ htext)]
  refine ⟨(zRevPage_rank.1 (by rw [hrow, ← hmember]; rfl)).2, fun hscore hfloor =>
    ⟨⌊row.2⌋, ?_, by simp [entryOf, hscore, hfloor]⟩⟩
  have hz : z.score (tostring id) = some row.2 := mem_rows.1 (hmember ▸ hmem)
  rw [getScore, hz]
  rfl

theorem Agrees.first {redisLib : RedisLib} {ops : List Op} {withScore isFloor : Bool} (hse : s ≤ e)
    (h : Agrees redisLib ops s e withScore isFloor) : redisLib = .functions ∧ (s = 0 ∨ (rows (board ops)).length ≤ s) := by
  have hmembers := members_board ops
  obtain ⟨z, ret, hrun, hret, hagrees⟩ := h
  cases redisLib with
  | methods => cases hret
  | functions =>
    refine ⟨rfl, ?_⟩
    obtain rfl := Option.some_injective _ ((run_functions ops).symm.trans hrun)
    rw [getRange_eq] at hret
    obtain rfl := Option.some_injective _ hret
    by_contra hno
    obtain ⟨hs, hlen⟩ := not_or.1 hno
    -- the first on the page has rank 1 there
    have hlt : s < (rows (board ops)).length := not_le.1 hlen
    obtain ⟨id, hid⟩ := hmembers _ (List.getElem_mem hlt)
    have hfirst : (zRevPage (board ops) s e)[0]? = some (rows (board ops))[s] := by
      rw [zRevPage_at, if_pos (by omega)]
      exact List.getElem?_eq_getElem hlt
    have hentry : entryOf withScore isFloor 0 (rows (board ops))[s] ∈
        (zRevPage (board ops) s e).mapIdx (entryOf withScore isFloor) := by
      refine List.mem_of_getElem? (i := 0) ?_
      rw [List.getElem?_mapIdx, hfirst]
      rfl
    have hidText : (entryOf withScore isFloor 0 (rows (board ops))[s]).id = some (id : Rat) := by
      rw [entryOf, hid, tonumber_tostring]
    have hrank := hagrees.ranks _ hentry id hidText
    have hplace := (entry_spec hmembers hentry hidText).1
    rw [hrank] at hplace
    have heq := Option.some_injective _ hplace
    omega

theorem agrees_of_first (ops : List Op) (hse : s ≤ e) (withScore isFloor : Bool)
    (hfirst : s = 0 ∨ (rows (board ops)).length ≤ s) : Agrees .functions ops s e withScore isFloor := by
  have hmembers := members_board ops
  refine ⟨board ops, _, run_functions ops, getRange_eq _ _ _ _ _, ?_⟩
  obtain ⟨ids, hids, hmem, hsorted⟩ := exists_ids hmembers hse
  refine ⟨⟨ids, ?_, hmem, hsorted⟩, fun entry hentry id hid => ?_, fun hscore hfloor entry hentry id hid =>
    (entry_spec hmembers hentry hid).2 hscore hfloor⟩
  · have hall : ((zRevPage (board ops) s e).mapIdx (entryOf withScore isFloor)).map Entry.id =
        ((zRevPage (board ops) s e).map Prod.fst).map (fun m => tonumber (.member m)) := by
      refine List.ext_getElem? (fun i => ?_)
      simp only [List.getElem?_map, List.getElem?_mapIdx, Option.map_map]
      rfl
    rw [hall, hids, List.map_map]
    exact List.map_congr_left (fun id _ => tonumber_tostring id)
  · rcases hfirst with rfl | hlen
    · rw [(entry_spec hmembers hentry hid).1, Nat.zero_add]
    · have hnil : zRevPage (board ops) s e = [] := by rw [zRevPage, List.drop_eq_nil_of_le hlen, List.take_nil]
      rw [hnil] at hentry
      cases hentry

/-- **Pages and single ranks.**  They agree exactly if the functions of the library take the key first, and the page is
the first or comes after all who are on the board. -/
theorem pages_iff (redisLib : RedisLib) (ops : List Op) (hse : s ≤ e) (withScore isFloor : Bool) :
    Agrees redisLib ops s e withScore isFloor ↔ redisLib = .functions ∧ (s = 0 ∨ (rows (board ops)).length ≤ s) := by
  constructor
  · exact fun h => h.first hse
  · rintro ⟨rfl, hfirst⟩
    exact agrees_of_first ops hse withScore isFloor hfirst

def twoPlayers : List Op := [.addRank (some 1) (some 10), .addRank (some 2) (some 5)]

theorem pages_iff_twoPlayers : (0 ≤ 1) ∧ (Agrees .functions twoPlayers 0 1 true true ↔
    RedisLib.functions = .functions ∧ (0 = 0 ∨ (rows (board twoPlayers)).length ≤ 0)) :=
  ⟨by decide, pages_iff .functions twoPlayers (by decide) true true⟩

/-- The second, looked up on a page of his own, has rank 1 there; and with the methods of `redisLib.lua` each look-up
raises. -/
theorem not_agrees_twoPlayers :
    ¬Agrees .functions twoPlayers 1 1 false false ∧ ¬Agrees .methods twoPlayers 1 1 false false := by
  constructor
  · intro h
    have hfirst := (h.first le_rfl).2
    revert hfirst
    decide +kernel
  · intro h
    cases (h.first le_rfl).1

end RankList
end Sncpp
