import Mathlib.Data.Fintype.Option
import Sncpp.Steps
/-!
# OwnRef — who owns the map objects (`mapObjectMgr:add_object`, `remove_object`, `doMoreLogicAttrs`, `onGuildIdChange`)

Three tables lead from an owner to objects: `ownUidObjRef` from a player, `ownAidObjRef` from the alliance the player
is in, `ownAidTerrRef` from the alliance a territory belongs to.
-/
namespace Sncpp
namespace OwnRef

variable {υ α ι : Type} [DecidableEq υ] [DecidableEq α] [DecidableEq ι]

inductive MapType where
  | playercity | monster | mine | chest | boss | checkpoint | wharf | city | commandpost | station | buildmine | fortress
  | mill
deriving DecidableEq

def MapType.terr : MapType → Bool
  | .checkpoint | .wharf | .city | .commandpost | .station | .mill => true
  | _ => false

/-- A map object and its owner.  The class of a territory has no field `ownUid`, the others have no `ownAid`. -/
structure Obj (υ α ι : Type) where
  objectid : ι
  mapType : MapType
  playerid : Option υ
  ownUid : Option υ
  ownAid : Option α
  noUid : mapType.terr = true → ownUid = none
  noAid : mapType.terr = false → ownAid = none

namespace Obj

variable (o : Obj υ α ι)

/-- The `ownUid` of a player's city is whose slave the player is. -/
def owner : Option υ := if o.mapType = .playercity then o.playerid else o.ownUid

def city : Option υ := if o.mapType = .playercity then o.playerid else none

def setOwnUid (ownUid : Option υ) : Obj υ α ι :=
  if h : o.mapType.terr = true then o else { o with ownUid := ownUid, noUid := fun h' => absurd h' h }

def setOwnAid (ownAid : Option α) : Obj υ α ι :=
  if h : o.mapType.terr = true then { o with ownAid := ownAid, noAid := fun h' => by rw [h] at h'; cases h' } else o

variable {o}

omit [DecidableEq υ] [DecidableEq α] [DecidableEq ι] in
theorem ownAid_of_owner {uid : υ} (h : o.owner = some uid) : o.ownAid = none := by
  refine o.noAid ?_
  by_contra hterr
  have hterr : o.mapType.terr = true := by simpa using hterr
  have hcity : o.mapType ≠ .playercity := fun heq => by rw [heq] at hterr; cases hterr
  unfold owner at h
  rw [if_neg hcity, o.noUid hterr] at h
  cases h

omit [DecidableEq υ] [DecidableEq α] [DecidableEq ι] in
theorem owner_setOwnUid (hkind : o.mapType = .buildmine ∨ o.mapType = .fortress) (v : Option υ) :
    o.owner = o.ownUid ∧ (o.setOwnUid v).owner = v ∧ o.ownAid = none ∧ (o.setOwnUid v).ownAid = none := by
  have hterr : ¬o.mapType.terr = true := by rcases hkind with h | h <;> rw [h] <;> decide
  have hcity : o.mapType ≠ .playercity := by rcases hkind with h | h <;> rw [h] <;> decide
  have haid := o.noAid (by simpa using hterr)
  unfold setOwnUid owner
  rw [dif_neg hterr]
  exact ⟨if_neg hcity, if_neg hcity, haid, haid⟩

omit [DecidableEq υ] [DecidableEq α] [DecidableEq ι] in
theorem owner_setOwnUid_city (hcity : o.mapType = .playercity) (v : Option υ) :
    (o.setOwnUid v).owner = o.owner ∧ (o.setOwnUid v).ownAid = o.ownAid := by
  have hterr : ¬o.mapType.terr = true := by rw [hcity]; decide
  unfold setOwnUid owner
  rw [dif_neg hterr]
  exact ⟨(if_pos hcity).trans (if_pos hcity).symm, rfl⟩

omit [DecidableEq υ] [DecidableEq α] [DecidableEq ι] in
theorem objectid_setOwnUid (v : Option υ) : (o.setOwnUid v).objectid = o.objectid := by
  unfold setOwnUid
  split <;> rfl

omit [DecidableEq υ] [DecidableEq α] [DecidableEq ι] in
theorem owner_of_terr (hterr : o.mapType.terr = true) : o.owner = none := by
  unfold owner
  rw [if_neg (fun h => by rw [h] at hterr; cases hterr), o.noUid hterr]

omit [DecidableEq υ] [DecidableEq α] [DecidableEq ι] in
theorem setOwnAid_of_terr (hterr : o.mapType.terr = true) (v : Option α) :
    (o.setOwnAid v).objectid = o.objectid ∧ (o.setOwnAid v).owner = none ∧ (o.setOwnAid v).ownAid = v := by
  have howner := owner_of_terr hterr
  unfold setOwnAid
  rw [dif_pos hterr]
  exact ⟨rfl, howner, rfl⟩

end Obj

/-- Where an operation waits: for the alliance of a player, or for what it has to tell about a territory that is lost. -/
inductive Stage (υ α : Type) where
  | add (ownUid : υ)
  | remove (ownUid : υ)
  | oldUid (oldUid : υ) (newUid : Option υ)
  | newUid (newUid : υ)
  | newAid (newAid : Option α)

def Stage.asks : Stage υ α → Option υ
  | .add uid | .remove uid | .oldUid uid _ | .newUid uid => some uid
  | .newAid _ => none

structure Op (υ α ι : Type) where
  obj : Nat
  objid : ι
  stage : Stage υ α
  answer : Option (Option α)

/-- Objects are known by their place in `heap`.  `told` is the alliance of each player by the changes that have arrived; no
code reads it. -/
structure World (υ α ι : Type) where
  heap : List (Obj υ α ι)
  objs : ι → Option Nat
  playerCitys : υ → Option Nat
  mapPlayers : υ → Option (Option α)
  ownUidObjRef : υ → ι → Bool
  ownAidObjRef : α → ι → Option Nat
  ownAidTerrRef : α → ι → Option Nat
  ops : List (Op υ α ι)
  guild : υ → Option α
  changes : List (υ × Option α)
  told : υ → Option α

/-- The operations; the guild service's answer to one and how it goes on; a change of a player's alliance, at the guild
service and as `update_player_info` hears of it; what the map keeps of a player. -/
inductive Event (υ α ι : Type) where
  | add (obj : Obj υ α ι)
  | remove (obj : Nat)
  | ownUid (objectid : ι) (v : Option υ)
  | ownAid (objectid : ι) (v : Option α)
  | look (n : Nat)
  | resume (n : Nat)
  | changed (uid : υ) (aid : Option α)
  | arrives
  | mapPlayer (uid : υ) (guildid : Option (Option α))

def put {κ β : Type} [DecidableEq κ] (t : κ → ι → β) (k : κ) (objid : ι) (v : β) : κ → ι → β :=
  Function.update t k (Function.update (t k) objid v)

theorem put_apply {κ β : Type} [DecidableEq κ] (t : κ → ι → β) (k : κ) (objid : ι) (v : β) (k' : κ) (objid' : ι) :
    put t k objid v k' objid' = if k' = k ∧ objid' = objid then v else t k' objid' := by
  unfold put
  by_cases hk : k' = k
  · subst hk
    by_cases hid : objid' = objid
    · subst hid
      simp
    · simp [hid]
  · simp [hk]

theorem put_names {κ β : Type} [DecidableEq κ] {t : κ → ι → Option β} {objid : ι} (h : ∀ k v, t k objid ≠ some v) {k : κ}
    {v : β} : ∀ k' v', put t k objid (some v) k' objid = some v' ↔ some (k, v) = some (k', v') := by
  intro k' v'
  rw [put_apply]
  by_cases hk : k' = k
  · simp [hk]
  · simp [hk, h k' v', Ne.symm hk]

theorem put_forgets {κ β : Type} [DecidableEq κ] {t : κ → ι → Option β} {objid : ι} {k : κ}
    (h : ∀ k' v', t k' objid = some v' → k' = k) :
    ∀ k' v', put t k objid none k' objid = some v' ↔ (none : Option (κ × β)) = some (k', v') := by
  intro k' v'
  rw [put_apply]
  by_cases hk : k' = k
  · simp [hk]
  · have hnot : t k' objid ≠ some v' := fun heq => hk (h k' v' heq)
    simp [hk, hnot]

namespace World

variable (w : World υ α ι)

def setUid (uid : υ) (objid : ι) (b : Bool) : World υ α ι := { w with ownUidObjRef := put w.ownUidObjRef uid objid b }

/-- No alliance is `0`, under which the code has no table. -/
def setAid (aid : Option α) (objid : ι) (obj : Option Nat) : World υ α ι :=
  match aid with
  | some aid => { w with ownAidObjRef := put w.ownAidObjRef aid objid obj }
  | none => w

def setTerr (aid : Option α) (objid : ι) (obj : Option Nat) : World υ α ι :=
  match aid with
  | some aid => { w with ownAidTerrRef := put w.ownAidTerrRef aid objid obj }
  | none => w

def keepAid (aid : Option α) (objid : ι) (obj : Nat) : World υ α ι :=
  match aid with
  | some a => if w.ownAidObjRef a objid = none then w.setAid aid objid (some obj) else w
  | none => w

def keepTerr (aid : Option α) (objid : ι) (obj : Nat) : World υ α ι :=
  match aid with
  | some a => if w.ownAidTerrRef a objid = none then w.setTerr aid objid (some obj) else w
  | none => w

/-- The territory's part of `add_object` and `remove_object`. -/
def terrOf (obj : Nat) (v : Option Nat) : World υ α ι :=
  match w.heap[obj]? with
  | some o => if o.mapType.terr then w.setTerr o.ownAid o.objectid v else w
  | none => w

def setCity (o : Obj υ α ι) (v : Option Nat) : World υ α ι :=
  match o.city with
  | some uid => { w with playerCitys := Function.update w.playerCitys uid v }
  | none => w

def wait (obj : Nat) (objid : ι) (stage : Stage υ α) : World υ α ι := { w with ops := w.ops ++ [⟨obj, objid, stage, none⟩] }

def add_object (o : Obj υ α ι) : World υ α ι :=
  let obj := w.heap.length
  let w := { w with heap := w.heap ++ [o], objs := Function.update w.objs o.objectid (some obj) }.setCity o (some obj)
  match o.owner with
  | some ownUid =>
    match w.mapPlayers ownUid with
    | some ownAid => ((w.setUid ownUid o.objectid true).setAid ownAid o.objectid (some obj)).terrOf obj (some obj)
    | none => w.wait obj o.objectid (.add ownUid)
  | none => w.terrOf obj (some obj)

def remove_object (obj : Nat) : World υ α ι :=
  match w.heap[obj]? with
  | some o =>
    let w := { w with objs := Function.update w.objs o.objectid none }.setCity o none
    match o.owner with
    | some ownUid => w.wait obj o.objectid (.remove ownUid)
    | none => w.terrOf obj none
  | none => w

/-- `updateMapObjPro` of an `ownUid`, and what `doMoreLogicAttrs` makes of it. -/
def updateOwnUid (objectid : ι) (v : Option υ) : World υ α ι :=
  match w.objs objectid with
  | some obj =>
    match w.heap[obj]? with
    | some o =>
      if v = o.ownUid then w
      else
        let w := { w with heap := w.heap.set obj (o.setOwnUid v) }
        if o.mapType = .buildmine ∨ o.mapType = .fortress then
          match o.ownUid, v with
          | some oldUid, newUid => (w.setUid oldUid objectid false).wait obj objectid (.oldUid oldUid newUid)
          | none, some newUid => (w.setUid newUid objectid true).wait obj objectid (.newUid newUid)
          | none, none => w
        else w
    | none => w
  | none => w

def updateOwnAid (objectid : ι) (v : Option α) : World υ α ι :=
  match w.objs objectid with
  | some obj =>
    match w.heap[obj]? with
    | some o =>
      if v = o.ownAid then w
      else
        let w := { w with heap := w.heap.set obj (o.setOwnAid v) }
        if o.mapType.terr then
          match o.ownAid with
          | some oldAid => (w.setTerr (some oldAid) objectid none).wait obj objectid (.newAid v)
          | none => w.keepTerr v objectid obj
        else w
    | none => w
  | none => w

/-- An operation that has its answer goes on, to its end or to where it waits again. -/
def resume (n : Nat) (op : Op υ α ι) : World υ α ι :=
  let w := { w with ops := w.ops.eraseIdx n }
  match op.stage, op.answer with
  | .add ownUid, some ownAid =>
    ((w.setUid ownUid op.objid true).setAid ownAid op.objid (some op.obj)).terrOf op.obj (some op.obj)
  | .remove ownUid, some ownAid => ((w.setUid ownUid op.objid false).setAid ownAid op.objid none).terrOf op.obj none
  | .oldUid _ newUid, some oldAid =>
    match newUid with
    | some newUid => ((w.setAid oldAid op.objid none).setUid newUid op.objid true).wait op.obj op.objid (.newUid newUid)
    | none => w.setAid oldAid op.objid none
  | .newUid _, some newAid => w.keepAid newAid op.objid op.obj
  | .newAid newAid, _ => w.keepTerr newAid op.objid op.obj
  | _, none => w

/-- The loop of `onGuildIdChange`: each object of the player that is there goes from the one alliance to the other. -/
def onGuildIdChange (uid : υ) (oldAid aid : Option α) : World υ α ι :=
  { w with
    ownAidObjRef := fun a objid =>
      if w.ownUidObjRef uid objid then
        match w.objs objid with
        | some obj => if aid = some a then some obj else if oldAid = some a then none else w.ownAidObjRef a objid
        | none => w.ownAidObjRef a objid
      else w.ownAidObjRef a objid }

def update_player_info (uid : υ) (aid : Option α) : World υ α ι :=
  match w.mapPlayers uid with
  | some oldAid =>
    if oldAid ≠ aid then
      let w := { w with mapPlayers := Function.update w.mapPlayers uid (some aid) }
      if (w.playerCitys uid).isSome then w.onGuildIdChange uid oldAid aid else w
    else w
  | none => w

def step (e : Event υ α ι) : World υ α ι :=
  match e with
  | .add o => w.add_object o
  | .remove obj => w.remove_object obj
  | .ownUid objectid v => w.updateOwnUid objectid v
  | .ownAid objectid v => w.updateOwnAid objectid v
  | .look n =>
    match w.ops[n]? with
    | some op =>
      match op.stage.asks with
      | some uid => { w with ops := w.ops.eraseIdx n ++ [{ op with answer := some (w.guild uid) }] }
      | none => w
    | none => w
  | .resume n =>
    match w.ops[n]? with
    | some op => if op.stage.asks.isSome ∧ op.answer = none then w else w.resume n op
    | none => w
  | .changed uid aid => { w with guild := Function.update w.guild uid aid, changes := w.changes ++ [(uid, aid)] }
  | .arrives =>
    match w.changes with
    | c :: changes => { w with changes := changes, told := Function.update w.told c.1 c.2 }.update_player_info c.1 c.2
    | [] => w
  | .mapPlayer uid guildid => { w with mapPlayers := Function.update w.mapPlayers uid guildid }

def live (objid : ι) : Option (Nat × Obj υ α ι) := (w.objs objid).bind (fun obj => w.heap[obj]?.map (fun o => (obj, o)))

/-- **The tables are exact**, whenever nothing is under way. -/
structure Right (e : Event υ α ι) : Prop where
  uid : (w.step e).ops = [] → (w.step e).changes = [] → ∀ uid objid, (w.step e).ownUidObjRef uid objid = true ↔
    ∃ obj o, (w.step e).live objid = some (obj, o) ∧ o.owner = some uid
  aid : (w.step e).ops = [] → (w.step e).changes = [] → ∀ aid objid obj, (w.step e).ownAidObjRef aid objid = some obj ↔
    ∃ o, (w.step e).live objid = some (obj, o) ∧ o.mapType.terr = false ∧
      ∃ uid, o.owner = some uid ∧ (w.step e).guild uid = some aid
  terr : (w.step e).ops = [] → (w.step e).changes = [] → ∀ aid objid obj, (w.step e).ownAidTerrRef aid objid = some obj ↔
    ∃ o, (w.step e).live objid = some (obj, o) ∧ o.mapType.terr = true ∧ o.ownAid = some aid

def Free (objid : ι) : Prop := ∀ op ∈ w.ops, op.objid ≠ objid

instance (objid : ι) : Decidable (w.Free objid) := inferInstanceAs (Decidable (∀ op ∈ w.ops, op.objid ≠ objid))

/-- The answer an operation goes on with: the alliance by which the tables go, where it enters the object; the one under
which the object stands, where it takes it out. -/
def Fits (op : Op υ α ι) (aid : Option α) : Prop :=
  match op.stage with
  | .add uid | .newUid uid => aid = w.told uid
  | .remove _ | .oldUid _ _ => ∀ a, some a ≠ aid → w.ownAidObjRef a op.objid = none
  | .newAid _ => True

instance [Fintype α] (op : Op υ α ι) (aid : Option α) : Decidable (w.Fits op aid) :=
  match h : op.stage with
  | .add uid | .newUid uid => decidable_of_iff (aid = w.told uid) (by simp [Fits, h])
  | .remove _ | .oldUid _ _ => decidable_of_iff (∀ a, some a ≠ aid → w.ownAidObjRef a op.objid = none) (by simp [Fits, h])
  | .newAid _ => .isTrue (by simp [Fits, h])

/-- What the steps find: an object is the only one of its place, and no other operation of it is under way; the answers
fit; a change of alliance that arrives is of a player whom the map knows as of the one before and who has a city there, if
he has any object and it is a change. -/
def Kept : Event υ α ι → Prop
  | .add o => w.objs o.objectid = none ∧ w.Free o.objectid ∧ ∀ uid ∈ o.owner, ∀ aid ∈ w.mapPlayers uid, aid = w.told uid
  | .remove obj => ∀ o ∈ w.heap[obj]?, w.objs o.objectid = some obj ∧ w.Free o.objectid
  | .ownUid objid _ => w.Free objid ∧ ∀ x ∈ w.live objid,
      x.2.mapType = .buildmine ∨ x.2.mapType = .fortress ∨ x.2.mapType = .playercity
  | .ownAid objid _ => w.Free objid
  | .resume n => ∀ op ∈ w.ops[n]?, ∀ aid ∈ op.answer, w.Fits op aid
  | .arrives => ∀ c ∈ w.changes.head?, (∀ objid, w.ownUidObjRef c.1 objid = true → w.objs objid = none) ∨
      c.2 = w.told c.1 ∨ (w.mapPlayers c.1 = some (w.told c.1) ∧ (w.playerCitys c.1).isSome)
  | _ => True

instance [Fintype α] [Fintype ι] : ∀ e : Event υ α ι, Decidable (w.Kept e)
  | .add o => inferInstanceAs (Decidable (w.objs o.objectid = none ∧ w.Free o.objectid ∧
      ∀ uid ∈ o.owner, ∀ aid ∈ w.mapPlayers uid, aid = w.told uid))
  | .remove obj => inferInstanceAs (Decidable (∀ o ∈ w.heap[obj]?, w.objs o.objectid = some obj ∧ w.Free o.objectid))
  | .ownUid objid _ => inferInstanceAs (Decidable (w.Free objid ∧ ∀ x ∈ w.live objid,
      x.2.mapType = .buildmine ∨ x.2.mapType = .fortress ∨ x.2.mapType = .playercity))
  | .ownAid objid _ => inferInstanceAs (Decidable (w.Free objid))
  | .resume n => inferInstanceAs (Decidable (∀ op ∈ w.ops[n]?, ∀ aid ∈ op.answer, w.Fits op aid))
  | .arrives => inferInstanceAs (Decidable (∀ c ∈ w.changes.head?,
      (∀ objid, w.ownUidObjRef c.1 objid = true → w.objs objid = none) ∨ c.2 = w.told c.1 ∨
        (w.mapPlayers c.1 = some (w.told c.1) ∧ (w.playerCitys c.1).isSome)))
  | .look _ | .changed .. | .mapPlayer .. => isTrue trivial

def start : World υ α ι :=
  ⟨[], fun _ => none, fun _ => none, fun _ => none, fun _ _ => false, fun _ _ => none, fun _ _ => none, [],
    fun _ => none, [],
    fun _ => none⟩


structure Row (υ α : Type) where
  uid : Option υ
  aid : Option (α × Nat)
  terr : Option (α × Nat)

structure Has (objid : ι) (row : Row υ α) : Prop where
  uid : ∀ uid, w.ownUidObjRef uid objid = true ↔ row.uid = some uid
  aid : ∀ aid obj, w.ownAidObjRef aid objid = some obj ↔ row.aid = some (aid, obj)
  terr : ∀ aid obj, w.ownAidTerrRef aid objid = some obj ↔ row.terr = some (aid, obj)

def owned (told : υ → Option α) : Option (Nat × Obj υ α ι) → Row υ α
  | none => ⟨none, none, none⟩
  | some (obj, o) => ⟨o.owner, (o.owner.bind told).map (·, obj), o.ownAid.map (·, obj)⟩

def Midway (op : Op υ α ι) : Prop :=
  match op.stage with
  | .add uid => ∃ o, w.live op.objid = some (op.obj, o) ∧ o.owner = some uid ∧ w.Has op.objid ⟨none, none, none⟩
  | .remove uid => w.objs op.objid = none ∧ (∃ o, w.heap[op.obj]? = some o ∧ o.objectid = op.objid ∧ o.ownAid = none) ∧
      ∃ x, w.Has op.objid ⟨some uid, x, none⟩
  | .oldUid _ newUid => ∃ o, w.live op.objid = some (op.obj, o) ∧ o.owner = newUid ∧ o.ownAid = none ∧
      ∃ x, w.Has op.objid ⟨none, x, none⟩
  | .newUid uid => ∃ o, w.live op.objid = some (op.obj, o) ∧ o.owner = some uid ∧
      ∃ x, w.Has op.objid ⟨some uid, x, none⟩ ∧ ∀ y ∈ x, w.told uid = some y.1 ∧ y.2 = op.obj
  | .newAid aid => ∃ o, w.live op.objid = some (op.obj, o) ∧ o.owner = none ∧ o.ownAid = aid ∧
      w.Has op.objid ⟨none, none, none⟩

structure Good : Prop where
  ops : (w.ops.map Op.objid).Nodup
  objectid : ∀ objid obj, w.objs objid = some obj → ∃ o, w.heap[obj]? = some o ∧ o.objectid = objid
  op : ∀ op ∈ w.ops, w.Midway op
  rest : ∀ objid, w.Free objid → w.Has objid (owned w.told (w.live objid))
  news : w.changes.foldl (fun told c => Function.update told c.1 c.2) w.told = w.guild

variable {w}

/-! ## What changes with an operation -/

structure About (objid : ι) (w w' : World υ α ι) : Prop where
  heap : ∀ (obj : Nat) o, w.heap[obj]? = some o → o.objectid ≠ objid → w'.heap[obj]? = some o
  objs : ∀ id, id ≠ objid → w'.objs id = w.objs id
  uid : ∀ id, id ≠ objid → ∀ uid, w'.ownUidObjRef uid id = w.ownUidObjRef uid id
  aid : ∀ id, id ≠ objid → ∀ aid, w'.ownAidObjRef aid id = w.ownAidObjRef aid id
  terr : ∀ id, id ≠ objid → ∀ aid, w'.ownAidTerrRef aid id = w.ownAidTerrRef aid id
  guild : w'.guild = w.guild
  changes : w'.changes = w.changes
  told : w'.told = w.told

omit [DecidableEq υ] [DecidableEq α] [DecidableEq ι] in
theorem About.trans {objid : ι} {w w₁ w₂ : World υ α ι} (h : About objid w w₁) (h' : About objid w₁ w₂) :
    About objid w w₂ where
  heap obj o ho hne := h'.heap obj o (h.heap obj o ho hne) hne
  objs id hne := (h'.objs id hne).trans (h.objs id hne)
  uid id hne uid := (h'.uid id hne uid).trans (h.uid id hne uid)
  aid id hne aid := (h'.aid id hne aid).trans (h.aid id hne aid)
  terr id hne aid := (h'.terr id hne aid).trans (h.terr id hne aid)
  guild := h'.guild.trans h.guild
  changes := h'.changes.trans h.changes
  told := h'.told.trans h.told

/-- The objects and the operations are the same: only the tables of owners differ, for one object. -/
structure Tables (objid : ι) (w w' : World υ α ι) : Prop extends About objid w w' where
  heap_eq : w'.heap = w.heap
  objs_eq : w'.objs = w.objs
  ops : w'.ops = w.ops

omit [DecidableEq υ] [DecidableEq α] [DecidableEq ι] in
theorem Tables.trans {objid : ι} {w w₁ w₂ : World υ α ι} (h : Tables objid w w₁) (h' : Tables objid w₁ w₂) :
    Tables objid w w₂ :=
  ⟨h.toAbout.trans h'.toAbout, h'.heap_eq.trans h.heap_eq, h'.objs_eq.trans h.objs_eq, h'.ops.trans h.ops⟩

omit [DecidableEq υ] [DecidableEq α] [DecidableEq ι] in
theorem Tables.live {objid : ι} {w w' : World υ α ι} (h : Tables objid w w') : w'.live = w.live := by
  funext id
  unfold World.live
  rw [h.heap_eq, h.objs_eq]

omit [DecidableEq υ] [DecidableEq α] [DecidableEq ι] in
theorem Tables.refl (objid : ι) (w : World υ α ι) : Tables objid w w :=
  ⟨⟨fun _ _ h _ => h, fun _ _ => rfl, fun _ _ _ => rfl, fun _ _ _ => rfl, fun _ _ _ => rfl, rfl, rfl, rfl⟩, rfl, rfl, rfl⟩

omit [DecidableEq α] in
theorem tables_setUid (w : World υ α ι) (uid : υ) (objid : ι) (b : Bool) : Tables objid w (w.setUid uid objid b) where
  heap _ _ h _ := h
  objs _ _ := rfl
  uid _ hne _ := (put_apply ..).trans (if_neg (fun h => hne h.2))
  aid _ _ _ := rfl
  terr _ _ _ := rfl
  guild := rfl
  changes := rfl
  told := rfl
  heap_eq := rfl
  objs_eq := rfl
  ops := rfl

omit [DecidableEq υ] in
theorem tables_setAid (w : World υ α ι) (aid : Option α) (objid : ι) (v : Option Nat) :
    Tables objid w (w.setAid aid objid v) := by
  cases aid with
  | none => exact .refl objid w
  | some a =>
    exact ⟨⟨fun _ _ h _ => h, fun _ _ => rfl, fun _ _ _ => rfl,
      fun id hne a' => (put_apply ..).trans (if_neg (fun h => hne h.2)), fun _ _ _ => rfl, rfl, rfl, rfl⟩, rfl, rfl, rfl⟩

omit [DecidableEq υ] in
theorem tables_setTerr (w : World υ α ι) (aid : Option α) (objid : ι) (v : Option Nat) :
    Tables objid w (w.setTerr aid objid v) := by
  cases aid with
  | none => exact .refl objid w
  | some a =>
    exact ⟨⟨fun _ _ h _ => h, fun _ _ => rfl, fun _ _ _ => rfl, fun _ _ _ => rfl,
      fun id hne a' => (put_apply ..).trans (if_neg (fun h => hne h.2)), rfl, rfl, rfl⟩, rfl, rfl, rfl⟩

omit [DecidableEq υ] in
theorem tables_keepAid (w : World υ α ι) (aid : Option α) (objid : ι) (obj : Nat) :
    Tables objid w (w.keepAid aid objid obj) := by
  unfold keepAid
  cases aid with
  | none => exact .refl objid w
  | some a =>
    simp only
    split
    · exact tables_setAid w (some a) objid (some obj)
    · exact .refl objid w

omit [DecidableEq υ] in
theorem tables_keepTerr (w : World υ α ι) (aid : Option α) (objid : ι) (obj : Nat) :
    Tables objid w (w.keepTerr aid objid obj) := by
  unfold keepTerr
  cases aid with
  | none => exact .refl objid w
  | some a =>
    simp only
    split
    · exact tables_setTerr w (some a) objid (some obj)
    · exact .refl objid w

omit [DecidableEq υ] in
theorem terrOf_eq {w : World υ α ι} {obj : Nat} {o : Obj υ α ι} (h : w.heap[obj]? = some o) (v : Option Nat) :
    w.terrOf obj v = w.setTerr o.ownAid o.objectid v := by
  unfold terrOf
  rw [h]
  simp only
  split
  · rfl
  · rename_i hterr
    rw [o.noAid (by simpa using hterr)]
    rfl

/-! ## What the tables say after a change -/

section Has

variable {objid : ι} {uid : Option υ} {aid terr : Option (α × Nat)}

omit [DecidableEq α] in
theorem Has.setUid (h : w.Has objid ⟨none, aid, terr⟩) (u : υ) : (w.setUid u objid true).Has objid ⟨some u, aid, terr⟩ where
  uid u' := by
    have hnot : w.ownUidObjRef u' objid ≠ true := fun heq => by cases (h.uid u').1 heq
    show put w.ownUidObjRef u objid true u' objid = true ↔ _
    rw [put_apply]
    by_cases hu : u' = u
    · simp [hu]
    · simp [hu, hnot, Ne.symm hu]
  aid := h.aid
  terr := h.terr

omit [DecidableEq α] in
theorem Has.unsetUid {u : υ} (h : w.Has objid ⟨some u, aid, terr⟩) :
    (w.setUid u objid false).Has objid ⟨none, aid, terr⟩ where
  uid u' := by
    show put w.ownUidObjRef u objid false u' objid = true ↔ _
    rw [put_apply]
    by_cases hu : u' = u
    · simp [hu]
    · have hnot : w.ownUidObjRef u' objid ≠ true := fun heq => hu (Option.some.inj ((h.uid u').1 heq)).symm
      simp [hu, hnot]
  aid := h.aid
  terr := h.terr

omit [DecidableEq υ] in
theorem Has.setAid (h : w.Has objid ⟨uid, none, terr⟩) (a : Option α) (obj : Nat) :
    (w.setAid a objid (some obj)).Has objid ⟨uid, a.map (·, obj), terr⟩ := by
  cases a with
  | none => exact h
  | some a => exact ⟨h.uid, put_names (fun a' obj' heq => nomatch (h.aid a' obj').1 heq), h.terr⟩

omit [DecidableEq υ] in
theorem Has.unsetAid (h : w.Has objid ⟨uid, aid, terr⟩) {a : Option α} (ha : ∀ y ∈ aid, some y.1 = a) :
    (w.setAid a objid none).Has objid ⟨uid, none, terr⟩ := by
  cases a with
  | none =>
    cases aid with
    | none => exact h
    | some y => cases ha y rfl
  | some a =>
    exact ⟨h.uid, put_forgets (fun a' obj' heq => Option.some.inj (ha (a', obj') ((h.aid a' obj').1 heq))), h.terr⟩

omit [DecidableEq υ] in
theorem Has.keepAid (h : w.Has objid ⟨uid, aid, terr⟩) {a : Option α} {obj : Nat}
    (ha : ∀ y ∈ aid, a = some y.1 ∧ y.2 = obj) : (w.keepAid a objid obj).Has objid ⟨uid, a.map (·, obj), terr⟩ := by
  cases aid with
  | none =>
    cases a with
    | none => exact h
    | some a =>
      have hnone : w.ownAidObjRef a objid = none := by
        cases hx : w.ownAidObjRef a objid with
        | none => rfl
        | some x => cases (h.aid a x).1 hx
      unfold World.keepAid
      simp only [hnone, if_true]
      exact h.setAid (some a) obj
  | some y =>
    obtain ⟨rfl, rfl⟩ := ha y rfl
    have hsome : w.ownAidObjRef y.1 objid = some y.2 := (h.aid y.1 y.2).2 rfl
    unfold World.keepAid
    simp only [hsome, reduceCtorEq, if_false]
    exact h

omit [DecidableEq υ] in
theorem Has.setTerr (h : w.Has objid ⟨uid, aid, none⟩) (a : Option α) (obj : Nat) :
    (w.setTerr a objid (some obj)).Has objid ⟨uid, aid, a.map (·, obj)⟩ := by
  cases a with
  | none => exact h
  | some a => exact ⟨h.uid, h.aid, put_names fun a' obj' heq => nomatch (h.terr a' obj').1 heq⟩

omit [DecidableEq υ] in
theorem Has.unsetTerr {a : Option α} {obj : Nat} (h : w.Has objid ⟨uid, aid, a.map (·, obj)⟩) :
    (w.setTerr a objid none).Has objid ⟨uid, aid, none⟩ := by
  cases a with
  | none => exact h
  | some a =>
    refine ⟨h.uid, h.aid, put_forgets fun a' obj' heq => ?_⟩
    have heq' := (h.terr a' obj').1 heq
    simp only [Option.map_some, Option.some.injEq, Prod.mk.injEq] at heq'
    exact heq'.1.symm

omit [DecidableEq υ] in
theorem Has.keepTerr (h : w.Has objid ⟨uid, aid, none⟩) (a : Option α) (obj : Nat) :
    (w.keepTerr a objid obj).Has objid ⟨uid, aid, a.map (·, obj)⟩ := by
  cases a with
  | none => exact h
  | some a =>
    have hnone : w.ownAidTerrRef a objid = none := by
      cases hx : w.ownAidTerrRef a objid with
      | none => rfl
      | some x => cases (h.terr a x).1 hx
    unfold World.keepTerr
    simp only [hnone, if_true]
    exact h.setTerr (some a) obj

end Has

/-- A list of operations of which none is of the object, and the others are those there were. -/
structure Without (w : World υ α ι) (objid : ι) (ops : List (Op υ α ι)) : Prop where
  mem : ∀ op, op ∈ ops ↔ op ∈ w.ops ∧ op.objid ≠ objid
  nodup : (ops.map Op.objid).Nodup

omit [DecidableEq α] [DecidableEq ι] in
theorem Good.without_free (h : w.Good) {objid : ι} (hfree : w.Free objid) : w.Without objid w.ops :=
  ⟨fun op => ⟨fun hop => ⟨hop, hfree op hop⟩, fun hop => hop.1⟩, h.ops⟩

omit [DecidableEq α] [DecidableEq ι] in
theorem Good.without_eraseIdx (h : w.Good) {n : Nat} {op : Op υ α ι} (hn : w.ops[n]? = some op) :
    w.Without op.objid (w.ops.eraseIdx n) := by
  obtain ⟨hlt, hget⟩ := List.getElem?_eq_some_iff.1 hn
  have hperm : (op :: w.ops.eraseIdx n).Perm w.ops := hget ▸ List.getElem_cons_eraseIdx_perm hlt
  have hnodup : ((op :: w.ops.eraseIdx n).map Op.objid).Nodup := (hperm.map Op.objid).nodup_iff.2 h.ops
  rw [List.map_cons, List.nodup_cons] at hnodup
  refine ⟨fun x => ⟨fun hx => ⟨hperm.mem_iff.1 (List.mem_cons_of_mem _ hx), fun heq => ?_⟩, fun ⟨hx, hne⟩ => ?_⟩, hnodup.2⟩
  · exact hnodup.1 (heq ▸ List.mem_map_of_mem hx)
  · rcases List.mem_cons.1 (hperm.mem_iff.2 hx) with rfl | hx
    · exact absurd rfl hne
    · exact hx

omit [DecidableEq υ] [DecidableEq α] [DecidableEq ι] in
theorem About.has {objid : ι} {w' : World υ α ι} (hab : About objid w w') {id : ι} (hne : id ≠ objid) {row : Row υ α}
    (h : w.Has id row) : w'.Has id row where
  uid uid := by rw [hab.uid id hne]; exact h.uid uid
  aid aid obj := by rw [hab.aid id hne]; exact h.aid aid obj
  terr aid obj := by rw [hab.terr id hne]; exact h.terr aid obj

omit [DecidableEq υ] [DecidableEq α] [DecidableEq ι] in
theorem live_eq {objid : ι} {obj : Nat} {o : Obj υ α ι} :
    w.live objid = some (obj, o) ↔ w.objs objid = some obj ∧ w.heap[obj]? = some o := by
  unfold live
  simp only [Option.bind_eq_some_iff, Option.map_eq_some_iff, Prod.mk.injEq]
  constructor
  · rintro ⟨obj', hobj, o', ho, rfl, rfl⟩
    exact ⟨hobj, ho⟩
  · rintro ⟨hobj, ho⟩
    exact ⟨obj, hobj, o, ho, rfl, rfl⟩

omit [DecidableEq υ] [DecidableEq α] [DecidableEq ι] in
theorem live_none {objid : ι} (h : w.objs objid = none) : w.live objid = none := by
  unfold live
  rw [h]
  rfl

omit [DecidableEq α] [DecidableEq ι] in
theorem Good.live (h : w.Good) {objid : ι} {obj : Nat} (hobj : w.objs objid = some obj) :
    ∃ o, w.live objid = some (obj, o) ∧ o.objectid = objid := by
  obtain ⟨o, ho, hid⟩ := h.objectid objid obj hobj
  exact ⟨o, live_eq.2 ⟨hobj, ho⟩, hid⟩

omit [DecidableEq α] [DecidableEq ι] in
theorem About.live {objid : ι} {w' : World υ α ι} (hab : About objid w w') (h : w.Good) {id : ι} (hne : id ≠ objid) :
    w'.live id = w.live id := by
  cases hobj : w.objs id with
  | none =>
    have hobj' : w'.objs id = none := (hab.objs id hne).trans hobj
    rw [live_none hobj, live_none hobj']
  | some obj =>
    obtain ⟨o, hlive, hid⟩ := h.live hobj
    obtain ⟨hobj, ho⟩ := live_eq.1 hlive
    exact (live_eq.2 ⟨(hab.objs id hne).trans hobj, hab.heap obj o ho (hid ▸ hne)⟩).trans hlive.symm

omit [DecidableEq υ] [DecidableEq α] [DecidableEq ι] in
theorem Midway.of_eq {w' : World υ α ι} {op : Op υ α ι} (hlive : w'.live op.objid = w.live op.objid)
    (hobjs : w'.objs op.objid = w.objs op.objid)
    (hheap : ∀ o, w.heap[op.obj]? = some o → o.objectid = op.objid → w'.heap[op.obj]? = some o)
    (hhas : ∀ {row : Row υ α}, w.Has op.objid row → w'.Has op.objid row) (htold : w'.told = w.told) (h : w.Midway op) :
    w'.Midway op := by
  unfold Midway at h ⊢
  rw [hlive, hobjs, htold]
  cases hstage : op.stage with
  | add uid =>
    rw [hstage] at h
    obtain ⟨o, hlive, howner, h⟩ := h
    exact ⟨o, hlive, howner, hhas h⟩
  | remove uid =>
    rw [hstage] at h
    obtain ⟨hnone, ⟨o, ho, hid, haid⟩, x, h⟩ := h
    exact ⟨hnone, ⟨o, hheap o ho hid, hid, haid⟩, x, hhas h⟩
  | oldUid oldUid newUid =>
    rw [hstage] at h
    obtain ⟨o, hlive, howner, haid, x, h⟩ := h
    exact ⟨o, hlive, howner, haid, x, hhas h⟩
  | newUid uid =>
    rw [hstage] at h
    obtain ⟨o, hlive, howner, x, h, hx⟩ := h
    exact ⟨o, hlive, howner, x, hhas h, hx⟩
  | newAid aid =>
    rw [hstage] at h
    obtain ⟨o, hlive, howner, haid, h⟩ := h
    exact ⟨o, hlive, howner, haid, hhas h⟩

omit [DecidableEq α] [DecidableEq ι] in
theorem About.midway {objid : ι} {w' : World υ α ι} (hab : About objid w w') (h : w.Good) {op : Op υ α ι}
    (hne : op.objid ≠ objid) (hop : w.Midway op) : w'.Midway op :=
  hop.of_eq (hab.live h hne) (hab.objs op.objid hne) (fun o ho hid =>
    hab.heap op.obj o ho (hid ▸ hne)) (hab.has hne) hab.told

omit [DecidableEq α] in
/-- **An operation of an object**: it waits where it has got to, or the tables say what they have to. -/
theorem Good.about (h : w.Good) {w' : World υ α ι} {objid : ι} (hab : About objid w w') {ops : List (Op υ α ι)}
    (hwithout : w.Without objid ops) (next : Option (Op υ α ι)) (hops : w'.ops = ops ++ next.toList)
    (hnext : ∀ op ∈ next, op.objid = objid ∧ w'.Midway op)
    (hobj : ∀ obj, w'.objs objid = some obj → ∃ o, w'.heap[obj]? = some o ∧ o.objectid = objid)
    (hrest : next = none → w'.Has objid (owned w'.told (w'.live objid))) : w'.Good where
  ops := by
    rw [hops, List.map_append, List.nodup_append]
    refine ⟨hwithout.nodup, ?_, fun x hx y hy heq => ?_⟩
    · cases next <;> simp
    · obtain ⟨op, hop, rfl⟩ := List.mem_map.1 hx
      obtain ⟨op', hop', rfl⟩ := List.mem_map.1 hy
      exact ((hwithout.mem op).1 hop).2 (heq.trans (hnext op' (Option.mem_toList.1 hop')).1)
  objectid id obj hobj' := by
    by_cases hid : id = objid
    · subst hid
      exact hobj obj hobj'
    · obtain ⟨o, hlive, hid'⟩ := h.live ((hab.objs id hid).symm.trans hobj')
      exact ⟨o, (live_eq.1 ((hab.live h hid).trans hlive)).2, hid'⟩
  op op hop := by
    rw [hops, List.mem_append, Option.mem_toList] at hop
    rcases hop with hop | hop
    · obtain ⟨hop, hne⟩ := (hwithout.mem op).1 hop
      exact hab.midway h hne (h.op op hop)
    · exact (hnext op hop).2
  rest id hfree := by
    by_cases hid : id = objid
    · subst hid
      refine hrest ?_
      cases next with
      | none => rfl
      | some op => exact absurd (hnext op rfl).1 (hfree op (by rw [hops]; simp))
    · rw [hab.live h hid, hab.told]
      refine hab.has hid (h.rest id (fun op hop heq => ?_))
      refine hfree op ?_ heq
      rw [hops]
      exact List.mem_append_left _ ((hwithout.mem op).2 ⟨hop, heq ▸ hid⟩)
  news := by rw [hab.changes, hab.told, hab.guild]; exact h.news

omit [DecidableEq α] [DecidableEq ι] in
theorem tables_setCity (w : World υ α ι) (objid : ι) (o : Obj υ α ι) (v : Option Nat) : Tables objid w (w.setCity o v) := by
  unfold setCity
  split
  · exact ⟨⟨fun _ _ h _ => h, fun _ _ => rfl, fun _ _ _ => rfl, fun _ _ _ => rfl, fun _ _ _ => rfl, rfl, rfl, rfl⟩,
      rfl, rfl, rfl⟩
  · exact .refl objid w

omit [DecidableEq α] [DecidableEq ι] in
theorem mapPlayers_setCity (w : World υ α ι) (o : Obj υ α ι) (v : Option Nat) :
    (w.setCity o v).mapPlayers = w.mapPlayers := by
  unfold setCity
  split <;> rfl

omit [DecidableEq α] [DecidableEq ι] in
theorem has_setCity {objid : ι} {row : Row υ α} (h : w.Has objid row) (o : Obj υ α ι) (v : Option Nat) :
    (w.setCity o v).Has objid row := by
  unfold setCity
  split
  · exact ⟨h.uid, h.aid, h.terr⟩
  · exact h

structure Same (w w' : World υ α ι) : Prop where
  heap : w'.heap = w.heap
  objs : w'.objs = w.objs
  uid : w'.ownUidObjRef = w.ownUidObjRef
  aid : w'.ownAidObjRef = w.ownAidObjRef
  terr : w'.ownAidTerrRef = w.ownAidTerrRef
  told : w'.told = w.told

omit [DecidableEq υ] [DecidableEq α] [DecidableEq ι] in
theorem Same.live {w' : World υ α ι} (hs : Same w w') : w'.live = w.live := by
  funext id
  unfold World.live
  rw [hs.heap, hs.objs]

omit [DecidableEq υ] [DecidableEq α] [DecidableEq ι] in
theorem Same.has {w' : World υ α ι} (hs : Same w w') {objid : ι} {row : Row υ α} (h : w.Has objid row) :
    w'.Has objid row where
  uid uid := by rw [hs.uid]; exact h.uid uid
  aid aid obj := by rw [hs.aid]; exact h.aid aid obj
  terr aid obj := by rw [hs.terr]; exact h.terr aid obj

omit [DecidableEq υ] [DecidableEq α] [DecidableEq ι] in
theorem Same.midway {w' : World υ α ι} (hs : Same w w') {op : Op υ α ι} (h : w.Midway op) : w'.Midway op :=
  h.of_eq (congrFun hs.live _) (congrFun hs.objs _) (fun _ ho _ => hs.heap ▸ ho) hs.has hs.told

omit [DecidableEq υ] [DecidableEq α] [DecidableEq ι] in
theorem Midway.ops {op : Op υ α ι} (h : w.Midway op) (ops : List (Op υ α ι)) :
    ({ w with ops := ops } : World υ α ι).Midway op := by
  have hs : Same w { w with ops := ops } := ⟨rfl, rfl, rfl, rfl, rfl, rfl⟩
  exact hs.midway h

omit [DecidableEq α] in
theorem Good.rested (h : w.Good) {w₁ w₂ : World υ α ι} {objid : ι} (hab : About objid w w₁) (ht : Tables objid w₁ w₂)
    (hwithout : w.Without objid w₁.ops) {obj : Nat} {o : Obj υ α ι} (hlive : w₁.live objid = some (obj, o))
    (hid : o.objectid = objid)
    (hhas : w₂.Has objid ⟨o.owner, (o.owner.bind w.told).map (·, obj), o.ownAid.map (·, obj)⟩) : w₂.Good := by
  refine h.about (hab.trans ht.toAbout) hwithout none ?_ nofun (fun obj' hobj => ?_) (fun _ => ?_)
  · rw [ht.ops, Option.toList_none, List.append_nil]
  · rw [ht.objs_eq, (live_eq.1 hlive).1] at hobj
    obtain rfl := Option.some.inj hobj
    exact ⟨o, ht.heap_eq ▸ (live_eq.1 hlive).2, hid⟩
  · rw [ht.live, hlive, ht.told, hab.told]
    exact hhas

omit [DecidableEq α] in
theorem Good.gone (h : w.Good) {w₁ w₂ : World υ α ι} {objid : ι} (hab : About objid w w₁) (ht : Tables objid w₁ w₂)
    (hwithout : w.Without objid w₁.ops) (hnone : w₁.objs objid =
      none) (hhas : w₂.Has objid ⟨none, none, none⟩) : w₂.Good := by
  have hnone' : w₂.objs objid = none := ht.objs_eq ▸ hnone
  refine h.about (hab.trans ht.toAbout) hwithout none ?_ nofun (fun obj hobj => ?_) (fun _ => ?_)
  · rw [ht.ops, Option.toList_none, List.append_nil]
  · rw [hnone'] at hobj
    cases hobj
  · rw [live_none hnone']
    exact hhas

omit [DecidableEq α] in
theorem Good.waits (h : w.Good) {w₁ w₂ : World υ α ι} {objid : ι} (hab : About objid w w₁) (ht : Tables objid w₁ w₂)
    (hwithout : w.Without objid w₁.ops)
    (hobj : ∀ obj, w₁.objs objid = some obj → ∃ o, w₁.heap[obj]? = some o ∧ o.objectid = objid) {obj : Nat}
    {stage : Stage υ α} (hmid : w₂.Midway ⟨obj, objid, stage, none⟩) : (w₂.wait obj objid stage).Good := by
  have hwait : About objid w₂ (w₂.wait obj objid stage) :=
    ⟨fun _ _ h _ => h, fun _ _ => rfl, fun _ _ _ => rfl, fun _ _ _ => rfl, fun _ _ _ => rfl, rfl, rfl, rfl⟩
  refine h.about ((hab.trans ht.toAbout).trans hwait) hwithout (some ⟨obj, objid, stage, none⟩) ?_ (fun op hop => ?_)
    (fun obj' hobj' => ?_) nofun
  · exact congrArg (· ++ _) ht.ops
  · obtain rfl := Option.some.inj hop
    exact ⟨rfl, hmid.ops _⟩
  · have hobj₁ : w₁.objs objid = some obj' := ht.objs_eq ▸ hobj'
    obtain ⟨o, ho, hid⟩ := hobj obj' hobj₁
    exact ⟨o, ht.heap_eq ▸ ho, hid⟩

theorem Good.add_object (h : w.Good) {o : Obj υ α ι} (hnone : w.objs o.objectid = none) (hfree : w.Free o.objectid)
    (hplayer : ∀ uid ∈ o.owner, ∀ aid ∈ w.mapPlayers uid, aid = w.told uid) : (w.add_object o).Good := by
  have hhas := h.rest o.objectid hfree
  rw [live_none hnone] at hhas
  -- the object is there and in no table
  let w₀ : World υ α ι :=
    { w with heap := w.heap ++ [o], objs := Function.update w.objs o.objectid (some w.heap.length) }
  have hab₀ : About o.objectid w w₀ :=
    ⟨fun _ _ ho _ => List.getElem?_append_left (List.getElem?_eq_some_iff.1 ho).1 ▸ ho,
      fun _ hne => Function.update_of_ne hne .., fun _ _ _ => rfl, fun _ _ _ => rfl, fun _ _ _ => rfl, rfl, rfl, rfl⟩
  have hcity := tables_setCity w₀ o.objectid o (some w.heap.length)
  have hlive : (w₀.setCity o (some w.heap.length)).live o.objectid = some (w.heap.length, o) := by
    rw [hcity.live]
    exact live_eq.2 ⟨Function.update_self .., List.getElem?_concat_length ..⟩
  have hhas₀ : w₀.Has o.objectid ⟨none, none, none⟩ := ⟨hhas.uid, hhas.aid, hhas.terr⟩
  have hhas₁ := has_setCity hhas₀ o (some w.heap.length)
  have hab := hab₀.trans hcity.toAbout
  have hwithout : w.Without o.objectid (w₀.setCity o (some w.heap.length)).ops := by
    rw [hcity.ops]
    exact h.without_free hfree
  have hheap := (live_eq.1 hlive).2
  unfold World.add_object
  simp only
  cases howner : o.owner with
  | none =>
    rw [terrOf_eq hheap]
    refine h.rested hab (tables_setTerr ..) hwithout hlive rfl ?_
    rw [howner]
    exact hhas₁.setTerr o.ownAid _
  | some uid =>
    simp only [mapPlayers_setCity]
    cases hmap : w.mapPlayers uid with
    | none =>
      refine h.waits hab (.refl ..) hwithout (fun obj hobj => ?_) ⟨o, hlive, howner, hhas₁⟩
      rw [(live_eq.1 hlive).1] at hobj
      exact ⟨o, Option.some.inj hobj ▸ hheap, rfl⟩
    | some aid =>
      obtain rfl := hplayer uid howner aid hmap
      have ht := (tables_setUid (w₀.setCity o (some w.heap.length)) uid o.objectid true).trans
        (tables_setAid _ (w.told uid) o.objectid (some w.heap.length))
      simp only
      rw [terrOf_eq (ht.heap_eq ▸ hheap)]
      refine h.rested hab (ht.trans (tables_setTerr ..)) hwithout hlive rfl ?_
      rw [howner]
      exact ((hhas₁.setUid uid).setAid (w.told uid) _).setTerr o.ownAid _

theorem Good.remove_object (h : w.Good) {obj : Nat} (hobj : ∀ o ∈ w.heap[obj]?, w.objs o.objectid = some obj ∧
    w.Free o.objectid) : (w.remove_object obj).Good := by
  unfold World.remove_object
  cases ho : w.heap[obj]? with
  | none => exact h
  | some o =>
    obtain ⟨hlive, hfree⟩ := hobj o ho
    have hhas := h.rest o.objectid hfree
    rw [live_eq.2 ⟨hlive, ho⟩] at hhas
    let w₀ : World υ α ι := { w with objs := Function.update w.objs o.objectid none }
    have hab₀ : About o.objectid w w₀ :=
      ⟨fun _ _ ho _ => ho, fun _ hne => Function.update_of_ne hne .., fun _ _ _ => rfl, fun _ _ _ => rfl, fun _ _ _ => rfl,
        rfl, rfl, rfl⟩
    have hcity := tables_setCity w₀ o.objectid o none
    have hnone : (w₀.setCity o none).objs o.objectid = none := hcity.objs_eq ▸ Function.update_self ..
    have hab := hab₀.trans hcity.toAbout
    have hwithout : w.Without o.objectid (w₀.setCity o none).ops := by
      rw [hcity.ops]
      exact h.without_free hfree
    have hheap : (w₀.setCity o none).heap[obj]? = some o := hcity.heap_eq ▸ ho
    have hhas₀ : w₀.Has o.objectid (owned w.told (some (obj, o))) := ⟨hhas.uid, hhas.aid, hhas.terr⟩
    have hhas₁ := has_setCity hhas₀ o none
    simp only
    cases howner : o.owner with
    | none =>
      simp only
      rw [terrOf_eq hheap]
      refine h.gone hab (tables_setTerr ..) hwithout hnone ?_
      simp only [owned, howner] at hhas₁
      exact hhas₁.unsetTerr
    | some uid =>
      have haid := Obj.ownAid_of_owner howner
      simp only [owned, howner, haid] at hhas₁
      refine h.waits hab (.refl ..) hwithout (fun obj' hobj' => ?_) ⟨hnone, ⟨o, hheap, rfl, haid⟩, _, hhas₁⟩
      rw [hnone] at hobj'
      cases hobj'

omit [DecidableEq α] [DecidableEq ι] in
theorem about_set (h : w.Good) {objid : ι} {obj : Nat} {o : Obj υ α ι} (hlive : w.live objid = some (obj, o))
    (o' : Obj υ α ι) : About objid w { w with heap := w.heap.set obj o' } ∧
      ({ w with heap := w.heap.set obj o' } : World υ α ι).live objid = some (obj, o') ∧ o.objectid = objid := by
  obtain ⟨hobj, ho⟩ := live_eq.1 hlive
  obtain ⟨o₁, ho₁, hid⟩ := h.objectid objid obj hobj
  obtain rfl := Option.some.inj (ho.symm.trans ho₁)
  refine ⟨⟨fun obj' o₂ ho₂ hne => ?_, fun _ _ => rfl, fun _ _ _ => rfl, fun _ _ _ => rfl, fun _ _ _ => rfl, rfl, rfl, rfl⟩,
    live_eq.2 ⟨hobj, List.getElem?_set_self (List.getElem?_eq_some_iff.1 ho).1⟩, hid⟩
  have hneq : obj ≠ obj' := fun heq => by
    obtain rfl := Option.some.inj (ho.symm.trans (heq ▸ ho₂))
    exact hne hid
  exact (List.getElem?_set_ne hneq).trans ho₂

omit [DecidableEq α] in
theorem Good.updateOwnUid (h : w.Good) {objid : ι} (hfree : w.Free objid) (v : Option υ)
    (hkind : ∀ x ∈ w.live objid, x.2.mapType = .buildmine ∨ x.2.mapType = .fortress ∨ x.2.mapType = .playercity) :
    (w.updateOwnUid objid v).Good := by
  unfold World.updateOwnUid
  cases hobj : w.objs objid with
  | none => exact h
  | some obj =>
    simp only
    cases ho : w.heap[obj]? with
    | none => exact h
    | some o =>
      simp only
      split
      · exact h
      · rename_i hne
        have hlive := live_eq.2 ⟨hobj, ho⟩
        have hhas := h.rest objid hfree
        rw [hlive] at hhas
        obtain ⟨hab, hlive₁, hid⟩ := about_set h hlive (o.setOwnUid v)
        have hid₁ := (Obj.objectid_setOwnUid v).trans hid
        have hwithout := h.without_free hfree
        let w₁ : World υ α ι := { w with heap := w.heap.set obj (o.setOwnUid v) }
        have hhas₁ : w₁.Has objid (owned w.told (some (obj, o))) := ⟨hhas.uid, hhas.aid, hhas.terr⟩
        have hplace : ∀ obj', w₁.objs objid = some obj' → ∃ o, w₁.heap[obj']? = some o ∧ o.objectid = objid := by
          intro obj' hobj'
          obtain rfl := Option.some.inj (hobj.symm.trans hobj')
          exact ⟨_, (live_eq.1 hlive₁).2, hid₁⟩
        split
        · rename_i hmine
          obtain ⟨howner, howner', haid, haid'⟩ := Obj.owner_setOwnUid hmine v
          simp only [owned, howner, haid] at hhas₁
          split
          · rename_i oldUid hold
            rw [hold] at hhas₁
            refine h.waits hab (tables_setUid w₁ oldUid objid false) hwithout hplace ?_
            exact ⟨_, hlive₁, howner', haid', _, hhas₁.unsetUid⟩
          · rename_i newUid hold
            rw [hold] at hhas₁
            refine h.waits hab (tables_setUid w₁ newUid objid true) hwithout hplace ?_
            exact ⟨_, hlive₁, howner', _, hhas₁.setUid newUid, nofun⟩
          · rename_i hold
            exact absurd hold.symm hne
        · rename_i hmine
          have hcity : o.mapType = .playercity := by
            rcases hkind _ hlive with hk | hk | hk
            · exact absurd (.inl hk) hmine
            · exact absurd (.inr hk) hmine
            · exact hk
          obtain ⟨howner, haid⟩ := Obj.owner_setOwnUid_city hcity v
          refine h.rested hab (.refl objid w₁) hwithout hlive₁ hid₁ ?_
          rw [howner, haid]
          exact hhas₁

theorem Good.updateOwnAid (h : w.Good) {objid : ι} (hfree : w.Free objid) (v : Option α) :
    (w.updateOwnAid objid v).Good := by
  unfold World.updateOwnAid
  cases hobj : w.objs objid with
  | none => exact h
  | some obj =>
    simp only
    cases ho : w.heap[obj]? with
    | none => exact h
    | some o =>
      simp only
      split
      · exact h
      · have hlive := live_eq.2 ⟨hobj, ho⟩
        have hhas := h.rest objid hfree
        rw [hlive] at hhas
        obtain ⟨hab, hlive₁, hid⟩ := about_set h hlive (o.setOwnAid v)
        have hwithout := h.without_free hfree
        let w₁ : World υ α ι := { w with heap := w.heap.set obj (o.setOwnAid v) }
        have hhas₁ : w₁.Has objid (owned w.told (some (obj, o))) := ⟨hhas.uid, hhas.aid, hhas.terr⟩
        split
        · rename_i hterr
          obtain ⟨hid', howner', haid'⟩ := Obj.setOwnAid_of_terr hterr v
          have hid₁ := hid'.trans hid
          simp only [owned, Obj.owner_of_terr hterr] at hhas₁
          cases hold : o.ownAid with
          | none =>
            rw [hold] at hhas₁
            refine h.rested hab (tables_keepTerr w₁ v objid obj) hwithout hlive₁ hid₁ ?_
            rw [howner', haid']
            exact hhas₁.keepTerr v obj
          | some oldAid =>
            rw [hold] at hhas₁
            refine h.waits hab (tables_setTerr w₁ (some oldAid) objid none) hwithout (fun obj' hobj' => ?_) ?_
            · obtain rfl := Option.some.inj (hobj.symm.trans hobj')
              exact ⟨_, (live_eq.1 hlive₁).2, hid₁⟩
            · exact ⟨_, hlive₁, howner', haid', hhas₁.unsetTerr⟩
        · rename_i hterr
          have heq : o.setOwnAid v = o := dif_neg hterr
          have hid₁ : (o.setOwnAid v).objectid = objid := by rw [heq]; exact hid
          have howner : (o.setOwnAid v).owner = o.owner := by rw [heq]
          have haid : (o.setOwnAid v).ownAid = o.ownAid := by rw [heq]
          refine h.rested hab (.refl objid w₁) hwithout hlive₁ hid₁ ?_
          rw [howner, haid]
          exact hhas₁

omit [DecidableEq υ] [DecidableEq ι] in
theorem Fits.unset {op : Op υ α ι} {uid : Option υ} {aid : Option α} {x terr : Option (α × Nat)}
    (hhas : w.Has op.objid ⟨uid, x, terr⟩) (hno : ∀ a, some a ≠ aid → w.ownAidObjRef a op.objid = none) :
    ∀ y ∈ x, some y.1 = aid := by
  intro y hy
  by_contra hne
  have hsome := (hhas.aid y.1 y.2).2 hy
  rw [hno y.1 hne] at hsome
  cases hsome

theorem Good.resume (h : w.Good) {n : Nat} {op : Op υ α ι} (hn : w.ops[n]? = some op)
    (hfits : ∀ aid ∈ op.answer, w.Fits op aid) (hready : ¬(op.stage.asks.isSome ∧ op.answer = none)) :
    (w.resume n op).Good := by
  have hmid := h.op op (List.mem_of_getElem? hn)
  have hwithout := h.without_eraseIdx hn
  obtain ⟨obj, objid, stage, answer⟩ := op
  let w₀ : World υ α ι := { w with ops := w.ops.eraseIdx n }
  have hab : About objid w w₀ :=
    ⟨fun _ _ h _ => h, fun _ _ => rfl, fun _ _ _ => rfl, fun _ _ _ => rfl, fun _ _ _ => rfl, rfl, rfl, rfl⟩
  have hhas₀ : ∀ {row : Row υ α}, w.Has objid row → w₀.Has objid row := fun h => ⟨h.uid, h.aid, h.terr⟩
  have hplace : ∀ obj', w₀.objs objid = some obj' → ∃ o, w₀.heap[obj']? = some o ∧ o.objectid = objid := h.objectid objid
  have hobjectid : ∀ {o}, w.live objid = some (obj, o) → o.objectid = objid := by
    intro o hlive
    obtain ⟨hobj, ho⟩ := live_eq.1 hlive
    obtain ⟨o', ho', hid⟩ := h.objectid objid obj hobj
    exact Option.some.inj (ho.symm.trans ho') ▸ hid
  unfold World.resume
  cases stage with
  | add uid =>
    cases answer with
    | none => exact absurd ⟨rfl, rfl⟩ hready
    | some aid =>
      obtain rfl : aid = w.told uid := hfits aid rfl
      obtain ⟨o, hlive, howner, hhas⟩ := hmid
      have hid := hobjectid hlive
      have ht := (tables_setUid w₀ uid objid true).trans (tables_setAid _ (w.told uid) objid (some obj))
      simp only
      rw [terrOf_eq (ht.heap_eq ▸ (live_eq.1 hlive).2), hid]
      refine h.rested hab (ht.trans (tables_setTerr ..)) hwithout hlive hid ?_
      rw [howner]
      exact (((hhas₀ hhas).setUid uid).setAid (w.told uid) obj).setTerr o.ownAid obj
  | remove uid =>
    cases answer with
    | none => exact absurd ⟨rfl, rfl⟩ hready
    | some aid =>
      obtain ⟨hnone, ⟨o, ho, hid, haid⟩, x, hhas⟩ := hmid
      have hx := Fits.unset hhas (hfits aid rfl)
      have ht := (tables_setUid w₀ uid objid false).trans (tables_setAid _ aid objid none)
      simp only
      rw [terrOf_eq (ht.heap_eq ▸ ho), haid]
      exact h.gone hab ht hwithout hnone ((hhas₀ hhas).unsetUid.unsetAid hx)
  | oldUid oldUid newUid =>
    cases answer with
    | none => exact absurd ⟨rfl, rfl⟩ hready
    | some aid =>
      obtain ⟨o, hlive, howner, haid, x, hhas⟩ := hmid
      have hid := hobjectid hlive
      have hx := Fits.unset hhas (hfits aid rfl)
      have hhas₁ := (hhas₀ hhas).unsetAid hx
      have ht := tables_setAid w₀ aid objid none
      cases newUid with
      | none =>
        refine h.rested hab ht hwithout hlive hid ?_
        rw [howner, haid]
        exact hhas₁
      | some newUid =>
        have ht' := ht.trans (tables_setUid _ newUid objid true)
        refine h.waits hab ht' hwithout hplace ?_
        exact ⟨o, ht'.live ▸ hlive, howner, _, hhas₁.setUid newUid, nofun⟩
  | newUid uid =>
    cases answer with
    | none => exact absurd ⟨rfl, rfl⟩ hready
    | some aid =>
      obtain rfl : aid = w.told uid := hfits aid rfl
      obtain ⟨o, hlive, howner, x, hhas, hx⟩ := hmid
      refine h.rested hab (tables_keepAid w₀ (w.told uid) objid obj) hwithout hlive (hobjectid hlive) ?_
      rw [howner, Obj.ownAid_of_owner howner]
      exact (hhas₀ hhas).keepAid hx
  | newAid aid =>
    obtain ⟨o, hlive, howner, haid, hhas⟩ := hmid
    refine h.rested hab (tables_keepTerr w₀ aid objid obj) hwithout hlive (hobjectid hlive) ?_
    rw [howner, haid]
    exact (hhas₀ hhas).keepTerr aid obj

omit [DecidableEq α] in
theorem Good.look (h : w.Good) {n : Nat} {op : Op υ α ι} (hn : w.ops[n]? = some op) (answer : Option (Option α)) :
    ({ w with ops := w.ops.eraseIdx n ++ [{ op with answer := answer }] } : World υ α ι).Good := by
  have hmid : w.Midway { op with answer := answer } := h.op op (List.mem_of_getElem? hn)
  refine h.about ?_ (h.without_eraseIdx hn) (some { op with answer := answer }) rfl (fun x hx => ?_)
    (h.objectid op.objid) nofun
  · exact ⟨fun _ _ h _ => h, fun _ _ => rfl, fun _ _ _ => rfl, fun _ _ _ => rfl, fun _ _ _ => rfl, rfl, rfl, rfl⟩
  · obtain rfl := Option.some.inj hx
    exact ⟨rfl, hmid.ops _⟩

omit [DecidableEq α] [DecidableEq ι] in
theorem Good.changed (h : w.Good) (uid : υ) (aid : Option α) :
    ({ w with guild := Function.update w.guild uid aid, changes := w.changes ++ [(uid, aid)] } : World υ α ι).Good := by
  have hs : Same w { w with guild := Function.update w.guild uid aid, changes := w.changes ++ [(uid, aid)] } :=
    ⟨rfl, rfl, rfl, rfl, rfl, rfl⟩
  refine ⟨h.ops, h.objectid, fun op hop => hs.midway (h.op op hop), fun id hfree => hs.has (h.rest id hfree), ?_⟩
  simp only [List.foldl_append, List.foldl_cons, List.foldl_nil]
  rw [h.news]

omit [DecidableEq α] [DecidableEq ι] in
theorem Good.mapPlayer (h : w.Good) (mapPlayers : υ → Option (Option α)) :
    ({ w with mapPlayers := mapPlayers } : World υ α ι).Good := by
  have hs : Same w { w with mapPlayers := mapPlayers } := ⟨rfl, rfl, rfl, rfl, rfl, rfl⟩
  exact ⟨h.ops, h.objectid, fun op hop => hs.midway (h.op op hop), fun id hfree => hs.has (h.rest id hfree), h.news⟩

omit [DecidableEq υ] [DecidableEq ι] in
theorem Has.stay {objid : ι} {row : Row υ α} (h : w.Has objid row) {uid : υ} (oldAid aid : Option α)
    (hnot : row.uid ≠ some uid ∨ w.objs objid = none) : (w.onGuildIdChange uid oldAid aid).Has objid row where
  uid := h.uid
  aid a obj := by
    have heq : (w.onGuildIdChange uid oldAid aid).ownAidObjRef a objid = w.ownAidObjRef a objid := by
      simp only [onGuildIdChange]
      split
      · rename_i hin
        rw [hnot.resolve_left (fun hne => hne ((h.uid uid).1 hin))]
      · rfl
    rw [heq]
    exact h.aid a obj
  terr := h.terr

omit [DecidableEq υ] [DecidableEq ι] in
theorem Has.move {objid : ι} {uid : υ} {x terr : Option (α × Nat)} (h : w.Has objid ⟨some uid, x, terr⟩) {obj : Nat}
    (hobj : w.objs objid = some obj) {oldAid aid : Option α} (hx : ∀ y ∈ x, oldAid = some y.1 ∨ aid = some y.1) :
    (w.onGuildIdChange uid oldAid aid).Has objid ⟨some uid, aid.map (·, obj), terr⟩ where
  uid := h.uid
  aid a obj' := by
    have hin : w.ownUidObjRef uid objid = true := (h.uid uid).2 rfl
    have heq : (w.onGuildIdChange uid oldAid aid).ownAidObjRef a objid =
        if aid = some a then some obj else if oldAid = some a then none else w.ownAidObjRef a objid := by
      simp only [onGuildIdChange]
      rw [if_pos hin, hobj]
    rw [heq]
    by_cases ha : aid = some a
    · simp [ha]
    · have hnone : (if oldAid = some a then none else w.ownAidObjRef a objid) = none := by
        by_cases hold : oldAid = some a
        · exact if_pos hold
        · rw [if_neg hold]
          cases hr : w.ownAidObjRef a objid with
          | none => rfl
          | some y => exact absurd (hx (a, y) ((h.aid a y).1 hr)) (not_or.2 ⟨hold, ha⟩)
      rw [if_neg ha, hnone]
      cases aid with
      | none => simp
      | some b =>
        have hb : b ≠ a := fun heq => ha (congrArg some heq)
        simp [hb]
  terr := h.terr

/-- What `update_player_info` makes of the tables when a change of alliance arrives. -/
structure Arrived (w : World υ α ι) (c : υ × Option α) (w' : World υ α ι) : Prop where
  heap : w'.heap = w.heap
  objs : w'.objs = w.objs
  ops : w'.ops = w.ops
  guild : w'.guild = w.guild
  changes : w.changes = c :: w'.changes
  told : w'.told = Function.update w.told c.1 c.2
  stay : ∀ id row, w.Has id row → (row.uid ≠ some c.1 ∨ w.objs id = none) → w'.Has id row
  move : ∀ id x terr obj, w.Has id ⟨some c.1, x, terr⟩ → w.objs id = some obj →
    (∀ y ∈ x, w.told c.1 = some y.1 ∧ y.2 = obj) → ∃ x', w'.Has id ⟨some c.1, x', terr⟩ ∧
      (∀ y ∈ x', c.2 = some y.1 ∧ y.2 = obj) ∧ (x = (w.told c.1).map (·, obj) → x' = c.2.map (·, obj))

omit [DecidableEq ι] in
theorem update_player_info_arrived {c : υ × Option α} {cs : List (υ × Option α)} (hc : w.changes = c :: cs)
    (hkept : (∀ objid, w.ownUidObjRef c.1 objid = true → w.objs objid = none) ∨ c.2 = w.told c.1 ∨
      (w.mapPlayers c.1 = some (w.told c.1) ∧ (w.playerCitys c.1).isSome)) :
    Arrived w c ({ w with changes := cs, told := Function.update w.told c.1 c.2 }.update_player_info c.1 c.2) := by
  -- an object of the player is there
  have hkept' : ∀ {id x terr obj}, w.Has id ⟨some c.1, x, terr⟩ → w.objs id = some obj → c.2 = w.told c.1 ∨
      (w.mapPlayers c.1 = some (w.told c.1) ∧ (w.playerCitys c.1).isSome) := by
    intro id x terr obj hhas hobj
    refine hkept.resolve_left (fun hno => ?_)
    rw [hno id ((hhas.uid c.1).2 rfl)] at hobj
    cases hobj
  -- no table changes: then the alliance is the one it was, or the player has no objects
  have hsame : (∀ {id x terr obj}, w.Has id ⟨some c.1, x, terr⟩ → w.objs id = some obj → c.2 = w.told c.1) →
      ∀ mapPlayers, Arrived w c
        { w with changes := cs, told := Function.update w.told c.1 c.2, mapPlayers := mapPlayers } := by
    intro htold mapPlayers
    refine ⟨rfl, rfl, rfl, rfl, hc, rfl, fun id row h _ => ⟨h.uid, h.aid, h.terr⟩, fun id x terr obj h hobj hx => ?_⟩
    have heq := htold h hobj
    refine ⟨x, ⟨h.uid, h.aid, h.terr⟩, fun y hy => ⟨heq.trans (hx y hy).1, (hx y hy).2⟩, fun hx => ?_⟩
    rw [heq]
    exact hx
  unfold update_player_info
  simp only
  cases hmap : w.mapPlayers c.1 with
  | none =>
    refine hsame (fun hhas hobj => (hkept' hhas hobj).resolve_right (fun hold => ?_)) w.mapPlayers
    rw [hmap] at hold
    cases hold.1
  | some oldAid =>
    simp only
    split
    · rename_i hne
      split
      · -- the loop
        have hold : ∀ {id x terr obj}, w.Has id ⟨some c.1, x, terr⟩ → w.objs id = some obj → c.2 = w.told c.1 ∨
            oldAid = w.told c.1 := by
          intro id x terr obj hhas hobj
          refine (hkept' hhas hobj).imp_right (fun hold => ?_)
          exact Option.some.inj (hmap.symm.trans hold.1)
        let w₁ : World υ α ι :=
          { w with changes := cs, told := Function.update w.told c.1 c.2,
                   mapPlayers := Function.update w.mapPlayers c.1 (some c.2) }
        have hhas₁ : ∀ {id row}, w.Has id row → w₁.Has id row := fun h => ⟨h.uid, h.aid, h.terr⟩
        refine ⟨rfl, rfl, rfl, rfl, hc, rfl, fun id row h hnot => (hhas₁ h).stay oldAid c.2 hnot,
          fun id x terr obj h hobj hx => ⟨_, (hhas₁ h).move hobj (fun y hy => ?_), fun y hy => ?_, fun _ => rfl⟩⟩
        · rcases hold h hobj with heq | heq
          · exact .inr (heq.trans (hx y hy).1)
          · exact .inl (heq.trans (hx y hy).1)
        · obtain ⟨a, ha, rfl⟩ := Option.map_eq_some_iff.1 hy
          exact ⟨ha, rfl⟩
      · rename_i hcity
        exact hsame (fun hhas hobj => (hkept' hhas hobj).resolve_right (fun hold => hcity hold.2)) _
    · rename_i heq
      refine hsame (fun hhas hobj => (hkept' hhas hobj).elim id (fun hold => ?_)) w.mapPlayers
      rw [← not_not.1 heq]
      exact Option.some.inj (hmap.symm.trans hold.1)

omit [DecidableEq α] [DecidableEq ι] in
theorem Good.arrived (h : w.Good) {c : υ × Option α} {w' : World υ α ι} (ha : Arrived w c w') : w'.Good := by
  have hlive : w'.live = w.live := by
    funext id
    unfold World.live
    rw [ha.heap, ha.objs]
  refine ⟨ha.ops ▸ h.ops, fun id obj hobj => ?_, fun op hop => ?_, fun id hfree => ?_, ?_⟩
  · rw [ha.heap]
    exact h.objectid id obj (ha.objs ▸ hobj)
  · have hmid := h.op op (ha.ops ▸ hop)
    unfold Midway at hmid ⊢
    rw [hlive, ha.objs, ha.heap, ha.told]
    cases hstage : op.stage with
    | add uid =>
      rw [hstage] at hmid
      obtain ⟨o, hlive, howner, hhas⟩ := hmid
      exact ⟨o, hlive, howner, ha.stay _ _ hhas (.inl nofun)⟩
    | remove uid =>
      rw [hstage] at hmid
      obtain ⟨hnone, ho, x, hhas⟩ := hmid
      exact ⟨hnone, ho, x, ha.stay _ _ hhas (.inr hnone)⟩
    | oldUid oldUid newUid =>
      rw [hstage] at hmid
      obtain ⟨o, hlive, howner, haid, x, hhas⟩ := hmid
      exact ⟨o, hlive, howner, haid, x, ha.stay _ _ hhas (.inl nofun)⟩
    | newUid uid =>
      rw [hstage] at hmid
      obtain ⟨o, hlive, howner, x, hhas, hx⟩ := hmid
      refine ⟨o, hlive, howner, ?_⟩
      by_cases huid : uid = c.1
      · subst huid
        obtain ⟨x', hhas', hx', -⟩ := ha.move _ _ _ _ hhas (live_eq.1 hlive).1 hx
        refine ⟨x', hhas', fun y hy => ⟨?_, (hx' y hy).2⟩⟩
        rw [Function.update_self]
        exact (hx' y hy).1
      · refine ⟨x, ha.stay _ _ hhas (.inl (fun heq => huid (Option.some.inj heq))), fun y hy => ⟨?_, (hx y hy).2⟩⟩
        rw [Function.update_of_ne huid]
        exact (hx y hy).1
    | newAid aid =>
      rw [hstage] at hmid
      obtain ⟨o, hlive, howner, haid, hhas⟩ := hmid
      exact ⟨o, hlive, howner, haid, ha.stay _ _ hhas (.inl nofun)⟩
  · have hhas := h.rest id (fun op hop => hfree op (ha.ops.symm ▸ hop))
    rw [hlive, ha.told]
    cases hlive : w.live id with
    | none =>
      rw [hlive] at hhas
      exact ha.stay _ _ hhas (.inl nofun)
    | some x =>
      obtain ⟨obj, o⟩ := x
      rw [hlive] at hhas
      by_cases howner : o.owner = some c.1
      · simp only [owned, howner, Option.bind_some, Function.update_self] at hhas ⊢
        obtain ⟨x', hhas', -, hx'⟩ := ha.move _ _ _ _ hhas (live_eq.1 hlive).1 (fun y hy => by
          obtain ⟨a, ha, rfl⟩ := Option.map_eq_some_iff.1 hy
          exact ⟨ha, rfl⟩)
        rw [hx' rfl] at hhas'
        exact hhas'
      · have htold : o.owner.bind (Function.update w.told c.1 c.2) = o.owner.bind w.told := by
          cases huid : o.owner with
          | none => rfl
          | some uid =>
            have hne : uid ≠ c.1 := fun heq => howner (huid.trans (congrArg some heq))
            exact Function.update_of_ne hne ..
        simp only [owned, htold]
        exact ha.stay _ _ hhas (.inl howner)
  · have hnews := h.news
    rw [ha.changes, List.foldl_cons] at hnews
    rw [ha.told, ha.guild]
    exact hnews

theorem Good.step (h : w.Good) {e : Event υ α ι} (hkept : w.Kept e) : (w.step e).Good := by
  cases e with
  | add o => exact h.add_object hkept.1 hkept.2.1 hkept.2.2
  | remove obj => exact h.remove_object hkept
  | ownUid objid v => exact h.updateOwnUid hkept.1 v hkept.2
  | ownAid objid v => exact h.updateOwnAid hkept v
  | look n =>
    unfold World.step
    simp only
    cases hn : w.ops[n]? with
    | none => exact h
    | some op =>
      simp only
      cases op.stage.asks with
      | none => exact h
      | some uid => exact h.look hn (some (w.guild uid))
  | resume n =>
    unfold World.step
    simp only
    cases hn : w.ops[n]? with
    | none => exact h
    | some op =>
      simp only
      split
      · exact h
      · rename_i hready
        exact h.resume hn (hkept op hn) hready
  | changed uid aid => exact h.changed uid aid
  | arrives =>
    unfold World.step
    simp only
    cases hc : w.changes with
    | nil => exact h
    | cons c cs => exact h.arrived (update_player_info_arrived hc (hkept c (by rw [hc]; rfl)))
  | mapPlayer uid guildid => exact h.mapPlayer _

theorem Good.right (h : w.Good) {e : Event υ α ι} (hkept : w.Kept e) : w.Right e := by
  have hnext := h.step hkept
  have hhas : (w.step e).ops = [] → ∀ objid, (w.step e).Has objid (owned (w.step e).told ((w.step e).live objid)) := by
    intro hops objid
    refine hnext.rest objid (fun op hop => ?_)
    rw [hops] at hop
    cases hop
  have htold : (w.step e).changes = [] → (w.step e).told = (w.step e).guild := by
    intro hchanges
    have hnews := hnext.news
    rw [hchanges] at hnews
    exact hnews
  constructor
  · intro hops _ uid objid
    rw [(hhas hops objid).uid uid]
    cases hlive : (w.step e).live objid with
    | none => simp [owned]
    | some x =>
      constructor
      · exact fun howner => ⟨x.1, x.2, rfl, howner⟩
      · rintro ⟨obj, o, heq, howner⟩
        rw [heq]
        exact howner
  · intro hops hchanges aid objid obj
    rw [(hhas hops objid).aid aid obj, htold hchanges]
    cases hlive : (w.step e).live objid with
    | none => simp [owned]
    | some x =>
      simp only [owned, Option.map_eq_some_iff, Option.bind_eq_some_iff, Prod.mk.injEq, Option.some.injEq]
      constructor
      · rintro ⟨a, ⟨uid, howner, hguild⟩, rfl, rfl⟩
        refine ⟨x.2, rfl, ?_, uid, howner, hguild⟩
        by_contra hterr
        rw [Obj.owner_of_terr (by simpa using hterr)] at howner
        cases howner
      · rintro ⟨o, rfl, -, uid, howner, hguild⟩
        exact ⟨aid, ⟨uid, howner, hguild⟩, rfl, rfl⟩
  · intro hops _ aid objid obj
    rw [(hhas hops objid).terr aid obj]
    cases hlive : (w.step e).live objid with
    | none => simp [owned]
    | some x =>
      simp only [owned, Option.map_eq_some_iff, Prod.mk.injEq, Option.some.injEq]
      constructor
      · rintro ⟨a, haid, rfl, rfl⟩
        refine ⟨x.2, rfl, ?_, haid⟩
        by_contra hterr
        rw [x.2.noAid (by simpa using hterr)] at haid
        cases haid
      · rintro ⟨o, rfl, -, haid⟩
        exact ⟨aid, haid, rfl, rfl⟩

omit [DecidableEq α] [DecidableEq ι] in
theorem good_start : (start : World υ α ι).Good where
  ops := List.nodup_nil
  objectid objid obj hobj := by cases hobj
  op op hop := by cases hop
  rest objid _ := ⟨fun uid => by simp [start, World.live, owned], fun aid obj => by simp [start, World.live, owned],
    fun aid obj => by simp [start, World.live, owned]⟩
  news := rfl

end World
end OwnRef
end Sncpp
