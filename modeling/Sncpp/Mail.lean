import Mathlib.Data.List.Nodup
/-!
# Mail — the mail list of a player (`playerMail`)

A player's mail is a list of cells for each set type, with two indexes: `midRef` finds a cell by its mail id, and
`coverRef` counts the cells, those not viewed and those with an attachment to claim.  A cell is one object in the list
and in the index, so cells are named by numbers and kept in `cells`.
-/
namespace Sncpp
namespace Mail

inductive SetType where
  | alliance
  | activity
  | system
  | collect
deriving DecidableEq

def SetType.all : List SetType := [.alliance, .activity, .system, .collect]

def SetType.limit : SetType → Nat
  | .alliance => 50
  | .activity => 50
  | .system => 100
  | .collect => 50

def SetType.viewWhenReqBrief : SetType → Bool
  | .collect => true
  | _ => false

structure Cell where
  mid : Nat
  settype : SetType
  cfgid : Nat
  hasExtra : Bool
  expiretime : Nat
  isGetExtra : Bool
  isView : Bool
  isLock : Bool
deriving DecidableEq

/-- What `addNewMail` is told of a mail. -/
structure Head where
  mid : Nat
  settype : SetType
  cfgid : Nat
  hasExtra : Bool
  expiretime : Nat
deriving DecidableEq

def defaultListCell (h : Head) : Cell := ⟨h.mid, h.settype, h.cfgid, h.hasExtra, h.expiretime, false, false, false⟩

def Cell.unclaimed (c : Cell) : Bool := c.hasExtra && !c.isGetExtra

structure Cover where
  totalNum : Int
  notViewNum : Int
  hasExtraNum : Int
deriving DecidableEq

def toNum (b : Bool) : Int := if b then 1 else 0

def Cover.add (v : Cover) (c : Cell) : Cover :=
  ⟨v.totalNum + 1, v.notViewNum + toNum (!c.isView), v.hasExtraNum + toNum c.unclaimed⟩

def Cover.sub (v : Cover) (c : Cell) : Cover :=
  ⟨v.totalNum - 1, v.notViewNum - toNum (!c.isView), v.hasExtraNum - toNum c.unclaimed⟩

/-- What is stored of a player's mail: the lists of cells, the cells, the number of the next one, and the id of the last
shared mail taken over. -/
structure Data where
  list : SetType → Option (List Nat)
  cells : Nat → Cell
  next : Nat
  curShareId : Nat

structure PlayerMail extends Data where
  online : Bool
  midRef : SetType → Nat → Option Nat
  coverRef : SetType → Cover

def Data.listOf (d : Data) (st : SetType) : List Nat := (d.list st).getD []

def PlayerMail.setCell (m : PlayerMail) (r : Nat) (c : Cell) : PlayerMail :=
  { m with cells := Function.update m.cells r c }

def PlayerMail.setCover (m : PlayerMail) (st : SetType) (v : Cover) : PlayerMail :=
  { m with coverRef := Function.update m.coverRef st v }

def PlayerMail.setRef (m : PlayerMail) (st : SetType) (mid : Nat) (r : Option Nat) : PlayerMail :=
  { m with midRef := Function.update m.midRef st (Function.update (m.midRef st) mid r) }

def PlayerMail.setList (m : PlayerMail) (st : SetType) (l : List Nat) : PlayerMail :=
  { m with list := Function.update m.list st (some l) }

def PlayerMail.addRef (m : PlayerMail) (r : Nat) : PlayerMail :=
  let c := m.cells r
  match m.midRef c.settype c.mid with
  | none => (m.setRef c.settype c.mid (some r)).setCover c.settype ((m.coverRef c.settype).add c)
  | some _ => m

/-- `removeRef`: a mail id that is not there is only reported. -/
def PlayerMail.removeRef (m : PlayerMail) (r : Nat) : PlayerMail :=
  let c := m.cells r
  match m.midRef c.settype c.mid with
  | some _ => (m.setRef c.settype c.mid none).setCover c.settype ((m.coverRef c.settype).sub c)
  | none => m

/-- `ctor` and `init` on stored data; the shared mails of another kingdom are a `loadShareMail` afterwards. -/
def PlayerMail.init (d : Data) : PlayerMail :=
  (SetType.all.flatMap d.listOf).foldl PlayerMail.addRef
    { d with online := false, midRef := fun _ _ => none, coverRef := fun _ => ⟨0, 0, 0⟩ }

def PlayerMail.getListCell (m : PlayerMail) (mid : Nat) : Option Nat := SetType.all.findSome? (fun st => m.midRef st mid)

/-- `removeMail`, and whether the mail was removed; `cell` is the cell if the caller has it. -/
def PlayerMail.removeMail (m : PlayerMail) (mid : Nat) (isAuto : Bool) (cell : Option Nat) : Bool × PlayerMail :=
  match cell.or (m.getListCell mid) with
  | none => (false, m)
  | some r =>
    let c := m.cells r
    if !isAuto && c.unclaimed then (false, m)
    else
      match m.list c.settype with
      -- iterating over a missing list raises
      | none => (false, m)
      | some l => (true, (m.setList c.settype (l.eraseP (fun x => decide ((m.cells x).mid = mid)))).removeRef r)

/-- Which cell of an overfull list goes: the last, unless its attachment is to be claimed and a cell before it, other than
the first, has nothing to claim. -/
def PlayerMail.surplus (m : PlayerMail) (l : List Nat) : Option Nat :=
  match l.getLast? with
  | none => none
  | some last =>
    if (m.cells last).unclaimed then
      some ((l.tail.dropLast.reverse.find? (fun r => !(m.cells r).unclaimed)).getD last)
    else some last

def PlayerMail.place (m : PlayerMail) (c : Cell) : PlayerMail :=
  ({ m.setCell m.next c with next := m.next + 1 }).setList c.settype (m.next :: m.listOf c.settype)

def PlayerMail.trim (m : PlayerMail) (st : SetType) : PlayerMail :=
  if st.limit < (m.listOf st).length then
    match m.surplus (m.listOf st) with
    | some r => (m.removeMail (m.cells r).mid true (some r)).2
    | none => m
  else m

def PlayerMail.push (m : PlayerMail) (c : Cell) : PlayerMail := (m.place c).trim c.settype

/-- `addNewMail`: `found` if the mail has a body, `share` is the id of a shared mail that is still listed. -/
def PlayerMail.addNewMail (m : PlayerMail) (h : Head) (share : Option Nat) (found : Bool) : Bool × PlayerMail :=
  if found then
    let m₁ := (m.push (defaultListCell h)).addRef m.next
    (true, { m₁ with curShareId := max m₁.curShareId (share.getD 0) })
  else (false, m)

/-- A shared mail on its way into the list: what its body says, if the first lookup found that, and whether the second
found it. -/
structure Load where
  head : Option Head
  share : Option Nat
  found : Bool

def PlayerMail.loadOne (m : PlayerMail) (v : Load) : PlayerMail :=
  match v.head with
  | some h => (m.addNewMail h v.share v.found).2
  | none => m

/-- `loadShareMail` with what `loadMail` returned: the mails, and the last id passed over. -/
def PlayerMail.loadShareMail (m : PlayerMail) : Option (List Load × Nat) → PlayerMail
  | none => m
  | some (loads, lastMidNew) =>
    loads.foldl PlayerMail.loadOne { m with curShareId := max m.curShareId lastMidNew }

/-- `updateExpireTimer`: every list from its end, the expired cells go. -/
def PlayerMail.updateExpireTimer (m : PlayerMail) (time : Nat) : PlayerMail :=
  ((SetType.all.flatMap (fun st => (m.listOf st).reverse)).filter (fun r =>
    decide (0 < (m.cells r).expiretime) && decide ((m.cells r).expiretime ≤ time))).foldl
      (fun m r => (m.removeMail (m.cells r).mid true (some r)).2) m

inductive Err where
  | noData
  | noMore
  | illegalParams
  | notExist
  | collectExtra
  | countLimit
  | raised
deriving DecidableEq

def PlayerMail.view (m : PlayerMail) (st : SetType) (r : Nat) : PlayerMail :=
  if (m.cells r).isView then m
  else
    (m.setCell r { m.cells r with isView := true }).setCover st
      { m.coverRef st with notViewNum := (m.coverRef st).notViewNum - 1 }

/-- The cells from the one numbered `first` to the one numbered `stop`. -/
def briefs (l : List Nat) (first stop : Nat) : List Nat :=
  if first = 0 then [] else (l.drop (first - 1)).take (stop + 1 - first)

def PlayerMail.reqMailBrief (m : PlayerMail) (st : SetType) (first stop : Nat) : Except Err (List Nat) × PlayerMail :=
  match m.list st with
  | none => (.error .illegalParams, m)
  | some l =>
    (if briefs l first stop = [] then .error .noMore else .ok (briefs l first stop),
      if st.viewWhenReqBrief then (briefs l first stop).foldl (fun m r => m.view st r) m else m)

/-- `reqMailDetail`; a mail without a body is removed. -/
def PlayerMail.reqMailDetail {C : Type} (m : PlayerMail) (st : SetType) (mid : Nat) (flag : Bool) (found : Option C) :
    Except Err C × PlayerMail :=
  match m.midRef st mid with
  | some r =>
    let m' := m.view st r
    match found with
    | some content => (.ok content, m')
    | none => (.error .notExist, (m'.removeMail mid true (some r)).2)
  | none =>
    match flag, found with
    | true, some content => (.ok content, m)
    | _, _ => (.error .notExist, m)

def delOne (st : SetType) (p : List Nat × PlayerMail) (mid : Nat) : List Nat × PlayerMail :=
  match p.2.midRef st mid with
  | some r =>
    let q := p.2.removeMail mid false (some r)
    (if q.1 then p.1 ++ [mid] else p.1, q.2)
  | none => p

def PlayerMail.reqDelMail (m : PlayerMail) (st : SetType) (mids : List Nat) : List Nat × PlayerMail :=
  mids.foldl (delOne st) ([], m)

/-- `reqDelMailOneKey`; `visit` is the order in which the index is gone through. -/
def PlayerMail.reqDelMailOneKey (m : PlayerMail) (st : SetType) (visit : List Nat) : List Nat × PlayerMail :=
  m.reqDelMail st visit

def PlayerMail.claimable (m : PlayerMail) (st : SetType) (mid : Nat) : Option Nat :=
  (m.midRef st mid).filter (fun r => (m.cells r).unclaimed)

/-- A cell is viewed and its attachment claimed, and counted out under `st`. -/
def PlayerMail.mark (m : PlayerMail) (st : SetType) (r : Nat) : PlayerMail :=
  let m₁ := m.view st r
  (m₁.setCell r { m₁.cells r with isGetExtra := true }).setCover st
    { m₁.coverRef st with hasExtraNum := (m₁.coverRef st).hasExtraNum - 1 }

/-- The rest of `reqGetMailExtra` once the body was looked up: `found` is the body's `content.extra`.  Without a body the
mail is removed, and then marked all the same. -/
def PlayerMail.takeExtra {E : Type} [EmptyCollection E] (m : PlayerMail) (st : SetType) (mid r : Nat)
    (found : Option (Option E)) : Except Err E × PlayerMail :=
  match found with
  -- `next` of a missing `extra` raises
  | some none => (.error .raised, m)
  | some (some extra) => (.ok extra, m.mark st r)
  | none => (.ok ∅, (m.removeMail mid true (some r)).2.mark st r)

def PlayerMail.reqGetMailExtra {E : Type} [EmptyCollection E] (m : PlayerMail) (st : SetType) (mid : Nat)
    (found : Option (Option E)) : Except Err E × PlayerMail :=
  match m.claimable st mid with
  | some r => m.takeExtra st mid r found
  | none => (.error .notExist, m)

/-- The cells that `reqGetMailExtraOneKey` takes for faulty: those without an attachment to claim. -/
def PlayerMail.errcells (m : PlayerMail) (visits : List (SetType × List Nat)) : List Nat :=
  visits.flatMap (fun v => v.2.filterMap (fun mid => (m.midRef v.1 mid).filter (fun r => !(m.cells r).unclaimed)))

/-- `reqGetMailExtraOneKey`: it removes the cells that have nothing to claim, and then raises at `next(extra)`, where
`extra` is a name that nothing defines. -/
def PlayerMail.reqGetMailExtraOneKey (m : PlayerMail) (visits : List (SetType × List Nat)) : Except Err Unit × PlayerMail :=
  (.error .raised, (m.errcells visits).foldl (fun m r => (m.removeMail (m.cells r).mid true (some r)).2) m)

def PlayerMail.reCollectMail (m : PlayerMail) (st : SetType) (mid : Nat) : Except Err Nat × PlayerMail :=
  match m.midRef st mid with
  | none => (.error .notExist, m)
  | some r =>
    if (m.cells r).isLock then (.error .illegalParams, m)
    else if (m.cells r).unclaimed then (.error .collectExtra, m)
    else
      match m.list .collect with
      | none => (.error .raised, m)
      | some l =>
        if SetType.limit .collect ≤ l.length then (.error .countLimit, m)
        else
          let m₁ := m.removeRef r
          (.ok mid, (m₁.setCell r { m₁.cells r with isLock := true }).addRef r)

end Mail
end Sncpp
