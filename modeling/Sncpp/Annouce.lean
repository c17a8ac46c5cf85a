import Mathlib.Data.List.AList
import Mathlib.Data.List.Permutation
import Sncpp.Steps
/-!
# Annouce — the declarations of war on a building (`mapObjectMgr:doMoreLogicAttrs`)

`annouceInfo` has the time of each alliance that has declared war, and `annouceTime` the latest of them, at which a
timer clears them all.  A request writes `annouceTime` as it asks, and a hook then puts it right; but the hook does
not run where the request asks for the time that is there already, and does nothing where the alliance that is to be
cleared has not declared.
-/
namespace Sncpp
namespace Annouce

inductive Attr where
  | annouceTime (v : Int)
  | annouceAid (v : Int)
  deriving DecidableEq

/-- The fields of a building that declarations read and write, and its timer of `timersMap` with the time it is armed at. -/
structure Obj where
  annouceTime : Int
  annouceAid : Option Int
  annouceInfo : AList (fun _ : Int => Int)
  timer : Option Int

namespace Obj

def new : Obj := ⟨0, none, ∅, none⟩

variable (obj : Obj)

/-- `mapTimerMgr:doUpdate` of the timer of `annouceTime`, which all buildings have in `timerCfg`. -/
def doUpdate (endTime : Int) : Obj := { obj with timer := if endTime ≤ 0 then none else some endTime }

def latest (annouceTime : Int) (annouceInfo : AList (fun _ : Int => Int)) : Int :=
  annouceInfo.entries.foldl (fun annouceTime e => if annouceTime < e.2 then e.2 else annouceTime) annouceTime

def remaining (annouceInfo : AList (fun _ : Int => Int)) : Int :=
  annouceInfo.entries.foldl (fun ti e => if ti = 0 ∨ ti < e.2 then e.2 else ti) 0

def doMoreLogicAttrs (annouceTime : Int) (annouceAid : Option Int) : Obj :=
  let annouceAid := annouceAid.filter (fun aid => 0 < aid)
  if 0 < annouceTime then
    match annouceAid with
    | some annouceAid =>
      let annouceInfo := obj.annouceInfo.insert annouceAid annouceTime
      let annouceTime := latest annouceTime annouceInfo
      { obj with annouceTime := annouceTime, annouceInfo := annouceInfo }.doUpdate annouceTime
    | none => obj
  else
    match annouceAid with
    | some annouceAid =>
      if annouceAid ∈ obj.annouceInfo then
        let annouceInfo := obj.annouceInfo.erase annouceAid
        let ti := remaining annouceInfo
        { obj with annouceTime := ti, annouceInfo := annouceInfo }.doUpdate ti
      else obj
    | none => { obj with annouceTime := 0, annouceInfo := ∅ }.doUpdate 0

end Obj

def withAid (attrUpdates : List Attr) : Option Int :=
  attrUpdates.findSome? (fun attr => match attr with
    | .annouceAid v => some v
    | .annouceTime _ => none)

/-- The loop of `updateMapObjPro`: the object so far and what `logicAttrs` has of `annouceTime` and `annouceAid`. -/
structure Loop where
  obj : Obj
  logicAttrs : Option (Int × Option Int)

/-- A turn of the loop.  `annouceAid` is no field that a building declares, and `keep` is what the record makes of it. -/
def Loop.turn (keep : Option Int → Int → Option Int) (attrUpdates : List Attr) (s : Loop) : Attr → Loop
  | .annouceTime v =>
    if v ≠ s.obj.annouceTime then
      ⟨{ s.obj with annouceTime := v }.doUpdate v, some (v, withAid attrUpdates)⟩
    else s
  | .annouceAid v =>
    if some v ≠ s.obj.annouceAid then
      { s with obj := { s.obj with annouceAid := keep s.obj.annouceAid v } }
    else s

/-- `updateMapObjPro` of attributes in the order in which `pairs` comes to them. -/
def Obj.updateMapObjPro (keep : Option Int → Int → Option Int) (obj : Obj) (attrUpdates : List Attr) : Obj :=
  let s := attrUpdates.foldl (Loop.turn keep attrUpdates) ⟨obj, none⟩
  match s.logicAttrs with
  | none => s.obj
  | some (annouceTime, annouceAid) => s.obj.doMoreLogicAttrs annouceTime annouceAid

inductive Request where
  | declare (annouceTime annouceAid : Int) (htime : 0 < annouceTime) (haid : 0 < annouceAid)
  | cancel (annouceAid : Int) (haid : 0 < annouceAid)
  | clear

def Request.attrs : Request → List Attr
  | .declare annouceTime annouceAid _ _ => [.annouceTime annouceTime, .annouceAid annouceAid]
  | .cancel annouceAid _ => [.annouceTime 0, .annouceAid annouceAid]
  | .clear => [.annouceTime 0]

inductive Event where
  | update (request : Request) (attrUpdates : List Attr) (order : attrUpdates.Perm request.attrs)
  | timerCallback

abbrev Declared := Int → Option Int

def Declared.after (d : Declared) : Event → Declared
  | .update (.declare annouceTime annouceAid _ _) _ _ => Function.update d annouceAid (some annouceTime)
  | .update (.cancel annouceAid _) _ _ => Function.update d annouceAid none
  | .update .clear _ _ | .timerCallback => fun _ => none

structure World where
  obj : Obj
  declared : Declared

def new : World := ⟨Obj.new, fun _ => none⟩

def Obj.step (keep : Option Int → Int → Option Int) (obj : Obj) : Event → Obj
  | .update _ attrUpdates _ => obj.updateMapObjPro keep attrUpdates
  | .timerCallback =>
    if obj.timer.isSome then { obj with timer := none }.updateMapObjPro keep [.annouceTime 0] else obj

def step (keep : Option Int → Int → Option Int) (w : World) (e : Event) : World :=
  ⟨w.obj.step keep e, w.declared.after e⟩

/-! ## What is right, and when it is -/

/-- **A building has what was declared**, the latest of it, and a timer at that time. -/
structure Tracked (w : World) : Prop where
  annouceInfo : ∀ aid, w.obj.annouceInfo.lookup aid = w.declared aid
  le : ∀ aid time, w.declared aid = some time → time ≤ w.obj.annouceTime
  latest : (w.obj.annouceTime = 0 ∧ ∀ aid, w.declared aid = none) ∨ ∃ aid, w.declared aid = some w.obj.annouceTime
  timer : w.obj.timer = if w.obj.annouceTime = 0 then none else some w.obj.annouceTime

/-- **When it does.**  No declaration comes with the time that is the latest already, unless it is that alliance's own, and
none is cancelled that is not there while others are. -/
def Fits (w : World) : Event → Prop
  | .update (.declare annouceTime annouceAid _ _) _ _ =>
    annouceTime ≠ w.obj.annouceTime ∨ w.obj.annouceInfo.lookup annouceAid = some annouceTime
  | .update (.cancel annouceAid _) _ _ => annouceAid ∈ w.obj.annouceInfo ∨ w.obj.annouceTime = 0
  | _ => True

instance (w : World) (e : Event) : Decidable (Fits w e) := by
  unfold Fits
  split <;> infer_instance

theorem foldl_latest : ∀ (l : List (Sigma (fun _ : Int => Int))) (t : Int),
    t ≤ l.foldl (fun t e => if t < e.2 then e.2 else t) t ∧
      (∀ e ∈ l, e.2 ≤ l.foldl (fun t e => if t < e.2 then e.2 else t) t) ∧
      (l.foldl (fun t e => if t < e.2 then e.2 else t) t = t ∨
        ∃ e ∈ l, e.2 = l.foldl (fun t e => if t < e.2 then e.2 else t) t)
  | [], t => ⟨le_rfl, nofun, .inl rfl⟩
  | e :: l, t => by
    rw [List.foldl_cons]
    by_cases hlt : t < e.2
    · rw [if_pos hlt]
      obtain ⟨hge, hall, hmem⟩ := foldl_latest l e.2
      refine ⟨hlt.le.trans hge, List.forall_mem_cons.2 ⟨hge, hall⟩, .inr ?_⟩
      rcases hmem with heq | ⟨e', he', heq⟩
      · exact ⟨e, List.mem_cons_self, heq.symm⟩
      · exact ⟨e', List.mem_cons_of_mem e he', heq⟩
    · rw [if_neg hlt]
      obtain ⟨hge, hall, hmem⟩ := foldl_latest l t
      refine ⟨hge, List.forall_mem_cons.2 ⟨(not_lt.1 hlt).trans hge, hall⟩, ?_⟩
      rcases hmem with heq | ⟨e', he', heq⟩
      · exact .inl heq
      · exact .inr ⟨e', List.mem_cons_of_mem e he', heq⟩

theorem latest_spec (t : Int) (info : AList (fun _ : Int => Int)) :
    t ≤ Obj.latest t info ∧ (∀ aid time, info.lookup aid = some time → time ≤ Obj.latest t info) ∧
      (Obj.latest t info = t ∨ ∃ aid, info.lookup aid = some (Obj.latest t info)) := by
  obtain ⟨hge, hall, hmem⟩ := foldl_latest info.entries t
  refine ⟨hge, fun aid time htime => hall ⟨aid, time⟩ (AList.mem_lookup_iff.1 htime), ?_⟩
  rcases hmem with heq | ⟨⟨aid, time⟩, he, heq⟩
  · exact .inl heq
  · exact .inr ⟨aid, (AList.mem_lookup_iff.2 he).trans (congrArg some heq)⟩

theorem remaining_eq (info : AList (fun _ : Int => Int)) (hpos : ∀ aid time, info.lookup aid = some time → 0 < time) :
    Obj.remaining info = Obj.latest 0 info := by
  have hfold : ∀ (l : List (Sigma (fun _ : Int => Int))) (ti : Int), (∀ e ∈ l, 0 < e.2) →
      l.foldl (fun ti e => if ti = 0 ∨ ti < e.2 then e.2 else ti) ti = l.foldl (fun t e => if t < e.2 then e.2 else t) ti := by
    intro l
    induction l with
    | nil => exact fun _ _ => rfl
    | cons e l ih =>
      intro ti hl
      have he : 0 < e.2 := hl e List.mem_cons_self
      have hiff : (ti = 0 ∨ ti < e.2) ↔ ti < e.2 := ⟨fun h => h.elim (fun h => h ▸ he) id, .inr⟩
      rw [List.foldl_cons, List.foldl_cons, if_congr hiff rfl rfl]
      exact ih _ (fun e' he' => hl e' (List.mem_cons_of_mem e he'))
  exact hfold info.entries 0 (fun e he => hpos e.1 e.2 (AList.mem_lookup_iff.2 he))

structure Same (o o' : Obj) : Prop where
  annouceTime : o.annouceTime = o'.annouceTime
  annouceInfo : o.annouceInfo = o'.annouceInfo
  timer : o.timer = o'.timer

def Obj.asked (obj : Obj) (v : Int) (aid : Option Int) : Obj :=
  if v = obj.annouceTime then obj else ({ obj with annouceTime := v }.doUpdate v).doMoreLogicAttrs v aid

theorem Same.doMoreLogicAttrs {o o' : Obj} (h : Same o o') (v : Int) (aid : Option Int) :
    Same (o.doMoreLogicAttrs v aid) (o'.doMoreLogicAttrs v aid) := by
  obtain ⟨time, a, info, timer⟩ := o
  obtain ⟨time', a', info', timer'⟩ := o'
  obtain ⟨rfl, rfl, rfl⟩ := h
  unfold Obj.doMoreLogicAttrs
  cases aid.filter (fun aid => 0 < aid) with
  | none =>
    by_cases hpos : 0 < v
    · simp only [if_pos hpos]
      exact ⟨rfl, rfl, rfl⟩
    · simp only [if_neg hpos]
      exact ⟨rfl, rfl, rfl⟩
  | some aid =>
    by_cases hpos : 0 < v
    · simp only [if_pos hpos]
      exact ⟨rfl, rfl, rfl⟩
    · simp only [if_neg hpos]
      split <;> exact ⟨rfl, rfl, rfl⟩

variable (keep : Option Int → Int → Option Int)

theorem updateMapObjPro_asked (obj : Obj) (v : Int) {aid : Int} {attrUpdates : List Attr}
    (order : attrUpdates.Perm [.annouceTime v, .annouceAid aid]) :
    Same (obj.updateMapObjPro keep attrUpdates) (obj.asked v (some aid)) := by
  have haid : ∀ (s : Loop) (l : List Attr), ∃ a, Loop.turn keep l s (.annouceAid aid) =
      { s with obj := { s.obj with annouceAid := a } } := by
    intro s l
    by_cases ha : some aid ≠ s.obj.annouceAid
    · exact ⟨_, if_pos ha⟩
    · exact ⟨s.obj.annouceAid, if_neg ha⟩
  unfold Obj.updateMapObjPro Obj.asked
  rcases List.perm_pair.1 order with rfl | rfl
  · have hwith : withAid [.annouceTime v, .annouceAid aid] = some aid := rfl
    simp only [List.foldl_cons, List.foldl_nil]
    obtain ⟨a, ha⟩ := haid (Loop.turn keep [.annouceTime v, .annouceAid aid] ⟨obj, none⟩ (.annouceTime v))
      [.annouceTime v, .annouceAid aid]
    rw [ha]
    unfold Loop.turn
    by_cases hv : v = obj.annouceTime
    · simp only [hv, ne_eq, not_true_eq_false, if_false, if_true]
      exact ⟨rfl, rfl, rfl⟩
    · simp only [hv, hwith, ne_eq, not_false_eq_true, if_true, if_false]
      refine Same.doMoreLogicAttrs ?_ v (some aid)
      exact ⟨rfl, rfl, rfl⟩
  · have hwith : withAid [.annouceAid aid, .annouceTime v] = some aid := rfl
    simp only [List.foldl_cons, List.foldl_nil]
    obtain ⟨a, ha⟩ := haid ⟨obj, none⟩ [.annouceAid aid, .annouceTime v]
    rw [ha]
    unfold Loop.turn
    by_cases hv : v = obj.annouceTime
    · simp only [hv, ne_eq, not_true_eq_false, if_false, if_true]
      exact ⟨rfl, rfl, rfl⟩
    · simp only [hv, hwith, ne_eq, not_false_eq_true, if_true, if_false]
      refine Same.doMoreLogicAttrs ?_ v (some aid)
      exact ⟨rfl, rfl, rfl⟩

theorem updateMapObjPro_clear (obj : Obj) : obj.updateMapObjPro keep [.annouceTime 0] = obj.asked 0 none := by
  unfold Obj.updateMapObjPro Obj.asked
  simp only [List.foldl_cons, List.foldl_nil, Loop.turn]
  by_cases hv : 0 = obj.annouceTime
  · simp only [hv, ne_eq, not_true_eq_false, if_false, if_true]
  · simp only [hv, ne_eq, not_false_eq_true, if_true, if_false]
    rfl

/-! ## What a request makes of the declarations -/

theorem Same.tracked {o o' : Obj} (h : Same o o') (d : Declared) : Tracked ⟨o, d⟩ ↔ Tracked ⟨o', d⟩ := by
  obtain ⟨time, a, info, timer⟩ := o
  obtain ⟨time', a', info', timer'⟩ := o'
  obtain ⟨rfl, rfl, rfl⟩ := h
  exact ⟨fun ⟨h₁, h₂, h₃, h₄⟩ => ⟨h₁, h₂, h₃, h₄⟩, fun ⟨h₁, h₂, h₃, h₄⟩ => ⟨h₁, h₂, h₃, h₄⟩⟩

def Positive (d : Declared) : Prop := ∀ aid time, d aid = some time → 0 < time

theorem tracked_latest {d : Declared} (obj : Obj) {info : AList (fun _ : Int => Int)} {t : Int}
    (hinfo : ∀ aid, info.lookup aid = d aid) (hpos : Positive d) (ht : t = 0 ∨ ∃ aid, d aid = some t) :
    Tracked ⟨({ obj with annouceTime := Obj.latest t info, annouceInfo := info } : Obj).doUpdate (Obj.latest t info), d⟩ := by
  obtain ⟨-, hall, hmem⟩ := latest_spec t info
  simp only [hinfo] at hall hmem
  have hmax : (Obj.latest t info = 0 ∧ ∀ aid, d aid = none) ∨ ∃ aid, d aid = some (Obj.latest t info) := by
    rcases hmem with heq | hex
    · rcases ht with rfl | ⟨aid, haid⟩
      · refine .inl ⟨heq, fun aid => Option.eq_none_iff_forall_ne_some.2 fun time htime => ?_⟩
        have hle := hall aid time htime
        rw [heq] at hle
        exact absurd hle (not_le.2 (hpos aid time htime))
      · exact .inr ⟨aid, haid.trans (congrArg some heq.symm)⟩
    · exact .inr hex
  refine ⟨hinfo, hall, hmax, ?_⟩
  show (if Obj.latest t info ≤ 0 then none else some (Obj.latest t info)) = _
  refine if_congr ?_ rfl rfl
  rcases hmax with ⟨hzero, -⟩ | ⟨aid, haid⟩
  · exact iff_of_true hzero.le hzero
  · exact iff_of_false (not_le.2 (hpos aid _ haid)) (hpos aid _ haid).ne'

theorem Tracked.nothing {w : World} (h : Tracked w) (hpos : Positive w.declared) (hzero : w.obj.annouceTime = 0) :
    w.declared = fun _ => none := by
  rcases h.latest with ⟨-, hnone⟩ | ⟨aid, haid⟩
  · exact funext hnone
  · exact absurd hzero (hpos aid _ haid).ne'

variable {obj : Obj} {d : Declared}

theorem Tracked.declare (h : Tracked ⟨obj, d⟩) (hpos : Positive d) {v aid : Int} (hv : 0 < v) (haid : 0 < aid) :
    Tracked ⟨obj.asked v (some aid), Function.update d aid (some v)⟩ ↔
      v ≠ obj.annouceTime ∨ obj.annouceInfo.lookup aid = some v := by
  by_cases heq : v = obj.annouceTime
  · rw [Obj.asked, if_pos heq]
    constructor
    · intro h'
      right
      exact (h'.annouceInfo aid).trans (Function.update_self _ _ _)
    · intro hfits
      have hsome := hfits.resolve_left (not_not.2 heq)
      rw [h.annouceInfo aid] at hsome
      have hsame : Function.update d aid (some v) = d := by rw [← hsome, Function.update_eq_self]
      rwa [hsame]
  · refine iff_of_true ?_ (.inl heq)
    have hfilter : (some aid).filter (fun aid => 0 < aid) = some aid := by simp [Option.filter, haid]
    rw [Obj.asked, if_neg heq, Obj.doMoreLogicAttrs]
    simp only [hfilter, if_pos hv]
    refine tracked_latest _ (fun x => ?_) (fun x time hx => ?_) (.inr ⟨aid, Function.update_self _ _ _⟩)
    · show (obj.annouceInfo.insert aid v).lookup x = _
      by_cases hx : x = aid
      · rw [hx, AList.lookup_insert, Function.update_self]
      · rw [AList.lookup_insert_ne hx, Function.update_of_ne hx]
        exact h.annouceInfo x
    · by_cases hxa : x = aid
      · rw [hxa, Function.update_self] at hx
        exact Option.some.inj hx ▸ hv
      · rw [Function.update_of_ne hxa] at hx
        exact hpos x time hx

theorem Tracked.cancel (h : Tracked ⟨obj, d⟩) (hpos : Positive d) {aid : Int} (haid : 0 < aid) :
    Tracked ⟨obj.asked 0 (some aid), Function.update d aid none⟩ ↔ aid ∈ obj.annouceInfo ∨ obj.annouceTime = 0 := by
  by_cases heq : 0 = obj.annouceTime
  · refine iff_of_true ?_ (.inr heq.symm)
    have hnone := h.nothing hpos heq.symm
    rw [Obj.asked, if_pos heq]
    have hsame : Function.update d aid none = d := by
      have hd : d aid = none := congrFun hnone aid
      rw [← hd, Function.update_eq_self]
    rwa [hsame]
  · have hfilter : (some aid).filter (fun aid => 0 < aid) = some aid := by simp [Option.filter, haid]
    rw [Obj.asked, if_neg heq, Obj.doMoreLogicAttrs]
    simp only [hfilter, lt_irrefl, if_false]
    by_cases hmem : aid ∈ obj.annouceInfo
    · refine iff_of_true ?_ (.inl hmem)
      have hinfo : ∀ x, (obj.annouceInfo.erase aid).lookup x = Function.update d aid none x := by
        intro x
        by_cases hx : x = aid
        · rw [hx, AList.lookup_erase, Function.update_self]
        · rw [AList.lookup_erase_ne hx, Function.update_of_ne hx]
          exact h.annouceInfo x
      have hpos' : Positive (Function.update d aid none) := by
        intro x time hx
        by_cases hxa : x = aid
        · rw [hxa, Function.update_self] at hx
          cases hx
        · rw [Function.update_of_ne hxa] at hx
          exact hpos x time hx
      have hrem := remaining_eq (obj.annouceInfo.erase aid) (fun x time hx => hpos' x time ((hinfo x).symm.trans hx))
      have hmem' : aid ∈ (({ obj with annouceTime := 0 } : Obj).doUpdate 0).annouceInfo := hmem
      rw [if_pos hmem']
      show Tracked ⟨({ obj with annouceTime := Obj.remaining (obj.annouceInfo.erase aid), annouceInfo := obj.annouceInfo.erase aid } : Obj).doUpdate
        (Obj.remaining (obj.annouceInfo.erase aid)), _⟩
      rw [hrem]
      exact tracked_latest obj hinfo hpos' (.inl rfl)
    · have hmem' : aid ∉ (({ obj with annouceTime := 0 } : Obj).doUpdate 0).annouceInfo := hmem
      rw [if_neg hmem']
      refine iff_of_false (fun h' => ?_) (not_or.2 ⟨hmem, fun h => heq h.symm⟩)
      -- another alliance has declared, and the building is at time 0
      obtain ⟨hzero, -⟩ | ⟨x, hx⟩ := h.latest
      · exact heq hzero.symm
      · have hne : x ≠ aid := by
          rintro rfl
          exact hmem (AList.lookup_isSome.1 (by rw [h.annouceInfo x, hx]; rfl))
        have hle := h'.le x _ ((Function.update_of_ne hne _ _).trans hx)
        exact absurd hle (not_le.2 (hpos x _ hx))

theorem Tracked.clear (h : Tracked ⟨obj, d⟩) (hpos : Positive d) : Tracked ⟨obj.asked 0 none, fun _ => none⟩ := by
  rw [Obj.asked]
  split
  · next heq =>
    have hnone := h.nothing hpos heq.symm
    exact hnone ▸ h
  · exact ⟨fun aid => AList.lookup_empty aid, nofun, .inl ⟨rfl, fun _ => rfl⟩, rfl⟩

structure Good (w : World) : Prop extends Tracked w where
  pos : Positive w.declared

theorem good_new : Good new :=
  ⟨⟨fun aid => AList.lookup_empty aid, nofun, .inl ⟨rfl, fun _ => rfl⟩, rfl⟩, nofun⟩

theorem Positive.after {d : Declared} (h : Positive d) (e : Event) : Positive (d.after e) := by
  have hput : ∀ (aid : Int) (v : Option Int), (∀ time, v = some time → 0 < time) → Positive (Function.update d aid v) := by
    intro aid v hv x time hx
    by_cases hxa : x = aid
    · rw [hxa, Function.update_self] at hx
      exact hv time hx
    · rw [Function.update_of_ne hxa] at hx
      exact h x time hx
  cases e with
  | timerCallback => exact nofun
  | update request attrUpdates order =>
    cases request with
    | declare annouceTime annouceAid htime haid => exact hput annouceAid _ (fun time heq => Option.some.inj heq ▸ htime)
    | cancel annouceAid haid => exact hput annouceAid _ nofun
    | clear => exact nofun

theorem tracked_iff {w : World} (h : Good w) (e : Event) : Tracked (step keep w e) ↔ Fits w e := by
  obtain ⟨obj, d⟩ := w
  have htracked : Tracked ⟨obj, d⟩ := h.toTracked
  cases e with
  | update request attrUpdates order =>
    cases request with
    | declare annouceTime annouceAid htime haid =>
      exact ((updateMapObjPro_asked keep obj annouceTime order).tracked _).trans (htracked.declare h.pos htime haid)
    | cancel annouceAid haid =>
      exact ((updateMapObjPro_asked keep obj 0 order).tracked _).trans (htracked.cancel h.pos haid)
    | clear =>
      refine iff_of_true ?_ trivial
      obtain rfl : attrUpdates = [.annouceTime 0] := List.perm_singleton.1 order
      show Tracked ⟨obj.updateMapObjPro keep [.annouceTime 0], fun _ => none⟩
      rw [updateMapObjPro_clear]
      exact htracked.clear h.pos
  | timerCallback =>
    refine iff_of_true ?_ trivial
    have hstep : step keep ⟨obj, d⟩ .timerCallback = ⟨obj.step keep .timerCallback, fun _ => none⟩ := rfl
    rw [hstep, Obj.step]
    split
    · next hsome =>
      rw [updateMapObjPro_clear, Obj.asked, if_neg]
      · exact ⟨fun aid => AList.lookup_empty aid, nofun, .inl ⟨rfl, fun _ => rfl⟩, rfl⟩
      · intro heq
        rw [htracked.timer, if_pos heq.symm] at hsome
        cases hsome
    · next hnone =>
      have hzero : obj.annouceTime = 0 := by
        by_contra hne
        exact hnone (by rw [htracked.timer, if_neg hne]; rfl)
      exact (htracked.nothing h.pos hzero) ▸ htracked

/-- **After every request of a run a building has what was declared exactly if every request fits.** -/
theorem tracked_iff_of_run (es : List Event) :
    Steps.Along (step keep) (fun w e => Tracked (step keep w e)) new es ↔ Steps.Along (step keep) Fits new es :=
  Steps.along_iff (I := Good) (fun _ e h => ⟨tracked_iff keep h e, fun hfits =>
    ⟨(tracked_iff keep h e).2 hfits, h.pos.after e⟩⟩) es new good_new

def sameTime : List Event :=
  [.update (.declare 100 1 (by decide) (by decide)) [.annouceTime 100, .annouceAid 1] (.refl _),
    .update (.declare 100 3 (by decide) (by decide)) [.annouceTime 100, .annouceAid 3] (.refl _)]

theorem sameTime_lost :
    ¬ Steps.Along (step (fun _ => some)) (fun w e => Tracked (step (fun _ => some) w e)) new sameTime :=
  fun h => absurd (h.2.1.annouceInfo 3) (by decide)

end Annouce
end Sncpp
