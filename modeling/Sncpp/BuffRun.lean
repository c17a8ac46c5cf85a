import Mathlib.Data.List.MinMax
import Sncpp.Buff
/-!
# BuffRun — the totals of the buffs and their parts

Any order of `addBuff`, `removeBuff`, callbacks of the timer and new agents that read what was saved, whether or not a
save reaches the database, and whatever else goes on with the agent's timers.
-/
namespace Sncpp
namespace Buff

def sum (l : List ((_ : Nat) × Cell)) : Int := (l.map (fun e => e.2.value)).sum

def Data.entry (d : Data) (e : BuffEffect) (k : Nat) : Option Cell := (d.effects e).bind (fun eff => eff.detail.lookup k)

def Data.ofSource (d : Data) (e : BuffEffect) (source : Option Nat) : List ((_ : Nat) × Cell) :=
  d.buffs.entries.filter (fun x => decide (x.2.effect = e) && source.all (fun s => decide (x.2.source = s)))

def Data.nearest (d : Data) : Option Int := ((d.buffs.entries.map (fun x => x.2.endTime)).filter (fun t => 0 < t)).min?

/-- **The totals are those of the parts**: the value of an effect is the sum of its detail, the detail of all effects has
one entry for each buff, with its data, and a query gives the sum of the buffs of its effect and source. -/
structure Whole (d : Data) : Prop where
  total : ∀ e eff, d.effects e = some eff → eff.value = sum eff.detail.entries
  parts : ∀ e k, d.entry e k = (d.buffs.lookup k).filter (fun b => b.effect = e)
  query : ∀ ord e source ret, d.queryBuff ord e source = some ret → ret.value = sum (d.ofSource e source)
  no_query : ∀ ord e source, d.queryBuff ord e source = none → ∀ source', d.ofSource e source' = []

def Swept (d : Data) (t : Int) : Prop := ∀ k b, d.buffs.lookup k = some b → ¬ (0 < b.endTime ∧ b.endTime ≤ t)

inductive Event where
  | addBuff (ord : Pairs) (now : Int) (sent : Bool) (buffId source : Nat) (lastTime : Option Rat)
  | removeBuff (ord : Pairs) (now : Int) (sent : Bool) (buffId : Nat)
  | timerCallback (ord : Pairs) (now : Int) (sent : Nat → Bool)
  | init (ord : Pairs) (now : Int) (sent found : Bool)
  -- what the agent and the clock do with the timers meanwhile
  | timers (timerMgr : TimerMgr Nat TimerType)

def World.new : World := ⟨defaultData, none, .ctor⟩

def World.step (uid : Nat) (w : World) : Event → World
  | .addBuff ord now sent buffId source lastTime => w.addBuff uid ord now sent buffId source lastTime
  | .removeBuff ord now sent buffId => (w.removeBuff uid ord now sent buffId).1
  | .timerCallback ord now sent => w.agentTimerCallback uid ord now sent
  | .init ord now sent found => w.init uid ord now sent found
  | .timers timerMgr => { w with timerMgr := timerMgr }

def World.runs (uid : Nat) (w : World) : Event → Option Int
  | .timerCallback _ now _ => if (w.timerMgr.hasTimer uid .buff).2 then some now else none
  | _ => none

structure Right (uid : Nat) (w : World) (e : Event) : Prop where
  whole : Whole (w.step uid e).data
  swept : ∀ t, w.runs uid e = some t → Swept (w.step uid e).data t
  armed : ∀ t, w.runs uid e = some t → (w.step uid e).timerMgr.ArmedAt (uid, .buff) (w.step uid e).data.nearest

theorem sum_kerase (k : Nat) : ∀ l : List ((_ : Nat) × Cell), sum (l.kerase k) =
    sum l - ((l.dlookup k).map Cell.value).getD 0
  | [] => rfl
  | ⟨k', b⟩ :: l => by
    by_cases hk : k = k'
    · subst hk
      simp [sum, List.kerase]
    · have ih := sum_kerase k l
      have hlookup : List.dlookup k ((⟨k', b⟩ : (_ : Nat) × Cell) :: l) = l.dlookup k := dif_neg (Ne.symm hk)
      have herase : ((⟨k', b⟩ : (_ : Nat) × Cell) :: l).kerase k = ⟨k', b⟩ :: l.kerase k := by simp [List.kerase, hk]
      rw [hlookup, herase]
      simp only [sum, List.map_cons, List.sum_cons] at ih ⊢
      omega

theorem sum_erase (k : Nat) (d : Cells) :
    sum (d.erase k).entries = sum d.entries - ((d.lookup k).map Cell.value).getD 0 := sum_kerase k d.entries

theorem sum_insert (k : Nat) (b : Cell) (d : Cells) :
    sum (d.insert k b).entries = sum d.entries + b.value - ((d.lookup k).map Cell.value).getD 0 := by
  have hkerase : sum (d.entries.kerase k) = _ := sum_kerase k d.entries
  rw [AList.entries_insert]
  show b.value + sum (d.entries.kerase k) = _
  rw [hkerase]
  show _ = sum d.entries + b.value - ((d.entries.dlookup k).map Cell.value).getD 0
  omega

theorem sum_perm {l l' : List ((_ : Nat) × Cell)} (h : l.Perm l') : sum l = sum l' := (h.map _).sum_eq

theorem sum_filter (p : (_ : Nat) × Cell → Bool) : ∀ l, sum (l.filter p) = sum l - sum (l.filter (fun x => !p x))
  | [] => rfl
  | x :: l => by
    have ih := sum_filter p l
    cases hp : p x <;> simp [hp, sum] at ih ⊢ <;> omega

structure Data.Sound (d : Data) : Prop where
  own : ∀ k b, d.buffs.lookup k = some b → b.buffId = k
  effect : ∀ k b, d.buffs.lookup k = some b → b.effect = .atkPlus
  parts : ∀ e k, d.entry e k = (d.buffs.lookup k).filter (fun b => b.effect = e)
  total : ∀ e eff, d.effects e = some eff → eff.value = sum eff.detail.entries

theorem sound_default : defaultData.Sound where
  own k b h := by cases h
  effect k b h := by cases h
  parts e k := rfl
  total e eff h := by cases h

theorem Data.entry_eq (d : Data) (e : BuffEffect) (k : Nat) : d.entry e k = (d.effectOf e).detail.lookup k := by
  unfold entry effectOf
  cases d.effects e <;> rfl

variable {d : Data}

theorem Data.Sound.total_of (h : d.Sound) (e : BuffEffect) : (d.effectOf e).value = sum (d.effectOf e).detail.entries := by
  unfold effectOf
  cases heff : d.effects e with
  | none => rfl
  | some eff => exact h.total e eff heff

theorem Data.Sound.perm (h : d.Sound) (e : BuffEffect) :
    (d.effectOf e).detail.entries.Perm (d.buffs.entries.filter (fun x => x.2.effect = e)) := by
  refine (List.perm_ext_iff_of_nodup (AList.nodupKeys _).nodup ((AList.nodupKeys _).nodup.filter _)).2 ?_
  rintro ⟨k, b⟩
  rw [← AList.mem_lookup_iff, ← d.entry_eq, h.parts, List.mem_filter, ← AList.mem_lookup_iff]
  simp [Option.mem_def, Option.filter_eq_some_iff]

theorem queries_value (source : Nat) : ∀ (l : List ((_ : Nat) × Cell)) (ret : Effect),
    (l.foldl (queryTurn source) ret).value = ret.value - sum (l.filter (fun x => !decide (x.2.source = source)))
  | [], ret => by simp [sum]
  | x :: l, ret => by
    rw [List.foldl_cons, queries_value source l]
    by_cases hx : x.2.source = source
    · simp [queryTurn, hx]
    · simp only [queryTurn, hx, ne_eq, not_false_eq_true, if_true, decide_false, Bool.not_false, List.filter_cons_of_pos]
      simp only [sum, List.map_cons, List.sum_cons]
      omega

theorem Data.Sound.query (h : d.Sound) {ord : Pairs} {e : BuffEffect} {source : Option Nat} {ret : Effect}
    (hret : d.queryBuff ord e source = some ret) : ret.value = sum (d.ofSource e source) := by
  unfold queryBuff at hret
  cases heff : d.effects e with
  | none =>
    rw [heff] at hret
    cases hret
  | some eff =>
    have hof : d.effectOf e = eff := by simp [effectOf, heff]
    have hperm := h.perm e
    rw [hof] at hperm
    have htotal := h.total e eff heff
    rw [heff] at hret
    cases source with
    | none =>
      obtain rfl := Option.some.inj hret
      rw [htotal, sum_perm hperm]
      simp [ofSource]
    | some source =>
      obtain rfl := Option.some.inj hret
      rw [queries_value, htotal, sum_perm ((ord.perm _).filter _), ← sum_filter, sum_perm (hperm.filter _),
        List.filter_filter]
      simp [ofSource, Bool.and_comm]

theorem Data.Sound.no_query (h : d.Sound) {ord : Pairs} {e : BuffEffect} {source : Option Nat}
    (hnone : d.queryBuff ord e source = none) (source' : Option Nat) : d.ofSource e source' = [] := by
  have heff : d.effects e = none := by
    unfold queryBuff at hnone
    cases heff : d.effects e with
    | none => rfl
    | some eff =>
      rw [heff] at hnone
      cases source <;> cases hnone
  refine List.filter_eq_nil_iff.2 ?_
  rintro ⟨k, b⟩ hmem hsel
  rw [Bool.and_eq_true, decide_eq_true_eq] at hsel
  have hentry := h.parts e k
  rw [entry, heff, AList.mem_lookup_iff.2 hmem] at hentry
  simp [Option.filter, show b.effect = e from hsel.1] at hentry

theorem Data.Sound.whole (h : d.Sound) : Whole d where
  total := h.total
  parts := h.parts
  query _ _ _ _ hret := h.query hret
  no_query _ _ _ hnone source' := h.no_query hnone source'

theorem lookup_insert (k k' : Nat) (b : Cell) (s : Cells) :
    (s.insert k b).lookup k' = if k' = k then some b else s.lookup k' := by
  by_cases hk : k' = k
  · subst hk
    rw [if_pos rfl, AList.lookup_insert]
  · rw [if_neg hk, AList.lookup_insert_ne hk]

theorem lookup_erase (k k' : Nat) (s : Cells) : (s.erase k).lookup k' = if k' = k then none else s.lookup k' := by
  by_cases hk : k' = k
  · subst hk
    rw [if_pos rfl, AList.lookup_erase]
  · rw [if_neg hk, AList.lookup_erase_ne hk]

def Data.set (d : Data) (buffs : Cells) (e : BuffEffect) (eff : Effect) : Data :=
  ⟨buffs, Function.update d.effects e (some eff)⟩

theorem Data.set_entry (d : Data) (buffs : Cells) (e : BuffEffect) (eff : Effect) (e' : BuffEffect) (k : Nat) :
    (d.set buffs e eff).entry e' k = if e' = e then eff.detail.lookup k else d.entry e' k := by
  unfold entry set
  by_cases he : e' = e
  · subst he
    simp
  · simp [he]

theorem Data.Sound.lookup_detail (h : d.Sound) (k : Nat) :
    (d.effectOf .atkPlus).detail.lookup k = d.buffs.lookup k := by
  rw [← d.entry_eq, h.parts]
  cases hk : d.buffs.lookup k with
  | none => rfl
  | some b => simp [Option.filter, h.effect k b hk]

/-- **A change of the buffs that the record of their effect follows keeps the totals.** -/
theorem Data.Sound.set (h : d.Sound) {buffs : Cells} {eff : Effect}
    (hbuffs : ∀ k b, buffs.lookup k = some b → b.buffId = k ∧ b.effect = .atkPlus)
    (hdetail : ∀ k, eff.detail.lookup k = buffs.lookup k) (htotal : eff.value = sum eff.detail.entries) :
    (d.set buffs .atkPlus eff).Sound where
  own k b hk := (hbuffs k b hk).1
  effect k b hk := (hbuffs k b hk).2
  parts e k := by
    rw [d.set_entry]
    show _ = (buffs.lookup k).filter _
    split
    · next he =>
      rw [hdetail, he]
      cases hk : buffs.lookup k with
      | none => rfl
      | some b => simp [Option.filter, (hbuffs k b hk).2]
    · next he =>
      -- no buff is of another effect
      have hnone : ∀ o : Option Cell, (∀ b, o = some b → b.effect = .atkPlus) →
        o.filter (fun b => b.effect = e) = none := by
        intro o ho
        cases o with
        | none => rfl
        | some b => simp [Option.filter, ho b rfl, Ne.symm he]
      rw [h.parts, hnone _ (h.effect k), hnone _ (fun b hb => (hbuffs k b hb).2)]
  total e eff' heff := by
    simp only [Data.set] at heff
    by_cases he : e = .atkPlus
    · subst he
      rw [Function.update_self] at heff
      obtain rfl := Option.some.inj heff
      exact htotal
    · rw [Function.update_of_ne he] at heff
      exact h.total e eff' heff

def Data.put (d : Data) (info : Cell) : Data :=
  let eff := d.effectOf info.effect
  d.set (d.buffs.insert info.buffId info) info.effect { eff with
    value := eff.value + info.value - ((d.buffs.lookup info.buffId).map Cell.value).getD 0
    detail := eff.detail.insert info.buffId info }

theorem Data.Sound.put (h : d.Sound) (info : Cell) (heff : info.effect = .atkPlus) : (d.put info).Sound := by
  unfold Data.put
  rw [heff]
  refine h.set (fun k b hk => ?_) (fun k => ?_) ?_
  · rw [lookup_insert] at hk
    split at hk
    · next heq =>
      obtain rfl := Option.some.inj hk
      exact ⟨heq.symm, heff⟩
    · exact ⟨h.own k b hk, h.effect k b hk⟩
  · simp only [lookup_insert, h.lookup_detail]
  · simp only [sum_insert, h.lookup_detail, h.total_of]

def Data.removed (d : Data) (k : Nat) (info : Cell) : Data :=
  let eff := d.effectOf info.effect
  d.set (d.buffs.erase k) info.effect { eff with detail := eff.detail.erase k, value := eff.value - info.value }

theorem Data.Sound.removed (h : d.Sound) {k : Nat} {info : Cell} (hk : d.buffs.lookup k = some info) :
    (d.removed k info).Sound := by
  unfold Data.removed
  rw [h.effect k info hk]
  refine h.set (fun k' b hk' => ?_) (fun k' => ?_) ?_
  · rw [lookup_erase] at hk'
    split at hk'
    · cases hk'
    · exact ⟨h.own k' b hk', h.effect k' b hk'⟩
  · simp only [lookup_erase, h.lookup_detail]
  · simp only [sum_erase, h.lookup_detail, h.total_of, hk]
    rfl

structure World.Good (w : World) : Prop where
  data : w.data.Sound
  db : ∀ d, w.db = some d → d.Sound

theorem good_new : World.new.Good where
  data := sound_default
  db d h := by cases h

variable {uid : Nat} {ord : Pairs} {now : Int} {w : World}

@[simp] theorem updateTimer_data (w : World) : (w.updateTimer uid ord now).data = w.data := rfl

@[simp] theorem updateTimer_db (w : World) : (w.updateTimer uid ord now).db = w.db := rfl

@[simp] theorem updateDB_data (w : World) (sent : Bool) : (w.updateDB sent).data = w.data := by
  unfold World.updateDB
  cases sent <;> rfl

theorem World.Good.saved (h : w.Good) {data : Data} (hdata : data.Sound) (sent : Bool) :
    (({ w with data := data } : World).updateDB sent).Good where
  data := by
    rw [updateDB_data]
    exact hdata
  db d hd := by
    unfold World.updateDB at hd
    cases sent with
    | false => exact h.db d hd
    | true =>
      obtain rfl := Option.some.inj hd
      exact hdata

theorem World.Good.timed (h : w.Good) : (w.updateTimer uid ord now).Good := ⟨h.data, h.db⟩

theorem World.Good.sent (h : w.Good) (sent : Bool) : (if sent then w.updateTimer uid ord now else w).Good := by
  cases sent with
  | false => exact h
  | true => exact h.timed

theorem World.Good.addBuff (h : w.Good) (sent : Bool) (buffId source : Nat) (lastTime : Option Rat) :
    (w.addBuff uid ord now sent buffId source lastTime).Good :=
  (h.saved (h.data.put ⟨buffId, source, .atkPlus, 10, now, _⟩ rfl) sent).sent sent

theorem World.Good.removeBuff_eq (h : w.Good) {k : Nat} {info : Cell} (hk : w.data.buffs.lookup k = some info)
    (sent : Bool) : w.removeBuff uid ord now sent k =
      let w' := ({ w with data := w.data.removed k info } : World).updateDB sent
      if sent then (w'.updateTimer uid ord now, some true) else (w', none) := by
  have heff : info.effect = .atkPlus := h.data.effect k info hk
  have hdetail : (w.data.effectOf info.effect).detail.lookup k = some info := by rw [heff, h.data.lookup_detail, hk]
  unfold World.removeBuff
  simp only [hk]
  cases hrec : w.data.effects info.effect with
  | none =>
    simp only [Data.effectOf, hrec] at hdetail
    cases hdetail
  | some eff =>
    have hof : w.data.effectOf info.effect = eff := by simp [Data.effectOf, hrec]
    rw [hof] at hdetail
    simp only [hdetail, Data.removed, hof, Data.set]

theorem removeBuff_of_none {k : Nat} (hk : w.data.buffs.lookup k = none) (sent : Bool) :
    w.removeBuff uid ord now sent k = (w, some false) := by
  unfold World.removeBuff
  simp only [hk]

theorem World.Good.removeBuff (h : w.Good) (sent : Bool) (k : Nat) : (w.removeBuff uid ord now sent k).1.Good := by
  cases hk : w.data.buffs.lookup k with
  | none =>
    rw [removeBuff_of_none hk]
    exact h
  | some info =>
    have hsaved := h.saved (h.data.removed hk) sent
    rw [h.removeBuff_eq hk]
    cases sent with
    | false => exact hsaved
    | true => exact hsaved.timed

/-- What a turn of the callback's loop may do: buffs go, and the timer stays in order. -/
structure Fewer (uid : Nat) (w w' : World) : Prop where
  buffs : ∀ k b, w'.data.buffs.lookup k = some b → w.data.buffs.lookup k = some b
  live : w.timerMgr.Live (uid, .buff) → w'.timerMgr.Live (uid, .buff)

theorem Fewer.refl (w : World) : Fewer uid w w := ⟨fun _ _ h => h, fun h => h⟩

theorem Fewer.trans {w w' w'' : World} (h : Fewer uid w w') (h' : Fewer uid w' w'') : Fewer uid w w'' :=
  ⟨fun k b hk => h.buffs k b (h'.buffs k b hk), fun hlive => h'.live (h.live hlive)⟩

theorem live_updateTimer (h : w.timerMgr.Live (uid, .buff)) :
    (w.updateTimer uid ord now).timerMgr.Live (uid, .buff) := (h.armedAt now _).live

theorem World.Good.expireTurn (h : w.Good) (sent : Nat → Bool) (k : Nat) :
    (expireTurn uid ord now sent w k).Good ∧ Fewer uid w (expireTurn uid ord now sent w k) ∧
      ∀ b, (expireTurn uid ord now sent w k).data.buffs.lookup k = some b → ¬ (0 < b.endTime ∧ b.endTime ≤ now) := by
  unfold Buff.expireTurn
  cases hk : w.data.buffs.lookup k with
  | none => exact ⟨h, Fewer.refl w, fun b hb => by rw [hk] at hb; cases hb⟩
  | some v =>
    by_cases hdue : 0 < v.endTime ∧ v.endTime ≤ now
    · -- the buff goes, whether or not the change is saved
      have hown : v.buffId = k := h.data.own k v hk
      have hsaved := h.saved (h.data.removed hk) (sent k)
      have hlookup : ∀ k', (w.data.removed k v).buffs.lookup k' = if k' = k then none else w.data.buffs.lookup k' :=
        fun k' => lookup_erase k k' w.data.buffs
      have hfewer : ∀ k' b, (w.data.removed k v).buffs.lookup k' = some b → w.data.buffs.lookup k' = some b := by
        intro k' b hb
        rw [hlookup] at hb
        split at hb
        · cases hb
        · exact hb
      have hgone : ∀ b, (w.data.removed k v).buffs.lookup k ≠ some b := fun b hb => by
        rw [hlookup, if_pos rfl] at hb
        cases hb
      simp only [if_pos hdue, hown, h.removeBuff_eq hk]
      cases hsent : sent k with
      | true =>
        rw [hsent] at hsaved
        refine ⟨hsaved.timed, ⟨hfewer, fun hlive => live_updateTimer hlive⟩, fun b hb => absurd hb (hgone b)⟩
      | false =>
        rw [hsent] at hsaved
        -- it is no longer there to be taken away again
        have hsame : (w.data.removed k v).buffs.erase k = (w.data.removed k v).buffs :=
          AList.ext (List.kerase_of_notMem_keys (AList.lookup_eq_none.1 ((hlookup k).trans (if_pos rfl))))
        simp only [World.updateDB, Bool.false_eq_true, if_false, hsame] at hsaved ⊢
        exact ⟨hsaved, ⟨hfewer, fun hlive => hlive⟩, fun b hb => absurd hb (hgone b)⟩
    · simp only [if_neg hdue]
      refine ⟨h, Fewer.refl w, fun b hb => ?_⟩
      obtain rfl : v = b := Option.some.inj (hk.symm.trans hb)
      exact hdue

def ends (l : List ((_ : Nat) × Cell)) : List Int := (l.map (fun x => x.2.endTime)).filter (fun t => 0 < t)

theorem ends_cons (x : (_ : Nat) × Cell) (l : List ((_ : Nat) × Cell)) :
    ends (x :: l) = if 0 < x.2.endTime then x.2.endTime :: ends l else ends l := by
  simp [ends, List.filter_cons]

theorem nearTurn_eq (o : Option Int) (x : (_ : Nat) × Cell) :
    nearTurn o x = if 0 < x.2.endTime then some (o.elim x.2.endTime (min · x.2.endTime)) else o := by
  unfold nearTurn
  split
  · cases o with
    | none => rfl
    | some t =>
      simp only [Option.elim_some]
      split
      · next hlt => rw [min_eq_right (le_of_lt hlt)]
      · next hlt => rw [min_eq_left (not_lt.1 hlt)]
  · rfl

theorem near_some : ∀ (l : List ((_ : Nat) × Cell)) (t : Int), l.foldl nearTurn (some t) = some ((ends l).foldl min t)
  | [], _ => rfl
  | x :: l, t => by
    rw [List.foldl_cons, ends_cons, nearTurn_eq]
    split
    · exact near_some l _
    · exact near_some l t

theorem near_eq : ∀ l : List ((_ : Nat) × Cell), l.foldl nearTurn none = (ends l).min?
  | [] => rfl
  | x :: l => by
    rw [List.foldl_cons, ends_cons, nearTurn_eq]
    split
    · exact near_some l x.2.endTime
    · exact near_eq l

theorem min_perm {l l' : List Int} (h : l.Perm l') : l.min? = l'.min? := by
  cases hl' : l'.min? with
  | none =>
    rw [List.min?_eq_none_iff] at hl' ⊢
    rw [hl'] at h
    exact h.eq_nil
  | some t =>
    rw [List.min?_eq_some_iff] at hl' ⊢
    exact ⟨h.mem_iff.2 hl'.1, fun b hb => hl'.2 b (h.mem_iff.1 hb)⟩

/-- **The timer is set to the first end time to come**, and cleared if there is none. -/
theorem updateTimer_armed (hlive : w.timerMgr.Live (uid, .buff)) :
    (w.updateTimer uid ord now).timerMgr.ArmedAt (uid, .buff) w.data.nearest := by
  have hnear : (ord.order w.data.buffs.entries).foldl nearTurn none = w.data.nearest := by
    rw [near_eq]
    exact min_perm (((ord.perm _).map _).filter _)
  have harmed := hlive.armedAt now (w.data.nearest.getD 0)
  have hpos : (if 0 < w.data.nearest.getD 0 then some (w.data.nearest.getD 0) else none) = w.data.nearest := by
    cases hn : w.data.nearest with
    | none => rfl
    | some t =>
      have hmem := List.min?_mem hn
      rw [List.mem_filter, decide_eq_true_eq] at hmem
      exact if_pos hmem.2
  rw [hpos] at harmed
  unfold World.updateTimer
  simp only [hnear]
  exact harmed

/-- **The callback leaves no buff whose end time has come, and the timer at the first end time to come.** -/
theorem World.Good.timerCallback (h : w.Good) (uid : Nat) (ord : Pairs) (now : Int) (sent : Nat → Bool) :
    (w.timerCallback uid ord now sent).Good ∧ Swept (w.timerCallback uid ord now sent).data now ∧
      (w.timerMgr.Live (uid, .buff) →
        (w.timerCallback uid ord now sent).timerMgr.ArmedAt (uid,
          .buff) (w.timerCallback uid ord now sent).data.nearest) := by
  obtain ⟨hgood, hfewer, hturns⟩ := Steps.foldl_spec (Buff.expireTurn uid ord now sent) (I := World.Good)
    (R := Fewer uid) Fewer.refl Fewer.trans ((ord.order w.data.buffs.entries).map Sigma.fst) w
    (fun t k _ ht => ⟨(ht.expireTurn sent k).1, (ht.expireTurn sent k).2.1⟩) h
  refine ⟨hgood.timed, fun k b hb hdue => ?_, fun hlive => updateTimer_armed (hfewer.live hlive)⟩
  -- the loop came to the key
  have hkey : k ∈ (ord.order w.data.buffs.entries).map Sigma.fst :=
    List.mem_map.2 ⟨⟨k, b⟩, (ord.perm _).mem_iff.2 (AList.mem_lookup_iff.1 (hfewer.buffs k b hb)), rfl⟩
  obtain ⟨t, ht, hafter⟩ := hturns k hkey
  exact (ht.expireTurn sent k).2.2 b (hafter.buffs k b hb) hdue

theorem World.Good.agentTimerCallback (h : w.Good) (sent : Nat → Bool) :
    (w.agentTimerCallback uid ord now sent).Good ∧ ((w.timerMgr.hasTimer uid .buff).2 = true →
      Swept (w.agentTimerCallback uid ord now sent).data now ∧
        (w.agentTimerCallback uid ord now sent).timerMgr.ArmedAt (uid, .buff)
          (w.agentTimerCallback uid ord now sent).data.nearest) := by
  have hlive := w.timerMgr.live_hasTimer uid TimerType.buff
  unfold World.agentTimerCallback
  generalize w.timerMgr.hasTimer uid .buff = r at hlive
  obtain ⟨timerMgr, has⟩ := r
  have hw : ({ w with timerMgr := timerMgr } : World).Good := ⟨h.data, h.db⟩
  cases has with
  | false => exact ⟨hw, fun hno => by cases hno⟩
  | true =>
    obtain ⟨hgood, hswept, harmed⟩ := hw.timerCallback uid ord now sent
    exact ⟨hgood, fun _ => ⟨hswept, harmed hlive⟩⟩

theorem World.Good.init (h : w.Good) (sent found : Bool) : (w.init uid ord now sent found).Good := by
  have hdefault : (if sent then
      (({ w with data := defaultData, timerMgr := .ctor } : World).updateDB sent).updateTimer uid ord now
        else ({ w with data := defaultData, timerMgr := .ctor } : World).updateDB sent).Good :=
    ((⟨h.data, h.db⟩ : ({ w with timerMgr := .ctor } : World).Good).saved sound_default sent).sent sent
  unfold World.init
  split
  · next data hdb => exact World.Good.timed ⟨h.db data hdb, h.db⟩
  · exact hdefault

theorem World.Good.step (h : w.Good) (e : Event) : (w.step uid e).Good := by
  cases e with
  | addBuff ord now sent buffId source lastTime => exact h.addBuff sent buffId source lastTime
  | removeBuff ord now sent buffId => exact h.removeBuff sent buffId
  | timerCallback ord now sent => exact (h.agentTimerCallback sent).1
  | init ord now sent found => exact h.init sent found
  | timers timerMgr => exact ⟨h.data, h.db⟩

theorem World.Good.right (h : w.Good) (e : Event) : Right uid w e := by
  have hruns : ∀ t, w.runs uid e = some t → Swept (w.step uid e).data t ∧
      (w.step uid e).timerMgr.ArmedAt (uid, .buff) (w.step uid e).data.nearest := by
    intro t ht
    cases e with
    | timerCallback ord now sent =>
      simp only [World.runs] at ht
      split at ht
      · next has =>
        obtain rfl := Option.some.inj ht
        exact (h.agentTimerCallback sent).2 has
      · cases ht
    | _ => cases ht
  exact ⟨(h.step e).data.whole, fun t ht => (hruns t ht).1, fun t ht => (hruns t ht).2⟩

/-- **In every run the totals are those of the parts, and a callback of the timer removes what has run out and sets the
timer to what runs out next.** -/
theorem whole_of_run (uid : Nat) (es : List Event) : Steps.Along (World.step uid) (Right uid) World.new es :=
  Steps.along_of_inv (fun _ e hgood => ⟨hgood.step e, hgood.right e⟩) es World.new good_new

def inOrder : Pairs := ⟨id, fun _ => .refl _⟩

/-- A buff that is added again counts once, and the one that has run out no more. -/
example : (([.addBuff inOrder 100 true 7 1 (some 5), .addBuff inOrder 101 true 7 2 (some 50),
    .addBuff inOrder 102 false 8 2 (some (1 / 2)), .timerCallback inOrder 103 (fun _ => true)].foldl (World.step 1)
      World.new).data.queryBuff inOrder .atkPlus (some 2)).map Effect.value = some 10 := by decide +kernel

end Buff
end Sncpp
