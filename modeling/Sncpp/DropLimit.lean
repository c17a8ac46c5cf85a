import Mathlib.Algebra.Order.BigOperators.Group.List
import Mathlib.Algebra.Order.Group.Int
import Mathlib.Algebra.Order.Group.MinMax
import Mathlib.Algebra.Ring.Int.Defs
import Mathlib.Data.List.Induction
import Sncpp.Steps
/-!
# DropLimit — how much of an item may drop in a day (`dropLimitMgr:dropLimit`)

Ten of each item are given out a day.  The list of a request is gone through from its end: an entry that goes over the
limit is cut down to what is left, and taken out of the list if nothing is.  The counts start again when the day is
not the one they are kept for.
-/
namespace Sncpp
namespace DropLimit

variable {κ ρ : Type} [DecidableEq κ]

structure Item (κ ρ : Type) where
  id : Option κ
  count : Option Int
  rest : ρ

structure Data (κ : Type) where
  limits : κ → Option Int
  time : Int

def defaultData : Data κ := ⟨fun _ => none, 0⟩

def limit : Int := 10

/-- The beginning of the day, in a zone that is `zone` seconds ahead of UTC; the servers run with `TZ=UTC`. -/
def getWeehoursUTC (zone time : Int) : Int := (time + zone) / 86400 * 86400 - zone

/-- What the loop changes: the list, the counts and whether to save. -/
abbrev Loop (κ ρ : Type) := List (Item κ ρ) × (κ → Option Int) × Bool

/-- The loop of `dropLimit` from the entry before `i` down. -/
def loop : Nat → Loop κ ρ → Loop κ ρ
  | 0, s => s
  | i + 1, (items, limits, bSave) =>
    match items[i]? with
    | none => loop i (items, limits, bSave)
    | some item =>
      match item.id, item.count with
      | some id, some c =>
        let used := (limits id).getD 0
        let count := c + used
        if count > limit then
          let items := items.set i { item with count := some (limit - used) }
          let limits := Function.update limits id (some limit)
          let items := if limit - used ≤ 0 then items.eraseIdx i else items
          loop i (items, limits, true)
        else loop i (items, Function.update limits id (some count), true)
      | _, _ => loop i (items, limits, bSave)

/-- `dropLimitMgr:dropLimit`: what is returned, and whether it calls `updateDB`. -/
def dropLimit (zone now : Int) (data : Data κ) (items : List (Item κ ρ)) : Data κ × Option (List (Item κ ρ)) × Bool :=
  if items.length ≤ 0 then (data, none, false)
  else
    let time := getWeehoursUTC zone now
    let data := if data.time ≠ time then ⟨fun _ => none, time⟩ else data
    let s := loop items.length (items, data.limits, false)
    ({ data with limits := s.2.1 }, some s.1, s.2.2)

def visit (item : Item κ ρ) (s : Loop κ ρ) : Loop κ ρ :=
  match item.id, item.count with
  | some id, some c =>
    let used := (s.2.1 id).getD 0
    if c + used > limit then
      (if limit - used ≤ 0 then s.1 else { item with count := some (limit - used) } :: s.1,
        Function.update s.2.1 id (some limit), true)
    else (item :: s.1, Function.update s.2.1 id (some (c + used)), true)
  | _, _ => (item :: s.1, s.2)

theorem loop_eq (items : List (Item κ ρ)) : ∀ (suf : List (Item κ ρ)) (limits : κ → Option Int) (bSave : Bool),
    loop items.length (items ++ suf, limits, bSave) = items.foldr visit (suf, limits, bSave) := by
  induction items using List.reverseRecOn with
  | nil => exact fun _ _ _ => rfl
  | append_singleton pre item ih =>
    intro suf limits bSave
    have hget : (pre ++ [item] ++ suf)[pre.length]? = some item := by simp
    rw [List.length_append, List.length_singleton, loop, hget, List.foldr_append, List.foldr_cons, List.foldr_nil]
    dsimp only
    rcases hid : item.id with _ | id
    · simp only [visit, hid, List.append_assoc, List.singleton_append, ih]
    rcases hcount : item.count with _ | c
    · simp only [visit, hid, hcount, List.append_assoc, List.singleton_append, ih]
    simp only [visit, hid, hcount]
    have hset : ∀ item' : Item κ ρ, (pre ++ [item] ++ suf).set pre.length item' = pre ++ item' :: suf := fun _ => by simp
    have herase : ∀ item' : Item κ ρ, (pre ++ item' :: suf).eraseIdx pre.length = pre ++ suf := fun _ => by
      simp [List.eraseIdx_append_of_length_le]
    split_ifs with hover hgone
    · rw [hset, herase, ih]
    · rw [hset, ih]
    · rw [List.append_assoc, List.singleton_append, ih]

def Item.of (item : Item κ ρ) (id : κ) : Int := if item.id = some id then item.count.getD 0 else 0

def amount (id : κ) (items : List (Item κ ρ)) : Int := (items.map (fun item => item.of id)).sum

def used (s : Loop κ ρ) (id : κ) : Int := (s.2.1 id).getD 0

def Item.limited (item : Item κ ρ) : Bool := item.id.isSome && item.count.isSome

structure Cut (out item : Item κ ρ) : Prop where
  id : out.id = item.id
  rest : out.rest = item.rest
  unlimited : item.limited = false → out = item
  count : item.limited = true → ∃ c' c, out.count = some c' ∧ item.count = some c ∧ 1 ≤ c' ∧ c' ≤ c

variable {s : Loop κ ρ} {item : Item κ ρ} {id : κ} {c : Int}

theorem visit_unlimited (h : item.limited = false) : visit item s = (item :: s.1, s.2) := by
  unfold visit
  rcases hid : item.id with _ | id
  · rfl
  rcases hcount : item.count with _ | c
  · rfl
  simp [Item.limited, hid, hcount] at h

theorem visit_under (hid : item.id = some id) (hcount : item.count = some c) (h : c + used s id ≤ limit) :
    visit item s = (item :: s.1, Function.update s.2.1 id (some (c + used s id)), true) := by
  simp only [visit, hid, hcount]
  exact if_neg (not_lt.2 h)

theorem visit_over (hid : item.id = some id) (hcount : item.count = some c) (h : limit < c + used s id)
    (hleft : used s id < limit) : visit item s = ({ item with count := some (limit - used s id) } :: s.1,
      Function.update s.2.1 id (some limit), true) := by
  have hleft' : ¬limit - (s.2.1 id).getD 0 ≤ 0 := by
    have : used s id = (s.2.1 id).getD 0 := rfl
    omega
  have hover : c + (s.2.1 id).getD 0 > limit := h
  simp only [visit, hid, hcount]
  rw [if_pos hover, if_neg hleft']
  rfl

theorem visit_full (hid : item.id = some id) (hcount : item.count = some c) (h : limit < c + used s id)
    (hfull : limit ≤ used s id) : visit item s = (s.1, Function.update s.2.1 id (some limit), true) := by
  have hfull' : limit - (s.2.1 id).getD 0 ≤ 0 := by
    have : used s id = (s.2.1 id).getD 0 := rfl
    omega
  have hover : c + (s.2.1 id).getD 0 > limit := h
  simp only [visit, hid, hcount]
  rw [if_pos hover, if_pos hfull']

def Positive (items : List (Item κ ρ)) : Prop := ∀ item ∈ items, ∀ c, item.count = some c → 0 < c

def Within (limits : κ → Option Int) : Prop := ∀ id, 0 ≤ (limits id).getD 0 ∧ (limits id).getD 0 ≤ limit

theorem amount_cons (id : κ) (item : Item κ ρ) (items : List (Item κ ρ)) :
    amount id (item :: items) = item.of id + amount id items := by
  simp [amount]

theorem of_nonneg (hpos : ∀ c, item.count = some c → 0 < c) (id : κ) : 0 ≤ item.of id := by
  unfold Item.of
  split_ifs
  · cases hc : item.count with
    | none => exact le_refl _
    | some c => exact (hpos c hc).le
  · exact le_refl _

theorem amount_nonneg {items : List (Item κ ρ)} (hpos : Positive items) (id : κ) : 0 ≤ amount id items := by
  refine List.sum_nonneg fun x hx => ?_
  obtain ⟨item, hmem, rfl⟩ := List.mem_map.1 hx
  exact of_nonneg (hpos item hmem) id

theorem visit_counts (hpos : ∀ c, item.count = some c → 0 < c) (hs : Within s.2.1) (id : κ) :
    used (visit item s) id = min (used s id + item.of id) limit ∧
      amount id (visit item s).1 = amount id s.1 + (used (visit item s) id - used s id) := by
  have hid₀ : 0 ≤ used s id ∧ used s id ≤ limit := hs id
  have hlimit : limit = 10 := rfl
  cases hlim : item.limited with
  | false =>
    have hzero : item.of id = 0 := by
      cases hi : item.id <;> cases hc : item.count <;> simp [Item.limited, Item.of, hi, hc] at hlim ⊢
    rw [visit_unlimited hlim, amount_cons, hzero]
    have : used (item :: s.1, s.2) id = used s id := rfl
    omega
  | true =>
    obtain ⟨hi, hc⟩ := Bool.and_eq_true_iff.1 hlim
    obtain ⟨id', hid'⟩ := Option.isSome_iff_exists.1 hi
    obtain ⟨c, hcount⟩ := Option.isSome_iff_exists.1 hc
    have hc₀ := hpos c hcount
    have hid₁ : 0 ≤ used s id' ∧ used s id' ≤ limit := hs id'
    have hupd : ∀ (out : List (Item κ ρ)) (n : Int), used (out, Function.update s.2.1 id' (some n), true) id =
        if id = id' then n else used s id := by
      intro out n
      by_cases h : id = id'
      · subst h
        simp [used]
      · simp [used, h]
    have hif : item.of id = if id = id' then c else 0 := by
      rw [Item.of, hid', hcount]
      simp [eq_comm]
    rw [hif]
    by_cases hunder : c + used s id' ≤ limit
    · rw [visit_under hid' hcount hunder, hupd, amount_cons, hif]
      split_ifs with h
      · subst h
        omega
      · omega
    · rw [not_le] at hunder
      by_cases hfull : limit ≤ used s id'
      · rw [visit_full hid' hcount hunder hfull, hupd]
        dsimp only
        split_ifs with h
        · subst h
          omega
        · omega
      · rw [not_le] at hfull
        rw [visit_over hid' hcount hunder hfull, hupd, amount_cons]
        have hif' : Item.of { item with count := some (limit - used s id') } id =
            if id = id' then limit - used s id' else 0 := by
          rw [Item.of, hid']
          simp [eq_comm]
        rw [hif']
        split_ifs with h
        · subst h
          omega
        · omega

theorem visit_within (hpos : ∀ c, item.count = some c → 0 < c) (hs : Within s.2.1) : Within (visit item s).2.1 := by
  intro id
  have hcounts := (visit_counts hpos hs id).1
  have hid₀ : 0 ≤ used s id ∧ used s id ≤ limit := hs id
  have hadd := of_nonneg hpos id
  have hlimit : limit = 10 := rfl
  change 0 ≤ used (visit item s) id ∧ used (visit item s) id ≤ limit
  omega

theorem visit_cut (hpos : ∀ c, item.count = some c → 0 < c) (hs : Within s.2.1) :
    (∃ out, Cut out item ∧ (visit item s).1 = out :: s.1) ∨ item.limited = true ∧ (visit item s).1 = s.1 := by
  cases hlim : item.limited with
  | false =>
    refine .inl ⟨item, ⟨rfl, rfl, fun _ => rfl, fun h => ?_⟩, by rw [visit_unlimited hlim]⟩
    rw [hlim] at h
    cases h
  | true =>
    obtain ⟨hi, hc⟩ := Bool.and_eq_true_iff.1 hlim
    obtain ⟨id', hid'⟩ := Option.isSome_iff_exists.1 hi
    obtain ⟨c, hcount⟩ := Option.isSome_iff_exists.1 hc
    have hc₀ := hpos c hcount
    have hid₁ : 0 ≤ used s id' ∧ used s id' ≤ limit := hs id'
    by_cases hunder : c + used s id' ≤ limit
    · refine .inl ⟨item, ⟨rfl, rfl, fun _ => rfl, fun _ => ⟨c, c, hcount, hcount, by omega, le_refl _⟩⟩, ?_⟩
      rw [visit_under hid' hcount hunder]
    · rw [not_le] at hunder
      by_cases hfull : limit ≤ used s id'
      · exact .inr ⟨rfl, by rw [visit_full hid' hcount hunder hfull]⟩
      · rw [not_le] at hfull
        refine .inl ⟨{ item with count := some (limit - used s id') }, ⟨rfl, rfl, fun h => ?_, fun _ =>
          ⟨_, c, rfl, hcount, by omega, by omega⟩⟩, by rw [visit_over hid' hcount hunder hfull]⟩
        rw [hlim] at h
        cases h

theorem foldr_counts : ∀ (items : List (Item κ ρ)), Positive items → Within s.2.1 → Within (items.foldr visit s).2.1 ∧
    ∀ id, used (items.foldr visit s) id = min (used s id + amount id items) limit ∧
      amount id (items.foldr visit s).1 = amount id s.1 + (used (items.foldr visit s) id - used s id)
  | [], _, hs => by
    refine ⟨hs, fun id => ?_⟩
    have hid₀ : 0 ≤ used s id ∧ used s id ≤ limit := hs id
    have hzero : amount id ([] : List (Item κ ρ)) = 0 := rfl
    rw [List.foldr_nil]
    omega
  | item :: items, hpos, hs => by
    have hpos₀ := hpos item List.mem_cons_self
    obtain ⟨hwithin, hcounts⟩ := foldr_counts items (fun i hi => hpos i (List.mem_cons_of_mem _ hi)) hs
    refine ⟨visit_within hpos₀ hwithin, fun id => ?_⟩
    obtain ⟨hused, hamount⟩ := hcounts id
    obtain ⟨hused', hamount'⟩ := visit_counts hpos₀ hwithin id
    have hadd := of_nonneg hpos₀ id
    rw [List.foldr_cons, amount_cons]
    omega

theorem foldr_cut : ∀ (items : List (Item κ ρ)), Positive items → Within s.2.1 → ∃ out,
    (items.foldr visit s).1 = out ++ s.1 ∧ List.SublistForall₂ Cut out items ∧
      out.filter (fun item => !item.limited) = items.filter (fun item => !item.limited)
  | [], _, _ => ⟨[], rfl, .nil, rfl⟩
  | item :: items, hpos, hs => by
    have hpos' : Positive items := fun i hi => hpos i (List.mem_cons_of_mem _ hi)
    obtain ⟨out, hout, hsub, hfilter⟩ := foldr_cut items hpos' hs
    have hwithin := (foldr_counts items hpos' hs).1
    rcases visit_cut (hpos item List.mem_cons_self) hwithin with ⟨item', hcut, hvisit⟩ | ⟨hlim, hvisit⟩
    · refine ⟨item' :: out, by rw [List.foldr_cons, hvisit, hout, List.cons_append], .cons hcut hsub, ?_⟩
      cases hlim : item.limited with
      | false =>
        rw [hcut.unlimited hlim]
        simp [hlim, hfilter]
      | true =>
        obtain ⟨c', c, hc', hc, -⟩ := hcut.count hlim
        have hlim' : item'.limited = true := by
          rw [Item.limited, hc, Bool.and_eq_true_iff] at hlim
          rw [Item.limited, hcut.id, hlim.1, hc']
          rfl
        simp [hlim, hlim', hfilter]
    · exact ⟨out, by rw [List.foldr_cons, hvisit, hout], .cons_right hsub, by simp [hlim, hfilter]⟩

structure Request (κ ρ : Type) where
  wait : Nat
  items : List (Item κ ρ)
  pos : Positive items

structure Served (κ ρ : Type) where
  time : Int
  asked : List (Item κ ρ)
  given : List (Item κ ρ)

structure World (κ ρ : Type) where
  data : Data κ
  now : Int
  log : List (Served κ ρ)

variable (zone : Int)

def dayOf (time : Int) : Int := (time + zone) / 86400

namespace World

def start (now : Int) : World κ ρ := ⟨defaultData, now, []⟩

def step (w : World κ ρ) (r : Request κ ρ) : World κ ρ :=
  let now := w.now + r.wait
  let res := dropLimit zone now w.data r.items
  ⟨res.1, now, w.log ++ [⟨now, r.items, res.2.1.getD []⟩]⟩

def run (now : Int) (requests : List (Request κ ρ)) : World κ ρ := requests.foldl (step zone) (start now)

def asked (w : World κ ρ) (day : Int) (id : κ) : Int :=
  ((w.log.filter (fun s => dayOf zone s.time = day)).map (fun s => amount id s.asked)).sum

def given (w : World κ ρ) (day : Int) (id : κ) : Int :=
  ((w.log.filter (fun s => dayOf zone s.time = day)).map (fun s => amount id s.given)).sum

end World

variable {zone} {w : World κ ρ} {r : Request κ ρ} {day : Int}

omit [DecidableEq κ] in
theorem getWeehoursUTC_eq (now : Int) : getWeehoursUTC zone now = dayOf zone now * 86400 - zone := rfl

theorem World.asked_step : (w.step zone r).asked zone day id =
    w.asked zone day id + if dayOf zone (w.now + r.wait) = day then amount id r.items else 0 := by
  by_cases h : dayOf zone (w.now + r.wait) = day <;> simp [World.asked, World.step, List.filter_append, h]

theorem World.given_step : (w.step zone r).given zone day id = w.given zone day id +
    if dayOf zone (w.now + r.wait) = day then
      amount id ((dropLimit zone (w.now + r.wait) w.data r.items).2.1.getD []) else 0 := by
  by_cases h : dayOf zone (w.now + r.wait) = day <;> simp [World.given, World.step, List.filter_append, h]

/-- The counts are those of the day they are kept for, and no later day has any. -/
structure Good (zone : Int) (w : World κ ρ) : Prop where
  within : Within w.data.limits
  sums : ∀ day id, w.given zone day id = min (w.asked zone day id) limit
  past : ∀ day, dayOf zone w.now < day → ∀ id, w.asked zone day id = 0
  kept : w.data.time = getWeehoursUTC zone w.now → ∀ id, (w.data.limits id).getD 0 = w.given zone (dayOf zone w.now) id
  stale : w.data.time ≠ getWeehoursUTC zone w.now → ∀ id, w.asked zone (dayOf zone w.now) id = 0
  future : w.data.time ≤ getWeehoursUTC zone w.now ∨ ∀ id, (w.data.limits id).getD 0 = 0

theorem good_start (now : Int) : Good zone (World.start now : World κ ρ) where
  within id := by
    have hlimit : limit = 10 := rfl
    simp [World.start, defaultData, hlimit]
  sums day id := by
    have hlimit : limit = 10 := rfl
    simp [World.given, World.asked, World.start, hlimit]
  past day h id := rfl
  kept h id := rfl
  stale h id := rfl
  future := .inr fun id => rfl

theorem Good.wait (h : Good zone w) (n : Nat) : Good zone { w with now := w.now + n } := by
  have hle : dayOf zone w.now ≤ dayOf zone (w.now + n) := Int.ediv_le_ediv (by decide) (by omega)
  have hasked : ∀ day id, World.asked zone { w with now := w.now + n } day id = w.asked zone day id := fun _ _ => rfl
  have hgiven : ∀ day id, World.given zone { w with now := w.now + n } day id = w.given zone day id := fun _ _ => rfl
  refine ⟨h.within, h.sums, fun day hday id => h.past day (hle.trans_lt hday) id, fun htime id => ?_,
    fun htime id => ?_, ?_⟩
  · rw [hgiven]
    dsimp only at htime ⊢
    rcases hle.eq_or_lt with heq | hlt
    · rw [← heq]
      exact h.kept (by rw [htime, getWeehoursUTC_eq, getWeehoursUTC_eq, heq]) id
    · have hzero : w.given zone (dayOf zone (w.now + n)) id = 0 := by
        have hlimit : limit = 10 := rfl
        rw [h.sums, h.past _ hlt]
        omega
      rcases h.future with htime' | hfresh
      · rw [htime, getWeehoursUTC_eq, getWeehoursUTC_eq] at htime'
        omega
      · rw [hfresh, hzero]
  · rw [hasked]
    dsimp only at htime ⊢
    rcases hle.eq_or_lt with heq | hlt
    · rw [← heq]
      refine h.stale (fun htime' => htime ?_) id
      rw [htime', getWeehoursUTC_eq, getWeehoursUTC_eq, heq]
    · exact h.past _ hlt id
  · refine h.future.imp_left fun htime => htime.trans ?_
    rw [getWeehoursUTC_eq, getWeehoursUTC_eq]
    dsimp only
    omega

def today (zone now : Int) (data : Data κ) : Data κ :=
  if data.time ≠ getWeehoursUTC zone now then ⟨fun _ => none, getWeehoursUTC zone now⟩ else data

theorem Good.today (h : Good zone w) : Within (today zone w.now w.data).limits ∧
    ∀ id, ((today zone w.now w.data).limits id).getD 0 = w.given zone (dayOf zone w.now) id := by
  have hlimit : limit = 10 := rfl
  unfold DropLimit.today
  by_cases htime : w.data.time = getWeehoursUTC zone w.now
  · rw [if_neg (not_not.2 htime)]
    exact ⟨h.within, h.kept htime⟩
  · rw [if_pos htime]
    refine ⟨fun id => ?_, fun id => ?_⟩
    · dsimp only [Option.getD_none]
      omega
    · rw [h.sums, h.stale htime]
      dsimp only [Option.getD_none]
      omega

omit [DecidableEq κ] in
theorem today_time (now : Int) (data : Data κ) : (DropLimit.today zone now data).time = getWeehoursUTC zone now := by
  unfold DropLimit.today
  split_ifs with h
  · rfl
  · exact not_not.1 h

theorem dropLimit_eq {now : Int} {data : Data κ} {items : List (Item κ ρ)} (h : items ≠ []) :
    dropLimit zone now data items =
      ({ DropLimit.today zone now data with limits := (items.foldr visit ([], (DropLimit.today zone now data).limits, false)).2.1 },
        some (items.foldr visit ([], (DropLimit.today zone now data).limits, false)).1,
        (items.foldr visit ([], (DropLimit.today zone now data).limits, false)).2.2) := by
  have hlen : ¬items.length ≤ 0 := by
    rw [Nat.le_zero, List.length_eq_zero_iff]
    exact h
  have hloop := loop_eq items [] (DropLimit.today zone now data).limits false
  rw [List.append_nil] at hloop
  rw [dropLimit, if_neg hlen, ← hloop]
  rfl

theorem Good.serve (h : Good zone w) (items : List (Item κ ρ)) (hpos : Positive items) :
    Good zone (w.step zone ⟨0, items, hpos⟩) := by
  have hnow : (w.step zone ⟨0, items, hpos⟩).now = w.now := by simp [World.step]
  have hnow' : w.now + ((0 : Nat) : Int) = w.now := by simp
  have hasked : ∀ day id, (w.step zone ⟨0, items, hpos⟩).asked zone day id =
      w.asked zone day id + if dayOf zone w.now = day then amount id items else 0 := by
    intro day id
    rw [World.asked_step]
    dsimp only
    rw [hnow']
  have hgiven : ∀ day id, (w.step zone ⟨0, items, hpos⟩).given zone day id = w.given zone day id +
      if dayOf zone w.now = day then amount id ((dropLimit zone w.now w.data items).2.1.getD []) else 0 := by
    intro day id
    rw [World.given_step]
    dsimp only
    rw [hnow']
  have hdata : (w.step zone ⟨0, items, hpos⟩).data = (dropLimit zone w.now w.data items).1 := by simp [World.step]
  rcases eq_or_ne items [] with rfl | hne
  · -- nothing is asked for, and nothing changes
    have hnone : dropLimit zone w.now w.data ([] : List (Item κ ρ)) = (w.data, none, false) := rfl
    have hzero : ∀ id, amount id ([] : List (Item κ ρ)) = 0 := fun _ => rfl
    simp only [hnone, Option.getD_none, hzero, ite_self, add_zero] at hasked hgiven hdata
    refine ⟨?_, ?_, ?_, ?_, ?_, ?_⟩
    · rw [hdata]
      exact h.within
    · intro day id
      rw [hasked, hgiven]
      exact h.sums day id
    · intro day hday id
      rw [hnow] at hday
      rw [hasked]
      exact h.past day hday id
    · rw [hdata, hnow]
      intro htime id
      rw [hgiven]
      exact h.kept htime id
    · rw [hdata, hnow]
      intro htime id
      rw [hasked]
      exact h.stale htime id
    · rw [hdata, hnow]
      exact h.future
  · obtain ⟨hwithin, htoday⟩ := h.today
    rw [dropLimit_eq hne] at hdata
    simp only [dropLimit_eq hne, Option.getD_some] at hgiven
    have hcounts := foldr_counts (s := ([], (DropLimit.today zone w.now w.data).limits, false)) items hpos hwithin
    have hused : ∀ id, used (items.foldr visit ([], (DropLimit.today zone w.now w.data).limits, false)) id =
        (w.step zone ⟨0, items, hpos⟩).given zone (dayOf zone w.now) id := by
      intro id
      have hstart : used (([], (DropLimit.today zone w.now w.data).limits, false) : Loop κ ρ) id =
          w.given zone (dayOf zone w.now) id := htoday id
      have hzero : amount id ([] : List (Item κ ρ)) = 0 := rfl
      obtain ⟨-, hamount⟩ := hcounts.2 id
      rw [hgiven, if_pos rfl, hamount, hstart, hzero]
      omega
    refine ⟨?_, ?_, ?_, ?_, ?_, ?_⟩
    · rw [hdata]
      exact hcounts.1
    · intro day id
      by_cases hday : dayOf zone w.now = day
      · subst hday
        have hstart : used (([], (DropLimit.today zone w.now w.data).limits, false) : Loop κ ρ) id =
            w.given zone (dayOf zone w.now) id := htoday id
        have hsum := amount_nonneg hpos id
        rw [← hused, (hcounts.2 id).1, hstart, h.sums, hasked, if_pos rfl]
        omega
      · rw [hasked, hgiven, if_neg hday, if_neg hday]
        simpa using h.sums day id
    · intro day hday id
      rw [hnow] at hday
      rw [hasked, if_neg hday.ne, h.past day hday id]
      rfl
    · rw [hdata, hnow]
      exact fun _ id => hused id
    · rw [hdata, hnow]
      exact fun htime => absurd (today_time _ _) htime
    · rw [hdata, hnow]
      exact .inl (today_time _ _).le

theorem Good.step (h : Good zone w) : Good zone (w.step zone r) := by
  have hstep : w.step zone r = World.step zone { w with now := w.now + r.wait } ⟨0, r.items, r.pos⟩ := by
    simp [World.step]
  rw [hstep]
  exact (h.wait r.wait).serve r.items r.pos

theorem good_run (now : Int) (requests : List (Request κ ρ)) : Good zone (World.run zone now requests) :=
  Steps.inv_of_run (I := Good zone) (fun _ _ h => h.step) requests _ (good_start now)

/-- What a request is given is what it asks for, in its order, some entries cut and some left out. -/
def Answered (s : Served κ ρ) : Prop :=
  List.SublistForall₂ Cut s.given s.asked ∧
    s.given.filter (fun item => !item.limited) = s.asked.filter (fun item => !item.limited)

theorem Good.answered (h : Good zone w) (items : List (Item κ ρ)) (hpos : Positive items) :
    Answered ⟨w.now, items, (dropLimit zone w.now w.data items).2.1.getD []⟩ := by
  rcases eq_or_ne items [] with rfl | hne
  · exact ⟨.nil, rfl⟩
  · obtain ⟨out, hout, hsub, hfilter⟩ := foldr_cut (s := ([], (DropLimit.today zone w.now w.data).limits, false)) items hpos
      h.today.1
    rw [List.append_nil] at hout
    rw [dropLimit_eq hne, Option.getD_some, hout]
    exact ⟨hsub, hfilter⟩

theorem answered_run (now : Int) (requests : List (Request κ ρ)) : ∀ s ∈ (World.run zone now requests).log, Answered s := by
  have hstep : ∀ (w : World κ ρ) (r : Request κ ρ), (Good zone w ∧ ∀ s ∈ w.log, Answered s) →
      Good zone (w.step zone r) ∧ ∀ s ∈ (w.step zone r).log, Answered s := by
    rintro w r ⟨h, hlog⟩
    refine ⟨h.step, fun s hs => ?_⟩
    rcases List.mem_append.1 hs with hs | hs
    · exact hlog s hs
    · rw [List.mem_singleton.1 hs]
      exact (h.wait r.wait).answered r.items r.pos
  exact (Steps.inv_of_run (I := fun w => Good zone w ∧ ∀ s ∈ w.log, Answered s) hstep requests (World.start now)
    ⟨good_start now, fun s hs => by cases hs⟩).2

end DropLimit
end Sncpp
