import Sncpp.LinkList
import Sncpp.Steps
/-!
# TimerList — timers in a linked list (`timerList` with `timer` and `linkList`)

The timers that wait are in a list that is sorted by the time that remains; `update` fires those that are due.  A
listener may use the list while `update` or `dispatchRightNow` waits for it: the calls that wait are a stack, and a
listener is what happens until the last of them goes on.
-/
namespace Sncpp
namespace TimerList

structure Timer where
  totalTime : Int
  startTime : Int
  count : Int

namespace Timer

variable (t : Timer) (now : Int)

def getRemainTime : Int :=
  let passTime := now - t.startTime
  let remainTime := t.totalTime - passTime
  if remainTime < 0 then 0 else remainTime

def resetStartTime : Timer := { t with startTime := now }

def modifyTime (time : Int) : Timer := { t.resetStartTime now with totalTime := time }

def increaseTime (time : Int) : Timer := { t with totalTime := t.totalTime + time }

def decreaseTime (time : Int) : Timer := { t with totalTime := t.totalTime - time }

def setCount (count : Int) : Timer := if 0 ≤ count then { t with count := count } else t

def hasDone : Prop := ¬1 ≤ t.count

instance : Decidable t.hasDone := inferInstanceAs (Decidable (¬_))

end Timer

/-- The list and its timers at a time, the calls that wait for a listener (of which timer, and whether the call is
`update`), and the listener that the last operation has called. -/
structure State where
  list : LinkList
  timer : ℕ → Timer
  fresh : ℕ
  now : Int
  stack : List (ℕ × Bool)
  called : Option (ℕ × Bool)

namespace State

variable (s : State)

def compare (newNode oldNode : ℕ) : Bool :=
  decide ((s.timer newNode).getRemainTime s.now < (s.timer oldNode).getRemainTime s.now)

def insert (node : ℕ) : State := { s with list := s.list.insert s.compare node }

def remove (node : ℕ) : State := { s with list := s.list.remove node }

def setTimer (node : ℕ) (t : Timer) : State := { s with timer := Function.update s.timer node t }

def createTimer (time : Int) (count : Option Int) : State :=
  if ∃ n ∈ count, n ≤ 0 then s
  else
    let s' := { s with
      timer := Function.update s.timer s.fresh ⟨time, s.now, count.getD 1⟩
      fresh := s.fresh + 1 }
    s'.insert s.fresh

def restartTimer (node : ℕ) (time : Int) (count : Option Int) : State :=
  let s := if s.list.linked node then s.remove node else s
  let s := s.setTimer node (((s.timer node).modifyTime s.now time).setCount (count.getD 1))
  s.insert node

def cancels (node : ℕ) : Prop := s.list.linked node ∧ ¬(s.timer node).hasDone

instance (node : ℕ) : Decidable (s.cancels node) := inferInstanceAs (Decidable (_ ∧ _))

def cancelTimer (node : ℕ) : State := if s.cancels node then s.remove node else s

def dispatch (node : ℕ) (byUpdate : Bool) : State :=
  let s := s.remove node
  let s := s.setTimer node { s.timer node with count := (s.timer node).count - 1 }
  { s with stack := (node, byUpdate) :: s.stack, called := some (node, byUpdate) }

def dispatchRightNow (node : ℕ) : State := if s.cancels node then s.dispatch node false else s

/-- `modifyTime`, `increaseTime` and `decreaseTime`, by what they do to the timer. -/
def change (node : ℕ) (f : Timer → Timer) : State :=
  if (s.timer node).hasDone then s
  else
    let s := s.remove node
    let s := s.setTimer node (f (s.timer node))
    s.insert node

def modifyTime (node : ℕ) (time : Int) : State := s.change node (fun t => t.modifyTime s.now time)

def increaseTime (node : ℕ) (time : Int) : State := s.change node (fun t => t.increaseTime time)

def decreaseTime (node : ℕ) (time : Int) : State := s.change node (fun t => t.decreaseTime time)

/-- The calls of `update` by itself until it calls a listener or ends; each of them takes a node out. -/
def loop : ℕ → State → State
  | 0, s => s
  | turns + 1, s =>
    match s.list.firstNode with
    | none => s
    | some curNode =>
      if (s.timer curNode).hasDone then loop turns (s.remove curNode)
      else if (s.timer curNode).getRemainTime s.now ≤ 0 then s.dispatch curNode true
      else s

def update : State := loop (s.list.size.toNat + 1) s

/-- The listener that was called last returns, and the call that waits for it goes on. -/
def ret : State :=
  match s.stack with
  | [] => s
  | (node, byUpdate) :: stack =>
    let s := { s with stack := stack }
    let s := if (s.timer node).hasDone then s
      else
        let s := s.setTimer node ((s.timer node).resetStartTime s.now)
        s.insert node
    if byUpdate then s.update else s

end State

inductive Op where
  | createTimer (time : Int) (count : Option Int)
  | restartTimer (node : ℕ) (time : Int) (count : Option Int)
  | cancelTimer (node : ℕ)
  | dispatchRightNow (node : ℕ)
  | modifyTime (node : ℕ) (time : Int)
  | increaseTime (node : ℕ) (time : Int)
  | decreaseTime (node : ℕ) (time : Int)
  | update
  | ret

structure Event where
  pass : ℕ
  op : Op

namespace State

variable (s : State)

/-- A node that is not there is nil, and nothing is done. -/
def call : Op → State
  | .createTimer time count => s.createTimer time count
  | .restartTimer node time count => if node < s.fresh then s.restartTimer node time count else s
  | .cancelTimer node => if node < s.fresh then s.cancelTimer node else s
  | .dispatchRightNow node => if node < s.fresh then s.dispatchRightNow node else s
  | .modifyTime node time => if node < s.fresh then s.modifyTime node time else s
  | .increaseTime node time => if node < s.fresh then s.increaseTime node time else s
  | .decreaseTime node time => if node < s.fresh then s.decreaseTime node time else s
  | .update => s.update
  | .ret => s.ret

def wait (seconds : ℕ) : State := { s with now := s.now + seconds, called := none }

end State

/-- What has been asked of the timers: the count that each has been given last, how often it has been fired since, and
whether it has been cancelled since. -/
structure Watch where
  given : ℕ → Int
  fires : ℕ → Int
  cancelled : ℕ → Bool

namespace Watch

variable (g : Watch)

def start (node : ℕ) (count : Int) : Watch :=
  ⟨Function.update g.given node count, Function.update g.fires node 0, g.cancelled⟩

def cancel (node : ℕ) (b : Bool) : Watch := { g with cancelled := Function.update g.cancelled node b }

def fire (node : ℕ) : Watch := { g with fires := Function.update g.fires node (g.fires node + 1) }

/-- What an operation asks; a timer that is restarted with a negative count keeps its own. -/
def call (s : State) : Op → Watch
  | .createTimer _ count => if ∃ n ∈ count, n ≤ 0 then g else (g.start s.fresh (count.getD 1)).cancel s.fresh false
  | .restartTimer node _ count =>
    if node < s.fresh then (if 0 ≤ count.getD 1 then g.start node (count.getD 1) else g).cancel node false else g
  | .cancelTimer node => if node < s.fresh then g.cancel node true else g
  | _ => g

def told : Option (ℕ × Bool) → Watch
  | none => g
  | some (node, _) => g.fire node

end Watch

structure World where
  state : State
  watch : Watch

def start (now : Int) : World :=
  ⟨⟨LinkList.new, fun _ => ⟨0, 0, 0⟩, 0, now, [], none⟩, ⟨fun _ => 0, fun _ => 0, fun _ => false⟩⟩

def step (w : World) (e : Event) : World :=
  let s := w.state.wait e.pass
  ⟨s.call e.op, (w.watch.call s e.op).told (s.call e.op).called⟩

/-- **The list is a linked list of nodes, sorted by the time that remains.** -/
def State.Listed (s : State) (nodes : List ℕ) : Prop :=
  s.list.Holds nodes ∧
    nodes.Pairwise (fun a b => (s.timer a).getRemainTime s.now ≤ (s.timer b).getRemainTime s.now)

def State.waiting (s : State) (node : ℕ) : Prop := node ∈ s.stack.map Prod.fst

instance (s : State) (node : ℕ) : Decidable (s.waiting node) := inferInstanceAs (Decidable (_ ∈ _))

def State.updates (s : State) : Op → Prop
  | .update => True
  | .ret => ∃ node, s.stack.head? = some (node, true)
  | _ => False

/-- **What an event leaves is right**: the list; a timer that is fired has not been cancelled; each timer has been fired as
often as it has been told, less what it counts, and counts nothing if it is not in the list, nor cancelled, nor fired now;
no timer is due where `update` ends. -/
def Right (w : World) (e : Event) : Prop :=
  let w' := step w e
  (∃ nodes, w'.state.Listed nodes) ∧
    (∀ node byUpdate, w'.state.called = some (node, byUpdate) → w.watch.cancelled node = false) ∧
    (∀ node < w'.state.fresh, 0 ≤ (w'.state.timer node).count ∧
      w'.watch.fires node + (w'.state.timer node).count = w'.watch.given node ∧
      (w'.state.list.linked node ∨ w'.watch.cancelled node = true ∨ w'.state.waiting node ∨
        (w'.state.timer node).count = 0)) ∧
    (w.state.updates e.op → w'.state.called = none → ∀ node, w'.state.list.linked node →
      0 < (w'.state.timer node).getRemainTime w'.state.now)

/-- The times of a timer are changed while it is in the list, and it is not cancelled while its listener runs unless this
is the last time; a listener that has put its own timer back returns in the same second. -/
def State.fits (s : State) : Op → Prop
  | .cancelTimer node => s.waiting node → (s.timer node).hasDone
  | .modifyTime node _ => s.list.linked node ∨ (s.timer node).hasDone ∨ s.waiting node
  | .increaseTime node _ => s.list.linked node ∨ (s.timer node).hasDone
  | .decreaseTime node _ => s.list.linked node ∨ (s.timer node).hasDone
  | .ret => ∀ f ∈ s.stack.head?, s.list.linked f.1 → (s.timer f.1).hasDone ∨ (s.timer f.1).startTime = s.now
  | _ => True

instance (s : State) (op : Op) : Decidable (s.fits op) := by
  cases op <;> unfold State.fits <;> infer_instance

def Fits (w : World) (e : Event) : Prop := (w.state.wait e.pass).fits e.op

instance (w : World) (e : Event) : Decidable (Fits w e) := inferInstanceAs (Decidable (State.fits _ _))

def turns : World → List Event → ℕ
  | _, [] => 0
  | w, e :: es => (if (step w e).state.called.any (·.2) then 1 else 0) + turns (step w e) es

def Still (w : World) (e : Event) : Prop := e.pass = 0 ∧ ∀ node < w.state.fresh, 0 < (w.state.timer node).totalTime

theorem Timer.remain_mono {a b : Timer} {now : Int} (h : a.getRemainTime now ≤ b.getRemainTime now) (seconds : ℕ) :
    a.getRemainTime (now + seconds) ≤ b.getRemainTime (now + seconds) := by
  simp only [Timer.getRemainTime] at h ⊢
  split_ifs at h ⊢ <;> omega

namespace State

variable {s : State} {nodes : List ℕ} {node : ℕ}

namespace Listed

theorem linked_iff (h : s.Listed nodes) (node : ℕ) : s.list.linked node ↔ node ∈ nodes := h.1.linked_iff node

theorem wait (h : s.Listed nodes) (seconds : ℕ) : (s.wait seconds).Listed nodes :=
  ⟨h.1, h.2.imp fun hle => Timer.remain_mono hle seconds⟩

theorem remove (h : s.Listed nodes) (node : ℕ) : (s.remove node).Listed (nodes.erase node) :=
  ⟨h.1.remove node, h.2.sublist List.erase_sublist⟩

theorem setTimer (h : s.Listed nodes) (hnot : node ∉ nodes) (t : Timer) : (s.setTimer node t).Listed nodes := by
  have hsame : ∀ m ∈ nodes, Function.update s.timer node t m = s.timer m := fun m hm =>
    Function.update_of_ne (fun heq : m = node => hnot (heq ▸ hm)) t s.timer
  refine ⟨h.1, h.2.imp_of_mem fun ha hb hle => ?_⟩
  simp only [State.setTimer, hsame _ ha, hsame _ hb]
  exact hle

theorem insert (h : s.Listed nodes) (hnot : node ∉ nodes) :
    ∃ nodes', (s.insert node).Listed nodes' ∧ nodes'.Perm (node :: nodes) := by
  obtain ⟨xs, ys, rfl, hlist, hxs, hys⟩ := h.1.insert hnot s.compare
  obtain ⟨hx, hy, hxy⟩ := List.pairwise_append.1 h.2
  refine ⟨xs ++ node :: ys, ⟨hlist, List.pairwise_append.2 ⟨hx, List.pairwise_cons.2 ⟨?_, hy⟩, ?_⟩⟩, List.perm_middle⟩
  · cases ys with
    | nil => exact fun b hb => absurd hb List.not_mem_nil
    | cons y ys =>
      have hlt := of_decide_eq_true (hys y rfl)
      intro b hb
      rcases List.mem_cons.1 hb with rfl | hb
      · exact hlt.le
      · exact hlt.le.trans ((List.pairwise_cons.1 hy).1 b hb)
  · intro a ha b hb
    rcases List.mem_cons.1 hb with rfl | hb
    · exact not_lt.1 (of_decide_eq_false (hxs a ha))
    · exact hxy a ha b hb

end Listed

def Ok (s : State) : Prop := ∃ nodes, s.Listed nodes

namespace Ok

theorem remove (h : s.Ok) (node : ℕ) :
    (s.remove node).Ok ∧ ∀ m, (s.remove node).list.linked m ↔ m ≠ node ∧ s.list.linked m := by
  obtain ⟨nodes, h⟩ := h
  refine ⟨⟨_, h.remove node⟩, fun m => ?_⟩
  rw [(h.remove node).linked_iff, h.linked_iff, h.1.links.nodup.mem_erase_iff]

theorem remove_of_not (h : s.Ok) (hnot : ¬s.list.linked node) : s.remove node = s := by
  obtain ⟨nodes, h⟩ := h
  rw [h.linked_iff] at hnot
  rw [State.remove, h.1.remove_of_notMem hnot]

theorem setTimer (h : s.Ok) (hnot : ¬s.list.linked node) (t : Timer) : (s.setTimer node t).Ok := by
  obtain ⟨nodes, h⟩ := h
  rw [h.linked_iff] at hnot
  exact ⟨nodes, h.setTimer hnot t⟩

theorem insert (h : s.Ok) (hnot : ¬s.list.linked node) :
    (s.insert node).Ok ∧ ∀ m, (s.insert node).list.linked m ↔ m = node ∨ s.list.linked m := by
  obtain ⟨nodes, h⟩ := h
  rw [h.linked_iff] at hnot
  obtain ⟨nodes', h', hperm⟩ := h.insert hnot
  refine ⟨⟨nodes', h'⟩, fun m => ?_⟩
  rw [h'.linked_iff, h.linked_iff, hperm.mem_iff, List.mem_cons]

theorem put (h : s.Ok) (node : ℕ) (t : Timer) : (((s.remove node).setTimer node t).insert node).Ok ∧
    ∀ m, (((s.remove node).setTimer node t).insert node).list.linked m ↔ m = node ∨ s.list.linked m := by
  obtain ⟨hok, hlinked⟩ := h.remove node
  have hnot : ¬(s.remove node).list.linked node := fun hn => ((hlinked node).1 hn).1 rfl
  obtain ⟨hok', hlinked'⟩ := (hok.setTimer hnot t).insert hnot
  refine ⟨hok', fun m => (hlinked' m).trans ⟨Or.imp_right fun hl => ((hlinked m).1 hl).2, fun hm => ?_⟩⟩
  exact (em (m = node)).imp_right fun hmn => (hlinked m).2 ⟨hmn, hm.resolve_left hmn⟩

theorem insert_of_linked (hl : s.list.linked node) : s.insert node = s := by
  rw [State.insert, LinkList.insert, if_pos hl]

end Ok

end State

/-- **The list is sorted, and the timers have been fired as they have been told.** -/
structure Good (s : State) (g : Watch) : Prop where
  ok : s.Ok
  known : ∀ node, s.list.linked node ∨ s.waiting node → node < s.fresh
  counts : ∀ node < s.fresh, 0 ≤ (s.timer node).count ∧ g.fires node + (s.timer node).count = g.given node
  spent : ∀ node < s.fresh, s.list.linked node ∨ g.cancelled node = true ∨ s.waiting node ∨ (s.timer node).count = 0
  quiet : ∀ node, g.cancelled node = true → s.list.linked node ∨ s.waiting node → (s.timer node).count = 0

theorem start_good (now : Int) : Good (start now).state (start now).watch := by
  have hlinked : ∀ node, ¬(start now).state.list.linked node := fun node =>
    (LinkList.new_holds.linked_iff node).not.2 List.not_mem_nil
  refine ⟨⟨[], LinkList.new_holds, List.Pairwise.nil⟩, fun node hnode => ?_, fun node hnode => ?_, fun node hnode => ?_,
    fun node hc => by cases hc⟩
  · exact hnode.elim (fun h => absurd h (hlinked node)) (fun h => absurd h List.not_mem_nil)
  · exact absurd hnode (Nat.not_lt_zero node)
  · exact absurd hnode (Nat.not_lt_zero node)

namespace Good

variable {s : State} {g : Watch} {node : ℕ}

theorem wait (h : Good s g) (seconds : ℕ) : Good (s.wait seconds) g := by
  obtain ⟨nodes, hnodes⟩ := h.ok
  exact ⟨⟨nodes, hnodes.wait seconds⟩, h.known, h.counts, h.spent, h.quiet⟩

theorem done_iff (h : Good s g) (hnode : node < s.fresh) : (s.timer node).hasDone ↔ (s.timer node).count = 0 := by
  have hcount := (h.counts node hnode).1
  unfold Timer.hasDone
  omega

theorem remove_done (h : Good s g) (hnode : node < s.fresh) (hdone : (s.timer node).hasDone) : Good (s.remove node) g := by
  obtain ⟨hok, hlinked⟩ := h.ok.remove node
  refine ⟨hok, fun m hm => ?_, h.counts, fun m hm => ?_, fun m hc hm => ?_⟩
  · exact h.known m (hm.imp_left fun hl => ((hlinked m).1 hl).2)
  · by_cases hmn : m = node
    · subst hmn
      exact Or.inr (Or.inr (Or.inr ((h.done_iff hnode).1 hdone)))
    · exact (h.spent m hm).imp_left fun hl => (hlinked m).2 ⟨hmn, hl⟩
  · exact h.quiet m hc (hm.imp_left fun hl => ((hlinked m).1 hl).2)

theorem cancelTimer (h : Good s g) (hfits : s.waiting node → (s.timer node).hasDone) :
    Good (s.cancelTimer node) (g.cancel node true) := by
  have hzero : ∀ m, s.list.linked m ∨ s.waiting m → (s.timer m).hasDone → (s.timer m).count = 0 := fun m hm =>
    (h.done_iff (h.known m hm)).1
  have hcancel : ∀ m, (g.cancel node true).cancelled m = true ↔ m = node ∨ g.cancelled m = true := by
    intro m
    simp only [Watch.cancel, Function.update_apply]
    split <;> simp [*]
  unfold State.cancelTimer
  split
  · next hcan =>
    obtain ⟨hok, hlinked⟩ := h.ok.remove node
    refine ⟨hok, fun m hm => ?_, h.counts, fun m hm => ?_, fun m hc hm => ?_⟩
    · exact h.known m (hm.imp_left fun hl => ((hlinked m).1 hl).2)
    · by_cases hmn : m = node
      · exact Or.inr (Or.inl ((hcancel m).2 (Or.inl hmn)))
      · rcases h.spent m hm with hl | hc | hrest
        · exact Or.inl ((hlinked m).2 ⟨hmn, hl⟩)
        · exact Or.inr (Or.inl ((hcancel m).2 (Or.inr hc)))
        · exact Or.inr (Or.inr hrest)
    · rcases (hcancel m).1 hc with rfl | hc
      · rcases hm with hl | hw
        · exact absurd rfl ((hlinked m).1 hl).1
        · exact hzero m (Or.inr hw) (hfits hw)
      · exact h.quiet m hc (hm.imp_left fun hl => ((hlinked m).1 hl).2)
  · next hcan =>
    refine ⟨h.ok, h.known, h.counts, fun m hm => ?_, fun m hc hm => ?_⟩
    · exact (h.spent m hm).imp_right (Or.imp_left fun hc => (hcancel m).2 (Or.inr hc))
    · rcases (hcancel m).1 hc with rfl | hc
      · rcases hm with hl | hw
        · exact hzero m (Or.inl hl) (not_not.1 fun hd => hcan ⟨hl, hd⟩)
        · exact hzero m (Or.inr hw) (hfits hw)
      · exact h.quiet m hc hm

theorem not_cancelled (h : Good s g) (hm : s.list.linked node ∨ s.waiting node) (hdone : ¬(s.timer node).hasDone) :
    g.cancelled node = false := by
  cases hc : g.cancelled node with
  | false => rfl
  | true => exact absurd ((h.done_iff (h.known node hm)).2 (h.quiet node hc hm)) hdone

theorem dispatch (h : Good s g) (hl : s.list.linked node) (hdone : ¬(s.timer node).hasDone) (byUpdate : Bool) :
    Good (s.dispatch node byUpdate) (g.fire node) := by
  obtain ⟨hok, hlinked⟩ := h.ok.remove node
  have hlinked' : ∀ m, (s.dispatch node byUpdate).list.linked m ↔ m ≠ node ∧ s.list.linked m := hlinked
  have hwaiting : ∀ m, (s.dispatch node byUpdate).waiting m ↔ m = node ∨ s.waiting m := fun m => List.mem_cons
  have hother : ∀ m, m ≠ node → (s.dispatch node byUpdate).timer m = s.timer m := fun m hm =>
    Function.update_of_ne hm _ _
  have hself : (s.dispatch node byUpdate).timer node = { s.timer node with count := (s.timer node).count - 1 } :=
    Function.update_self _ _ _
  refine ⟨hok.setTimer (fun hn => ((hlinked node).1 hn).1 rfl) _, fun m hm => ?_, fun m hm => ?_, fun m hm => ?_,
    fun m hc hm => ?_⟩
  · rw [hlinked', hwaiting] at hm
    rcases hm with hm | rfl | hm
    · exact h.known m (Or.inl hm.2)
    · exact h.known m (Or.inl hl)
    · exact h.known m (Or.inr hm)
  · by_cases hmn : m = node
    · subst hmn
      have hcount := h.counts m hm
      unfold Timer.hasDone at hdone
      rw [hself]
      simp only [Watch.fire, Function.update_self]
      omega
    · rw [hother m hmn]
      simp only [Watch.fire, Function.update_of_ne hmn]
      exact h.counts m hm
  · rw [hlinked', hwaiting]
    by_cases hmn : m = node
    · exact Or.inr (Or.inr (Or.inl (Or.inl hmn)))
    · rw [hother m hmn]
      rcases h.spent m hm with hlm | hc | hw | hz
      · exact Or.inl ⟨hmn, hlm⟩
      · exact Or.inr (Or.inl hc)
      · exact Or.inr (Or.inr (Or.inl (Or.inr hw)))
      · exact Or.inr (Or.inr (Or.inr hz))
  · by_cases hmn : m = node
    · subst hmn
      exact absurd ((h.not_cancelled (Or.inl hl) hdone).symm.trans hc) (by decide)
    · rw [hother m hmn]
      rw [hlinked', hwaiting] at hm
      exact h.quiet m hc (hm.imp And.right (Or.resolve_left · hmn))

theorem relist (h : Good s g) {g' : Watch} (hnode : node < s.fresh) {t : Timer} (ht : 0 ≤ t.count)
    (hg : g'.fires node + t.count = g'.given node) (hc : g'.cancelled node = true → t.count = 0)
    (hother : ∀ m, m ≠ node → g'.fires m = g.fires m ∧ g'.given m = g.given m ∧ g'.cancelled m = g.cancelled m) :
    Good (((s.remove node).setTimer node t).insert node) g' := by
  obtain ⟨hok', hlist⟩ := h.ok.put node t
  have hself : (((s.remove node).setTimer node t).insert node).timer node = t := Function.update_self _ _ _
  have hsame : ∀ m, m ≠ node → (((s.remove node).setTimer node t).insert node).timer m = s.timer m := fun m hm =>
    Function.update_of_ne hm _ _
  refine ⟨hok', fun m hm => ?_, fun m hm => ?_, fun m hm => ?_, fun m hcm hm => ?_⟩
  · rw [hlist] at hm
    rcases hm with (rfl | hl) | hw
    · exact hnode
    · exact h.known m (Or.inl hl)
    · exact h.known m (Or.inr hw)
  · by_cases hmn : m = node
    · subst hmn
      rw [hself]
      exact ⟨ht, hg⟩
    · rw [hsame m hmn, (hother m hmn).1, (hother m hmn).2.1]
      exact h.counts m hm
  · by_cases hmn : m = node
    · exact Or.inl ((hlist m).2 (Or.inl hmn))
    · rw [hsame m hmn, (hother m hmn).2.2]
      exact (h.spent m hm).imp_left fun hl => (hlist m).2 (Or.inr hl)
  · by_cases hmn : m = node
    · subst hmn
      rw [hself]
      exact hc hcm
    · rw [hsame m hmn]
      rw [(hother m hmn).2.2] at hcm
      exact h.quiet m hcm (hm.imp_left fun hl => ((hlist m).1 hl).resolve_left hmn)

theorem change (h : Good s g) (hnode : node < s.fresh) {f : Timer → Timer} (hf : ∀ t, (f t).count = t.count)
    (hfits : s.list.linked node ∨ (s.timer node).hasDone ∨ s.waiting node) : Good (s.change node f) g := by
  unfold State.change
  split
  · exact h
  · next hdone =>
    have hcount := h.counts node hnode
    rw [← hf] at hcount
    refine h.relist hnode hcount.1 hcount.2 (fun hc => ?_) fun m _ => ⟨rfl, rfl, rfl⟩
    have hlive := h.not_cancelled (hfits.imp_right fun hm => hm.resolve_left hdone) hdone
    exact absurd (hlive.symm.trans hc) (by decide)

theorem restartTimer (h : Good s g) (hnode : node < s.fresh) (time : Int) (count : Option Int) :
    Good (s.restartTimer node time count)
      ((if 0 ≤ count.getD 1 then g.start node (count.getD 1) else g).cancel node false) := by
  have hremove : (if s.list.linked node then s.remove node else s) = s.remove node := by
    split
    · rfl
    · next hl => exact (h.ok.remove_of_not hl).symm
  have hold := h.counts node hnode
  simp only [State.restartTimer]
  rw [hremove]
  refine h.relist hnode ?_ ?_ (fun hc => ?_) fun m hm => ?_
  · unfold Timer.setCount
    split
    · assumption
    · exact hold.1
  · unfold Timer.setCount
    split
    · simp [Watch.cancel, Watch.start]
    · exact hold.2
  · simp [Watch.cancel] at hc
  · split <;> simp [Watch.cancel, Watch.start, hm]

theorem createTimer (h : Good s g) (time : Int) (count : Option Int) :
    Good (s.createTimer time count) (g.call s (.createTimer time count)) := by
  simp only [State.createTimer, Watch.call]
  split
  · exact h
  · next hpos =>
    have hcount : 0 < count.getD 1 := by
      cases count with
      | none => decide
      | some n => exact not_le.1 fun hle => hpos ⟨n, rfl, hle⟩
    have hnew : ¬s.list.linked s.fresh := fun hl => (h.known s.fresh (Or.inl hl)).ne rfl
    have hnotw : ¬s.waiting s.fresh := fun hw => (h.known s.fresh (Or.inr hw)).ne rfl
    obtain ⟨hok, hlinked⟩ := (h.ok.setTimer hnew ⟨time, s.now, count.getD 1⟩).insert hnew
    have hother : ∀ m, m ≠ s.fresh →
        Function.update s.timer s.fresh ⟨time, s.now, count.getD 1⟩ m = s.timer m := fun m hm =>
      Function.update_of_ne hm _ _
    refine ⟨hok, fun m hm => ?_, fun m hm => ?_, fun m hm => ?_, fun m hc hm => ?_⟩
    · rcases hm with hl | hw
      · rcases (hlinked m).1 hl with rfl | hl
        · exact Nat.lt_succ_self _
        · exact Nat.lt_succ_of_lt (h.known m (Or.inl hl))
      · exact Nat.lt_succ_of_lt (h.known m (Or.inr hw))
    · by_cases hmn : m = s.fresh
      · subst hmn
        simp only [State.insert, Watch.cancel, Watch.start, Function.update_self]
        omega
      · have hm' : m < s.fresh := lt_of_le_of_ne (Nat.le_of_lt_succ hm) hmn
        simp only [State.insert, Watch.cancel, Watch.start, hother m hmn, Function.update_of_ne hmn]
        exact h.counts m hm'
    · by_cases hmn : m = s.fresh
      · exact Or.inl ((hlinked m).2 (Or.inl hmn))
      · have hm' : m < s.fresh := lt_of_le_of_ne (Nat.le_of_lt_succ hm) hmn
        simp only [State.insert, Watch.cancel, Watch.start, hother m hmn, Function.update_of_ne hmn]
        exact (h.spent m hm').imp_left fun hl => (hlinked m).2 (Or.inr hl)
    · by_cases hmn : m = s.fresh
      · rw [hmn] at hc
        simp [Watch.cancel] at hc
      · simp only [Watch.cancel, Watch.start, Function.update_of_ne hmn] at hc
        simp only [State.insert, hother m hmn]
        exact h.quiet m hc (hm.imp_left fun hl => ((hlinked m).1 hl).resolve_left hmn)

theorem pop (h : Good s g) {byUpdate : Bool} {stack : List (ℕ × Bool)} (hs : s.stack = (node, byUpdate) :: stack)
    (hn : s.list.linked node ∨ (s.timer node).hasDone) : Good { s with stack := stack } g := by
  have hwaiting : ∀ m, s.waiting m ↔ m = node ∨ m ∈ stack.map Prod.fst := by
    intro m
    rw [State.waiting, hs]
    exact List.mem_cons
  refine ⟨h.ok, fun m hm => ?_, h.counts, fun m hm => ?_, fun m hc hm => ?_⟩
  · exact h.known m (hm.imp_right fun hw => (hwaiting m).2 (Or.inr hw))
  · by_cases hmn : m = node
    · subst hmn
      exact hn.imp id fun hdone => Or.inr (Or.inr ((h.done_iff hm).1 hdone))
    · rcases h.spent m hm with hl | hc | hw | hz
      · exact Or.inl hl
      · exact Or.inr (Or.inl hc)
      · exact Or.inr (Or.inr (Or.inl (((hwaiting m).1 hw).resolve_left hmn)))
      · exact Or.inr (Or.inr (Or.inr hz))
  · exact h.quiet m hc (hm.imp_right fun hw => (hwaiting m).2 (Or.inr hw))

end Good

/-- **What `update` does until it calls a listener or ends**: it takes out timers that have done; then the first timer is
fired if it is due, and no timer is due otherwise. -/
theorem Good.loop : ∀ (turns : ℕ) {s : State} {g : Watch} {nodes : List ℕ}, Good s g → s.Listed nodes →
    nodes.length < turns →
    ∃ t, Good t g ∧ t.timer = s.timer ∧ t.now = s.now ∧ t.fresh = s.fresh ∧ t.stack = s.stack ∧ t.called = s.called ∧
      (∀ m, t.list.linked m → s.list.linked m) ∧
      ((State.loop turns s = t ∧ ∀ m, t.list.linked m → 0 < (t.timer m).getRemainTime t.now) ∨
        ∃ node, t.list.linked node ∧ ¬(t.timer node).hasDone ∧ (t.timer node).getRemainTime t.now ≤ 0 ∧
          State.loop turns s = t.dispatch node true)
  | 0, _, _, _, _, _, hlt => absurd hlt (Nat.not_lt_zero _)
  | turns + 1, s, g, nodes, h, hnodes, hlt => by
    have hfirst := hnodes.1.links.head
    cases nodes with
    | nil =>
      have hnone : s.list.firstNode = none := hfirst
      refine ⟨s, h, rfl, rfl, rfl, rfl, rfl, fun m hm => hm, Or.inl ⟨?_, fun m hm => ?_⟩⟩
      · rw [State.loop, hnone]
      · exact absurd ((hnodes.linked_iff m).1 hm) List.not_mem_nil
    | cons cur rest =>
      have hsome : s.list.firstNode = some cur := hfirst
      have hl : s.list.linked cur := (hnodes.linked_iff cur).2 List.mem_cons_self
      by_cases hdone : (s.timer cur).hasDone
      · have hrest := hnodes.remove cur
        rw [List.erase_cons_head] at hrest
        obtain ⟨t, hgood, htimer, hnow, hfresh, hstack, hcalled, hlinked, hend⟩ :=
          Good.loop turns (h.remove_done (h.known cur (Or.inl hl)) hdone) hrest (Nat.lt_of_succ_lt_succ hlt)
        have hloop : State.loop (turns + 1) s = State.loop turns (s.remove cur) := by
          rw [State.loop, hsome]
          exact if_pos hdone
        rw [hloop]
        exact ⟨t, hgood, htimer, hnow, hfresh, hstack, hcalled,
          fun m hm => (((h.ok.remove cur).2 m).1 (hlinked m hm)).2, hend⟩
      · refine ⟨s, h, rfl, rfl, rfl, rfl, rfl, fun m hm => hm, ?_⟩
        by_cases hdue : (s.timer cur).getRemainTime s.now ≤ 0
        · refine Or.inr ⟨cur, hl, hdone, hdue, ?_⟩
          rw [State.loop, hsome]
          simp only [if_neg hdone, if_pos hdue]
        · refine Or.inl ⟨?_, fun m hm => ?_⟩
          · rw [State.loop, hsome]
            simp only [if_neg hdone, if_neg hdue]
          · rcases List.mem_cons.1 ((hnodes.linked_iff m).1 hm) with rfl | hmem
            · exact not_le.1 hdue
            · exact (not_le.1 hdue).trans_le ((List.pairwise_cons.1 hnodes.2).1 m hmem)

end TimerList
end Sncpp
