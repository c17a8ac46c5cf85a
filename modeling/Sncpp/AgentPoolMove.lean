import Sncpp.AgentPool
import Sncpp.CoWatch
/-!
# AgentPoolMove — a player who has moved to another kingdom (`migrateOut`, `migrateIn`)

`migrateOut` logs the pooled cell of the player out and leaves it to the gate to take it out of the pool.  After that
a player who has moved is to have no working cell in the pool, and no message is to reach an agent of the player.
-/
namespace Sncpp
namespace AgentPool

open Co (Prog Pact Watch Seen)
open Co.Prog (get modify check ask when serial serialTake note)

structure Log where
  gone : Nat → Bool
  moved : Nat → Bool
  heard : Nat → Nat

def Log.start : Log := ⟨fun _ => false, fun _ => false, fun _ => 0⟩

abbrev LogCo (α : Type) : Type := Prog (Pool × Log) Nat Req Reply α

def Pool.heardBy (s : Pool) (uid : Nat) : Nat := s.told.count (some uid)

/-- The answers with which an operation of a player who has gone may go on: of the lock, of the services that are told last,
and another kingdom than this one. -/
def Req.passes (myKid : Nat) : Req → Reply → Bool
  | .lock _, _ => true
  | .mailAfk, _ => true
  | .mailLogout, _ => true
  | .dataLogout, _ => true
  | .getKidOfUid _, .raised => true
  | .getKidOfUid _, .num kid => decide (kid ≠ myKid)
  | _, _ => false

def watchOf (myKid uid : Nat) : Watch Req Reply Log :=
  ⟨fun q r t => q.passes myKid r || !t.gone uid, fun t => !t.gone uid⟩

def migrateCell (uid : Nat) : PoolCo Unit := do
  modify (fun s => { s with lock := Function.update s.lock uid true })
  let _ ← call (.lock uid)
  let s ← get
  match s.agentPool.lookup uid with
  | some i => do
    logoutOf i
    let _ ← (call .gateLogout).xpcall
    pure ()
  | none => pure ()

def migrateData (uid : Nat) : PoolCo Unit := do
  let _ ← call .mailLogout
  let _ ← (call .dataLogout).xpcall
  modify (fun s => { s with lock := Function.update s.lock uid false })

theorem migrateOut_eq (uid : Nat) : migrateOut uid = (migrateCell uid >>= fun _ => migrateData uid) := by
  show Prog.act _ (fun _ => Prog.bind (call (.lock uid)) _) =
    Prog.act _ (fun _ => Prog.bind (Prog.bind (call (.lock uid)) _) (fun _ => migrateData uid))
  refine congrArg (Prog.act _) (funext (fun _ => ?_))
  rw [Prog.bind_assoc]
  rfl

def Log.go (t : Log) (uid : Nat) : Log := { t with gone := Function.update t.gone uid true }

/-- The return of a `migrateOut`, unless a `migrateIn` came meanwhile. -/
def Log.move (t : Log) (uid n : Nat) : Log :=
  if t.gone uid then { t with moved := Function.update t.moved uid true, heard := Function.update t.heard uid n } else t

def Log.back (t : Log) (uid : Nat) : Log :=
  { t with gone := Function.update t.gone uid false, moved := Function.update t.moved uid false }

inductive Move where
  | of (o : Op)
  | migrateIn (uid : Nat)

def Op.uid : Op → Nat
  | .callAgent uid _ => uid
  | .callOnlineAgent uid _ => uid
  | .login _ uid _ _ => uid
  | .logout uid => uid
  | .afk uid => uid
  | .removeAgent uid => uid
  | .migrateOut uid => uid
  | .timerCallback uid => uid
  | .fixStart _ uid => uid
  | .hotFix => 0
  | .stop => 0
  | .stopAgent uid => uid

def Move.prog (myKid : Nat) : Move → LogCo Unit
  | .of (.migrateOut uid) => do
    (migrateCell uid).watched (watchOf myKid uid)
    note true (fun x => (x.1.agentPool.lookup uid).isNone)
    modify (fun x => (x.1, x.2.go uid))
    (migrateData uid).watched (watchOf myKid uid)
    modify (fun x => (x.1, x.2.move uid (x.1.heardBy uid)))
  | .of (.fixStart i uid) => do
    note true (fun x => !x.2.gone uid || (x.1.cells i).agent.isNone)
    (fixStart i uid).watched (watchOf myKid uid)
  | .of o => (o.prog myKid).watched (watchOf myKid o.uid)
  | .migrateIn uid => do
    modify (fun x => (x.1, x.2.back uid))
    (AgentPool.migrateOut uid).watched (watchOf myKid uid)

def moveSys (myKid : Nat) : Co.Sys (Pool × Log) Nat Req Reply Move Nat :=
  ⟨Move.prog myKid, fun _ _ => true, fun a x => (x.1.exit a, x.2)⟩

/-- **A player who has moved has no agent here**: no cell in the pool works for the player, has an agent or launches one,
and no message has reached an agent of the player since `migrateOut` returned. -/
def Departed (x : Pool × Log) : Prop :=
  ∀ uid, x.2.moved uid = true →
    (∀ i, x.1.agentPool.lookup uid = some i →
      (x.1.cells i).status ≠ .work ∧ (x.1.cells i).agent = none ∧ (x.1.cells i).launching = none) ∧
    x.1.heardBy uid = x.2.heard uid

/-! ## Whose cells and agents they are -/

/-- The player of a cell or of an agent in it: none, or the one the cell was made for. -/
def Pool.suits (s : Pool) (i : Nat) (uid : Option Nat) : Prop := uid = none ∨ uid = some (s.owner i)

def Cell.holds (c : Cell) (a : Nat) : Prop := c.agent = some a ∨ c.launching = some a

/-- **A cell serves one player**: the one it was made for. -/
structure Bound (s : Pool) : Prop where
  pooled : ∀ {u i}, s.agentPool.lookup u = some i → i < s.nextCell ∧ s.owner i = u
  awaited : ∀ {i u}, (i, u) ∈ s.pending → i < s.nextCell ∧ s.owner i = u
  fresh : ∀ {i}, s.nextCell ≤ i → s.cells i = .new
  named : ∀ i, s.suits i (s.cells i).uid
  drawn : ∀ a ∈ s.agents, a.id < s.nextAgent
  held : ∀ {i n}, (s.cells i).holds n → n < s.nextAgent ∧ ∀ a ∈ s.agents, a.id = n → s.suits i a.uid

def Mine (s : Pool) (i uid : Nat) : Prop := i < s.nextCell ∧ s.owner i = uid

def Stays (s s' : Pool) : Prop := s.nextCell ≤ s'.nextCell ∧ ∀ i, i < s.nextCell → s'.owner i = s.owner i

/-- **What an operation of a player may change**: nothing of another player. -/
structure Local (uid : Nat) (s s' : Pool) : Prop where
  bound : Bound s'
  stays : Stays s s'
  pool : ∀ u, u ≠ uid → s'.agentPool.lookup u = s.agentPool.lookup u
  told : ∀ u, u ≠ uid → s'.heardBy u = s.heardBy u

theorem Stays.refl (s : Pool) : Stays s s := ⟨Nat.le_refl _, fun _ _ => rfl⟩

theorem Stays.trans {s s' s'' : Pool} (h : Stays s s') (h' : Stays s' s'') : Stays s s'' :=
  ⟨Nat.le_trans h.1 h'.1, fun i hi => (h'.2 i (Nat.lt_of_lt_of_le hi h.1)).trans (h.2 i hi)⟩

theorem Mine.stays {s s' : Pool} {i uid : Nat} (h : Mine s i uid) (hv : Stays s s') : Mine s' i uid :=
  ⟨Nat.lt_of_lt_of_le h.1 hv.1, (hv.2 i h.1).trans h.2⟩

theorem Mine.named {s : Pool} {i uid : Nat} (h : Mine s i uid) (hb : Bound s) :
    (s.cells i).uid = none ∨ (s.cells i).uid = some uid := by
  rw [← h.2]
  exact hb.named i

theorem Local.trans {uid : Nat} {s s' s'' : Pool} (h : Local uid s s') (h' : Local uid s' s'') : Local uid s s'' where
  bound := h'.bound
  stays := h.stays.trans h'.stays
  pool u hu := (h'.pool u hu).trans (h.pool u hu)
  told u hu := (h'.told u hu).trans (h.told u hu)

theorem Bound.refl {s : Pool} (h : Bound s) (uid : Nat) : Local uid s s := ⟨h, Stays.refl s, fun _ _ => rfl, fun _ _ => rfl⟩

theorem Bound.setCell {s : Pool} (h : Bound s) {i uid : Nat} (hi : Mine s i uid) {f : Cell → Cell}
    (hf : (f (s.cells i)).uid = none ∨ (f (s.cells i)).uid = some uid)
    (ha : ∀ n, (f (s.cells i)).holds n → (s.cells i).holds n) : Local uid s (s.setCell i f) where
  bound := by
    refine ⟨h.pooled, h.awaited, fun {j} hj => ?_, fun j => ?_, h.drawn, fun {j n} hn => ?_⟩
    · have hne : j ≠ i := by
        rintro rfl
        exact absurd hi.1 (Nat.not_lt.2 hj)
      simpa [Pool.setCell, hne] using h.fresh hj
    · by_cases hj : j = i
      · subst hj
        rw [show (s.setCell j f).cells j = f (s.cells j) by simp [Pool.setCell]]
        rw [← hi.2] at hf
        exact hf
      · rw [show (s.setCell i f).cells j = s.cells j by simp [Pool.setCell, hj]]
        exact h.named j
    · by_cases hj : j = i
      · subst hj
        rw [show (s.setCell j f).cells j = f (s.cells j) by simp [Pool.setCell]] at hn
        exact h.held (ha n hn)
      · rw [show (s.setCell i f).cells j = s.cells j by simp [Pool.setCell, hj]] at hn
        exact h.held hn
  stays := Stays.refl s
  pool _ _ := rfl
  told _ _ := rfl

/-- **A message to the agent of a player's cell reaches no agent of another player.** -/
theorem Bound.tell {s : Pool} (h : Bound s) {i uid a : Nat} (hi : Mine s i uid) (ha : (s.cells i).agent = some a) :
    Local uid s (s.tell a) where
  bound := ⟨h.pooled, h.awaited, h.fresh, h.named, h.drawn, h.held⟩
  stays := Stays.refl s
  pool _ _ := rfl
  told u hu := by
    have hzero : ((s.agents.filter (fun b => b.id = a)).map Agent.uid).count (some u) = 0 := by
      refine List.count_eq_zero.2 (fun hm => ?_)
      obtain ⟨b, hb, hbu⟩ := List.mem_map.1 hm
      obtain ⟨hb, hid⟩ := List.mem_filter.1 hb
      obtain hnone | hsome := (h.held (.inl ha)).2 b hb (of_decide_eq_true hid)
      · rw [hbu] at hnone
        cases hnone
      · rw [hbu, hi.2] at hsome
        exact hu (Option.some.inj hsome)
    show List.count (some u) (_ ++ s.told) = s.told.count (some u)
    rw [List.count_append, hzero, Nat.zero_add]

theorem Bound.agents {s : Pool} (h : Bound s) (uid : Nat) {l : List Agent}
    (hl : ∀ b ∈ l, ∃ a ∈ s.agents, a.id = b.id ∧ a.uid = b.uid) : Local uid s { s with agents := l } where
  bound := by
    refine ⟨h.pooled, h.awaited, h.fresh, h.named, fun b hb => ?_, fun {i n} hn => ⟨(h.held hn).1, fun b hb he => ?_⟩⟩
    · obtain ⟨a, ha, hid, -⟩ := hl b hb
      rw [← hid]
      exact h.drawn a ha
    · obtain ⟨a, ha, hid, hu⟩ := hl b hb
      rw [← hu]
      exact (h.held hn).2 a ha (hid.trans he)
  stays := Stays.refl s
  pool _ _ := rfl
  told _ _ := rfl

theorem Bound.dismiss {s : Pool} (h : Bound s) (uid a : Nat) : Local uid s (s.dismiss a) := by
  refine h.agents uid (fun b hb => ?_)
  obtain ⟨c, hc, he⟩ := List.mem_map.1 hb
  refine ⟨c, hc, ?_⟩
  rw [← he]
  split <;> exact ⟨rfl, rfl⟩

theorem Bound.exit {s : Pool} (h : Bound s) (uid a : Nat) : Local uid s (s.exit a) :=
  h.agents uid (fun b hb => ⟨b, (List.mem_filter.1 hb).1, rfl, rfl⟩)

theorem Bound.dismissOf {s : Pool} (h : Bound s) {i uid : Nat} (hi : Mine s i uid) : Local uid s (s.dismissOf i) := by
  unfold Pool.dismissOf
  split
  · rename_i a ha
    have htell := h.tell hi ha
    exact htell.trans (htell.bound.dismiss uid a)
  · exact h.refl uid

theorem Bound.launch {s : Pool} (h : Bound s) {i uid : Nat} (hi : Mine s i uid) {u : Option Nat}
    (hu : u = none ∨ u = some uid) : Local uid s (s.launch i u) where
  bound := by
    refine ⟨h.pooled, h.awaited, fun {j} hj => ?_, fun j => ?_, fun a ha => ?_, fun {j n} hn => ?_⟩
    · have hne : j ≠ i := by
        rintro rfl
        exact absurd hi.1 (Nat.not_lt.2 hj)
      simpa [Pool.launch, Pool.setCell, hne] using h.fresh hj
    · have hcell : ((s.launch i u).cells j).uid = (s.cells j).uid := by
        by_cases hj : j = i
        · subst hj
          simp [Pool.launch, Pool.setCell]
        · simp [Pool.launch, Pool.setCell, hj]
      rw [hcell]
      exact h.named j
    · rcases List.mem_cons.1 ha with rfl | ha
      · exact Nat.lt_succ_self _
      · exact Nat.lt_succ_of_lt (h.drawn a ha)
    · -- the new agent is in this cell only
      have hnew : (n = s.nextAgent ∧ j = i) ∨ (s.cells j).holds n := by
        by_cases hj : j = i
        · subst hj
          rcases hn with hn | hn
          · exact .inr (.inl (by simpa [Pool.launch, Pool.setCell] using hn))
          · refine .inl ⟨?_, rfl⟩
            have hn' : some s.nextAgent = some n := by simpa [Pool.launch, Pool.setCell] using hn
            exact (Option.some.inj hn').symm
        · refine .inr ?_
          rw [show (s.launch i u).cells j = s.cells j by simp [Pool.launch, Pool.setCell, hj]] at hn
          exact hn
      rcases hnew with ⟨rfl, rfl⟩ | hold
      · refine ⟨Nat.lt_succ_self _, fun a ha he => ?_⟩
        rcases List.mem_cons.1 ha with rfl | ha
        · rw [← hi.2] at hu
          exact hu
        · exact absurd he (Nat.ne_of_lt (h.drawn a ha))
      · obtain ⟨hlt, hall⟩ := h.held hold
        refine ⟨Nat.lt_succ_of_lt hlt, fun a ha he => ?_⟩
        rcases List.mem_cons.1 ha with rfl | ha
        · exact absurd he (Nat.ne_of_gt hlt)
        · exact hall a ha he
  stays := Stays.refl s
  pool _ _ := rfl
  told _ _ := rfl

theorem Bound.launched {s : Pool} (h : Bound s) {i uid : Nat} (hi : Mine s i uid) : Local uid s (s.launched i) := by
  refine h.setCell hi (hi.named h) (fun n hn => ?_)
  rcases hn with hn | hn
  · exact .inr hn
  · cases hn

theorem Bound.abandon {s : Pool} (h : Bound s) {i uid : Nat} (hi : Mine s i uid) : Local uid s (s.abandon i) := by
  have hcell := h.setCell hi (f := fun c => { c with launching := none }) (hi.named h)
    (fun n hn => .inl (hn.resolve_right nofun))
  refine hcell.trans (hcell.bound.agents uid (fun b hb => ?_))
  exact ⟨b, (List.mem_filter.1 hb).1, rfl, rfl⟩

theorem Bound.addCell {s : Pool} (h : Bound s) (uid : Nat) :
    Local uid s (s.addCell uid) ∧ Mine (s.addCell uid) s.nextCell uid := by
  have howner : ∀ i, i < s.nextCell → (s.addCell uid).owner i = s.owner i := by
    intro i hi
    exact Function.update_of_ne (Nat.ne_of_lt hi) _ _
  have hnew : (s.addCell uid).owner s.nextCell = uid := Function.update_self _ _ _
  have hsuits : ∀ i o, i < s.nextCell → s.suits i o → (s.addCell uid).suits i o := by
    intro i o hi ho
    unfold Pool.suits
    rw [howner i hi]
    exact ho
  refine ⟨⟨⟨fun {u i} hu => ?_, fun {i u} hp => ?_, fun {i} hi => h.fresh (Nat.le_of_succ_le hi), fun i => ?_, h.drawn,
    fun {i n} hn => ?_⟩, ⟨Nat.le_succ _, howner⟩, fun u hu => AList.lookup_insert_ne hu, fun _ _ => rfl⟩,
    Nat.lt_succ_self _, hnew⟩
  · by_cases he : u = uid
    · subst he
      rw [show (s.addCell u).agentPool.lookup u = some s.nextCell from AList.lookup_insert _] at hu
      cases hu
      exact ⟨Nat.lt_succ_self _, hnew⟩
    · obtain ⟨hlt, ho⟩ := h.pooled ((AList.lookup_insert_ne he).symm.trans hu)
      exact ⟨Nat.lt_succ_of_lt hlt, (howner i hlt).trans ho⟩
  · obtain ⟨hlt, ho⟩ := h.awaited hp
    exact ⟨Nat.lt_succ_of_lt hlt, (howner i hlt).trans ho⟩
  · by_cases hi : i < s.nextCell
    · exact hsuits i _ hi (h.named i)
    · refine .inl ?_
      show (s.cells i).uid = none
      rw [h.fresh (Nat.not_lt.1 hi)]
      rfl
  · by_cases hi : i < s.nextCell
    · obtain ⟨hlt, hall⟩ := h.held hn
      exact ⟨hlt, fun a ha he => hsuits i _ hi (hall a ha he)⟩
    · have hn' : (s.cells i).holds n := hn
      rw [h.fresh (Nat.not_lt.1 hi)] at hn'
      rcases hn' with hn' | hn' <;> cases hn'

theorem Bound.removeAgent {s : Pool} (h : Bound s) (uid : Nat) : Local uid s (s.removeAgent uid) := by
  unfold Pool.removeAgent
  split
  · refine ⟨⟨fun {u i} hu => ?_, h.awaited, h.fresh, h.named, h.drawn, h.held⟩, Stays.refl s,
      fun u hu => AList.lookup_erase_ne hu, fun _ _ => rfl⟩
    by_cases he : u = uid
    · subst he
      rw [show (s.agentPool.erase u).lookup u = none from AList.lookup_erase _ _] at hu
      cases hu
    · exact h.pooled ((AList.lookup_erase_ne he).symm.trans hu)
  · exact h.refl uid

/-- **What holds between any two moves**: a player who has gone has no cell in the pool, and the agents of one who has moved
got nothing since. -/
structure Kept (x : Pool × Log) : Prop where
  bound : Bound x.1
  out : ∀ {u}, x.2.gone u = true → x.1.agentPool.lookup u = none
  silent : ∀ {u}, x.2.moved u = true → x.2.gone u = true ∧ x.1.heardBy u = x.2.heard u

def pact : Pact (Pool × Log) := ⟨Kept, fun x x' => Stays x.1 x'.1, False, fun x => Stays.refl x.1, Stays.trans⟩

theorem Kept.departed {x : Pool × Log} (h : Kept x) : Departed x := by
  intro uid hm
  obtain ⟨hgone, hheard⟩ := h.silent hm
  refine ⟨fun i hi => ?_, hheard⟩
  rw [h.out hgone] at hi
  cases hi

theorem Kept.local {s s' : Pool} {t : Log} (h : Kept (s, t)) {uid : Nat} (hl : Local uid s s') (hno : t.gone uid = false) :
    Kept (s', t) where
  bound := hl.bound
  out {u} hu := by
    have hne : u ≠ uid := by
      rintro rfl
      rw [hno] at hu
      cases hu
    exact (hl.pool u hne).trans (h.out hu)
  silent {u} hu := by
    obtain ⟨hgone, hheard⟩ := h.silent hu
    have hne : u ≠ uid := by
      rintro rfl
      rw [hno] at hgone
      cases hgone
    exact ⟨hgone, (hl.told u hne).trans hheard⟩

theorem Kept.same {s s' : Pool} {t : Log} (h : Kept (s, t)) (hb : Bound s') (hpool : s'.agentPool = s.agentPool)
    (htold : s'.told = s.told) : Kept (s', t) where
  bound := hb
  out hu := by
    show s'.agentPool.lookup _ = none
    rw [hpool]
    exact h.out hu
  silent {u} hu := by
    have hheard : s'.heardBy u = s.heardBy u := by rw [Pool.heardBy, htold, Pool.heardBy]
    exact ⟨(h.silent hu).1, hheard.trans (h.silent hu).2⟩

/-- At work on a cell of a player who has not gone. -/
structure Here (uid i : Nat) (x : Pool × Log) : Prop where
  kept : Kept x
  mine : Mine x.1 i uid
  stays : x.2.gone uid = false

theorem Kept.here {x : Pool × Log} (h : Kept x) {uid i : Nat} (hi : x.1.agentPool.lookup uid = some i) : Here uid i x := by
  refine ⟨h, h.bound.pooled hi, ?_⟩
  by_contra hno
  rw [h.out (by simpa using hno)] at hi
  cases hi

section Programs

variable {may : Req → Reply → Bool} {myKid uid i : Nat} {α : Type}

/-- A program that works on a cell of the player, from any state and to its end. -/
abbrev Works (may : Req → Reply → Bool) (myKid uid i : Nat) (p : PoolCo α) : Prop :=
  Seen pact may (watchOf myKid uid) (Here uid i) p (fun _ => Here uid i) (Here uid i)

abbrev Ends (may : Req → Reply → Bool) (myKid uid i : Nat) (p : PoolCo α) : Prop :=
  Seen pact may (watchOf myKid uid) (Here uid i) p (fun _ => Kept) Kept

theorem Works.ends {p : PoolCo α} (h : Works may myKid uid i p) : Ends may myKid uid i p :=
  h.conseq (fun _ hx => hx) (fun _ _ hx => hx.kept) (fun _ hx => hx.kept)

theorem Works.loose {p : PoolCo α} (h : Works may myKid uid i p) :
    Seen pact may (watchOf myKid uid) (Here uid i) p (fun _ => Here uid i) Kept :=
  h.conseq (fun _ hx => hx) (fun _ _ hx => hx) (fun _ hx => hx.kept)

theorem works_modify {f : Pool → Pool} (hf : ∀ s, Bound s → Mine s i uid → Local uid s (f s)) :
    Works may myKid uid i (modify f) := by
  refine Seen.modify (fun x hx => ?_)
  have hl := hf x.1 hx.kept.bound hx.mine
  exact ⟨hl.stays, hx.kept.local hl hx.stays, hx.mine.stays hl.stays, hx.stays⟩

theorem works_ask {q : Req} (hq : ∀ r, q.passes myKid r = false) : Works may myKid uid i (ask q) := by
  refine Seen.ask (fun h => h) (fun _ hx => hx.kept) (fun x x' r hx _ hk hv ha => ⟨hk, hx.mine.stays hv, ?_⟩)
  have ha' : (q.passes myKid r || !x'.2.gone uid) = true := ha
  simpa [hq r] using ha'

theorem ends_ask (q : Req) : Seen pact may (watchOf myKid uid) Kept (ask q : PoolCo Reply) (fun _ => Kept) Kept :=
  Seen.ask (fun h => h) (fun _ hx => hx) (fun _ _ _ _ _ hk _ _ => hk)

theorem works_call {q : Req} (hq : ∀ r, q.passes myKid r = false) : Works may myKid uid i (call q) :=
  Seen.bind (works_ask hq) (fun _ => Seen.ite (fun _ => Seen.err (fun _ hx => hx)) (fun _ => Seen.pure (fun _ hx => hx)))

theorem ends_call (q : Req) : Seen pact may (watchOf myKid uid) Kept (call q) (fun _ => Kept) Kept :=
  Seen.bind (ends_ask q) (fun _ => Seen.ite (fun _ => Seen.err (fun _ hx => hx)) (fun _ => Seen.pure (fun _ hx => hx)))

theorem works_pure (a : α) : Works may myKid uid i (pure a : PoolCo α) := Seen.pure (fun _ hx => hx)

theorem works_serial {body : PoolCo α} (h : Works may myKid uid i body) : Works may myKid uid i (serial i body) :=
  Seen.serial (fun h => h) h (fun _ hx => hx.kept)
    (fun _ _ hx hk hv ht => ⟨hk, hx.mine.stays hv, by simpa [watchOf] using ht⟩)

theorem ends_serial {body : PoolCo α} (h : Ends may myKid uid i body) : Ends may myKid uid i (serial i body) :=
  Seen.serial (fun h => h) h (fun _ hx => hx.kept)
    (fun _ _ hx hk hv ht => ⟨hk, hx.mine.stays hv, by simpa [watchOf] using ht⟩)

theorem works_setCell {f : Cell → Cell}
    (hf : ∀ c, ((f c).uid = c.uid ∨ (f c).uid = none ∨ (f c).uid = some uid) ∧ ∀ n, (f c).holds n → c.holds n) :
    Works may myKid uid i (modify (fun s => s.setCell i f)) := by
  refine works_modify (fun s hb hi => hb.setCell hi ?_ (hf _).2)
  rcases (hf (s.cells i)).1 with hu | hu
  · rw [hu]
    exact hi.named hb
  · exact hu

theorem tell_works {x : Pool × Log} (hx : Here uid i x) {a : Nat} (ha : (x.1.cells i).agent = some a)
    {bad : Pool × Log → Prop} :
    Seen pact may (watchOf myKid uid) (fun x' => x' = x) (modify (fun s => s.tell a) : PoolCo Unit) (fun _ => Here uid i)
      bad := by
  refine Seen.modify ?_
  rintro x' rfl
  have hl := hx.kept.bound.tell hx.mine ha
  exact ⟨hl.stays, hx.kept.local hl hx.stays, hx.mine.stays hl.stays, hx.stays⟩

theorem callOf_works (cmd : Cmd) : Works may myKid uid i (callOf i cmd) := by
  refine Seen.get (fun x hx => ?_)
  split
  · rename_i a ha
    exact Seen.bind (tell_works hx ha) (fun _ => works_call (fun _ => rfl))
  · exact Seen.err (fun _ hx' => hx' ▸ hx)

theorem hotFix_works : Works may myKid uid i (hotFix i) := by
  refine Seen.peek (fun s => Seen.ite (fun _ => ?_) (fun _ => works_pure ()))
  refine Seen.bind (M := fun _ => Here uid i) ?_ (fun _ => works_pure ())
  exact Seen.xpcall (callOf_works .hotFix) (fun _ _ hx => hx) (fun _ _ hx => hx)

theorem loginAgent_works : Works may myKid uid i (loginAgent i) := by
  refine Seen.bind hotFix_works (fun _ => Seen.bind (callOf_works .login) (fun r =>
    Seen.ite (fun _ => ?_) (fun _ => works_pure _)))
  exact Seen.bind (works_setCell (fun _ => ⟨.inl rfl, fun _ hn => hn⟩)) (fun _ => works_pure _)

theorem launchAgent_works {u : Option Nat} (hu : u = none ∨ u = some uid) (kid : Option Nat) :
    Works may myKid uid i (launchAgent i u kid) := by
  refine Seen.bind (M := fun _ => Here uid i) (Seen.check (fun _ hx => hx)) (fun _ => ?_)
  refine Seen.bind (works_modify (fun s hb hi => hb.launch hi hu)) (fun _ => ?_)
  refine Seen.bind (works_ask (fun _ => rfl)) (fun r => Seen.ite (fun _ => ?_) (fun _ => ?_))
  · exact Seen.bind (works_modify (fun s hb hi => hb.abandon hi)) (fun _ => Seen.err (fun _ hx => hx))
  · exact Seen.bind (works_modify (fun s hb hi => hb.launched hi)) (fun _ => loginAgent_works)

theorem login_works {u : Option Nat} (hu : u = none ∨ u = some uid) (kid : Option Nat) (subid : Nat) :
    Works may myKid uid i (login i u kid subid) := by
  refine works_serial (Seen.peek (fun s => Seen.ite (fun _ => works_pure _) (fun _ =>
    Seen.ite (fun _ => works_pure _) (fun _ => ?_))))
  refine Seen.bind (works_setCell (fun _ => ⟨.inr hu, fun _ hn => hn⟩)) (fun _ => ?_)
  exact Seen.ite (fun _ => works_pure _) (fun _ => launchAgent_works hu kid)

theorem letGo_works {f : Cell → Cell}
    (hf : ∀ c : Cell, (f c).uid = c.uid ∧ (f c).agent = none ∧ (f c).launching = c.launching) :
    Works may myKid uid i (modify (fun s => (s.dismissOf i).setCell i f)) := by
  refine works_modify (fun s hb hi => ?_)
  have hl := hb.dismissOf hi
  have hi' := hi.stays hl.stays
  refine hl.trans (hl.bound.setCell hi' ?_ (fun n hn => ?_))
  · rw [(hf _).1]
    exact hi'.named hl.bound
  · rcases hn with hn | hn
    · rw [(hf _).2.1] at hn
      cases hn
    · rw [(hf _).2.2] at hn
      exact .inr hn

theorem checkin_works (gate subid kid : Nat) : Works may myKid uid i (checkin i gate uid subid kid) := by
  refine works_serial (Seen.peek (fun s => Seen.ite (fun _ => ?_) (fun _ => Seen.ite (fun _ => ?_) (fun _ => ?_))))
  · exact Seen.bind (letGo_works (fun _ => ⟨rfl, rfl, rfl⟩)) (fun _ => Seen.err (fun _ hx => hx))
  · exact Seen.err (fun _ hx => hx)
  · refine Seen.bind (works_setCell (fun _ => ⟨.inr (.inr rfl), fun _ hn => hn⟩)) (fun _ => ?_)
    exact Seen.bind (callOf_works .checkin) (fun _ => works_setCell (fun _ => ⟨.inl rfl, fun _ hn => hn⟩))

theorem afk_works : Works may myKid uid i (afk i) := by
  refine works_serial (Seen.peek (fun s => Seen.ite (fun _ => works_pure ()) (fun _ => ?_)))
  refine Seen.bind (works_setCell (fun _ => ⟨.inl rfl, fun _ hn => hn⟩)) (fun _ => ?_)
  exact Seen.bind (callOf_works .afk) (fun _ => works_pure ())

theorem logoutBody_ends : Ends may myKid uid i (logoutBody i) := by
  refine Seen.bind (M := fun _ => Kept) ?_ (fun _ => Seen.bind (ends_call _) (fun _ => Seen.bind (ends_call _)
    (fun _ => Seen.pure (fun _ hx => hx))))
  refine Works.ends (letGo_works (fun c => ?_))
  dsimp only
  split <;> exact ⟨rfl, rfl, rfl⟩

theorem logoutOf_ends : Ends may myKid uid i (logoutOf i) :=
  Seen.bind (Works.loose (works_setCell (fun _ => ⟨.inl rfl, fun _ hn => hn⟩))) (fun _ => ends_serial logoutBody_ends)

theorem remove_works : Works may myKid uid i (remove (some uid)) :=
  Seen.bind (M := fun _ => Here uid i) (Seen.check (fun _ hx => hx)) (fun _ =>
    works_modify (fun _ hb _ => hb.removeAgent uid))

theorem freeCell_ends : Ends may myKid uid i (freeCell i) := by
  refine Seen.get (fun x hx => Seen.bind (M := fun _ => Kept) ?_ (fun _ => Seen.bind (ends_call _)
    (fun _ => Seen.pure (fun _ hx => hx))))
  rcases hx.mine.named hx.kept.bound with hu | hu
  · rw [hu]
    exact Seen.pure (fun _ hx' => hx' ▸ hx.kept)
  · rw [hu]
    exact Seen.conseq remove_works.ends (fun _ hx' => hx' ▸ hx) (fun _ _ h => h) (fun _ h => h)

theorem leaveGate_works : Works may myKid uid i (leaveGate i) := by
  refine Seen.peek (fun s => Seen.ite (fun _ => ?_) (fun _ => works_pure ()))
  exact Seen.bind (works_call (fun _ => rfl)) (fun _ => works_setCell (fun _ => ⟨.inl rfl, fun _ hn => hn⟩))

theorem safeFree_ends : Ends may myKid uid i (safeFree i) := by
  refine ends_serial (Seen.get (fun x hx => ?_))
  have hat : ∀ x', x' = x → Here uid i x' := fun _ hx' => hx' ▸ hx
  refine Seen.ite (fun _ => Seen.pure (fun x' hx' => (hat x' hx').kept)) (fun _ => ?_)
  split
  · exact Seen.conseq freeCell_ends hat (fun _ _ h => h) (fun _ h => h)
  · rename_i a ha
    refine Seen.bind (tell_works hx ha) (fun _ => ?_)
    refine Seen.bind (Works.loose (works_ask (fun _ => rfl))) (fun r =>
      Seen.ite (fun _ => (works_pure _).ends) (fun _ => ?_))
    refine Seen.bind (M := fun _ => Here uid i) ?_ (fun _ => ?_)
    · cases hr : decide (r = .bool true) with
      | true => exact Works.loose (works_modify (fun _ hb _ => hb.dismiss uid a))
      | false => exact Works.loose (works_pure ())
    refine Seen.bind (M := fun _ => Here uid i) (Seen.check (fun _ hx => hx)) (fun _ => ?_)
    refine Seen.bind (Works.loose (works_setCell ?_)) (fun _ => ?_)
    · exact fun _ => ⟨.inl rfl, fun _ hn => .inr (hn.resolve_left nofun)⟩
    refine Seen.bind (Works.loose leaveGate_works) (fun _ => ?_)
    exact Seen.bind (Works.loose (works_setCell (fun _ => ⟨.inl rfl, fun _ hn => hn⟩))) (fun _ => freeCell_ends)

theorem forward_works {x : Pool × Log} (hx : Here uid i x) {a : Nat} (ha : (x.1.cells i).agent = some a) (wait : Bool) :
    Seen pact may (watchOf myKid uid) (fun x' => x' = x) (forward a wait) (fun _ => Here uid i) (Here uid i) := by
  refine Seen.bind (tell_works hx ha) (fun _ => Seen.ite (fun _ => ?_) (fun _ => works_pure ()))
  exact Seen.bind (works_call (fun _ => rfl)) (fun _ => works_pure ())

theorem forwardTo_works (wait : Bool) : Works may myKid uid i (forwardTo i wait) := by
  refine Seen.get (fun x hx => ?_)
  have hat : ∀ x', x' = x → Here uid i x' := fun _ hx' => hx' ▸ hx
  refine Seen.ite (fun _ => ?_) (fun _ => Seen.bind (M := fun _ => Here uid i)
    (Seen.ite (fun _ => ?_) (fun _ => ?_)) (fun _ => ?_))
  · split
    · rename_i a ha
      exact forward_works hx ha wait
    · exact Seen.pure hat
  · refine Seen.bind (M := fun _ => Here uid i) ?_ (fun _ => works_pure ())
    exact Seen.conseq (login_works (hx.mine.named hx.kept.bound) _ 0) hat (fun _ _ h => h) (fun _ h => h)
  · exact Seen.pure hat
  · refine works_serial (Seen.get (fun y hy => ?_))
    split
    · rename_i a ha
      exact forward_works hy ha wait
    · exact Seen.pure (fun _ hy' => hy' ▸ hy)

/-! The pool's programs, which start anywhere. -/

def Started (uid : Nat) (c : Option Nat) (x : Pool × Log) : Prop :=
  match c with
  | some i => Here uid i x
  | none => Kept x

/-- **A start**: a pooled cell is found only before the player has gone, and no new one is made afterwards. -/
theorem startAgent_started (subid kid : Nat) :
    Seen pact may (watchOf myKid uid) Kept (startAgent myKid uid subid kid) (Started uid) Kept := by
  refine Seen.ite (fun _ => Seen.pure (fun _ hx => hx)) (fun _ => Seen.get (fun x hx => ?_))
  split
  · rename_i i hi
    exact Seen.pure (fun _ hx' => hx' ▸ hx.here hi)
  -- what is known of the answer: the player has not gone, or it names another kingdom
  refine Seen.bind (M := fun r x => Kept x ∧ ((∃ n, r = .num n ∧ n ≠ myKid) ∨ x.2.gone uid = false)) ?_ (fun r => ?_)
  · refine Seen.bind (M := fun r x => Kept x ∧ ((Req.getKidOfUid uid).passes myKid r || !x.2.gone uid) = true) ?_
      (fun r => ?_)
    · exact Seen.ask (fun h => h) (fun _ hx' => hx' ▸ hx) (fun _ _ _ _ _ hk _ ha => ⟨hk, ha⟩)
    · refine Seen.ite (fun _ => Seen.err (fun _ hx => hx.1)) (fun hr => Seen.pure (fun x hx => ⟨hx.1, ?_⟩))
      cases r with
      | raised => exact absurd rfl hr
      | nil => exact .inr (by simpa [Req.passes] using hx.2)
      | bool b => exact .inr (by simpa [Req.passes] using hx.2)
      | num n => simpa [Req.passes] using hx.2
  · refine Seen.ite (fun _ => Seen.pure (fun _ hx => hx.1)) (fun hkid => Seen.get (fun y hy => ?_))
    have hno : y.2.gone uid = false := by
      rcases hy.2 with ⟨n, rfl, hn⟩ | hno
      · simp only [Bool.or_eq_true, decide_eq_true_eq, not_or, not_not] at hkid
        exact absurd hkid.2 hn
      · exact hno
    refine Seen.bind (M := fun _ x => x = y) (Seen.check (fun _ hx => hx)) (fun _ => ?_)
    refine Seen.bind (M := fun _ => Here uid y.1.nextCell) (Seen.modify ?_) (fun _ => ?_)
    · rintro x' rfl
      obtain ⟨hl, hmine⟩ := hy.1.bound.addCell uid
      exact ⟨hl.stays, hy.1.local hl hno, hmine, hno⟩
    · refine Seen.bind (M := fun _ => Here uid y.1.nextCell) ?_ (fun r => ?_)
      · exact Seen.xpcall (login_works (.inr rfl) _ subid) (fun _ _ hx => hx) (fun _ _ hx => hx)
      · split
        · exact Seen.pure (fun _ hx => hx)
        · refine Seen.bind (Works.loose (works_modify (fun s hb hi => ?_))) (fun _ => Seen.pure (fun _ hx => hx.kept))
          refine ⟨⟨hb.pooled, fun {i u} hp => ?_, hb.fresh, hb.named, hb.drawn, hb.held⟩, Stays.refl s, fun _ _ => rfl,
            fun _ _ => rfl⟩
          rcases List.mem_cons.1 hp with he | hp
          · cases he
            exact hi
          · exact hb.awaited hp

abbrev Runs (may : Req → Reply → Bool) (myKid uid : Nat) (p : PoolCo α) : Prop :=
  Seen pact may (watchOf myKid uid) Kept p (fun _ => Kept) Kept

theorem runs_lookup {p : Pool → Nat → PoolCo Unit} (hp : ∀ s i, Ends may myKid uid i (p s i)) {g : Pool → PoolCo Unit}
    (hsome : ∀ s i, s.agentPool.lookup uid = some i → g s = p s i)
    (hnone : ∀ s, s.agentPool.lookup uid = none → g s = pure ()) : Runs may myKid uid (get >>= g) := by
  refine Seen.get (fun x hx => ?_)
  cases hi : x.1.agentPool.lookup uid with
  | some i =>
    rw [hsome x.1 i hi]
    exact Seen.conseq (hp x.1 i) (fun _ hx' => hx' ▸ hx.here hi) (fun _ _ h => h) (fun _ h => h)
  | none =>
    rw [hnone x.1 hi]
    exact Seen.pure (fun _ hx' => hx' ▸ hx)

theorem callAgent_runs (wait : Bool) : Runs may myKid uid (callAgent myKid uid wait) := by
  refine Seen.bind (startAgent_started 0 myKid) (fun c => ?_)
  cases c with
  | some i => exact (forwardTo_works wait).ends
  | none => exact Seen.pure (fun _ hx => hx)

theorem centerLogin_runs (gate subid kid : Nat) : Runs may myKid uid (centerLogin myKid gate uid subid kid) := by
  refine Seen.peek (fun s => Seen.bind (M := fun _ => Kept) (Seen.ite (fun _ => ?_) (fun _ => Seen.pure (fun _ hx => hx)))
    (fun _ => Seen.bind (startAgent_started subid kid) (fun c => ?_)))
  · exact Seen.bind (ends_call _) (fun _ => Seen.pure (fun _ hx => hx))
  · cases c with
    | some i => exact (checkin_works gate subid kid).ends
    | none => exact Seen.pure (fun _ hx => hx)

theorem callOnlineAgent_runs (wait : Bool) : Runs may myKid uid (callOnlineAgent uid wait) := by
  refine runs_lookup (p := fun s i => if (s.cells i).online = some true then forwardTo i wait else pure ()) ?_ ?_ ?_
  · exact fun s i => Seen.ite (fun _ => (forwardTo_works wait).ends) (fun _ => (works_pure ()).ends)
  · exact fun s i hi => by rw [hi]
  · exact fun s hi => by rw [hi]

theorem centerAfk_runs : Runs may myKid uid (centerAfk uid) :=
  runs_lookup (p := fun _ i => afk i) (fun _ _ => afk_works.ends) (fun s i hi => by rw [hi]) (fun s hi => by rw [hi])

theorem safeFree_unit_ends : Ends may myKid uid i (safeFree i >>= fun _ => pure () : PoolCo Unit) :=
  Seen.bind safeFree_ends (fun _ => Seen.pure (fun _ hx => hx))

theorem timerCallback_runs : Runs may myKid uid (timerCallback uid) :=
  runs_lookup (p := fun _ i => safeFree i >>= fun _ => pure ()) (fun _ _ => safeFree_unit_ends) (fun s i hi => by rw [hi])
    (fun s hi => by rw [hi])

theorem stopAgent_runs : Runs may myKid uid (stopAgent uid) := by
  refine runs_lookup
    (p := fun s i => if (s.cells i).online = some true then afk i else safeFree i >>= fun _ => pure ()) ?_ ?_ ?_
  · exact fun s i => Seen.ite (fun _ => afk_works.ends) (fun _ => safeFree_unit_ends)
  · exact fun s i hi => by rw [hi]
  · exact fun s hi => by rw [hi]

theorem centerLogout_runs : Runs may myKid uid (centerLogout uid) := by
  refine runs_lookup (p := fun _ i => serialTake i
    (fun s => (s.removeAgent uid).setCell i (fun c => { c with status := .free })) (logoutBody i)) ?_ ?_ ?_
  · intro _ i
    have hstep : ∀ s, Bound s → Mine s i uid →
        Local uid s ((s.removeAgent uid).setCell i (fun c => { c with status := .free })) := by
      intro s hb hi
      have hl := hb.removeAgent uid
      have hi' := hi.stays hl.stays
      exact hl.trans (hl.bound.setCell hi' (hi'.named hl.bound) (fun _ hn => hn))
    refine Seen.serialTake (fun h => h) logoutBody_ends (fun x hx => ?_) (fun x x' hx hk hv ht => ?_)
    · have hl := hstep x.1 hx.kept.bound hx.mine
      exact ⟨hx.kept.local hl hx.stays, hl.stays⟩
    · have hl := hstep x.1 hx.kept.bound hx.mine
      exact ⟨hk, (hx.mine.stays hl.stays).stays hv, by simpa [watchOf] using ht⟩
  · exact fun s i hi => by rw [hi]
  · exact fun s hi => by rw [hi]

theorem runs_same {f : Pool → Pool} (hf : ∀ s, Bound s → Bound (f s) ∧ Stays s (f s) ∧
    (f s).agentPool = s.agentPool ∧ (f s).told = s.told) : Runs may myKid uid (modify f) := by
  refine Seen.modify (fun x hx => ?_)
  obtain ⟨hb, hv, hpool, htold⟩ := hf x.1 hx.bound
  exact ⟨hv, hx.same hb hpool htold⟩

theorem setLock_runs (b : Bool) : Runs may myKid uid (modify (fun s => { s with lock := Function.update s.lock uid b })) :=
  runs_same (fun s hb => ⟨⟨hb.pooled, hb.awaited, hb.fresh, hb.named, hb.drawn, hb.held⟩, Stays.refl s, rfl, rfl⟩)

theorem migrateCell_runs : Runs may myKid uid (migrateCell uid) := by
  refine Seen.bind (setLock_runs true) (fun _ => Seen.bind (ends_call _) (fun _ => ?_))
  refine runs_lookup (p := fun _ i => logoutOf i >>= fun _ => (call .gateLogout).xpcall >>= fun _ => pure ()) ?_ ?_ ?_
  · intro _ i
    refine Seen.bind logoutOf_ends (fun _ => Seen.bind (M := fun _ => Kept) ?_ (fun _ => Seen.pure (fun _ hx => hx)))
    exact Seen.xpcall (ends_call _) (fun _ _ hx => hx) (fun _ _ hx => hx)
  · exact fun s i hi => by rw [hi]
  · exact fun s hi => by rw [hi]

theorem migrateData_runs : Runs may myKid uid (migrateData uid) := by
  refine Seen.bind (ends_call _) (fun _ => Seen.bind (M := fun _ => Kept) ?_ (fun _ => setLock_runs false))
  exact Seen.xpcall (ends_call _) (fun _ _ hx => hx) (fun _ _ hx => hx)

theorem remove_runs : Runs may myKid uid (remove (some uid)) := by
  refine Seen.bind (M := fun _ => Kept) (Seen.check (fun _ hx => hx)) (fun _ => Seen.modify (fun x hx => ?_))
  have hl := hx.bound.removeAgent uid
  refine ⟨hl.stays, ?_⟩
  cases hgone : x.2.gone uid with
  | true =>
    have hsame : x.1.removeAgent uid = x.1 := by simp [Pool.removeAgent, hx.out hgone]
    show Kept (x.1.removeAgent uid, x.2)
    rw [hsame]
    exact hx
  | false => exact hx.local hl hgone

/-- Dealing with a failed start: the player has not gone, or there is no agent to be told. -/
def Quiet (uid i : Nat) (x : Pool × Log) : Prop := x.2.gone uid = false ∨ (x.1.cells i).agent = none

theorem fixStart_runs : Seen pact may (watchOf myKid uid) (fun x => Kept x ∧ Quiet uid i x) (fixStart i uid)
    (fun _ => Kept) Kept := by
  refine Seen.get (fun x hx => Seen.ite (fun hp => ?_) (fun _ => Seen.pure (fun _ hx' => hx' ▸ hx.1)))
  refine Seen.bind (M := fun _ y => Kept y ∧ Quiet uid i y ∧ Mine y.1 i uid) (Seen.modify ?_) (fun _ =>
    Seen.ite (fun _ => Seen.pure (fun _ hy => hy.1)) (fun _ => Seen.bind (M := fun _ => Kept) (Seen.modify (fun y hy => ?_))
      (fun _ => remove_runs)))
  · rintro x' rfl
    have hb := hx.1.bound
    have hb' : Bound { x'.1 with pending := x'.1.pending.erase (i, uid) } :=
      ⟨hb.pooled, fun {i u} hm => hb.awaited (List.mem_of_mem_erase hm), hb.fresh, hb.named, hb.drawn, hb.held⟩
    exact ⟨Stays.refl x'.1, hx.1.same hb' rfl rfl, hx.2, hb.awaited hp⟩
  · have hl := hy.1.bound.dismissOf hy.2.2
    refine ⟨hl.stays, ?_⟩
    rcases hy.2.1 with hno | hnone
    · exact hy.1.local hl hno
    · have hsame : y.1.dismissOf i = y.1 := by simp [Pool.dismissOf, hnone]
      show Kept (y.1.dismissOf i, y.2)
      rw [hsame]
      exact hy.1

end Programs

theorem Kept.go {x : Pool × Log} (h : Kept x) {uid : Nat} (hno : x.1.agentPool.lookup uid = none) :
    Kept (x.1, x.2.go uid) where
  bound := h.bound
  out {u} hu := by
    by_cases he : u = uid
    · rw [he]
      exact hno
    · exact h.out (by simpa [Log.go, he] using hu)
  silent {u} hu := by
    refine ⟨?_, (h.silent hu).2⟩
    by_cases he : u = uid
    · rw [he]
      exact Function.update_self _ _ _
    · simpa [Log.go, he] using (h.silent hu).1

theorem Kept.move {x : Pool × Log} (h : Kept x) (uid : Nat) : Kept (x.1, x.2.move uid (x.1.heardBy uid)) := by
  unfold Log.move
  split
  · rename_i hgone
    refine ⟨h.bound, h.out, fun {u} hu => ?_⟩
    by_cases he : u = uid
    · subst he
      exact ⟨hgone, by simp⟩
    · have hu' : x.2.moved u = true := by simpa [he] using hu
      exact ⟨(h.silent hu').1, by simpa [he] using (h.silent hu').2⟩
  · exact h

theorem Kept.back {x : Pool × Log} (h : Kept x) (uid : Nat) : Kept (x.1, x.2.back uid) where
  bound := h.bound
  out {u} hu := by
    by_cases he : u = uid
    · rw [he] at hu
      simp [Log.back] at hu
    · exact h.out (by simpa [Log.back, he] using hu)
  silent {u} hu := by
    by_cases he : u = uid
    · rw [he] at hu
      simp [Log.back] at hu
    · have hu' : x.2.moved u = true := by simpa [Log.back, he] using hu
      exact ⟨by simpa [Log.back, he] using (h.silent hu').1, (h.silent hu').2⟩

theorem op_abides (myKid : Nat) : ∀ o : Move, Co.Abides pact (moveSys myKid).may (o.prog myKid)
  | .of (.callAgent _ wait) => callAgent_runs wait
  | .of (.callOnlineAgent _ wait) => callOnlineAgent_runs wait
  | .of (.login gate _ subid kid) => centerLogin_runs gate subid kid
  | .of (.logout _) => centerLogout_runs
  | .of (.afk _) => centerAfk_runs
  | .of (.removeAgent _) => remove_runs
  | .of (.timerCallback _) => timerCallback_runs
  | .of (.stopAgent _) => stopAgent_runs
  | .of .hotFix =>
    runs_same (fun s hb => ⟨⟨hb.pooled, hb.awaited, hb.fresh, hb.named, hb.drawn, hb.held⟩, Stays.refl s, rfl, rfl⟩)
  | .of .stop =>
    runs_same (fun s hb => ⟨⟨hb.pooled, hb.awaited, hb.fresh, hb.named, hb.drawn, hb.held⟩, Stays.refl s, rfl, rfl⟩)
  | .of (.migrateOut uid) => by
    refine Co.Vow.bind migrateCell_runs (fun _ => ?_)
    refine Co.Vow.bind (M := fun _ x => Kept x ∧ x.1.agentPool.lookup uid = none)
      (Co.Vow.note nofun (fun x hx hn => ?_)) (fun _ => ?_)
    · exact ⟨hx, Option.isNone_iff_eq_none.1 (hn rfl)⟩
    refine Co.Vow.bind (M := fun _ => Kept) (Co.Vow.modify (fun x hx => ⟨Stays.refl x.1, hx.1.go hx.2⟩)) (fun _ => ?_)
    refine Co.Vow.bind migrateData_runs (fun _ => Co.Abides.modify (fun x hx => ⟨hx.move uid, Stays.refl x.1⟩))
  | .of (.fixStart i uid) => by
    refine Co.Vow.bind (M := fun _ x => Kept x ∧ Quiet uid i x) (Co.Vow.note nofun (fun x hx hn => ⟨hx, ?_⟩))
      (fun _ => fixStart_runs)
    simpa [Quiet] using hn rfl
  | .migrateIn uid => by
    refine Co.Abides.bind (Co.Abides.modify (fun x hx => ⟨hx.back uid, Stays.refl x.1⟩)) (fun _ => ?_)
    rw [migrateOut_eq]
    exact Seen.bind migrateCell_runs (fun _ => migrateData_runs)

theorem kept_start : Kept (.start, .start) where
  bound := by
    refine ⟨fun {u i} hu => ?_, nofun, fun _ => rfl, fun _ => .inl rfl, nofun, fun {i n} hn => ?_⟩
    · rw [show Pool.start.agentPool.lookup u = none from AList.lookup_empty u] at hu
      cases hu
    · rcases hn with hn | hn <;> cases hn
  out := nofun
  silent := nofun

theorem keeping (myKid : Nat) : Co.Keeping pact (moveSys myKid) where
  prog o _ hx := (op_abides myKid o).final hx
  env a x hx := by
    have hl := hx.bound.exit 0 a
    exact ⟨hx.same hl.bound rfl rfl, hl.stays⟩

/-- **After every run a player who has moved has no agent here**, if each `migrateOut` leaves no cell of the player in the
pool, no operation of the player that waited for anything but the lock or the last services goes on afterwards, and the
kingdom of the player is then looked up as another one. -/
theorem departed_of_run (myKid : Nat) (es : List (Co.Event Move Reply Nat)) {w : Co.World (Pool × Log) Nat Req Reply}
    (hrun : (moveSys myKid).run (.init (.start, .start)) es = some w) (hclean : w.clean = true) : Departed w.st :=
  (Co.inv_of_run (keeping myKid) kept_start hrun hclean).departed

theorem departed_of_run_call : ∃ es w, (moveSys 1).run (.init (.start, .start)) es = some w ∧ w.clean = true ∧
    (w.st.2.moved 7 = true ∧ w.st.1.heardBy 7 = 3) ∧ Departed w.st := by
  -- the gate logs the player out within `migrateOut`; a later call finds the player in kingdom 2
  obtain ⟨w, hrun, hw⟩ : ∃ w ∈ (moveSys 1).run (.init (.start, .start))
      [.start (.of (.callAgent 7 true)), .reply 0 (.num 1), .reply 0 (.num 90), .reply 0 (.bool true), .reply 0 .nil,
        .start (.of (.migrateOut 7)), .reply 1 .nil, .reply 1 .nil, .reply 1 .nil, .start (.of (.logout 7)),
        .reply 2 .nil, .reply 2 .nil, .reply 1 .nil, .reply 1 .nil, .reply 1 .nil, .start (.of (.callAgent 7 true)),
        .reply 3 (.num 2)],
      w.clean = true ∧ w.st.2.moved 7 = true ∧ w.st.1.heardBy 7 = 3 := by
    decide +kernel
  exact ⟨_, w, hrun, hw.1, hw.2, departed_of_run 1 _ hrun hw.1⟩

/-- **The cell that `migrateOut` left in the pool is revived.**  The gate has no session of the player, so nothing takes the
cell out of the pool, and the next call finds it there without looking the kingdom up. -/
theorem left_cell_revived : ∃ es w, (moveSys 1).run (.init (.start, .start)) es = some w ∧ ¬Departed w.st := by
  obtain ⟨w, hrun, hw⟩ : ∃ w ∈ (moveSys 1).run (.init (.start, .start))
      [.start (.of (.callAgent 7 true)), .reply 0 (.num 1), .reply 0 (.num 90), .reply 0 (.bool true), .reply 0 .nil,
        .start (.of (.migrateOut 7)), .reply 1 .nil, .reply 1 .nil, .reply 1 .nil, .reply 1 .nil, .reply 1 .nil,
        .reply 1 .nil, .start (.of (.callAgent 7 true)), .reply 2 (.num 91), .reply 2 (.bool true)],
      w.st.2.moved 7 = true ∧ w.st.1.heardBy 7 ≠ w.st.2.heard 7 := by
    decide +kernel
  exact ⟨_, w, hrun, fun hd => hw.2 (hd 7 hw.1).2⟩

end AgentPool
end Sncpp
