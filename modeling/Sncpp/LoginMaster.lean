import Mathlib.Data.Fintype.Basic
import Sncpp.Steps
/-!
# LoginMaster — the session of a player in the cluster (`loginMaster:accept`, `logout`, `gateCenter:login`, `afk`, `logout`)

`accept` has the session of an earlier login put out, logs in to the gate and then writes the record; `logout`, which
a gate calls when a session of it is gone, takes the record of the player away whichever session it is about.
-/
namespace Sncpp
namespace LoginMaster

variable {υ γ : Type} [DecidableEq υ] [DecidableEq γ]

/-- What a gate has of sessions: the subid of each player's, and the usernames that find one. -/
structure Gate (υ : Type) where
  uidMap : υ → Option Nat
  usernameMap : List (υ × Nat)
  internalId : Nat

/-- What an operation tells the login server: the subid it names, and the session that is gone (no code reads it). -/
structure Gone where
  subid : Option Nat
  gone : Option Nat
deriving DecidableEq

namespace Gate

variable (G : Gate υ)

def forget (uid : υ) (names : List (υ × Nat)) : Gate υ :=
  { G with uidMap := Function.update G.uidMap uid none, usernameMap := G.usernameMap.filter (· ∉ names) }

def name (uid : υ) (subid : Option Nat) : List (υ × Nat) := (subid.map (fun n => (uid, n))).toList

def evict (uid : υ) : Gate υ × Option Gone :=
  match G.uidMap uid with
  | none => (G, none)
  | some s => (G.forget uid [(uid, s)], some ⟨some s, some s⟩)

def afk (uid : υ) (subid : Option Nat) : Gate υ × Option Gone :=
  match G.uidMap uid with
  | none => (G, none)
  | some s =>
    if subid.any (fun n => decide (s < n)) then (G.forget uid ((uid, s) :: name uid subid), some ⟨some s, some s⟩)
    else (G.forget uid (name uid subid), some ⟨some s, some s⟩)

def logout (uid : υ) (subid : Option Nat) : Gate υ × Option Gone :=
  match G.uidMap uid with
  | none => (G, none)
  | some s =>
    if subid.isSome ∧ subid ≠ some s then (G.forget uid ((uid, s) :: name uid subid), some ⟨some s, some s⟩)
    else (G.forget uid (name uid subid), some ⟨subid, some s⟩)

/-- `gateCenter:disconnectHandler`, for the socket of a session that its username finds, whichever session the player has. -/
def disconnect (uid : υ) (subid : Nat) : Gate υ × Option Gone :=
  if (uid, subid) ∈ G.usernameMap then (G.forget uid [(uid, subid)], some ⟨some subid, G.uidMap uid⟩) else (G, none)

def store (uid : υ) (subid : Nat) : Gate υ :=
  { G with uidMap := Function.update G.uidMap uid (some subid), usernameMap := (uid, subid) :: G.usernameMap }

end Gate

/-- A record of `userOnline`. -/
structure Online (γ : Type) where
  address : γ
  subid : Nat
deriving DecidableEq

/-- Where an `accept` is, from the look at the record on. -/
inductive Stage (γ : Type) where
  | afk (onlineInfo : Online γ)
  | afkCalled
  | login
  | pool (subid : Nat)
  | refused
  | loggedIn (subid : Nat)
deriving DecidableEq

def Stage.drawn : Stage γ → Option Nat
  | .pool subid => some subid
  | _ => none

def Stage.answered : Stage γ → Option Nat
  | .loggedIn subid => some subid
  | _ => none

structure Accept (υ γ : Type) where
  uid : υ
  address : γ
  stage : Stage γ
deriving DecidableEq

/-- A call of `loginMaster:logout` that has not arrived, and the `accept` that waits for the operation it comes from. -/
structure Logout (υ γ : Type) where
  address : γ
  uid : υ
  told : Gone
  owner : Option Nat
deriving DecidableEq

structure World (υ γ : Type) where
  gates : γ → Gate υ
  userOnline : υ → Option (Online γ)
  accepts : Nat → Option (Accept υ γ)
  logouts : List (Logout υ γ)

/-- An `accept` is known by its socket; a disconnect is at a gate, and so are the others that its agents and the pool
call. -/
inductive Event (υ γ : Type) where
  | accept (fd : Nat) (uid : υ) (address : γ)
  | afkArrives (fd : Nat)
  | afkReturns (fd : Nat)
  | loginArrives (fd : Nat)
  | agent (fd : Nat) (ok : Bool)
  | refusal (fd : Nat)
  | record (fd : Nat)
  | afk (address : γ) (uid : υ) (subid : Option Nat)
  | logout (address : γ) (uid : υ) (subid : Option Nat)
  | disconnect (address : γ) (uid : υ) (subid : Nat)
  | logoutArrives (n : Nat)

def Event.fd : Event υ γ → Option Nat
  | .afkArrives fd | .afkReturns fd | .loginArrives fd | .agent fd _ | .refusal fd | .record fd => some fd
  | _ => none

namespace World

variable (w : World υ γ)

def setStage (fd : Nat) (a : Accept υ γ) (stage : Option (Stage γ)) : World υ γ :=
  { w with accepts := Function.update w.accepts fd (stage.map (fun stage => { a with stage := stage })) }

/-- An operation at a gate, and the call of `logout` it makes. -/
def operate (address : γ) (uid : υ) (owner : Option Nat) (r : Gate υ × Option Gone) : World υ γ :=
  { w with
    gates := Function.update w.gates address r.1
    logouts := w.logouts ++ (r.2.map (fun told => ⟨address, uid, told, owner⟩)).toList }

def setOnline (uid : υ) (onlineInfo : Option (Online γ)) : World υ γ :=
  { w with userOnline := Function.update w.userOnline uid onlineInfo }

/-- The operation that an `accept` waits for has made its call of `logout`. -/
def told (fd : Nat) : Prop := ∀ m ∈ w.logouts, m.owner ≠ some fd

instance (fd : Nat) : Decidable (w.told fd) := inferInstanceAs (Decidable (∀ m ∈ w.logouts, m.owner ≠ some fd))

def turn (fd : Nat) (a : Accept υ γ) : Event υ γ → World υ γ
  | .afkArrives _ =>
    match a.stage with
    | .afk onlineInfo =>
      (w.operate onlineInfo.address a.uid (some fd)
        ((w.gates onlineInfo.address).afk a.uid (some onlineInfo.subid))).setStage
        fd a (some .afkCalled)
    | _ => w
  | .afkReturns _ =>
    match a.stage with
    | .afkCalled => if w.told fd then (w.setOnline a.uid none).setStage fd a (some .login) else w
    | _ => w
  | .loginArrives _ =>
    match a.stage with
    | .login =>
      let G := w.gates a.address
      match G.uidMap a.uid with
      | some _ => (w.operate a.address a.uid (some fd) (G.evict a.uid)).setStage fd a (some .refused)
      | none =>
        { w with gates := Function.update w.gates a.address { G with internalId := G.internalId + 1 } }.setStage fd a
          (some (.pool (G.internalId + 1)))
    | _ => w
  | .agent _ ok =>
    match a.stage with
    | .pool subid =>
      if ok then
        { w with gates := Function.update w.gates a.address ((w.gates a.address).store a.uid subid) }.setStage fd a
          (some (.loggedIn subid))
      else w.setStage fd a none
    | _ => w
  | .refusal _ =>
    match a.stage with
    | .refused => if w.told fd then w.setStage fd a none else w
    | _ => w
  | .record _ =>
    match a.stage with
    | .loggedIn subid => (w.setOnline a.uid (some ⟨a.address, subid⟩)).setStage fd a none
    | _ => w
  | _ => w

def step (e : Event υ γ) : World υ γ :=
  match e with
  | .accept fd uid address =>
    match w.accepts fd with
    | some _ => w
    | none =>
      let stage := match w.userOnline uid with
        | some onlineInfo => Stage.afk onlineInfo
        | none => .login
      { w with accepts := Function.update w.accepts fd (some ⟨uid, address, stage⟩) }
  | .afk address uid subid => w.operate address uid none ((w.gates address).afk uid subid)
  | .logout address uid subid => w.operate address uid none ((w.gates address).logout uid subid)
  | .disconnect address uid subid => w.operate address uid none ((w.gates address).disconnect uid subid)
  | .logoutArrives n =>
    match w.logouts[n]? with
    -- which subid it is about is not looked at
    | some m => { w with logouts := w.logouts.eraseIdx n }.setOnline m.uid none
    | none => w
  | e =>
    match e.fd with
    | some fd =>
      match w.accepts fd with
      | some a => w.turn fd a e
      | none => w
    | none => w

def Quiet (uid : υ) : Prop := (∀ fd, ∀ a ∈ w.accepts fd, a.uid ≠ uid) ∧ ∀ m ∈ w.logouts, m.uid ≠ uid

/-- **The record names the session there is**, whenever nothing is under way; and a `logout` that is not about the session
of the record leaves the record. -/
structure Right (e : Event υ γ) : Prop where
  online : ∀ uid, (w.step e).Quiet uid → ∀ g s,
    (w.step e).userOnline uid = some ⟨g, s⟩ ↔ ((w.step e).gates g).uidMap uid = some s
  stale : ∀ n, e = .logoutArrives n → ∀ m ∈ w.logouts[n]?, ∀ r ∈ w.userOnline m.uid,
    r.address ≠ m.address ∨ (∃ x ∈ m.told.subid, x ≠ r.subid) → (w.step e).userOnline m.uid = some r

/-- What the step finds as `accept` takes it to be: no session where a gate stores one; no other session of the player
when the record is written, and its own there or its `logout` under way; a record that is dropped is of a session that is
gone, and one that a `logout` takes away is of the session that the call is about. -/
def Kept : Event υ γ → Prop
  | .agent fd ok => ok = true → ∀ a ∈ w.accepts fd, a.stage.drawn ≠ none → (w.gates a.address).uidMap a.uid = none
  | .record fd => ∀ a ∈ w.accepts fd, ∀ s ∈ a.stage.answered,
      (∀ g, ∀ s' ∈ (w.gates g).uidMap a.uid, g = a.address ∧ s' = s) ∧
        ((w.gates a.address).uidMap a.uid = some s ∨
          ∃ m ∈ w.logouts, m.address = a.address ∧ m.uid = a.uid ∧ m.told.gone = some s)
  | .afkReturns fd => ∀ a ∈ w.accepts fd, a.stage = .afkCalled → w.told fd → ∀ r ∈ w.userOnline a.uid,
      (w.gates r.address).uidMap a.uid ≠ some r.subid
  | .logoutArrives n => ∀ m ∈ w.logouts[n]?, ∀ r ∈ w.userOnline m.uid,
      r.address = m.address ∧ m.told.gone = some r.subid ∧ ∀ x ∈ m.told.subid, x = r.subid
  | _ => True

instance [Fintype γ] : ∀ e : Event υ γ, Decidable (w.Kept e)
  | .agent fd ok => inferInstanceAs (Decidable (ok = true → ∀ a ∈ w.accepts fd, a.stage.drawn ≠ none →
      (w.gates a.address).uidMap a.uid = none))
  | .record fd => inferInstanceAs (Decidable (∀ a ∈ w.accepts fd, ∀ s ∈ a.stage.answered,
      (∀ g, ∀ s' ∈ (w.gates g).uidMap a.uid, g = a.address ∧ s' = s) ∧
        ((w.gates a.address).uidMap a.uid = some s ∨
          ∃ m ∈ w.logouts, m.address = a.address ∧ m.uid = a.uid ∧ m.told.gone = some s)))
  | .afkReturns fd => inferInstanceAs (Decidable (∀ a ∈ w.accepts fd, a.stage = .afkCalled → w.told fd →
      ∀ r ∈ w.userOnline a.uid, (w.gates r.address).uidMap a.uid ≠ some r.subid))
  | .logoutArrives n => inferInstanceAs (Decidable (∀ m ∈ w.logouts[n]?, ∀ r ∈ w.userOnline m.uid,
      r.address = m.address ∧ m.told.gone = some r.subid ∧ ∀ x ∈ m.told.subid, x = r.subid))
  | .accept .. | .afkArrives _ | .loginArrives _ | .refusal _ | .afk .. | .logout .. | .disconnect .. => isTrue trivial

structure Good : Prop where
  online : ∀ uid g s, w.userOnline uid = some ⟨g, s⟩ → (w.gates g).uidMap uid = some s ∨
    ∃ m ∈ w.logouts, m.address = g ∧ m.uid = uid ∧ m.told.gone = some s
  session : ∀ uid g s, (w.gates g).uidMap uid = some s → w.userOnline uid = some ⟨g, s⟩ ∨
    ∃ fd, w.accepts fd = some ⟨uid, g, .loggedIn s⟩
  gone : ∀ m ∈ w.logouts, ∀ s, m.told.gone = some s → (w.gates m.address).uidMap m.uid ≠ some s ∧
    s ≤ (w.gates m.address).internalId
  drawn : ∀ uid g s, (w.gates g).uidMap uid = some s → s ≤ (w.gates g).internalId
  pool : ∀ fd uid g s, w.accepts fd = some ⟨uid, g, .pool s⟩ → s ≤ (w.gates g).internalId ∧
    (∀ uid', (w.gates g).uidMap uid' ≠ some s) ∧ (∀ m ∈ w.logouts, m.address = g → m.told.gone ≠ some s) ∧
      ∀ fd' uid', w.accepts fd' = some ⟨uid', g, .pool s⟩ → fd' = fd

variable {w}

/-- What an operation about a player does at a gate: nothing, or his session is gone and the login server is told. -/
def Takes (G : Gate υ) (uid : υ) (r : Gate υ × Option Gone) : Prop :=
  r.1.internalId = G.internalId ∧ ((r.2 = none ∧ r.1.uidMap = G.uidMap) ∨
    ∃ told, r.2 = some told ∧ told.gone = G.uidMap uid ∧ r.1.uidMap = Function.update G.uidMap uid none)

theorem takes_evict (G : Gate υ) (uid : υ) : Takes G uid (G.evict uid) := by
  unfold Gate.evict
  cases h : G.uidMap uid with
  | none => exact ⟨rfl, .inl ⟨rfl, rfl⟩⟩
  | some s => exact ⟨rfl, .inr ⟨_, rfl, h.symm, rfl⟩⟩

theorem takes_afk (G : Gate υ) (uid : υ) (subid : Option Nat) : Takes G uid (G.afk uid subid) := by
  unfold Gate.afk
  cases h : G.uidMap uid with
  | none => exact ⟨rfl, .inl ⟨rfl, rfl⟩⟩
  | some s =>
    simp only
    split <;> exact ⟨rfl, .inr ⟨_, rfl, h.symm, rfl⟩⟩

theorem takes_logout (G : Gate υ) (uid : υ) (subid : Option Nat) : Takes G uid (G.logout uid subid) := by
  unfold Gate.logout
  cases h : G.uidMap uid with
  | none => exact ⟨rfl, .inl ⟨rfl, rfl⟩⟩
  | some s =>
    simp only
    split <;> exact ⟨rfl, .inr ⟨_, rfl, h.symm, rfl⟩⟩

theorem takes_disconnect (G : Gate υ) (uid : υ) (subid : Nat) : Takes G uid (G.disconnect uid subid) := by
  unfold Gate.disconnect
  split
  · exact ⟨rfl, .inr ⟨_, rfl, rfl, rfl⟩⟩
  · exact ⟨rfl, .inl ⟨rfl, rfl⟩⟩

theorem Takes.uidMap {G : Gate υ} {uid : υ} {r : Gate υ × Option Gone} (h : Takes G uid r) {uid' : υ} {s : Nat}
    (hs : r.1.uidMap uid' = some s) : G.uidMap uid' = some s := by
  rcases h.2 with ⟨-, heq⟩ | ⟨told, -, -, heq⟩
  · rwa [heq] at hs
  · rw [heq] at hs
    by_cases hu : uid' = uid
    · rw [hu, Function.update_self] at hs
      cases hs
    · rwa [Function.update_of_ne hu] at hs

theorem Takes.told {G : Gate υ} {uid : υ} {r : Gate υ × Option Gone} (h : Takes G uid r) {uid' : υ} {s : Nat}
    (hs : G.uidMap uid' = some s) : r.1.uidMap uid' = some s ∨ uid' = uid ∧ ∃ told, r.2 = some told ∧
      told.gone = some s := by
  rcases h.2 with ⟨-, heq⟩ | ⟨told, htold, hgone, heq⟩
  · exact .inl (by rw [heq]; exact hs)
  · by_cases hu : uid' = uid
    · rw [hu] at hs
      exact .inr ⟨hu, told, htold, hgone.trans hs⟩
    · exact .inl (by rw [heq, Function.update_of_ne hu]; exact hs)

omit [DecidableEq υ] in
theorem mem_operate {address : γ} {uid : υ} {owner : Option Nat} {r : Gate υ × Option Gone} {m : Logout υ γ} :
    m ∈ (w.operate address uid owner r).logouts ↔ m ∈ w.logouts ∨ ∃ told, r.2 = some told ∧
      m = ⟨address, uid, told, owner⟩ := by
  unfold operate
  simp only [List.mem_append, Option.mem_toList, Option.map_eq_some_iff]
  constructor
  · rintro (h | ⟨told, htold, rfl⟩)
    · exact .inl h
    · exact .inr ⟨told, htold, rfl⟩
  · rintro (h | ⟨told, htold, rfl⟩)
    · exact .inl h
    · exact .inr ⟨told, htold, rfl⟩

theorem Takes.gates {address : γ} {uid : υ} {owner : Option Nat} {r : Gate υ × Option Gone}
    (h : Takes (w.gates address) uid r)
    {g : γ} {uid' : υ} {s : Nat} (hs : ((w.operate address uid owner r).gates g).uidMap uid' = some s) :
    (w.gates g).uidMap uid' = some s := by
  unfold operate at hs
  by_cases hg : g = address
  · subst hg
    simp only [Function.update_self] at hs
    exact h.uidMap hs
  · simpa only [Function.update_of_ne hg] using hs

theorem Takes.internalId {address : γ} {uid : υ} {owner : Option Nat} {r : Gate υ × Option Gone}
    (h : Takes (w.gates address) uid r)
    (g : γ) : ((w.operate address uid owner r).gates g).internalId = (w.gates g).internalId := by
  unfold operate
  by_cases hg : g = address
  · subst hg
    simp only [Function.update_self]
    exact h.1
  · simp only [Function.update_of_ne hg]

theorem Good.operate (h : w.Good) {address : γ} {uid : υ} {owner : Option Nat} {r : Gate υ × Option Gone}
    (ht : Takes (w.gates address) uid r) : (w.operate address uid owner r).Good where
  online uid' g s hr := by
    rcases h.online uid' g s hr with hs | ⟨m, hm, hg, hu, hgone⟩
    · by_cases hg : g = address
      · subst hg
        rcases ht.told hs with hs | ⟨rfl, told, htold, hgone⟩
        · refine .inl ?_
          unfold World.operate
          simp only [Function.update_self]
          exact hs
        · exact .inr ⟨_, mem_operate.2 (.inr ⟨told, htold, rfl⟩), rfl, rfl, hgone⟩
      · refine .inl ?_
        unfold World.operate
        simp only [Function.update_of_ne hg]
        exact hs
    · exact .inr ⟨m, mem_operate.2 (.inl hm), hg, hu, hgone⟩
  session uid' g s hs := h.session uid' g s (ht.gates hs)
  gone m hm s hgone := by
    rw [ht.internalId]
    rcases mem_operate.1 hm with hm | ⟨told, htold, rfl⟩
    · exact ⟨fun hs => (h.gone m hm s hgone).1 (ht.gates hs), (h.gone m hm s hgone).2⟩
    · rcases ht.2 with ⟨hnone, -⟩ | ⟨told', htold', hgone', heq⟩
      · rw [hnone] at htold
        cases htold
      · obtain rfl := Option.some.inj (htold'.symm.trans htold)
        refine ⟨?_, h.drawn uid address s (hgone'.symm.trans hgone)⟩
        unfold World.operate
        simp only [Function.update_self]
        rw [heq, Function.update_self]
        exact nofun
  drawn uid' g s hs := by
    rw [ht.internalId]
    exact h.drawn uid' g s (ht.gates hs)
  pool fd uid' g s ha := by
    obtain ⟨hle, hno, hgone, hone⟩ := h.pool fd uid' g s ha
    rw [ht.internalId]
    refine ⟨hle, fun u hs => hno u (ht.gates hs), fun m hm hg hs => ?_, hone⟩
    rcases mem_operate.1 hm with hm | ⟨told, htold, rfl⟩
    · exact hgone m hm hg hs
    · rcases ht.2 with ⟨hnone, -⟩ | ⟨told', htold', hgone', -⟩
      · rw [hnone] at htold
        cases htold
      · obtain rfl := Option.some.inj (htold'.symm.trans htold)
        obtain rfl : address = g := hg
        exact hno uid (hgone'.symm.trans hs)

omit [DecidableEq υ] [DecidableEq γ] in
theorem Good.pool_sub (h : w.Good) {accepts : Nat → Option (Accept υ γ)}
    (hsub : ∀ fd uid g s, accepts fd = some ⟨uid, g, .pool s⟩ → w.accepts fd =
      some ⟨uid, g, .pool s⟩) {fd : Nat} {uid : υ} {g : γ}
    {s : Nat} (ha : accepts fd = some ⟨uid, g, .pool s⟩) : s ≤ (w.gates g).internalId ∧
      (∀ uid', (w.gates g).uidMap uid' ≠ some s) ∧
      (∀ m ∈ w.logouts, m.address = g → m.told.gone ≠ some s) ∧
        ∀ fd' uid', accepts fd' = some ⟨uid', g, .pool s⟩ → fd' = fd := by
  obtain ⟨hle, hno, hgone, hone⟩ := h.pool fd uid g s (hsub fd uid g s ha)
  exact ⟨hle, hno, hgone, fun fd' uid' ha' => hone fd' uid' (hsub fd' uid' g s ha')⟩

omit [DecidableEq υ] [DecidableEq γ] in
theorem accepts_of_update {fd : Nat} {new : Option (Accept υ γ)} (hpool : ∀ uid g s, new ≠ some ⟨uid, g, .pool s⟩)
    (fd' : Nat)
    (uid : υ) (g : γ) (s : Nat) (ha : Function.update w.accepts fd new fd' = some ⟨uid, g, .pool s⟩) :
    w.accepts fd' = some ⟨uid, g, .pool s⟩ := by
  by_cases heq : fd' = fd
  · rw [heq, Function.update_self] at ha
    exact absurd ha (hpool uid g s)
  · rwa [Function.update_of_ne heq] at ha

omit [DecidableEq υ] [DecidableEq γ] in
theorem Good.stage (h : w.Good) {fd : Nat} {new : Option (Accept υ γ)} (hpool : ∀ uid g s, new ≠ some ⟨uid, g, .pool s⟩)
    (hlogged : ∀ uid g s, w.accepts fd ≠ some ⟨uid, g, .loggedIn s⟩) :
    ({ w with accepts := Function.update w.accepts fd new } : World υ γ).Good where
  online := h.online
  session uid g s hs := by
    refine (h.session uid g s hs).imp_right (fun ⟨fd', ha⟩ => ⟨fd', ?_⟩)
    have hne : fd' ≠ fd := fun heq => hlogged uid g s (heq ▸ ha)
    exact (Function.update_of_ne hne ..).trans ha
  gone := h.gone
  drawn := h.drawn
  pool _ _ _ _ ha := h.pool_sub (accepts_of_update hpool) ha

omit [DecidableEq γ] in
theorem Good.drop (h : w.Good) {uid : υ} (hgone : ∀ r ∈ w.userOnline uid, (w.gates r.address).uidMap uid ≠ some r.subid) :
    (w.setOnline uid none).Good where
  online uid' g s hr := by
    by_cases hu : uid' = uid
    · unfold setOnline at hr
      rw [hu] at hr
      simp only [Function.update_self] at hr
      cases hr
    · unfold setOnline at hr
      simp only [Function.update_of_ne hu] at hr
      exact h.online uid' g s hr
  session uid' g s hs := by
    refine (h.session uid' g s hs).imp_left (fun hr => ?_)
    have hne : uid' ≠ uid := fun hu => by
      subst hu
      exact hgone _ hr hs
    exact (Function.update_of_ne hne ..).trans hr
  gone := h.gone
  drawn := h.drawn
  pool := h.pool

omit [DecidableEq υ] in
theorem Good.draw (h : w.Good) {fd : Nat} {a : Accept υ γ} (ha : w.accepts fd = some a) (hlogin : a.stage = .login) :
    ({ w with
      gates := Function.update w.gates a.address { w.gates a.address with internalId := (w.gates a.address).internalId + 1 }
      accepts := Function.update w.accepts fd (some { a with stage := .pool ((w.gates a.address).internalId + 1) }) } :
      World υ γ).Good := by
  have huidMap : ∀ g, (Function.update w.gates a.address
      { w.gates a.address with internalId := (w.gates a.address).internalId + 1 } g).uidMap = (w.gates g).uidMap := by
    intro g
    by_cases hg : g = a.address
    · subst hg
      rw [Function.update_self]
    · rw [Function.update_of_ne hg]
  have hinternal : ∀ g, (w.gates g).internalId ≤ (Function.update w.gates a.address
      { w.gates a.address with internalId := (w.gates a.address).internalId + 1 } g).internalId := by
    intro g
    by_cases hg : g = a.address
    · subst hg
      rw [Function.update_self]
      exact Nat.le_succ _
    · rw [Function.update_of_ne hg]
  refine ⟨fun uid g s hr => ?_, fun uid g s hs => ?_, fun m hm s hgone => ?_, fun uid g s hs => ?_,
    fun fd' uid g s ha' => ?_⟩
  · simp only
    rw [huidMap]
    exact h.online uid g s hr
  · simp only at hs
    rw [huidMap] at hs
    refine (h.session uid g s hs).imp_right (fun ⟨fd', ha'⟩ => ⟨fd', ?_⟩)
    have hne : fd' ≠ fd := fun heq => by
      rw [heq, ha] at ha'
      rw [Option.some.inj ha'] at hlogin
      cases hlogin
    exact (Function.update_of_ne hne ..).trans ha'
  · obtain ⟨hno, hle⟩ := h.gone m hm s hgone
    simp only
    rw [huidMap]
    exact ⟨hno, hle.trans (hinternal _)⟩
  · simp only at hs ⊢
    rw [huidMap] at hs
    exact (h.drawn uid g s hs).trans (hinternal g)
  · simp only at ha' ⊢
    by_cases hfd : fd' = fd
    · -- the subid drawn is above all that there are
      subst hfd
      rw [Function.update_self] at ha'
      obtain ⟨rfl, rfl, hs⟩ : a.uid = uid ∧ a.address = g ∧ Stage.pool ((w.gates a.address).internalId + 1) = .pool s := by
        simpa only [Option.some.injEq, Accept.mk.injEq] using ha'
      obtain rfl := Stage.pool.inj hs
      refine ⟨by rw [Function.update_self], fun uid' hs' => ?_, fun m hm hg hs' => ?_, fun fd'' uid' ha'' => ?_⟩
      · rw [huidMap] at hs'
        exact absurd (h.drawn uid' _ _ hs') (Nat.not_succ_le_self _)
      · have hle := (h.gone m hm _ hs').2
        rw [hg] at hle
        exact absurd hle (Nat.not_succ_le_self _)
      · by_contra hne
        rw [Function.update_of_ne hne] at ha''
        exact absurd (h.pool fd'' uid' _ _ ha'').1 (Nat.not_succ_le_self _)
    · rw [Function.update_of_ne hfd] at ha'
      obtain ⟨hle, hno, hgone, hone⟩ := h.pool fd' uid g s ha'
      refine ⟨hle.trans (hinternal g), fun uid' hs' => hno uid' (by rwa [huidMap] at hs'), hgone, fun fd'' uid' ha'' => ?_⟩
      by_cases hfd'' : fd'' = fd
      · subst hfd''
        rw [Function.update_self] at ha''
        obtain ⟨-, rfl, hs⟩ : a.uid = uid' ∧ a.address = g ∧ Stage.pool ((w.gates a.address).internalId + 1) = .pool s := by
          simpa only [Option.some.injEq, Accept.mk.injEq] using ha''
        obtain rfl := Stage.pool.inj hs
        exact absurd hle (Nat.not_succ_le_self _)
      · rw [Function.update_of_ne hfd''] at ha''
        exact hone fd'' uid' ha''

theorem Good.store (h : w.Good) {fd : Nat} {uid : υ} {address : γ} {subid : Nat}
    (ha : w.accepts fd = some ⟨uid, address, .pool subid⟩)
    (hnone : (w.gates address).uidMap uid = none) :
    ({ w with
      gates := Function.update w.gates address ((w.gates address).store uid subid)
      accepts := Function.update w.accepts fd (some ⟨uid, address, .loggedIn subid⟩) } : World υ γ).Good := by
  obtain ⟨hle, hno, htold, hone⟩ := h.pool fd uid address subid ha
  have hinternal : ∀ g, (Function.update w.gates address ((w.gates address).store uid subid) g).internalId =
    (w.gates g).internalId := by
    intro g
    by_cases hg : g = address
    · subst hg
      rw [Function.update_self]
      rfl
    · rw [Function.update_of_ne hg]
  have hself : (Function.update w.gates address ((w.gates address).store uid subid) address).uidMap uid = some subid := by
    rw [Function.update_self]
    exact Function.update_self ..
  have huidMap : ∀ g uid', ¬(g = address ∧ uid' = uid) →
      (Function.update w.gates address ((w.gates address).store uid subid) g).uidMap uid' = (w.gates g).uidMap uid' := by
    intro g uid' hne
    by_cases hg : g = address
    · subst hg
      rw [Function.update_self]
      exact Function.update_of_ne (fun hu => hne ⟨rfl, hu⟩) ..
    · rw [Function.update_of_ne hg]
  refine ⟨fun uid' g s hr => ?_, fun uid' g s hs => ?_, fun m hm s hgone => ?_, fun uid' g s hs => ?_,
    fun fd' uid' g s ha' => ?_⟩
  · refine (h.online uid' g s hr).imp_left (fun hs => ?_)
    have hne : ¬(g = address ∧ uid' = uid) := fun ⟨hg, hu⟩ => by
      rw [hg, hu, hnone] at hs
      cases hs
    exact (huidMap g uid' hne).trans hs
  · by_cases heq : g = address ∧ uid' = uid
    · obtain ⟨rfl, rfl⟩ := heq
      obtain rfl := Option.some.inj (hself.symm.trans hs)
      exact .inr ⟨fd, Function.update_self ..⟩
    · have hs' : (w.gates g).uidMap uid' = some s := (huidMap g uid' heq).symm.trans hs
      refine (h.session uid' g s hs').imp_right (fun ⟨fd', ha'⟩ => ⟨fd', ?_⟩)
      have hne : fd' ≠ fd := fun heq => by
        rw [heq, ha] at ha'
        cases ha'
      exact (Function.update_of_ne hne ..).trans ha'
  · obtain ⟨hno', hle'⟩ := h.gone m hm s hgone
    refine ⟨fun hs => ?_, by rw [hinternal]; exact hle'⟩
    by_cases heq : m.address = address ∧ m.uid = uid
    · simp only at hs
      rw [heq.1, heq.2, hself] at hs
      exact htold m hm heq.1 (hgone.trans hs.symm)
    · exact hno' ((huidMap _ _ heq).symm.trans hs)
  · simp only
    rw [hinternal]
    by_cases heq : g = address ∧ uid' = uid
    · obtain ⟨rfl, rfl⟩ := heq
      obtain rfl := Option.some.inj (hself.symm.trans hs)
      exact hle
    · exact h.drawn uid' g s ((huidMap g uid' heq).symm.trans hs)
  · have hne : fd' ≠ fd := fun heq => by
      simp only [heq, Function.update_self] at ha'
      cases ha'
    have ha'' : w.accepts fd' = some ⟨uid', g, .pool s⟩ := (Function.update_of_ne hne ..).symm.trans ha'
    obtain ⟨hle', hno', hgone', hone'⟩ := h.pool fd' uid' g s ha''
    refine ⟨by simp only; rw [hinternal]; exact hle', fun u hs => ?_, hgone', fun fd₂ u ha₂ => ?_⟩
    · by_cases heq : g = address ∧ u = uid
      · obtain ⟨rfl, rfl⟩ := heq
        obtain rfl := Option.some.inj (hself.symm.trans hs)
        exact hne (hone fd' uid' ha'')
      · exact hno' u ((huidMap g u heq).symm.trans hs)
    · have hne₂ : fd₂ ≠ fd := fun heq => by
        simp only [heq, Function.update_self] at ha₂
        cases ha₂
      exact hone' fd₂ u ((Function.update_of_ne hne₂ ..).symm.trans ha₂)

omit [DecidableEq γ] in
theorem Good.record (h : w.Good) {fd : Nat} {a : Accept υ γ} (ha : w.accepts fd = some a) {s : Nat}
    (hlogged : a.stage = .loggedIn s)
    (hone : ∀ g, ∀ s' ∈ (w.gates g).uidMap a.uid, g = a.address ∧ s' = s)
    (hthere : (w.gates a.address).uidMap a.uid = some s ∨
      ∃ m ∈ w.logouts, m.address = a.address ∧ m.uid = a.uid ∧ m.told.gone = some s) :
    ((w.setOnline a.uid (some ⟨a.address, s⟩)).setStage fd a none).Good where
  online uid g s' hr := by
    have hr' : Function.update w.userOnline a.uid (some ⟨a.address, s⟩) uid = some ⟨g, s'⟩ := hr
    by_cases hu : uid = a.uid
    · subst hu
      rw [Function.update_self] at hr'
      obtain ⟨rfl, rfl⟩ : a.address = g ∧ s = s' := by simpa only [Option.some.injEq, Online.mk.injEq] using hr'
      exact hthere
    · rw [Function.update_of_ne hu] at hr'
      exact h.online uid g s' hr'
  session uid g s' hs := by
    by_cases hu : uid = a.uid
    · subst hu
      obtain ⟨rfl, rfl⟩ := hone g s' hs
      exact .inl (Function.update_self ..)
    · refine (h.session uid g s' hs).imp (fun hr => (Function.update_of_ne hu ..).trans hr) (fun ⟨fd', ha'⟩ => ⟨fd', ?_⟩)
      have hne : fd' ≠ fd := fun heq => by
        rw [heq, ha] at ha'
        exact hu (congrArg Accept.uid (Option.some.inj ha')).symm
      exact (Function.update_of_ne hne ..).trans ha'
  gone := h.gone
  drawn := h.drawn
  pool _ _ _ _ ha' := h.pool_sub (accepts_of_update (fun _ _ _ heq => by cases heq)) ha'

omit [DecidableEq γ] in
/-- **A `logout` takes away the record of the session it is about.** -/
theorem Good.arrives (h : w.Good) {n : Nat} {m : Logout υ γ} (hn : w.logouts[n]? = some m)
    (habout : ∀ r ∈ w.userOnline m.uid, r.address = m.address ∧ m.told.gone = some r.subid) :
    ({ w with logouts := w.logouts.eraseIdx n }.setOnline m.uid none).Good where
  online uid g s hr := by
    have hr' : Function.update w.userOnline m.uid none uid = some ⟨g, s⟩ := hr
    have hne : uid ≠ m.uid := fun hu => by
      rw [hu, Function.update_self] at hr'
      cases hr'
    rw [Function.update_of_ne hne] at hr'
    refine (h.online uid g s hr').imp_right (fun ⟨m', hm', hg, hu, hgone⟩ => ⟨m', ?_, hg, hu, hgone⟩)
    obtain ⟨hlt, hget⟩ := List.getElem?_eq_some_iff.1 hn
    rcases List.mem_cons.1 ((List.getElem_cons_eraseIdx_perm hlt).mem_iff.2 hm') with heq | hm'
    · rw [hget] at heq
      exact absurd ((congrArg Logout.uid heq).symm.trans hu) hne.symm
    · exact hm'
  session uid g s hs := by
    refine (h.session uid g s hs).imp_left (fun hr => ?_)
    have hne : uid ≠ m.uid := fun hu => by
      subst hu
      obtain ⟨hg, hgone⟩ := habout _ hr
      obtain rfl : g = m.address := hg
      exact (h.gone m (List.mem_of_getElem? hn) s hgone).1 hs
    exact (Function.update_of_ne hne ..).trans hr
  gone m' hm' := h.gone m' (List.mem_of_mem_eraseIdx hm')
  drawn := h.drawn
  pool fd uid g s ha := by
    obtain ⟨hle, hno, hgone, hone⟩ := h.pool fd uid g s ha
    exact ⟨hle, hno, fun m' hm' => hgone m' (List.mem_of_mem_eraseIdx hm'), hone⟩

theorem step_accept (w : World υ γ) {e : Event υ γ} {fd : Nat} (he : e.fd = some fd) :
    w.step e = match w.accepts fd with | some a => w.turn fd a e | none => w := by
  cases e <;> cases he <;> rfl

theorem Good.turn (h : w.Good) {fd : Nat} {a : Accept υ γ} (ha : w.accepts fd = some a) {e : Event υ γ}
    (he : e.fd = some fd)
    (hkept : w.Kept e) : (w.turn fd a e).Good := by
  obtain ⟨uid, address, stage⟩ := a
  -- an `accept` that has not been answered by the gate
  have hlogged : (∀ s, stage ≠ .loggedIn s) → ∀ uid' g s, w.accepts fd ≠ some ⟨uid', g, .loggedIn s⟩ := by
    intro hno uid' g s heq
    rw [ha] at heq
    exact hno s (congrArg Accept.stage (Option.some.inj heq))
  cases e with
  | afkArrives fd' =>
    unfold World.turn
    cases stage with
    | afk onlineInfo =>
      refine (h.operate (takes_afk _ uid (some onlineInfo.subid))).stage (fun _ _ _ heq => ?_) (hlogged (fun s => nofun))
      cases heq
    | _ => exact h
  | afkReturns fd' =>
    obtain rfl := Option.some.inj he
    unfold World.turn
    cases stage with
    | afkCalled =>
      simp only
      split
      · rename_i htold
        exact (h.drop (hkept _ ha rfl htold)).stage (fun _ _ _ heq => by cases heq) (hlogged (fun s => nofun))
      · exact h
    | _ => exact h
  | loginArrives fd' =>
    unfold World.turn
    cases stage with
    | login =>
      simp only
      cases hsession : (w.gates address).uidMap uid with
      | some s =>
        exact (h.operate (takes_evict _ uid)).stage (fun _ _ _ heq => by cases heq) (hlogged (fun s => nofun))
      | none => exact h.draw ha rfl
    | _ => exact h
  | agent fd' ok =>
    obtain rfl := Option.some.inj he
    unfold World.turn
    cases stage with
    | pool subid =>
      cases ok with
      | true => exact h.store ha (hkept rfl _ ha nofun)
      | false => exact h.stage (fun _ _ _ => nofun) (hlogged (fun s => nofun))
    | _ => exact h
  | refusal fd' =>
    unfold World.turn
    cases stage with
    | refused =>
      simp only
      split
      · exact h.stage (fun _ _ _ => nofun) (hlogged (fun s => nofun))
      · exact h
    | _ => exact h
  | record fd' =>
    obtain rfl := Option.some.inj he
    unfold World.turn
    cases stage with
    | loggedIn subid =>
      obtain ⟨hone, hthere⟩ := hkept _ ha subid rfl
      exact h.record ha rfl hone hthere
    | _ => exact h
  | accept _ _ _ | afk _ _ _ | logout _ _ _ | disconnect _ _ _ | logoutArrives _ => cases he

theorem Good.step (h : w.Good) {e : Event υ γ} (hkept : w.Kept e) : (w.step e).Good := by
  cases hfd : e.fd with
  | some fd =>
    rw [step_accept w hfd]
    cases ha : w.accepts fd with
    | some a => exact h.turn ha hfd hkept
    | none => exact h
  | none =>
    cases e with
    | accept fd uid address =>
      unfold World.step
      simp only
      cases ha : w.accepts fd with
      | some a => exact h
      | none =>
        refine h.stage (fun uid' g s heq => ?_) (fun uid' g s heq => ?_)
        · have hstage := congrArg Accept.stage (Option.some.inj heq)
          cases hr : w.userOnline uid with
          | some r =>
            rw [hr] at hstage
            cases hstage
          | none =>
            rw [hr] at hstage
            cases hstage
        · rw [ha] at heq
          cases heq
    | afk address uid subid => exact h.operate (takes_afk _ uid subid)
    | logout address uid subid => exact h.operate (takes_logout _ uid subid)
    | disconnect address uid subid => exact h.operate (takes_disconnect _ uid subid)
    | logoutArrives n =>
      unfold World.step
      simp only
      cases hn : w.logouts[n]? with
      | some m => exact h.arrives hn (fun r hr => ⟨(hkept m hn r hr).1, (hkept m hn r hr).2.1⟩)
      | none => exact h
    | afkArrives _ | afkReturns _ | loginArrives _ | agent _ _ | refusal _ | record _ => cases hfd

theorem Good.right (h : w.Good) {e : Event υ γ} (hkept : w.Kept e) : w.Right e where
  online uid hquiet g s := by
    have hnext := h.step hkept
    constructor
    · intro hr
      refine (hnext.online uid g s hr).resolve_right (fun ⟨m, hm, _, hu, _⟩ => hquiet.2 m hm hu)
    · intro hs
      refine (hnext.session uid g s hs).resolve_right (fun ⟨fd, ha⟩ => hquiet.1 fd _ ha rfl)
  stale n he m hm r hr hother := by
    subst he
    obtain ⟨haddress, -, hsubid⟩ := hkept m hm r hr
    rcases hother with hne | ⟨x, hx, hne⟩
    · exact absurd haddress hne
    · exact absurd (hsubid x hx) hne

def start : World υ γ := ⟨fun _ => ⟨fun _ => none, [], 0⟩, fun _ => none, fun _ => none, []⟩

omit [DecidableEq υ] [DecidableEq γ] in
theorem good_start : (start : World υ γ).Good where
  online uid g s hr := by cases hr
  session uid g s hs := by cases hs
  gone m hm := by cases hm
  drawn uid g s hs := by cases hs
  pool fd uid g s ha := by cases ha

/-- **The record names the one session there is, in every run whose records are written, dropped and taken away as
`accept` takes it.** -/
theorem online_of_run (es : List (Event υ γ)) (h : Steps.Along step Kept (start : World υ γ) es) :
    Steps.Along step Right (start : World υ γ) es :=
  Steps.Along.keep (I := Good) (fun _ _ hkept hgood => ⟨hgood.step hkept, hgood.right hkept⟩) es _ good_start h

/-- A player logs in, again from another client, which has the first put out and goes to another gate, and out. -/
theorem online_again :
    let es : List (Event Nat Bool) :=
      [.accept 1 7 false, .loginArrives 1, .agent 1 true, .record 1, .accept 2 7 true, .afkArrives 2,
      .logoutArrives 0, .afkReturns 2, .loginArrives 2, .agent 2 true, .record 2, .logout true 7 (some 1), .logoutArrives 0]
    Steps.Along step Kept (start : World Nat Bool) es ∧ Steps.Along step Right (start : World Nat Bool) es :=
  ⟨by decide, online_of_run _ (by decide)⟩

/-- **Two clients of a player at once**: neither finds the other's session, which are at two gates; and when the first
goes, its `logout` takes away the record of the second. -/
theorem two_sessions :
    let es : List (Event Nat Bool) := [.accept 1 7 false, .accept 2 7 true, .loginArrives 1, .agent 1 true, .loginArrives 2,
      .agent 2 true, .record 1, .record 2]
    let w := es.foldl step (start : World Nat Bool)
    (w.gates false).uidMap 7 = some 1 ∧ (w.gates true).uidMap 7 = some 1 ∧ w.userOnline 7 = some ⟨true, 1⟩ ∧
      ((w.step (.disconnect false 7 1)).step (.logoutArrives 0)).userOnline 7 = none ∧
      ¬Steps.Along step Right (start : World Nat Bool) es := by
  refine ⟨by decide, by decide, by decide, by decide, fun h => ?_⟩
  have honline := h.2.2.2.2.2.2.2.1.online 7 ⟨fun fd a ha => ?_, by decide⟩ false 1
  · revert honline
    decide
  · rcases fd with _ | _ | _ | fd <;> cases ha

end World
end LoginMaster
end Sncpp
