import Sncpp.ChatCtrl
import Sncpp.ChatRoom
import Sncpp.Steps
/-!
# ChatTalk — the room of two friends

`getRoomId` of `chatCtrl.lua` for a private chat: the first of two friends notes a new id, has the room created and
the other note the id too; if one of the calls fails the note and the room go again.  Meanwhile another `getRoomId` of
the same player finds the id and gives it out.
-/
namespace Sncpp
namespace ChatCtrl

section Code

variable {υ ρ : Type} [DecidableEq υ] [DecidableEq ρ] (d : ChatCtrl υ ρ) (uid : υ)

def roomId : Option ρ := (d.friends.lookup uid).bind Friend.roomId

def setRoom (roomId : Option ρ) : ChatCtrl υ ρ :=
  match d.friends.lookup uid with
  | some friend => { d with friends := d.friends.insert uid { friend with roomId := roomId } }
  | none => d

/-- The id that the call returns, or the data with which it goes on to have the room `nextid` created. -/
def getRoomId (nextid : ρ) : ChatCtrl υ ρ × Option (Option ρ) :=
  match d.friends.lookup uid with
  | none => (d, some none)
  | some friend =>
    match friend.roomId with
    | some roomId => (d, some (some roomId))
    | none => (d.setRoom uid (some nextid), none)

def dropRoom (roomId : ρ) : ChatCtrl υ ρ := if d.roomId uid = some roomId then d.setRoom uid none else d

def setRoomId (roomId : ρ) : ChatCtrl υ ρ × Bool :=
  if uid ∈ d.friends ∧ d.roomId uid = none then (d.setRoom uid (some roomId), true) else (d, false)

variable {d uid}

omit [DecidableEq ρ] in
theorem mem_of_roomId {r : ρ} (h : d.roomId uid = some r) : uid ∈ d.friends := by
  obtain ⟨friend, hf, -⟩ := Option.bind_eq_some_iff.1 h
  exact AList.lookup_isSome.1 (Option.isSome_of_mem hf)

omit [DecidableEq ρ] in
theorem mem_setRoom (r : Option ρ) (x : υ) : x ∈ (d.setRoom uid r).friends ↔ x ∈ d.friends := by
  unfold setRoom
  cases hf : d.friends.lookup uid with
  | none => rfl
  | some friend =>
    rw [AList.mem_insert]
    refine or_iff_right_of_imp ?_
    rintro rfl
    exact AList.lookup_isSome.1 (Option.isSome_of_mem hf)

theorem mem_dropRoom (r : ρ) (x : υ) : x ∈ (d.dropRoom uid r).friends ↔ x ∈ d.friends := by
  unfold dropRoom
  split
  · exact mem_setRoom none x
  · rfl

omit [DecidableEq ρ] in
theorem roomId_setRoom (h : uid ∈ d.friends) (r : Option ρ) (x : υ) :
    (d.setRoom uid r).roomId x = if x = uid then r else d.roomId x := by
  obtain ⟨friend, hf⟩ := Option.isSome_iff_exists.1 (AList.lookup_isSome.2 h)
  unfold setRoom roomId
  rw [hf]
  by_cases hx : x = uid
  · subst hx
    simp
  · simp [AList.lookup_insert_ne hx, hx]

end Code

/-- The call to the chat service and the one to the other player: under way, or executed with this answer. -/
inductive Stage where
  | creating
  | created (ok : Bool)
  | asking
  | asked (ok : Bool)
deriving DecidableEq

/-- A `getRoomId` that waits for an answer; `again` once another of the same player for the same friend has come since. -/
structure Talk (υ : Type) where
  self : υ
  uid : υ
  roomId : Nat
  stage : Stage
  again : Bool

/-- `sent` are the `deleteRoom` under way, `returned` what was returned to whom. -/
structure Chats (υ : Type) [DecidableEq υ] where
  ctrl : υ → ChatCtrl υ Nat
  chat : ChatMgr υ Nat
  talks : Nat → Option (Talk υ)
  nextid : Nat
  sent : List Nat
  deleted : List Nat
  returned : List (υ × υ × Nat)

namespace Chats

inductive Event (υ : Type) where
  | getRoomId (c : Nat) (self uid : υ)
  | createRoom (c : Nat) (now : Int)
  | setRoomId (c : Nat)
  | reply (c : Nat)
  | fail (c : Nat)
  | deleteRoom (n : Nat)
  | free (roomId : Nat)

variable {υ : Type} [DecidableEq υ] (w : Chats υ)

def setTalk (c : Nat) (t : Option (Talk υ)) : Chats υ := { w with talks := Function.update w.talks c t }

def setCtrl (u : υ) (d : ChatCtrl υ Nat) : Chats υ := { w with ctrl := Function.update w.ctrl u d }

def start (c : Nat) (self uid : υ) : Chats υ :=
  match (w.ctrl self).getRoomId uid w.nextid with
  | (_, some none) => w
  | (_, some (some roomId)) =>
    { w with
      talks := fun c => (w.talks c).map (fun t => { t with again := t.again || (t.self = self ∧ t.uid = uid) })
      returned := (self, uid, roomId) :: w.returned }
  | (d, none) => { (w.setCtrl self d).setTalk c (some ⟨self, uid, w.nextid, .creating, false⟩) with nextid := w.nextid + 1 }

def drop (c : Nat) (t : Talk υ) : Chats υ :=
  { (w.setCtrl t.self ((w.ctrl t.self).dropRoom t.uid t.roomId)).setTalk c none with sent := w.sent ++ [t.roomId] }

def done (c : Nat) (t : Talk υ) : Chats υ :=
  { w.setTalk c none with
    returned := (((w.ctrl t.self).roomId t.uid).map (fun roomId => (t.self, t.uid, roomId))).toList ++ w.returned }

def answer (c : Nat) (t : Talk υ) : Chats υ :=
  match t.stage with
  | .created true => w.setTalk c (some { t with stage := .asking })
  | .created false => w.drop c t
  | .asked true => w.done c t
  | .asked false => w.drop c t
  | _ => w

/-- A call may fail before it has been executed or after it. -/
def step : Event υ → Chats υ
  | .getRoomId c self uid => if w.talks c = none then w.start c self uid else w
  | .createRoom c now =>
    match w.talks c with
    | some ⟨self, uid, roomId, .creating, again⟩ =>
      let r := w.chat.createRoom roomId .group [(self, false), (uid, false)] none none now
      { w.setTalk c (some ⟨self, uid, roomId, .created r.2, again⟩) with chat := r.1 }
    | _ => w
  | .setRoomId c =>
    match w.talks c with
    | some ⟨self, uid, roomId, .asking, again⟩ =>
      let r := (w.ctrl uid).setRoomId self roomId
      (w.setCtrl uid r.1).setTalk c (some ⟨self, uid, roomId, .asked r.2, again⟩)
    | _ => w
  | .reply c =>
    match w.talks c with
    | some t => w.answer c t
    | none => w
  | .fail c =>
    match w.talks c with
    | some t => w.drop c t
    | none => w
  | .deleteRoom n =>
    match w.sent[n]? with
    | some roomId => { w with chat := w.chat.deleteRoom roomId, sent := w.sent.eraseIdx n, deleted := roomId :: w.deleted }
    | none => w
  | .free roomId => { w with chat := w.chat.releaseRoom roomId }

def Kept : Event υ → Prop
  | .reply c => ∀ t ∈ w.talks c, t.stage = .created false ∨ t.stage = .asked false → t.again = false
  | .fail c => ∀ t ∈ w.talks c, t.again = false ∧ t.stage ≠ .asked true
  | _ => True

instance : ∀ e : Event υ, Decidable (w.Kept e)
  | .reply c =>
    inferInstanceAs (Decidable (∀ t ∈ w.talks c, t.stage = .created false ∨ t.stage = .asked false → t.again = false))
  | .fail c => inferInstanceAs (Decidable (∀ t ∈ w.talks c, t.again = false ∧ t.stage ≠ .asked true))
  | .getRoomId _ _ _ => isTrue trivial
  | .createRoom _ _ => isTrue trivial
  | .setRoomId _ => isTrue trivial
  | .deleteRoom _ => isTrue trivial
  | .free _ => isTrue trivial

def noted (u v : υ) : Option Nat := (w.ctrl u).roomId v

def Shared (u v : υ) (r : Nat) : Prop := w.noted u v = some r ∧ w.noted v u = some r ∧ w.chat.Has r [u, v]

/-- **Two friends agree on their room** when no call is in flight. -/
structure Agreed : Prop where
  noted : (∀ c, w.talks c = none) → ∀ u v r, w.noted u v = some r → w.Shared u v r
  returned : (∀ c, w.talks c = none) → ∀ x ∈ w.returned, w.Shared x.1 x.2.1 x.2.2
  deleted : ∀ r ∈ w.deleted, ∀ u v, w.noted u v ≠ some r

/-- The state before the calls: nobody is a friend of its own, and what is noted is agreed on. -/
structure Ready : Prop where
  own : ∀ u, u ∉ (w.ctrl u).friends
  talks : ∀ c, w.talks c = none
  noted : ∀ u v r, w.noted u v = some r → r < w.nextid ∧ w.Shared u v r
  sent : w.sent = []
  deleted : w.deleted = []
  returned : w.returned = []

def Open (u v : υ) (r : Nat) : Prop :=
  ∃ c, ∃ t ∈ w.talks c, (t.self = u ∧ t.uid = v ∧ t.roomId = r) ∧ t.stage ≠ .asked true

structure Fits (t : Talk υ) : Prop where
  noted : w.noted t.self t.uid = some t.roomId
  only : t.stage ≠ .asked true → ∀ u v, w.noted u v = some t.roomId → u = t.self ∧ v = t.uid
  made : t.stage ≠ .creating → t.stage ≠ .created false → w.chat.Has t.roomId [t.self, t.uid]
  followed : t.stage = .asked true → w.noted t.uid t.self = some t.roomId

def Given (x : υ × υ × Nat) : Prop :=
  w.Shared x.1 x.2.1 x.2.2 ∨
    ∃ c, ∃ t ∈ w.talks c, (t.self = x.1 ∧ t.uid = x.2.1 ∧ t.roomId = x.2.2) ∧ t.stage ≠ .asked true ∧ t.again = true

structure Good : Prop where
  own : ∀ u, u ∉ (w.ctrl u).friends
  ids : ∀ u v r, w.noted u v = some r → r < w.nextid
  noted : ∀ u v r, w.noted u v = some r → w.Open u v r ∨ w.Shared u v r
  talk : ∀ c, ∀ t ∈ w.talks c, w.Fits t
  one : ∀ c c', ∀ t ∈ w.talks c, ∀ t' ∈ w.talks c', t.roomId = t'.roomId → c = c'
  gone : ∀ r, r ∈ w.sent ∨ r ∈ w.deleted → r < w.nextid ∧ ∀ u v, w.noted u v ≠ some r
  returned : ∀ x ∈ w.returned, w.Given x

variable {w}

theorem Ready.good (h : w.Ready) : w.Good where
  own := h.own
  ids u v r hr := (h.noted u v r hr).1
  noted u v r hr := Or.inr (h.noted u v r hr).2
  talk c t ht := by
    rw [h.talks c] at ht
    cases ht
  one c c' t ht := by
    rw [h.talks c] at ht
    cases ht
  gone r hr := by
    rw [h.sent, h.deleted] at hr
    exact hr.elim (fun hmem => by cases hmem) (fun hmem => by cases hmem)
  returned x hx := by
    rw [h.returned] at hx
    cases hx

theorem Good.agreed (h : w.Good) : w.Agreed where
  noted hquiet u v r hr := by
    refine (h.noted u v r hr).resolve_left ?_
    rintro ⟨c, t, ht, -⟩
    rw [hquiet c] at ht
    cases ht
  returned hquiet x hx := by
    refine (h.returned x hx).resolve_right ?_
    rintro ⟨c, t, ht, -⟩
    rw [hquiet c] at ht
    cases ht
  deleted r hr u v := (h.gone r (Or.inr hr)).2 u v

theorem Good.ne (h : w.Good) {u v : υ} {r : Nat} (hr : w.noted u v = some r) : u ≠ v := by
  rintro rfl
  exact h.own u (mem_of_roomId hr)

structure Like (t t' : Talk υ) : Prop where
  self : t'.self = t.self
  uid : t'.uid = t.uid
  roomId : t'.roomId = t.roomId
  stage : t'.stage = .asked true ↔ t.stage = .asked true
  again : t.again = true → t'.again = true

omit [DecidableEq υ] in
theorem Like.rfl (t : Talk υ) : Like t t := ⟨Eq.refl _, Eq.refl _, Eq.refl _, Iff.rfl, id⟩

variable {w' : Chats υ}

theorem Shared.keep {u v : υ} {r : Nat} (h : w.Shared u v r) (hnoted : ∀ u v, w'.noted u v = w.noted u v)
    (hhas : ∀ u v r, w.noted u v = some r → w.chat.Has r [u, v] → w'.chat.Has r [u, v]) : w'.Shared u v r :=
  ⟨(hnoted u v).trans h.1, (hnoted v u).trans h.2.1, hhas u v r h.1 h.2.2⟩

theorem Good.frame (h : w.Good) (hfriends : ∀ u x, x ∈ (w'.ctrl u).friends ↔ x ∈ (w.ctrl u).friends)
    (hnoted : ∀ u v, w'.noted u v = w.noted u v) (hnext : w'.nextid = w.nextid)
    (hgone : ∀ r, r ∈ w'.sent ∨ r ∈ w'.deleted → r ∈ w.sent ∨ r ∈ w.deleted)
    (hhas : ∀ u v r, w.noted u v = some r → w.chat.Has r [u, v] → w'.chat.Has r [u, v])
    (hback : ∀ c, ∀ t' ∈ w'.talks c, ∃ t ∈ w.talks c, Like t t')
    (hforth : ∀ c, ∀ t ∈ w.talks c, t.stage ≠ .asked true → ∃ t' ∈ w'.talks c, Like t t')
    (hmade : ∀ c, ∀ t' ∈ w'.talks c, t'.stage ≠ .creating → t'.stage ≠ .created false →
      w'.chat.Has t'.roomId [t'.self, t'.uid])
    (hreturned : ∀ x ∈ w'.returned, x ∈ w.returned ∨ w'.Given x) : w'.Good where
  own u hmem := h.own u ((hfriends u u).1 hmem)
  ids u v r hr := by
    rw [hnoted] at hr
    rw [hnext]
    exact h.ids u v r hr
  noted u v r hr := by
    rw [hnoted] at hr
    refine (h.noted u v r hr).imp ?_ (fun hshared => hshared.keep hnoted hhas)
    rintro ⟨c, t, ht, ⟨hu, hv, hid⟩, hstage⟩
    obtain ⟨t', ht', hlike⟩ := hforth c t ht hstage
    exact ⟨c, t', ht', ⟨hlike.self.trans hu, hlike.uid.trans hv, hlike.roomId.trans hid⟩, fun heq =>
      hstage (hlike.stage.1 heq)⟩
  talk c t' ht' := by
    obtain ⟨t, ht, hlike⟩ := hback c t' ht'
    have hfits := h.talk c t ht
    exact {
      noted := by
        rw [hnoted, hlike.self, hlike.uid, hlike.roomId]
        exact hfits.noted
      only := fun hstage u v hr => by
        rw [hnoted, hlike.roomId] at hr
        rw [hlike.self, hlike.uid]
        exact hfits.only (fun heq => hstage (hlike.stage.2 heq)) u v hr
      made := hmade c t' ht'
      followed := fun hstage => by
        rw [hnoted, hlike.self, hlike.uid, hlike.roomId]
        exact hfits.followed (hlike.stage.1 hstage) }
  one c c' t₁ h₁ t₂ h₂ heq := by
    obtain ⟨t, ht, hlike⟩ := hback c t₁ h₁
    obtain ⟨t', ht', hlike'⟩ := hback c' t₂ h₂
    exact h.one c c' t ht t' ht' (hlike.roomId.symm.trans (heq.trans hlike'.roomId))
  gone r hr := by
    obtain ⟨hlt, hno⟩ := h.gone r (hgone r hr)
    rw [hnext]
    refine ⟨hlt, fun u v => ?_⟩
    rw [hnoted]
    exact hno u v
  returned x hx := by
    rcases hreturned x hx with hx | hx
    · refine (h.returned x hx).imp (fun hshared => hshared.keep hnoted hhas) ?_
      rintro ⟨c, t, ht, ⟨hu, hv, hid⟩, hstage, hagain⟩
      obtain ⟨t', ht', hlike⟩ := hforth c t ht hstage
      exact ⟨c, t', ht', ⟨hlike.self.trans hu, hlike.uid.trans hv, hlike.roomId.trans hid⟩,
        fun heq => hstage (hlike.stage.1 heq), hlike.again hagain⟩
    · exact hx

theorem mem_setTalk {c c' : Nat} {o : Option (Talk υ)} {t : Talk υ} :
    t ∈ (w.setTalk c o).talks c' ↔ if c' = c then t ∈ o else t ∈ w.talks c' := by
  by_cases hc : c' = c
  · subst hc
    simp [setTalk]
  · simp [setTalk, hc]

theorem Good.retalk (h : w.Good) {c : Nat} {t : Talk υ} (ht : t ∈ w.talks c) (t' : Talk υ) (chat : ChatMgr υ Nat)
    (hlike : Like t t')
    (hhas : ∀ u v r, w.noted u v = some r → w.chat.Has r [u, v] → chat.Has r [u, v])
    (hmade : t'.stage ≠ .creating → t'.stage ≠ .created false → chat.Has t'.roomId [t'.self, t'.uid]) :
    Good { w.setTalk c (some t') with chat := chat } := by
  refine h.frame (fun _ _ => Iff.rfl) (fun _ _ => rfl) rfl (fun _ hr => hr) hhas ?_ ?_ ?_ (fun _ hx => Or.inl hx)
  · intro c' x hx
    replace hx := mem_setTalk.1 hx
    split at hx
    · next hc =>
      obtain rfl := Option.some.inj hx
      exact ⟨t, hc ▸ ht, hlike⟩
    · exact ⟨x, hx, Like.rfl x⟩
  · intro c' x hx _
    by_cases hc : c' = c
    · subst hc
      obtain rfl := Option.some.inj (ht.symm.trans hx)
      exact ⟨t', mem_setTalk.2 (by rw [if_pos rfl]; rfl), hlike⟩
    · exact ⟨x, mem_setTalk.2 (by rwa [if_neg hc]), Like.rfl x⟩
  · intro c' x hx hstage hstage'
    replace hx := mem_setTalk.1 hx
    split at hx
    · obtain rfl := Option.some.inj hx
      exact hmade hstage hstage'
    · have hfits := h.talk c' x hx
      exact hhas _ _ _ hfits.noted (hfits.made hstage hstage')

theorem Good.createRoom (h : w.Good) {c : Nat} {self uid : υ} {roomId : Nat} {again : Bool}
    (ht : (⟨self, uid, roomId, .creating, again⟩ : Talk υ) ∈ w.talks c) (now : Int) :
    Good { w.setTalk c (some ⟨self, uid, roomId,
        .created (w.chat.createRoom roomId .group [(self, false), (uid, false)] none none now).2, again⟩) with
      chat := (w.chat.createRoom roomId .group [(self, false), (uid, false)] none none now).1 } := by
  have hfits := h.talk c _ ht
  have hthis : (w.chat.createRoom roomId .group [(self, false), (uid, false)] none none now).1.Has roomId [self, uid] :=
    ChatMgr.has_createRoom _ now
  refine h.retalk ht _ _ ⟨rfl, rfl, rfl, ?_, id⟩ (fun u v r hr hhas => ?_) (fun _ _ => hthis)
  · exact iff_of_false (fun heq => by cases heq) (fun heq => by cases heq)
  · by_cases hid : r = roomId
    · subst hid
      obtain ⟨rfl, rfl⟩ := hfits.only (fun heq => by cases heq) u v hr
      exact hthis
    · exact hhas.keep (ChatMgr.db_createRoom _ _ _ _ _ hid)

theorem Good.free (h : w.Good) (roomId : Nat) : Good { w with chat := w.chat.releaseRoom roomId } :=
  h.frame (fun _ _ => Iff.rfl) (fun _ _ => rfl) rfl (fun _ hr => hr) (fun _ _ _ _ hhas => hhas) (fun _ t ht =>
    ⟨t, ht, Like.rfl t⟩)
    (fun _ t ht _ => ⟨t, ht, Like.rfl t⟩) (fun c t ht => (h.talk c t ht).made) (fun _ hx => Or.inl hx)

theorem Good.deleteRoom (h : w.Good) {n roomId : Nat} (hn : w.sent[n]? = some roomId) :
    Good { w with chat := w.chat.deleteRoom roomId, sent := w.sent.eraseIdx n, deleted := roomId :: w.deleted } := by
  have hsent := List.mem_of_getElem? hn
  have hno := (h.gone roomId (Or.inl hsent)).2
  have hhas : ∀ u v r, w.noted u v = some r → w.chat.Has r [u, v] → (w.chat.deleteRoom roomId).Has r [u, v] := by
    intro u v r hr hhas
    refine hhas.keep (Function.update_of_ne ?_ _ _)
    rintro rfl
    exact hno u v hr
  refine h.frame (fun _ _ => Iff.rfl) (fun _ _ => rfl) rfl ?_ hhas (fun _ t ht => ⟨t, ht, Like.rfl t⟩)
    (fun _ t ht _ => ⟨t, ht, Like.rfl t⟩) ?_ (fun _ hx => Or.inl hx)
  · rintro r (hr | hr)
    · exact Or.inl (List.mem_of_mem_eraseIdx hr)
    · rcases List.mem_cons.1 hr with rfl | hr
      · exact Or.inl hsent
      · exact Or.inr hr
  · intro c t ht hstage hstage'
    have hfits := h.talk c t ht
    exact hhas _ _ _ hfits.noted (hfits.made hstage hstage')

theorem Good.found (h : w.Good) {self uid : υ} {roomId : Nat} (hr : w.noted self uid = some roomId) :
    Good { w with
      talks := fun c => (w.talks c).map (fun t => { t with again := t.again || (t.self = self ∧ t.uid = uid) })
      returned := (self, uid, roomId) :: w.returned } := by
  refine h.frame (fun _ _ => Iff.rfl) (fun _ _ => rfl) rfl (fun _ hr => hr) (fun _ _ _ _ hhas => hhas) ?_ ?_ ?_ ?_
  · intro c t' ht'
    obtain ⟨t, ht, rfl⟩ := Option.map_eq_some_iff.1 ht'
    exact ⟨t, ht, rfl, rfl, rfl, Iff.rfl, fun hagain => by simp [hagain]⟩
  · intro c t ht _
    exact ⟨_, Option.map_eq_some_iff.2 ⟨t, ht, rfl⟩, rfl, rfl, rfl, Iff.rfl, fun hagain => by simp [hagain]⟩
  · intro c t' ht'
    obtain ⟨t, ht, rfl⟩ := Option.map_eq_some_iff.1 ht'
    exact (h.talk c t ht).made
  · intro x hx
    rcases List.mem_cons.1 hx with rfl | hx
    · refine Or.inr ((h.noted self uid roomId hr).symm.imp (fun hshared => hshared) ?_)
      rintro ⟨c, t, ht, ⟨rfl, rfl, rfl⟩, hstage⟩
      exact ⟨c, _, Option.map_eq_some_iff.2 ⟨t, ht, rfl⟩, ⟨rfl, rfl, rfl⟩, hstage, by simp⟩
    · exact Or.inl hx

theorem Good.done (h : w.Good) {c : Nat} {t : Talk υ} (ht : t ∈ w.talks c) (hstage : t.stage = .asked true) :
    (w.done c t).Good := by
  have hfits := h.talk c t ht
  have hmade := hfits.made (fun heq => by rw [hstage] at heq; cases heq) (fun heq => by rw [hstage] at heq; cases heq)
  refine h.frame (fun _ _ => Iff.rfl) (fun _ _ => rfl) rfl (fun _ hr => hr) (fun _ _ _ _ hhas => hhas) ?_ ?_ ?_ ?_
  · intro c' t' ht'
    replace ht' := mem_setTalk.1 ht'
    split at ht'
    · cases ht'
    · exact ⟨t', ht', Like.rfl t'⟩
  · intro c' t' ht' hstage'
    refine ⟨t', mem_setTalk.2 ?_, Like.rfl t'⟩
    rw [if_neg]
    · exact ht'
    · rintro rfl
      obtain rfl := Option.some.inj (ht.symm.trans ht')
      exact hstage' hstage
  · intro c' t' ht'
    replace ht' := mem_setTalk.1 ht'
    split at ht'
    · cases ht'
    · exact (h.talk c' t' ht').made
  · intro x hx
    rcases List.mem_append.1 hx with hx | hx
    · rw [show (w.ctrl t.self).roomId t.uid = some t.roomId from hfits.noted] at hx
      obtain rfl := List.mem_singleton.1 hx
      exact Or.inr (Or.inl ⟨hfits.noted, hfits.followed hstage, hmade⟩)
    · exact Or.inl hx

theorem noted_setCtrl (a : υ) (d : ChatCtrl υ Nat) (u v : υ) :
    (w.setCtrl a d).noted u v = if u = a then d.roomId v else w.noted u v := by
  by_cases hu : u = a
  · subst hu
    simp [noted, setCtrl]
  · simp [noted, setCtrl, hu]

theorem noted_setRoom {a b : υ} (h : b ∈ (w.ctrl a).friends) (r : Option Nat) (u v : υ) :
    (w.setCtrl a ((w.ctrl a).setRoom b r)).noted u v = if u = a ∧ v = b then r else w.noted u v := by
  rw [noted_setCtrl, roomId_setRoom h]
  by_cases hu : u = a
  · subst hu
    by_cases hv : v = b
    · simp [hv]
    · simp [hv, noted]
  · simp [hu]

theorem friends_setRoom (a b : υ) (r : Option Nat) (u x : υ) :
    x ∈ ((w.setCtrl a ((w.ctrl a).setRoom b r)).ctrl u).friends ↔ x ∈ (w.ctrl u).friends := by
  by_cases hu : u = a
  · subst hu
    simp only [setCtrl, Function.update_self]
    exact mem_setRoom r x
  · simp only [setCtrl, Function.update_of_ne hu]

theorem Good.create (h : w.Good) {c : Nat} {self uid : υ} (hc : w.talks c = none) (hfriend : uid ∈ (w.ctrl self).friends)
    (hno : w.noted self uid = none) :
    Good { (w.setCtrl self ((w.ctrl self).setRoom uid (some w.nextid))).setTalk c
      (some ⟨self, uid, w.nextid, .creating, false⟩) with nextid := w.nextid + 1 } := by
  have hnoted := noted_setRoom hfriend (some w.nextid)
  have hold : ∀ u v r, w.noted u v = some r → ¬ (u = self ∧ v = uid) := by
    rintro u v r hr ⟨rfl, rfl⟩
    rw [hno] at hr
    cases hr
  have hshared : ∀ {u v r}, w.Shared u v r → (w.setCtrl self ((w.ctrl self).setRoom uid (some w.nextid))).Shared u v r := by
    rintro u v r ⟨hu, hv, hhas⟩
    refine ⟨?_, ?_, hhas⟩
    · rw [hnoted, if_neg (hold u v r hu)]
      exact hu
    · rw [hnoted, if_neg (hold v u r hv)]
      exact hv
  have hother : ∀ c', ∀ t ∈ w.talks c', c' ≠ c := by
    rintro c' t ht rfl
    rw [hc] at ht
    cases ht
  exact {
    own := fun u hmem => h.own u ((friends_setRoom self uid _ u u).1 hmem)
    ids := fun u v r hr => by
      replace hr := (hnoted u v).symm.trans hr
      split at hr
      · obtain rfl := Option.some.inj hr
        exact Nat.lt_succ_self _
      · exact Nat.lt_succ_of_lt (h.ids u v r hr)
    noted := fun u v r hr => by
      replace hr := (hnoted u v).symm.trans hr
      split at hr
      · next heq =>
        obtain rfl := Option.some.inj hr
        exact Or.inl ⟨c, _, mem_setTalk.2 (by rw [if_pos rfl]; rfl), ⟨heq.1.symm, heq.2.symm, rfl⟩, fun hs => by cases hs⟩
      · refine (h.noted u v r hr).imp ?_ hshared
        rintro ⟨c', t, ht, hname⟩
        exact ⟨c', t, mem_setTalk.2 (by rwa [if_neg (hother c' t ht)]), hname⟩
    talk := fun c' t ht => by
      replace ht := mem_setTalk.1 ht
      split at ht
      · obtain rfl := Option.some.inj ht
        exact {
          noted := (hnoted self uid).trans (if_pos ⟨rfl, rfl⟩)
          only := fun _ u v hr => by
            replace hr := (hnoted u v).symm.trans hr
            split at hr
            · next heq => exact heq
            · exact absurd (h.ids u v _ hr) (Nat.lt_irrefl _)
          made := fun hs => absurd rfl hs
          followed := fun hs => by cases hs }
      · have hfits := h.talk c' t ht
        exact {
          noted := (hnoted _ _).trans ((if_neg (hold _ _ _ hfits.noted)).trans hfits.noted)
          only := fun hs u v hr => by
            replace hr := (hnoted u v).symm.trans hr
            split at hr
            · have hlt := h.ids _ _ _ hfits.noted
              rw [← Option.some.inj hr] at hlt
              exact absurd hlt (Nat.lt_irrefl _)
            · exact hfits.only hs u v hr
          made := hfits.made
          followed := fun hs =>
            (hnoted _ _).trans ((if_neg (hold _ _ _ (hfits.followed hs))).trans (hfits.followed hs)) }
    one := fun c' c'' t ht t' ht' heq => by
      replace ht := mem_setTalk.1 ht
      replace ht' := mem_setTalk.1 ht'
      split at ht <;> split at ht'
      · next hc' hc'' => exact hc'.trans hc''.symm
      · obtain rfl := Option.some.inj ht
        have hlt := h.ids _ _ _ (h.talk c'' t' ht').noted
        rw [← heq] at hlt
        exact absurd hlt (Nat.lt_irrefl _)
      · obtain rfl := Option.some.inj ht'
        have hlt := h.ids _ _ _ (h.talk c' t ht).noted
        rw [heq] at hlt
        exact absurd hlt (Nat.lt_irrefl _)
      · exact h.one c' c'' t ht t' ht' heq
    gone := fun r hr => by
      obtain ⟨hlt, hnone⟩ := h.gone r hr
      refine ⟨Nat.lt_succ_of_lt hlt, fun u v hr => ?_⟩
      replace hr := (hnoted u v).symm.trans hr
      split at hr
      · obtain rfl := Option.some.inj hr
        exact absurd hlt (Nat.lt_irrefl _)
      · exact hnone u v hr
    returned := fun x hx => by
      refine (h.returned x hx).imp hshared ?_
      rintro ⟨c', t, ht, hname⟩
      exact ⟨c', t, mem_setTalk.2 (by rwa [if_neg (hother c' t ht)]), hname⟩ }

theorem has_swap {m : ChatMgr υ Nat} {r : Nat} {u v : υ} (h : m.Has r [u, v]) : m.Has r [v, u] := by
  obtain ⟨room, hroom, hmem⟩ := h
  exact ⟨room, hroom, fun x hx => hmem x (by simpa [or_comm] using hx)⟩

theorem Good.follow (h : w.Good) {c : Nat} {t : Talk υ} (ht : t ∈ w.talks c) (hstage : t.stage = .asking)
    (hfriend : t.self ∈ (w.ctrl t.uid).friends) (hno : w.noted t.uid t.self = none) :
    ((w.setCtrl t.uid ((w.ctrl t.uid).setRoom t.self (some t.roomId))).setTalk c
      (some { t with stage := .asked true })).Good := by
  have hfits := h.talk c t ht
  have hopen : t.stage ≠ .asked true := fun heq => by rw [hstage] at heq; cases heq
  have hmade := hfits.made (fun heq => by rw [hstage] at heq; cases heq) (fun heq => by rw [hstage] at heq; cases heq)
  have hnoted := noted_setRoom hfriend (some t.roomId)
  have hold : ∀ u v r, w.noted u v = some r → ¬ (u = t.uid ∧ v = t.self) := by
    rintro u v r hr ⟨rfl, rfl⟩
    rw [hno] at hr
    cases hr
  have hkept : ∀ u v r, w.noted u v = some r →
      (w.setCtrl t.uid ((w.ctrl t.uid).setRoom t.self (some t.roomId))).noted u v = some r := fun u v r hr =>
    (hnoted u v).trans ((if_neg (hold u v r hr)).trans hr)
  have hshared : ∀ {u v r}, w.Shared u v r →
      (w.setCtrl t.uid ((w.ctrl t.uid).setRoom t.self (some t.roomId))).Shared u v r := fun hs =>
    ⟨hkept _ _ _ hs.1, hkept _ _ _ hs.2.1, hs.2.2⟩
  have hthis : (w.setCtrl t.uid ((w.ctrl t.uid).setRoom t.self (some t.roomId))).Shared t.self t.uid t.roomId :=
    ⟨hkept _ _ _ hfits.noted, (hnoted _ _).trans (if_pos ⟨rfl, rfl⟩), hmade⟩
  have hother : ∀ c', ∀ t' ∈ w.talks c', t'.roomId ≠ t.roomId → c' ≠ c := by
    rintro c' t' ht' hne rfl
    exact hne (congrArg Talk.roomId (Option.some.inj (ht'.symm.trans ht)))
  exact {
    own := fun u hmem => h.own u ((friends_setRoom t.uid t.self _ u u).1 hmem)
    ids := fun u v r hr => by
      replace hr := (hnoted u v).symm.trans hr
      split at hr
      · obtain rfl := Option.some.inj hr
        exact h.ids _ _ _ hfits.noted
      · exact h.ids u v r hr
    noted := fun u v r hr => by
      replace hr := (hnoted u v).symm.trans hr
      split at hr
      · next heq =>
        obtain ⟨rfl, rfl⟩ := heq
        obtain rfl := Option.some.inj hr
        exact Or.inr ⟨hthis.2.1, hthis.1, has_swap hmade⟩
      · rcases h.noted u v r hr with ⟨c', t', ht', ⟨rfl, rfl, rfl⟩, hs⟩ | hs
        · by_cases hid : t'.roomId = t.roomId
          · obtain ⟨hu, hv⟩ := hfits.only hopen _ _ (hid ▸ hr)
            rw [hu, hv, hid]
            exact Or.inr hthis
          · exact Or.inl ⟨c', t', mem_setTalk.2 (by rwa [if_neg (hother c' t' ht' hid)]), ⟨rfl, rfl, rfl⟩, hs⟩
        · exact Or.inr (hshared hs)
    talk := fun c' t' ht' => by
      replace ht' := mem_setTalk.1 ht'
      split at ht'
      · obtain rfl := Option.some.inj ht'
        exact ⟨hthis.1, fun hs => absurd rfl hs, fun _ _ => hmade, fun _ => hthis.2.1⟩
      · next hne =>
        have hfits' := h.talk c' t' ht'
        exact {
          noted := hkept _ _ _ hfits'.noted
          only := fun hs u v hr => by
            replace hr := (hnoted u v).symm.trans hr
            split at hr
            · exact absurd (h.one c' c t' ht' t ht (Option.some.inj hr).symm) hne
            · exact hfits'.only hs u v hr
          made := hfits'.made
          followed := fun hs => hkept _ _ _ (hfits'.followed hs) }
    one := fun c' c'' t₁ h₁ t₂ h₂ heq => by
      replace h₁ := mem_setTalk.1 h₁
      replace h₂ := mem_setTalk.1 h₂
      split at h₁ <;> split at h₂
      · next hc' hc'' => exact hc'.trans hc''.symm
      · next hc' _ =>
        obtain rfl := Option.some.inj h₁
        exact hc'.trans (h.one c c'' t ht t₂ h₂ heq)
      · next _ hc'' =>
        obtain rfl := Option.some.inj h₂
        exact (h.one c' c t₁ h₁ t ht heq).trans hc''.symm
      · exact h.one c' c'' t₁ h₁ t₂ h₂ heq
    gone := fun r hr => by
      obtain ⟨hlt, hnone⟩ := h.gone r hr
      refine ⟨hlt, fun u v hr => ?_⟩
      replace hr := (hnoted u v).symm.trans hr
      split at hr
      · obtain rfl := Option.some.inj hr
        exact hnone _ _ hfits.noted
      · exact hnone u v hr
    returned := fun x hx => by
      rcases h.returned x hx with hs | ⟨c', t', ht', ⟨hu, hv, hid'⟩, hs⟩
      · exact Or.inl (hshared hs)
      · by_cases hid : t'.roomId = t.roomId
        · obtain rfl := h.one c' c t' ht' t ht hid
          obtain rfl := Option.some.inj (ht'.symm.trans ht)
          left
          rw [← hu, ← hv, ← hid']
          exact hthis
        · exact Or.inr ⟨c', t', mem_setTalk.2 (by rwa [if_neg (hother c' t' ht' hid)]), ⟨hu, hv, hid'⟩, hs⟩ }

theorem Good.drop (h : w.Good) {c : Nat} {t : Talk υ} (ht : t ∈ w.talks c) (hopen : t.stage ≠ .asked true)
    (hagain : t.again = false) :
    (w.drop c t).Good := by
  have hfits := h.talk c t ht
  have hnoted : ∀ u v, (w.drop c t).noted u v = if u = t.self ∧ v = t.uid then none else w.noted u v := by
    intro u v
    have hdrop : (w.ctrl t.self).dropRoom t.uid t.roomId = (w.ctrl t.self).setRoom t.uid none := if_pos hfits.noted
    rw [← noted_setRoom (mem_of_roomId hfits.noted) none, ← hdrop]
    rfl
  have hsome : ∀ {u v r}, (w.drop c t).noted u v = some r → w.noted u v = some r ∧ r ≠ t.roomId := by
    intro u v r hr
    rw [hnoted] at hr
    split at hr
    · cases hr
    · next hne =>
      refine ⟨hr, ?_⟩
      rintro rfl
      exact hne (hfits.only hopen u v hr)
  have hkept : ∀ {u v r}, w.noted u v = some r → r ≠ t.roomId → (w.drop c t).noted u v = some r := by
    intro u v r hr hne
    rw [hnoted, if_neg]
    · exact hr
    · rintro ⟨rfl, rfl⟩
      exact hne (Option.some.inj (hr.symm.trans hfits.noted))
  have hshared : ∀ {u v r}, w.Shared u v r → r ≠ t.roomId → (w.drop c t).Shared u v r := fun hs hne =>
    ⟨hkept hs.1 hne, hkept hs.2.1 hne, hs.2.2⟩
  have hother : ∀ c', ∀ t' ∈ w.talks c', t'.roomId ≠ t.roomId → c' ≠ c := by
    rintro c' t' ht' hne rfl
    exact hne (congrArg Talk.roomId (Option.some.inj (ht'.symm.trans ht)))
  exact {
    own := fun u hmem => by
      refine h.own u ?_
      by_cases hu : u = t.self
      · subst hu
        simp only [Chats.drop, setTalk, setCtrl, Function.update_self] at hmem
        exact (mem_dropRoom _ _).1 hmem
      · simpa only [Chats.drop, setTalk, setCtrl, Function.update_of_ne hu] using hmem
    ids := fun u v r hr => h.ids u v r (hsome hr).1
    noted := fun u v r hr => by
      obtain ⟨hr, hne⟩ := hsome hr
      refine (h.noted u v r hr).imp ?_ (fun hs => hshared hs hne)
      rintro ⟨c', t', ht', ⟨hu, hv, rfl⟩, hs⟩
      exact ⟨c', t', mem_setTalk.2 (by rwa [if_neg (hother c' t' ht' hne)]), ⟨hu, hv, rfl⟩, hs⟩
    talk := fun c' t' ht' => by
      replace ht' := mem_setTalk.1 ht'
      split at ht'
      · cases ht'
      · next hc' =>
        have hfits' := h.talk c' t' ht'
        have hne : t'.roomId ≠ t.roomId := fun heq => hc' (h.one c' c t' ht' t ht heq)
        exact ⟨hkept hfits'.noted hne, fun hs u v hr => hfits'.only hs u v (hsome hr).1, hfits'.made,
          fun hs => hkept (hfits'.followed hs) hne⟩
    one := fun c' c'' t₁ h₁ t₂ h₂ heq => by
      replace h₁ := mem_setTalk.1 h₁
      replace h₂ := mem_setTalk.1 h₂
      split at h₁
      · cases h₁
      · split at h₂
        · cases h₂
        · exact h.one c' c'' t₁ h₁ t₂ h₂ heq
    gone := fun r hr => by
      rcases hr with hr | hr
      · rcases List.mem_append.1 hr with hr | hr
        · exact ⟨(h.gone r (Or.inl hr)).1, fun u v hr' => (h.gone r (Or.inl hr)).2 u v (hsome hr').1⟩
        · obtain rfl := List.mem_singleton.1 hr
          exact ⟨h.ids _ _ _ hfits.noted, fun u v hr' => (hsome hr').2 rfl⟩
      · exact ⟨(h.gone r (Or.inr hr)).1, fun u v hr' => (h.gone r (Or.inr hr)).2 u v (hsome hr').1⟩
    returned := fun x hx => by
      rcases h.returned x hx with hs | ⟨c', t', ht', hname, hs, hover⟩
      · refine Or.inl (hshared hs ?_)
        intro heq
        have hu := hfits.only hopen _ _ (heq ▸ hs.1)
        have hv := hfits.only hopen _ _ (heq ▸ hs.2.1)
        exact h.ne hs.1 (hu.1.trans hv.1.symm)
      · have hne : c' ≠ c := by
          rintro rfl
          obtain rfl := Option.some.inj (ht'.symm.trans ht)
          rw [hagain] at hover
          cases hover
        exact Or.inr ⟨c', t', mem_setTalk.2 (by rwa [if_neg hne]), hname, hs, hover⟩ }

theorem getRoomId_cases (d : ChatCtrl υ Nat) (uid : υ) (nextid : Nat) :
    d.getRoomId uid nextid = (d, some none) ∨
      (∃ r, d.roomId uid = some r ∧ d.getRoomId uid nextid = (d, some (some r))) ∨
      (uid ∈ d.friends ∧ d.roomId uid = none ∧ d.getRoomId uid nextid = (d.setRoom uid (some nextid), none)) := by
  unfold ChatCtrl.getRoomId ChatCtrl.roomId
  cases hf : d.friends.lookup uid with
  | none => exact Or.inl rfl
  | some friend =>
    cases hr : friend.roomId with
    | some r => exact Or.inr (Or.inl ⟨r, hr, by simp [hr]⟩)
    | none => exact Or.inr (Or.inr ⟨AList.lookup_isSome.1 (Option.isSome_of_mem hf), hr, by simp [hr]⟩)

theorem Good.start (h : w.Good) {c : Nat} (hc : w.talks c = none) (self uid : υ) : (w.start c self uid).Good := by
  unfold Chats.start
  rcases getRoomId_cases (w.ctrl self) uid w.nextid with hnone | ⟨r, hr, hfound⟩ | ⟨hfriend, hno, hnew⟩
  · rw [hnone]
    exact h
  · rw [hfound]
    exact h.found hr
  · rw [hnew]
    exact h.create hc hfriend hno

theorem Good.setRoomId (h : w.Good) {c : Nat} {t : Talk υ} (ht : t ∈ w.talks c) (hstage : t.stage = .asking) :
    ((w.setCtrl t.uid ((w.ctrl t.uid).setRoomId t.self t.roomId).1).setTalk c
      (some { t with stage := .asked ((w.ctrl t.uid).setRoomId t.self t.roomId).2 })).Good := by
  by_cases hfree : t.self ∈ (w.ctrl t.uid).friends ∧ (w.ctrl t.uid).roomId t.self = none
  · have hset : (w.ctrl t.uid).setRoomId t.self t.roomId = ((w.ctrl t.uid).setRoom t.self (some t.roomId), true) :=
      if_pos hfree
    rw [hset]
    exact h.follow ht hstage hfree.1 hfree.2
  · have hset : (w.ctrl t.uid).setRoomId t.self t.roomId = (w.ctrl t.uid, false) := if_neg hfree
    have hsame : w.setCtrl t.uid (w.ctrl t.uid) = w := by
      unfold setCtrl
      rw [Function.update_eq_self]
    rw [hset, hsame]
    have hmade := (h.talk c t ht).made
    rw [hstage] at hmade
    refine h.retalk ht _ w.chat ⟨rfl, rfl, rfl, ?_, id⟩ (fun _ _ _ _ hhas => hhas) (fun _ _ => hmade ?_ ?_)
    · rw [hstage]
      exact iff_of_false (fun heq => by cases heq) (fun heq => by cases heq)
    · exact fun heq => by cases heq
    · exact fun heq => by cases heq

theorem Good.answer (h : w.Good) {c : Nat} {t : Talk υ} (ht : t ∈ w.talks c)
    (hkept : t.stage = .created false ∨ t.stage = .asked false → t.again = false) : (w.answer c t).Good := by
  unfold Chats.answer
  cases hstage : t.stage with
  | creating => exact h
  | asking => exact h
  | created ok =>
    cases ok with
    | false => exact h.drop ht (fun heq => by rw [hstage] at heq; cases heq) (hkept (Or.inl hstage))
    | true =>
      have hmade := (h.talk c t ht).made
      rw [hstage] at hmade
      refine h.retalk ht _ w.chat ⟨rfl, rfl, rfl, ?_, id⟩ (fun _ _ _ _ hhas => hhas) (fun _ _ => hmade ?_ ?_)
      · rw [hstage]
        exact iff_of_false (fun heq => by cases heq) (fun heq => by cases heq)
      · exact fun heq => by cases heq
      · exact fun heq => by cases heq
  | asked ok =>
    cases ok with
    | true => exact h.done ht hstage
    | false => exact h.drop ht (fun heq => by rw [hstage] at heq; cases heq) (hkept (Or.inr hstage))

theorem Good.step (h : w.Good) : ∀ e : Event υ, w.Kept e → (w.step e).Good
  | .getRoomId c self uid, _ => by
    simp only [Chats.step]
    split
    next hc => exact h.start hc self uid
    next => exact h
  | .createRoom c now, _ => by
    simp only [Chats.step]
    split
    next hc => exact h.createRoom hc now
    next => exact h
  | .setRoomId c, _ => by
    simp only [Chats.step]
    split
    next hc => exact h.setRoomId hc rfl
    next => exact h
  | .reply c, hkept => by
    simp only [Chats.step]
    split
    next t hc => exact h.answer hc (hkept t hc)
    next => exact h
  | .fail c, hkept => by
    simp only [Chats.step]
    split
    next t hc => exact h.drop hc (hkept t hc).2 (hkept t hc).1
    next => exact h
  | .deleteRoom n, _ => by
    simp only [Chats.step]
    split
    next hn => exact h.deleteRoom hn
    next => exact h
  | .free roomId, _ => h.free roomId

end Chats

open Chats

/-- **Two friends agree on their room** in every run whose calls go back only if nothing has come of them. -/
theorem rooms_of_run {υ : Type} [DecidableEq υ] (w : Chats υ) (hw : w.Ready) (events : List (Chats.Event υ))
    (h : Steps.Along Chats.step Kept w events) : (events.foldl Chats.step w).Agreed :=
  (Steps.Along.inv (I := Good) (fun _ e hkept hgood => hgood.step e hkept) events w h hw.good).agreed

def pair : Chats Nat where
  ctrl := Function.update (Function.update (fun _ => defaultData) 1 (defaultData.addFriends 2 0).1) 2
    (defaultData.addFriends 1 0).1
  chat := ⟨fun _ => none, fun _ => none⟩
  talks := fun _ => none
  nextid := 0
  sent := []
  deleted := []
  returned := []

theorem ready_pair : pair.Ready where
  own u := by
    by_cases h2 : u = 2
    · subst h2
      decide
    · by_cases h1 : u = 1
      · subst h1
        decide
      · simp only [pair, Function.update_of_ne h2, Function.update_of_ne h1]
        exact fun h => by cases h
  talks _ := rfl
  noted u v r hr := by
    exfalso
    have hfriend := mem_of_roomId hr
    by_cases h2 : u = 2
    · subst h2
      obtain rfl : v = 1 := ((AList.mem_insert _).1 hfriend).resolve_right (fun h => by cases h)
      cases hr
    · by_cases h1 : u = 1
      · subst h1
        obtain rfl : v = 2 := ((AList.mem_insert _).1 hfriend).resolve_right (fun h => by cases h)
        cases hr
      · simp only [pair, Function.update_of_ne h2, Function.update_of_ne h1] at hfriend
        cases hfriend
  sent := rfl
  deleted := rfl
  returned := rfl

def greeting : List (Chats.Event Nat) :=
  [.getRoomId 0 1 2, .createRoom 0 5, .reply 0, .setRoomId 0, .getRoomId 1 2 1, .reply 0]

theorem rooms_of_greeting :
    (greeting.foldl Chats.step pair).Agreed ∧ (greeting.foldl Chats.step pair).returned = [(1, 2, 0), (2, 1, 0)] :=
  ⟨rooms_of_run pair ready_pair greeting (by decide), by decide⟩

def mishap : List (Chats.Event Nat) := [.getRoomId 0 1 2, .getRoomId 1 1 2, .fail 0]

theorem given_and_gone : pair.Ready ∧ ¬ (mishap.foldl Chats.step pair).Agreed := by
  refine ⟨ready_pair, fun h => ?_⟩
  have hquiet : ∀ c, (mishap.foldl Chats.step pair).talks c = none := by
    intro c
    rcases c with _ | c
    · decide
    · rfl
  have hshared := (h.returned hquiet (1, 2, 0) (by decide)).1
  revert hshared
  decide

end ChatCtrl
end Sncpp
