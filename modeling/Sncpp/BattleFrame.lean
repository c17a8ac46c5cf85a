import Mathlib.Data.List.Induction
import Sncpp.BattleLife
/-!
# BattleFrame — the frames of a game and the commands in them

The history of the service says which commands a room accepted and which frames it broadcast.  `waiting` is each player's
last command since the last frame.  Every frame has the next number and holds what was waiting (`Fits`).  What is not so
is that every accepted command is sent: the room accepts commands after its last frame, and while it is told to end.
-/
namespace Sncpp
namespace Battle

variable {β ρ : Type}

def Event.frame? (r : Nat) : Event β ρ → Option (Nat × (Nat → Option (Cmd β)))
  | .broadcast x _ _ (.notifyPvpCmd _ f fs) => if x = r then some (f, fs) else none
  | _ => none

/-- What an event does to the commands that wait in room `r`. -/
def Event.wait (r : Nat) (w : Nat → Option (Cmd β)) : Event β ρ → Nat → Option (Cmd β)
  | .broadcast x _ _ (.notifyPvpCmd _ _ _) => if x = r then fun _ => none else w
  | .accepted x cmd => if x = r then Function.update w cmd.uid (some cmd) else w
  | _ => w

def frames (r : Nat) (log : List (Event β ρ)) : List (Nat × (Nat → Option (Cmd β))) := log.filterMap (Event.frame? r)

/-- **Each player's last command since room `r` broadcast its last frame.** -/
def waiting (r : Nat) (log : List (Event β ρ)) : Nat → Option (Cmd β) := log.foldl (Event.wait r) (fun _ => none)

/-- **A frame has the next number and holds what waits; an accepted command has the number of the frame to come.** -/
def Fits (r : Nat) (log : List (Event β ρ)) (e : Event β ρ) : Prop :=
  (∀ f fs, e.frame? r = some (f, fs) → f = (frames r log).length ∧ ∀ uid, fs uid = waiting r log uid) ∧
  ∀ cmd, e = .accepted r cmd → cmd.f = (frames r log).length

def Event.Quiet (r : Nat) (e : Event β ρ) : Prop := e.frame? r = none ∧ ∀ cmd, e ≠ .accepted r cmd

variable {r : Nat} {log es : List (Event β ρ)} {e : Event β ρ}

theorem wait_accepted (w : Nat → Option (Cmd β)) (cmd : Cmd β) :
    Event.wait r w (.accepted r cmd : Event β ρ) = Function.update w cmd.uid (some cmd) := if_pos rfl

theorem wait_frame {f : Nat} {fs : Nat → Option (Cmd β)} (h : e.frame? r = some (f, fs)) (w : Nat → Option (Cmd β)) :
    e.wait r w = fun _ => none := by
  unfold Event.frame? at h
  split at h
  · split at h
    · next hx => exact if_pos hx
    · cases h
  · cases h

theorem Event.Quiet.wait (h : e.Quiet r) (w : Nat → Option (Cmd β)) : e.wait r w = w := by
  unfold Event.wait
  split
  · next x _ _ _ f fs =>
    split
    · next hx =>
      have hframe := h.1
      rw [Event.frame?, if_pos hx] at hframe
      cases hframe
    · rfl
  · next x cmd =>
    split
    · next hx => exact absurd (by rw [hx]) (h.2 cmd)
    · rfl
  · rfl

theorem Event.Quiet.fits (h : e.Quiet r) (log : List (Event β ρ)) : Fits r log e := by
  refine ⟨fun f fs he => ?_, fun cmd he => absurd he (h.2 cmd)⟩
  rw [h.1] at he
  cases he

theorem frames_append (log es : List (Event β ρ)) : frames r (log ++ es) = frames r log ++ frames r es :=
  List.filterMap_append

theorem waiting_append (log es : List (Event β ρ)) : waiting r (log ++ es) = es.foldl (Event.wait r) (waiting r log) :=
  List.foldl_append

theorem frames_quiet (h : ∀ e ∈ es, e.Quiet r) : frames r es = [] :=
  List.filterMap_eq_nil_iff.2 (fun e he => (h e he).1)

theorem wait_quiet (h : ∀ e ∈ es, e.Quiet r) (w : Nat → Option (Cmd β)) : es.foldl (Event.wait r) w = w := by
  induction es generalizing w with
  | nil => rfl
  | cons e es ih =>
    rw [List.foldl_cons, (h e List.mem_cons_self).wait]
    exact ih (fun x hx => h x (List.mem_cons_of_mem _ hx)) w

theorem waiting_stamp : ∀ log : List (Event β ρ), Steps.Each (Fits r) log → ∀ uid cmd, waiting r log uid = some cmd →
    cmd.uid = uid ∧ cmd.f = (frames r log).length := by
  intro log
  induction log using List.reverseRecOn with
  | nil =>
    intro _ uid cmd h
    cases h
  | append_singleton log e ih =>
    intro hfit uid cmd h
    have hlog : Steps.Each (Fits r) log := by
      intro pre x post heq
      exact hfit pre x (post ++ [e]) (by rw [heq, List.append_assoc, List.cons_append])
    have he : Fits r log e := hfit log e [] rfl
    rw [waiting_append, List.foldl_cons, List.foldl_nil] at h
    rw [frames_append]
    cases hframe : e.frame? r with
    | some fr =>
      rw [wait_frame hframe] at h
      cases h
    | none =>
      have hnone : frames r [e] = [] := by simp [frames, hframe]
      rw [hnone, List.append_nil]
      by_cases hacc : ∃ c, e = .accepted r c
      · obtain ⟨c, rfl⟩ := hacc
        rw [wait_accepted] at h
        by_cases hu : uid = c.uid
        · rw [hu, Function.update_self, Option.some.injEq] at h
          rw [← h]
          exact ⟨hu.symm, he.2 c rfl⟩
        · rw [Function.update_of_ne hu] at h
          exact ih hlog uid cmd h
      · have hquiet : e.Quiet r := ⟨hframe, fun c hc => hacc ⟨c, hc⟩⟩
        rw [hquiet.wait] at h
        exact ih hlog uid cmd h

def Sent (r : Nat) (cmd : Cmd β) (log : List (Event β ρ)) : Prop :=
  ∃! i : Nat, ∃ fr, (frames r log)[i]? = some fr ∧ fr.2 cmd.uid = some cmd

def Superseded (r : Nat) (cmd : Cmd β) (after : List (Event β ρ)) : Prop :=
  ∃ p c q, after = p ++ .accepted r c :: q ∧ c.uid = cmd.uid ∧ frames r p = []

theorem wait_stays {cmd : Cmd β} : ∀ (es : List (Event β ρ)) (w : Nat → Option (Cmd β)), w cmd.uid = some cmd →
    frames r es = [] → Superseded r cmd es ∨ es.foldl (Event.wait r) w cmd.uid = some cmd
  | [], _, hw, _ => .inr hw
  | e :: es, w, hw, hes => by
    have hframe : e.frame? r = none ∧ frames r es = [] := by
      unfold frames at hes ⊢
      rw [List.filterMap_cons] at hes
      split at hes
      · next hnone => exact ⟨hnone, hes⟩
      · cases hes
    have hnext : ∀ w' : Nat → Option (Cmd β), w' cmd.uid = some cmd → e.wait r w = w' →
        Superseded r cmd (e :: es) ∨ (e :: es).foldl (Event.wait r) w cmd.uid = some cmd := by
      intro w' hw' heq
      rw [List.foldl_cons, heq]
      rcases wait_stays es w' hw' hframe.2 with ⟨p, c, q, rfl, hc, hp⟩ | h
      · refine .inl ⟨e :: p, c, q, rfl, hc, ?_⟩
        unfold frames at hp ⊢
        rw [List.filterMap_cons, hframe.1]
        exact hp
      · exact .inr h
    by_cases hacc : ∃ c, e = .accepted r c
    · obtain ⟨c, rfl⟩ := hacc
      by_cases hu : c.uid = cmd.uid
      · exact .inl ⟨[], c, es, rfl, hu, rfl⟩
      · exact hnext _ ((Function.update_of_ne (Ne.symm hu) _ _).trans hw) (wait_accepted w c)
    · have hquiet : e.Quiet r := ⟨hframe.1, fun c hc => hacc ⟨c, hc⟩⟩
      exact hnext w hw (hquiet.wait w)

theorem frames_cons (e : Event β ρ) (es : List (Event β ρ)) : frames r (e :: es) = frames r [e] ++ frames r es :=
  frames_append [e] es

theorem frames_one {fr : Nat × (Nat → Option (Cmd β))} (h : e.frame? r = some fr) : frames r [e] = [fr] := by
  simp [frames, h]

theorem first_frame : ∀ es : List (Event β ρ), frames r es ≠ [] →
    ∃ p e q fr, es = p ++ e :: q ∧ frames r p = [] ∧ e.frame? r = some fr
  | [], h => absurd rfl h
  | e :: es, h => by
    cases hframe : e.frame? r with
    | some fr => exact ⟨[], e, es, fr, rfl, rfl, hframe⟩
    | none =>
      have hnone : frames r [e] = [] := by simp [frames, hframe]
      rw [frames_cons, hnone, List.nil_append] at h
      obtain ⟨p, e', q, fr, rfl, hp, he'⟩ := first_frame es h
      refine ⟨e :: p, e', q, fr, rfl, ?_, he'⟩
      rw [frames_cons, hnone, hp, List.nil_append]

theorem frames_get : ∀ log : List (Event β ρ), Steps.Each (Fits r) log → ∀ (i : Nat) (fr : Nat × (Nat → Option (Cmd β))),
    (frames r log)[i]? = some fr → fr.1 = i ∧ ∀ uid c, fr.2 uid = some c → c.uid = uid ∧ c.f = i := by
  intro log
  induction log using List.reverseRecOn with
  | nil =>
    intro _ i fr h
    cases h
  | append_singleton log e ih =>
    intro hfit i fr h
    have hlog : Steps.Each (Fits r) log := by
      intro pre x post heq
      exact hfit pre x (post ++ [e]) (by rw [heq, List.append_assoc, List.cons_append])
    rw [frames_append] at h
    by_cases hi : i < (frames r log).length
    · rw [List.getElem?_append_left hi] at h
      exact ih hlog i fr h
    · rw [List.getElem?_append_right (Nat.le_of_not_lt hi)] at h
      cases hframe : e.frame? r with
      | none =>
        rw [show frames r [e] = [] by simp [frames, hframe]] at h
        cases h
      | some fr' =>
        rw [frames_one hframe, List.getElem?_singleton] at h
        split at h
        · next hz =>
          rw [Option.some.injEq] at h
          subst h
          obtain ⟨hnum, hfs⟩ := (hfit log e [] rfl).1 fr'.1 fr'.2 hframe
          have hlen : i = (frames r log).length := by omega
          refine ⟨hnum.trans hlen.symm, fun uid c hc => ?_⟩
          rw [hfs uid] at hc
          rw [hlen]
          exact waiting_stamp log hlog uid c hc
        · cases h

theorem fate (hfit : Steps.Each (Fits r) log) {pre post : List (Event β ρ)} {cmd : Cmd β}
    (hlog : log = pre ++ .accepted r cmd :: post) :
    Superseded r cmd post ∨ Sent r cmd log ∨ waiting r log cmd.uid = some cmd := by
  have hgiven : waiting r (pre ++ [.accepted r cmd]) cmd.uid = some cmd := by
    rw [waiting_append, List.foldl_cons, List.foldl_nil, wait_accepted, Function.update_self]
  by_cases hpost : frames r post = []
  · rcases wait_stays post _ hgiven hpost with h | h
    · exact .inl h
    · rw [← waiting_append, List.append_assoc, List.singleton_append, ← hlog] at h
      exact .inr (.inr h)
  · obtain ⟨p, e, q, fr, rfl, hp, he⟩ := first_frame post hpost
    rcases wait_stays p _ hgiven hp with ⟨p', c, q', rfl, hc, hp'⟩ | h
    · refine .inl ⟨p', c, q' ++ e :: q, ?_, hc, hp'⟩
      rw [List.append_assoc, List.cons_append]
    · -- the frame holds the command, and no other frame holds one of its number
      rw [← waiting_append] at h
      have hsplit : log = ((pre ++ [.accepted r cmd]) ++ p) ++ e :: q := by
        rw [hlog]
        simp
      obtain ⟨hnum, hfs⟩ := (hfit _ e q hsplit).1 fr.1 fr.2 he
      have hat : (frames r log)[fr.1]? = some fr := by
        rw [hsplit, frames_append, List.getElem?_append_right hnum.ge, frames_cons, frames_one he, hnum, Nat.sub_self]
        rfl
      have hheld : fr.2 cmd.uid = some cmd := (hfs cmd.uid).trans h
      refine .inr (.inl ⟨fr.1, ⟨fr, hat, hheld⟩, ?_⟩)
      rintro i ⟨fr', hi, hheld'⟩
      rw [← ((frames_get log hfit i fr' hi).2 _ _ hheld').2, ← ((frames_get log hfit fr.1 fr hat).2 _ _ hheld).2]

theorem frames_numbered (hfit : Steps.Each (Fits r) log) :
    (frames r log).map Prod.fst = List.range (frames r log).length := by
  apply List.ext_getElem?
  intro i
  rw [List.getElem?_map]
  by_cases hi : i < (frames r log).length
  · rw [List.getElem?_eq_getElem hi, List.getElem?_range hi]
    exact congrArg some (frames_get log hfit i _ (List.getElem?_eq_getElem hi)).1
  · rw [List.getElem?_eq_none (Nat.le_of_not_lt hi), List.getElem?_eq_none (by rw [List.length_range]; omega)]
    rfl

structure Room.Same (room room' : Room β ρ) : Prop where
  batId : room'.batId = room.batId
  f : room'.f = room.f
  fmax : room'.fmax = room.fmax
  keys : room'.info.map Prod.fst = room.info.map Prod.fst
  cmds : ∀ uid, (room'.info.lookup uid).map Info.cmds = (room.info.lookup uid).map Info.cmds
  fs : ∀ uid, room.fs uid = none → room'.fs uid = none

theorem lookup_map (l : List (Nat × Info β ρ)) (g : Nat → Info β ρ → Info β ρ) (k : Nat) :
    (l.map (fun v => (v.1, g v.1 v.2))).lookup k = (l.lookup k).map (g k) := by
  induction l with
  | nil => rfl
  | cons v l ih =>
    rw [List.map_cons, List.lookup_cons, List.lookup_cons, ih]
    by_cases hk : k = v.1
    · simp [hk]
    · simp only [beq_eq_false_iff_ne.2 hk]

theorem alter_info (room : Room β ρ) (uid : Nat) (g : Info β ρ → Info β ρ) :
    (room.alter uid g).info = room.info.map (fun v => (v.1, if v.1 = uid then g v.2 else v.2)) := by
  apply List.map_congr_left
  intro v _
  split
  · rfl
  · rfl

theorem alter_lookup (room : Room β ρ) (uid : Nat) (g : Info β ρ → Info β ρ) (k : Nat) :
    (room.alter uid g).info.lookup k = (room.info.lookup k).map (fun v => if k = uid then g v else v) := by
  rw [alter_info]
  exact lookup_map room.info (fun k v => if k = uid then g v else v) k

theorem alter_same (room : Room β ρ) (uid : Nat) {g : Info β ρ → Info β ρ} (hg : ∀ v, (g v).cmds = v.cmds) :
    room.Same (room.alter uid g) where
  batId := rfl
  f := rfl
  fmax := rfl
  keys := by
    rw [alter_info, List.map_map]
    rfl
  cmds k := by
    rw [alter_lookup, Option.map_map]
    apply congrArg (fun h => (room.info.lookup k).map h)
    funext v
    show (if k = uid then g v else v).cmds = v.cmds
    split
    · exact hg v
    · rfl
  fs _ h := h

theorem alterAll_same (room : Room β ρ) {g : Info β ρ → Info β ρ} (hg : ∀ v, (g v).cmds = v.cmds) :
    room.Same (room.alterAll g) where
  batId := rfl
  f := rfl
  fmax := rfl
  keys := by
    show (room.info.map (fun v => (v.1, g v.2))).map Prod.fst = _
    rw [List.map_map]
    rfl
  cmds k := by
    show ((room.info.map (fun v => (v.1, g v.2))).lookup k).map Info.cmds = _
    rw [lookup_map room.info (fun _ v => g v) k, Option.map_map]
    apply congrArg (fun h => (room.info.lookup k).map h)
    funext v
    exact hg v
  fs _ h := h

theorem pack_lookup (room : Room β ρ) (hkeys : (room.info.map Prod.fst).Nodup) (uid : Nat) :
    room.pack uid = match room.info.lookup uid with
      | some v => v.cmds room.f
      | none => room.fs uid := by
  have hfold : ∀ (l : List (Nat × Info β ρ)) (fs : Nat → Option (Cmd β)), (l.map Prod.fst).Nodup →
      l.foldl (fun fs v => Function.update fs v.1 (v.2.cmds room.f)) fs uid = match l.lookup uid with
        | some v => v.cmds room.f
        | none => fs uid := by
    intro l
    induction l with
    | nil =>
      intro fs _
      rfl
    | cons v l ih =>
      intro fs hnodup
      rw [List.map_cons, List.nodup_cons] at hnodup
      rw [List.foldl_cons, ih _ hnodup.2, List.lookup_cons]
      by_cases hv : uid = v.1
      · have hnone : l.lookup uid = none := by
          rw [List.lookup_eq_none_iff]
          intro w hw
          have hne : uid ≠ w.1 := fun heq => hnodup.1 (hv ▸ heq ▸ List.mem_map_of_mem hw)
          simpa using hne
        simp [hv, hv ▸ hnone]
      · simp only [beq_eq_false_iff_ne.2 hv, Function.update_of_ne hv]
  exact hfold room.info room.fs hkeys

namespace Center

variable {s s' : Center β ρ} {b : String} {room : Room β ρ}

structure Paced (s : Center β ρ) (r : Nat) : Prop where
  keys : ((s.heap r).info.map Prod.fst).Nodup
  count : (s.heap r).f = (frames r s.log).length
  below : (s.heap r).f ≤ (s.heap r).fmax
  waits : ∀ uid, waiting r s.log uid = ((s.heap r).info.lookup uid).bind (fun v => v.cmds (s.heap r).f)
  later : ∀ uid v, (s.heap r).info.lookup uid = some v → ∀ g, (s.heap r).f < g → v.cmds g = none
  fs : ∀ uid, (s.heap r).info.lookup uid = none → (s.heap r).fs uid = none

/-- **What holds in every state**: a room that plays is in the loop, and rooms and history go together. -/
structure Keeping (s : Center β ρ) : Prop where
  held : ∀ b r, s.rooms b = some r → r < s.roomCount ∧ (s.heap r).batId = b
  gamed : ∀ b r, s.gaming b = some r → r < s.roomCount ∧ (s.heap r).batId = b
  played : ∀ b r, s.rooms b = some r → (s.heap r).status = .eGame → s.gaming b = some r
  unborn : ∀ r, s.roomCount ≤ r → ∀ e ∈ s.log, e.Quiet r
  paced : ∀ r < s.roomCount, s.Paced r
  each : ∀ r, Steps.Each (Fits r) s.log

def Live (s : Center β ρ) (r : Nat) : Prop :=
  ∃ b, s.gaming b = some r ∧ (s.heap r).f < (s.heap r).fmax ∧ (s.heap r).isEnd = false

def Owed (s : Center β ρ) : Prop := ∀ r uid, waiting r s.log uid ≠ none → s.Live r

def Idle (s : Center β ρ) (r : Nat) : Prop := ∀ v ∈ (s.heap r).info, v.2.cmds (s.heap r).f = none

theorem Paced.idle (h : s.Paced r) (hidle : s.Idle r) (uid : Nat) : waiting r s.log uid = none := by
  rw [h.waits]
  cases hv : (s.heap r).info.lookup uid with
  | none => rfl
  | some v => exact hidle _ (mem_of_lookup hv)

theorem Paced.congr (h : s.Paced r) (hheap : s'.heap r = s.heap r) (hframes : frames r s'.log = frames r s.log)
    (hwait : waiting r s'.log = waiting r s.log) : s'.Paced r := by
  obtain ⟨hkeys, hcount, hbelow, hwaits, hlater, hfs⟩ := h
  refine ⟨?_, ?_, ?_, ?_, ?_, ?_⟩
  · rwa [hheap]
  · rwa [hheap, hframes]
  · rwa [hheap]
  · rwa [hheap, hwait]
  · rwa [hheap]
  · rwa [hheap]

theorem Paced.write (h : s.Paced r) (hs : (s.heap r).Same room) : (s.setRoom r room).Paced r := by
  have hself : (s.setRoom r room).heap r = room := Function.update_self _ _ _
  have hlookup : ∀ uid v, room.info.lookup uid = some v →
      ∃ w, (s.heap r).info.lookup uid = some w ∧ w.cmds = v.cmds := by
    intro uid v hv
    have hc := hs.cmds uid
    rw [hv, Option.map_some] at hc
    exact Option.map_eq_some_iff.1 hc.symm
  refine ⟨?_, ?_, ?_, fun uid => ?_, fun uid v hv g hg => ?_, fun uid hv => ?_⟩
  · rw [hself, hs.keys]
    exact h.keys
  · rw [hself, hs.f]
    exact h.count
  · rw [hself, hs.f, hs.fmax]
    exact h.below
  · have hbind : ∀ o o' : Option (Info β ρ), o'.map Info.cmds = o.map Info.cmds →
        o.bind (fun v => v.cmds (s.heap r).f) = o'.bind (fun v => v.cmds (s.heap r).f) := by
      intro o o' ho
      cases o <;> cases o' <;> simp_all
    rw [hself, hs.f]
    exact (h.waits uid).trans (hbind _ _ (hs.cmds uid))
  · rw [hself] at hv hg
    obtain ⟨w, hw, hwv⟩ := hlookup uid v hv
    rw [← hwv]
    exact h.later uid w hw g (hs.f ▸ hg)
  · rw [hself] at hv ⊢
    apply hs.fs
    apply h.fs
    have hc := hs.cmds uid
    rw [hv] at hc
    cases hw : (s.heap r).info.lookup uid with
    | none => rfl
    | some w =>
      rw [hw] at hc
      cases hc

theorem Keeping.write (h : s.Keeping) (hs : (s.heap r).Same room)
    (hgame : room.status = .eGame → ∀ b, s.rooms b = some r → s.gaming b = some r) : (s.setRoom r room).Keeping := by
  have hself : (s.setRoom r room).heap r = room := Function.update_self _ _ _
  have hother : ∀ x, x ≠ r → (s.setRoom r room).heap x = s.heap x := fun x hx => Function.update_of_ne hx _ _
  have hid : ∀ x, ((s.setRoom r room).heap x).batId = (s.heap x).batId := by
    intro x
    by_cases hx : x = r
    · rw [hx, hself, hs.batId]
    · rw [hother x hx]
  refine ⟨fun b x hx => ?_, fun b x hx => ?_, fun b x hx hst => ?_, h.unborn, fun x hx => ?_, h.each⟩
  · rw [hid]
    exact h.held b x hx
  · rw [hid]
    exact h.gamed b x hx
  · by_cases hxr : x = r
    · subst hxr
      rw [hself] at hst
      exact hgame hst b hx
    · rw [hother x hxr] at hst
      exact h.played b x hx hst
  · by_cases hxr : x = r
    · subst hxr
      exact (h.paced x hx).write hs
    · exact (h.paced x hx).congr (hother x hxr) rfl rfl

theorem Owed.write (h : s.Owed) (hs : (s.heap r).Same room)
    (hend : room.isEnd = true → (s.heap r).isEnd = true ∨ ∀ uid, waiting r s.log uid = none) : (s.setRoom r room).Owed := by
  intro x uid hx
  obtain ⟨b, hb, hlt, hon⟩ := h x uid hx
  refine ⟨b, hb, ?_⟩
  by_cases hxr : x = r
  · subst hxr
    rw [show (s.setRoom x room).heap x = room from Function.update_self _ _ _, hs.f, hs.fmax]
    refine ⟨hlt, ?_⟩
    cases hroom : room.isEnd with
    | false => rfl
    | true =>
      rcases hend hroom with hend | hnone
      · rw [hon] at hend
        cases hend
      · exact absurd (hnone uid) hx
  · rw [show (s.setRoom r room).heap x = s.heap x from Function.update_of_ne hxr _ _]
    exact ⟨hlt, hon⟩

theorem Keeping.emit (h : s.Keeping) (hes : ∀ e ∈ es, ∀ x, e.Quiet x) : (s.emit es).Keeping := by
  refine ⟨h.held, h.gamed, h.played, fun x hx e he => ?_, fun x hx => ?_, fun x => ?_⟩
  · rcases List.mem_append.1 he with he | he
    · exact h.unborn x hx e he
    · exact hes e he x
  · refine (h.paced x hx).congr rfl ?_ ?_
    · show frames x (s.log ++ es) = _
      rw [frames_append, frames_quiet (fun e he => hes e he x), List.append_nil]
    · show waiting x (s.log ++ es) = _
      rw [waiting_append, wait_quiet (fun e he => hes e he x)]
  · exact (h.each x).append (fun e he pre => (hes e he x).fits pre)

theorem Owed.emit (h : s.Owed) (hes : ∀ e ∈ es, ∀ x, e.Quiet x) : (s.emit es).Owed := by
  intro x uid hx
  have hx : waiting x (s.log ++ es) uid ≠ none := hx
  rw [waiting_append, wait_quiet (fun e he => hes e he x)] at hx
  exact h x uid hx

theorem Keeping.congr (h : s.Keeping) (hrooms : s'.rooms = s.rooms) (hheap : s'.heap = s.heap)
    (hcount : s'.roomCount = s.roomCount) (hgaming : s'.gaming = s.gaming) (hlog : s'.log = s.log) : s'.Keeping := by
  refine ⟨?_, ?_, ?_, ?_, fun r hr => ?_, ?_⟩
  · rw [hrooms, hheap, hcount]
    exact h.held
  · rw [hgaming, hheap, hcount]
    exact h.gamed
  · rw [hrooms, hheap, hgaming]
    exact h.played
  · rw [hcount, hlog]
    exact h.unborn
  · exact (h.paced r (hcount ▸ hr)).congr (by rw [hheap]) (by rw [hlog]) (by rw [hlog])
  · rw [hlog]
    exact h.each

theorem Owed.congr (h : s.Owed) (hheap : s'.heap = s.heap) (hgaming : s'.gaming = s.gaming) (hlog : s'.log = s.log) :
    s'.Owed := by
  unfold Owed Live
  rw [hheap, hgaming, hlog]
  exact h

theorem Keeping.forget (h : s.Keeping) (b : String) :
    Keeping { s with rooms := Function.update s.rooms b none } := by
  have hkept : ∀ k r, Function.update s.rooms b none k = some r → s.rooms k = some r := by
    intro k r hk
    by_cases hkb : k = b
    · rw [hkb, Function.update_self] at hk
      cases hk
    · rwa [Function.update_of_ne hkb] at hk
  refine ⟨fun k r hk => h.held k r (hkept k r hk), h.gamed, fun k r hk => h.played k r (hkept k r hk), h.unborn,
    fun r hr => (h.paced r hr).congr rfl rfl rfl, h.each⟩

theorem Keeping.game (h : s.Keeping) (hb : s.rooms b = some r) : (s.game b r).Keeping := by
  refine ⟨h.held, fun k x hk => ?_, fun k x hk hst => ?_, h.unborn, fun x hx => (h.paced x hx).congr rfl rfl rfl, h.each⟩
  · have hk : Function.update s.gaming b (some r) k = some x := hk
    by_cases hkb : k = b
    · rw [hkb, Function.update_self, Option.some.injEq] at hk
      rw [hkb, ← hk]
      exact h.held b r hb
    · rw [Function.update_of_ne hkb] at hk
      exact h.gamed k x hk
  · show Function.update s.gaming b (some r) k = some x
    by_cases hkb : k = b
    · rw [hkb, Function.update_self, ← hb, ← hkb]
      exact hk
    · rw [Function.update_of_ne hkb]
      exact h.played k x hk hst

theorem Owed.game (h : s.Owed) (hout : ∀ x, s.gaming b = some x → ∀ uid, waiting x s.log uid = none) :
    (s.game b r).Owed := by
  intro x uid hx
  obtain ⟨k, hk, hlive⟩ := h x uid hx
  have hkb : k ≠ b := by
    rintro rfl
    exact hx (hout x hk uid)
  exact ⟨k, (Function.update_of_ne hkb _ _).trans hk, hlive⟩

theorem Keeping.drop (h : s.Keeping) (hover : ∀ x, s.gaming b = some x → (s.heap x).status ≠ .eGame) :
    Keeping { s with gaming := Function.update s.gaming b none } := by
  refine ⟨h.held, fun k x hk => ?_, fun k x hk hst => ?_, h.unborn, fun x hx => (h.paced x hx).congr rfl rfl rfl, h.each⟩
  · have hk : Function.update s.gaming b none k = some x := hk
    by_cases hkb : k = b
    · rw [hkb, Function.update_self] at hk
      cases hk
    · rw [Function.update_of_ne hkb] at hk
      exact h.gamed k x hk
  · have hplays := h.played k x hk hst
    have hkb : k ≠ b := by
      rintro rfl
      exact hover x hplays hst
    exact (Function.update_of_ne hkb _ _).trans hplays

theorem Owed.drop (h : s.Owed) (hout : ∀ x, s.gaming b = some x → ∀ uid, waiting x s.log uid = none) :
    Owed { s with gaming := Function.update s.gaming b none } := by
  intro x uid hx
  obtain ⟨k, hk, hlive⟩ := h x uid hx
  have hkb : k ≠ b := by
    rintro rfl
    exact hx (hout x hk uid)
  exact ⟨k, (Function.update_of_ne hkb _ _).trans hk, hlive⟩

/-! ### The calls that are neither a command nor a frame -/

def Minds (p : Prop) (s s' : Center β ρ) : Prop := s'.Keeping ∧ (p → s.Owed → s'.Owed)

variable {p q : Prop}

theorem Minds.refl (h : s.Keeping) : Minds p s s := ⟨h, fun _ ho => ho⟩

theorem Minds.trans {s'' : Center β ρ} (h : Minds p s s') (h' : Minds q s' s'') : Minds (p ∧ q) s s'' :=
  ⟨h'.1, fun hpq ho => h'.2 hpq.2 (h.2 hpq.1 ho)⟩

theorem Minds.of (h : Minds p s s') (hpq : q → p) : Minds q s s' := ⟨h.1, fun hq ho => h.2 (hpq hq) ho⟩

theorem Minds.always {s'' : Center β ρ} (h : Minds p s s') (h' : Minds True s' s'') : Minds p s s'' :=
  (h.trans h').of (fun hp => ⟨hp, trivial⟩)

theorem notifyPvpInfo_minds (h : s.Keeping) (r : Nat) : Minds True s (s.notifyPvpInfo r) := by
  have hes : ∀ e ∈ [Event.broadcast r (s.heap r).status ((s.heap r).users.filterMap s.socket)
      (Msg.notifyPvpInfo (s.heap r).status (s.heap r).info)], ∀ x, e.Quiet x := by
    intro e he x
    rw [List.mem_singleton.1 he]
    exact ⟨rfl, fun cmd hc => by cases hc⟩
  exact ⟨h.emit hes, fun _ ho => ho.emit hes⟩

theorem timers_minds (h : s.Keeping) (timers : Timer → Bool) : Minds True s { s with timerMap := timers } :=
  ⟨h.congr rfl rfl rfl rfl rfl, fun _ ho => ho.congr rfl rfl rfl⟩

theorem arm_minds (h : s.Keeping) (r : Nat) : Minds True s (s.arm r) := by
  have hset := timers_minds h (Function.update s.timerMap (.status (s.heap r).batId) true)
  have hes : ∀ e ∈ ([.armed r (s.heap r).batId] : List (Event β ρ)), ∀ x, e.Quiet x := by
    intro e he x
    rw [List.mem_singleton.1 he]
    exact ⟨rfl, fun cmd hc => by cases hc⟩
  exact hset.always ⟨hset.1.emit hes, fun _ ho => ho.emit hes⟩

theorem delRoom_minds (h : s.Keeping) (b : String) : Minds True s (s.delRoom b) := by
  unfold delRoom
  split
  · exact Minds.refl h
  next r hr =>
  have hoff := timers_minds h (Function.update s.timerMap (.status b) false)
  have hgone : Minds True (s.disarm b) { s.disarm b with rooms := Function.update s.rooms b none } :=
    ⟨hoff.1.forget b, fun _ ho => ho.congr rfl rfl rfl⟩
  refine (hoff.always hgone).always ⟨hgone.1.emit ?_, fun _ ho => ho.emit ?_⟩
  all_goals
    intro e he x
    obtain ⟨uid, -, hu⟩ := List.mem_filterMap.1 he
    obtain ⟨u, -, rfl⟩ := Option.map_eq_some_iff.1 hu
    exact ⟨rfl, fun cmd hc => by cases hc⟩

theorem write_minds (h : s.Keeping) (hs : (s.heap r).Same room) (hst : room.status = .eGame → (s.heap r).status = .eGame)
    (hend : p → room.isEnd = true → (s.heap r).isEnd = true ∨ ∀ uid, waiting r s.log uid = none) :
    Minds p s (s.setRoom r room) :=
  ⟨h.write hs (fun hgame b hb => h.played b r hb (hst hgame)), fun hp ho => ho.write hs (hend hp)⟩

theorem free_minds (h : s.Keeping) (r : Nat) : Minds True s (s.free r) := by
  unfold free
  dsimp only
  split
  · exact Minds.refl h
  · have hoff := timers_minds h (Function.update s.timerMap (.status (s.heap r).batId) false)
    let room : Room β ρ := { (s.heap r).alterAll (Room.setStatus .eFree) with status := .eFree }
    have hsame : (s.heap r).Same room := by
      obtain ⟨h1, h2, h3, h4, h5, h6⟩ := alterAll_same (s.heap r) (g := Room.setStatus .eFree) (fun _ => rfl)
      exact ⟨h1, h2, h3, h4, h5, h6⟩
    have hwrite : Minds True (s.disarm (s.heap r).batId) ((s.disarm (s.heap r).batId).setRoom r room) :=
      write_minds hoff.1 hsame (fun hst => by cases hst) (fun _ hend => .inl hend)
    have hinfo := notifyPvpInfo_minds hwrite.1 r
    exact ((hoff.always hwrite).always hinfo).always (delRoom_minds hinfo.1 _)

/-- The players of a room that starts may not wait for a frame of one that the loop still has under its id. -/
def Clear (s : Center β ρ) (b : String) : Prop := ∀ x, s.gaming b = some x → s.Idle x

theorem Keeping.clear (h : s.Keeping) (hclear : s.Clear b) : ∀ x, s.gaming b = some x → ∀ uid, waiting x s.log uid = none :=
  fun x hx => (h.paced x (h.gamed b x hx).1).idle (hclear x hx)

theorem start_minds (h : s.Keeping) (hb : s.rooms b = some r) : Minds (s.Clear b) s (s.start r) := by
  obtain ⟨-, hid⟩ := h.held b r hb
  subst hid
  have hgame : Minds (s.Clear (s.heap r).batId) s (s.game (s.heap r).batId r) :=
    ⟨h.game hb, fun hclear ho => ho.game (h.clear hclear)⟩
  let room : Room β ρ := { (s.heap r).alterAll (fun v => if v.status < .eGame then Room.setStatus .eGame v else v) with
    status := .eGame, fs := fun _ => none }
  have hsame : (s.heap r).Same room := by
    have hg : ∀ v : Info β ρ, (if v.status < .eGame then Room.setStatus .eGame v else v).cmds = v.cmds := by
      intro v
      split
      · rfl
      · rfl
    obtain ⟨h1, h2, h3, h4, h5, -⟩ := alterAll_same (s.heap r) hg
    exact ⟨h1, h2, h3, h4, h5, fun _ _ => rfl⟩
  have hin : ∀ b, s.rooms b = some r → Function.update s.gaming (s.heap r).batId (some r) b = some r := by
    intro b hb'
    rw [← (h.held b r hb').2, Function.update_self]
  have hwrite : Minds True (s.game (s.heap r).batId r) ((s.game (s.heap r).batId r).setRoom r room) :=
    ⟨hgame.1.write hsame (fun _ => hin), fun _ ho => ho.write hsame (fun hend => .inl hend)⟩
  have harm := arm_minds hwrite.1 r
  exact (hgame.always hwrite).always harm

theorem over_minds (h : s.Keeping) (r : Nat) : Minds True s (s.roomOver r) := by
  let room : Room β ρ := { (s.heap r).alterAll (Room.setStatus .eSettle) with status := .eSettle }
  have hsame : (s.heap r).Same room := by
    obtain ⟨h1, h2, h3, h4, h5, h6⟩ := alterAll_same (s.heap r) (g := Room.setStatus .eSettle) (fun _ => rfl)
    exact ⟨h1, h2, h3, h4, h5, h6⟩
  have hwrite : Minds True s (s.setRoom r room) :=
    write_minds h hsame (fun hst => by cases hst) (fun _ hend => .inl hend)
  have hinfo := notifyPvpInfo_minds hwrite.1 r
  exact (hwrite.always hinfo).always (arm_minds hinfo.1 r)

theorem setIsEnd_minds (h : s.Keeping) (hr : r < s.roomCount) (isEnd : Bool) :
    Minds (s.Idle r) s (s.setIsEnd r isEnd) := by
  let room : Room β ρ := { s.heap r with isEnd := isEnd }
  have hsame : (s.heap r).Same room := ⟨rfl, rfl, rfl, rfl, fun _ => rfl, fun _ hf => hf⟩
  have hwrite : Minds (s.Idle r) s (s.setRoom r room) :=
    write_minds h hsame (fun hst => hst) (fun hidle _ => .inr ((h.paced r hr).idle hidle))
  unfold setIsEnd
  dsimp only
  split
  · exact hwrite.always (free_minds hwrite.1 r)
  · exact hwrite

theorem setStatus_same (room : Room β ρ) (uid : Nat) (st : Status) : room.Same (room.alter uid (Room.setStatus st)) :=
  alter_same room uid (fun _ => rfl)

theorem roomPrepare_minds (h : s.Keeping) (r uid : Nat) : Minds True s (s.roomPrepare r uid).1 := by
  have hsame := setStatus_same (s.heap r) uid .eWaitPrepare
  unfold roomPrepare
  dsimp only
  split
  · exact Minds.refl h
  split
  · exact Minds.refl h
  split
  · exact Minds.refl h
  split
  · split
    · let room : Room β ρ := { (s.heap r).alter uid (Room.setStatus .eWaitPrepare) with status := .eWaitLoad }
      have hready : (s.heap r).Same room :=
        ⟨hsame.batId, hsame.f, hsame.fmax, hsame.keys, hsame.cmds, hsame.fs⟩
      have hwrite : Minds True s (s.setRoom r room) :=
        write_minds h hready (fun hst => by cases hst) (fun _ hend => .inl hend)
      have harm := arm_minds hwrite.1 r
      exact (hwrite.always harm).always (notifyPvpInfo_minds harm.1 r)
    · have hwrite : Minds True s (s.setRoom r ((s.heap r).alter uid (Room.setStatus .eWaitPrepare))) :=
        write_minds h hsame (fun hst => hst) (fun _ hend => .inl hend)
      exact hwrite.always (notifyPvpInfo_minds hwrite.1 r)
  · exact Minds.refl h

theorem start_setRoom (s : Center β ρ) (r : Nat) (room : Room β ρ) (st : Status) :
    (s.setRoom r { room with status := st }).start r = (s.setRoom r room).start r := by
  have hself : ∀ room : Room β ρ, (s.setRoom r room).heap r = room := fun room => Function.update_self _ _ _
  unfold start
  rw [hself, hself]
  dsimp only
  have htwice : ∀ room room' : Room β ρ, (s.setRoom r room).setRoom r room' = s.setRoom r room' := by
    intro room room'
    unfold setRoom
    simp only [Function.update_idem]
  rw [htwice, htwice]
  rfl

def Loads (s : Center β ρ) (r uid : Nat) : Prop :=
  (∃ v, (s.heap r).info.lookup uid = some v ∧ v.status ≠ .eFree ∧ v.status < .eWaitLoad) ∧
    (s.heap r).isEnd = false ∧ (s.heap r).status < .eSettle ∧
    ((s.heap r).alter uid (Room.setStatus .eWaitLoad)).isAllStatus .eWaitLoad = true

theorem roomLoad_minds (h : s.Keeping) (hb : s.rooms b = some r) (uid : Nat) :
    Minds (s.Loads r uid → s.Clear b) s (s.roomLoad r uid).1 := by
  have hsame := setStatus_same (s.heap r) uid .eWaitLoad
  have hwrite : Minds True s (s.setRoom r ((s.heap r).alter uid (Room.setStatus .eWaitLoad))) :=
    write_minds h hsame (fun hst => hst) (fun _ hend => .inl hend)
  unfold roomLoad
  dsimp only
  split
  · exact Minds.refl h
  next v hv =>
  split
  · exact Minds.refl h
  next hleft =>
  split
  · exact Minds.refl h
  next hon =>
  split
  · next hlt =>
    split
    · next hall =>
      have hloads : s.Loads r uid := by
        rw [Bool.or_eq_true, not_or, decide_eq_true_eq, not_le, Bool.not_eq_true] at hon
        exact ⟨⟨v, hv, hleft, hlt⟩, hon.1, hon.2, hall⟩
      rw [start_setRoom]
      have hstart := start_minds hwrite.1 hb
      have hclear : s.Clear b → (s.setRoom r ((s.heap r).alter uid (Room.setStatus .eWaitLoad))).Clear b := by
        intro hclear x hx w hw
        have hstored := hclear x hx
        by_cases hxr : x = r
        · subst hxr
          rw [show (s.setRoom x _).heap x = (s.heap x).alter uid _ from Function.update_self _ _ _] at hw ⊢
          rw [alter_info] at hw
          obtain ⟨v, hv, rfl⟩ := List.mem_map.1 hw
          show (if v.1 = uid then _ else _ : Info β ρ).cmds _ = none
          split
          · exact hstored v hv
          · exact hstored v hv
        · rw [show (s.setRoom r _).heap x = s.heap x from Function.update_of_ne hxr _ _] at hw ⊢
          exact hstored w hw
      have hinfo := notifyPvpInfo_minds hstart.1 r
      exact (((hwrite.trans hstart).of (fun hc => ⟨trivial, hclear (hc hloads)⟩))).always hinfo
    · exact (hwrite.always (notifyPvpInfo_minds hwrite.1 r)).of (fun _ => trivial)
  · exact Minds.refl h

theorem roomLeave_minds (h : s.Keeping) (hr : r < s.roomCount) (uid : Nat) :
    Minds (((s.heap r).info.lookup uid).isSome → ((s.heap r).alter uid (Room.setStatus .eFree)).isAllLeft = true →
      s.Idle r) s (s.roomLeave r uid).1 := by
  have hsame := setStatus_same (s.heap r) uid .eFree
  unfold roomLeave
  dsimp only
  split
  · exact Minds.refl h
  next v hv =>
  split
  · next hall =>
    let room : Room β ρ := { (s.heap r).alter uid (Room.setStatus .eFree) with isEnd := true }
    have hend : (s.heap r).Same room := ⟨hsame.batId, hsame.f, hsame.fmax, hsame.keys, hsame.cmds, hsame.fs⟩
    have hwrite : Minds (((s.heap r).info.lookup uid).isSome →
        ((s.heap r).alter uid (Room.setStatus .eFree)).isAllLeft = true → s.Idle r) s (s.setRoom r room) :=
      write_minds h hend (fun hst => hst)
        (fun hidle _ => .inr ((h.paced r hr).idle (hidle (by rw [hv]; rfl) hall)))
    exact hwrite.always (notifyPvpInfo_minds hwrite.1 r)
  · have hwrite : Minds True s (s.setRoom r ((s.heap r).alter uid (Room.setStatus .eFree))) :=
      write_minds h hsame (fun hst => hst) (fun _ hend => .inl hend)
    exact (hwrite.always (notifyPvpInfo_minds hwrite.1 r)).of (fun _ => trivial)

theorem roomCommitReport_minds (h : s.Keeping) (r uid : Nat) (report : Option ρ) :
    Minds True s (s.roomCommitReport r uid report).1 := by
  unfold roomCommitReport
  dsimp only
  split
  · exact Minds.refl h
  split
  · exact Minds.refl h
  · let room : Room β ρ := (s.heap r).alter uid (fun v => { v with report := report })
    have hsame : (s.heap r).Same room := alter_same (s.heap r) uid (fun _ => rfl)
    have hwrite : Minds True s (s.setRoom r room) :=
      write_minds h hsame (fun hst => hst) (fun _ hend => .inl hend)
    split
    · exact hwrite.always (free_minds hwrite.1 r)
    · exact hwrite

theorem roomTimer_minds (h : s.Keeping) (hb : s.rooms b = some r) :
    Minds (((s.heap r).status ≠ .eWaitLoad → (s.heap r).status < .eSettle → s.Idle r) ∧
      ((s.heap r).status = .eWaitLoad → s.Clear b)) s (s.roomTimer r) := by
  obtain ⟨hr, -⟩ := h.held b r hb
  have hend := setIsEnd_minds h hr true
  unfold roomTimer
  split
  · next hwait =>
    apply hend.of
    refine fun hc => hc.1 ?_ (hwait.trans_lt (by decide))
    intro hload
    rw [hload] at hwait
    exact absurd hwait (by decide)
  split
  · next hload => exact (start_minds h hb).of (fun hc => hc.2 hload)
  split
  · next hgame =>
    apply hend.of
    refine fun hc => hc.1 ?_ (by rw [hgame]; decide)
    rw [hgame]
    decide
  split
  · exact (free_minds h r).of (fun _ => trivial)
  · exact Minds.refl h

theorem Keeping.mark (h : s.Keeping) (hr : r < s.roomCount) (hid : room.batId = (s.heap r).batId)
    (hst : room.status = (s.heap r).status) (hes : ∀ e ∈ es, ∀ x, x ≠ r → e.Quiet x)
    (hpaced : ((s.setRoom r room).emit es).Paced r) (heach : Steps.Each (Fits r) (s.log ++ es)) :
    ((s.setRoom r room).emit es).Keeping := by
  have hself : (s.setRoom r room).heap r = room := Function.update_self _ _ _
  have hother : ∀ x, x ≠ r → (s.setRoom r room).heap x = s.heap x := fun x hx => Function.update_of_ne hx _ _
  have hsame : ∀ x, ((s.setRoom r room).heap x).batId = (s.heap x).batId ∧
      ((s.setRoom r room).heap x).status = (s.heap x).status := by
    intro x
    by_cases hx : x = r
    · rw [hx, hself]
      exact ⟨hid, hst⟩
    · rw [hother x hx]
      exact ⟨rfl, rfl⟩
  refine ⟨fun b x hx => ?_, fun b x hx => ?_, fun b x hx hgame => ?_, fun x hx e he => ?_, fun x hx => ?_, fun x => ?_⟩
  · obtain ⟨hlt, hxid⟩ := h.held b x hx
    exact ⟨hlt, (hsame x).1.trans hxid⟩
  · obtain ⟨hlt, hxid⟩ := h.gamed b x hx
    exact ⟨hlt, (hsame x).1.trans hxid⟩
  · exact h.played b x hx ((hsame x).2.symm.trans hgame)
  · have hne : x ≠ r := fun hxr => absurd hx (not_le.2 (hxr ▸ hr))
    rcases List.mem_append.1 he with he | he
    · exact h.unborn x hx e he
    · exact hes e he x hne
  · by_cases hxr : x = r
    · rw [hxr]
      exact hpaced
    · refine (h.paced x hx).congr (hother x hxr) ?_ ?_
      · show frames x (s.log ++ es) = _
        rw [frames_append, frames_quiet (fun e he => hes e he x hxr), List.append_nil]
      · show waiting x (s.log ++ es) = _
        rw [waiting_append, wait_quiet (fun e he => hes e he x hxr)]
  · by_cases hxr : x = r
    · rw [hxr]
      exact heach
    · exact (h.each x).append (fun e he pre => (hes e he x hxr).fits pre)

theorem Owed.mark (h : s.Owed) (hes : ∀ e ∈ es, ∀ x, x ≠ r → e.Quiet x)
    (hown : ∀ uid, waiting r (s.log ++ es) uid ≠ none →
      (∃ b, s.gaming b = some r) ∧ room.f < room.fmax ∧ room.isEnd = false) : ((s.setRoom r room).emit es).Owed := by
  intro x uid hx
  have hx : waiting x (s.log ++ es) uid ≠ none := hx
  by_cases hxr : x = r
  · subst hxr
    obtain ⟨⟨b, hb⟩, hlive⟩ := hown uid hx
    refine ⟨b, hb, ?_⟩
    rw [show ((s.setRoom x room).emit es).heap x = room from Function.update_self _ _ _]
    exact hlive
  · rw [waiting_append, wait_quiet (fun e he => hes e he x hxr)] at hx
    obtain ⟨b, hb, hlive⟩ := h x uid hx
    refine ⟨b, hb, ?_⟩
    rw [show ((s.setRoom r room).emit es).heap x = s.heap x from Function.update_of_ne hxr _ _]
    exact hlive

theorem roomCommitCmd_minds (h : s.Keeping) (hb : s.rooms b = some r) (uid : Nat) (body : β) :
    Minds (((s.heap r).info.lookup uid).isSome → (s.heap r).status = .eGame →
      (s.heap r).f < (s.heap r).fmax ∧ (s.heap r).isEnd = false) s (s.roomCommitCmd r uid body).1 := by
  obtain ⟨hr, -⟩ := h.held b r hb
  have hp := h.paced r hr
  unfold roomCommitCmd
  dsimp only
  split
  · exact Minds.refl h
  next v hv =>
  split
  · exact Minds.refl h
  next hgame =>
  rw [not_not] at hgame
  let cmd : Cmd β := ⟨uid, (s.heap r).f, body⟩
  let g : Info β ρ → Info β ρ := fun v => { v with cmds := Function.update v.cmds (s.heap r).f (some cmd) }
  let room : Room β ρ := (s.heap r).alter uid g
  have hself : ((s.setRoom r room).emit [.accepted r cmd]).heap r = room := Function.update_self _ _ _
  have hlog : ((s.setRoom r room).emit [.accepted r cmd]).log = s.log ++ [.accepted r cmd] := rfl
  have hes : ∀ e ∈ ([.accepted r cmd] : List (Event β ρ)), ∀ x, x ≠ r → e.Quiet x := by
    intro e he x hx
    rw [List.mem_singleton.1 he]
    exact ⟨rfl, fun c hc => hx (Event.accepted.inj hc).1.symm⟩
  have hframes : frames r (s.log ++ [.accepted r cmd]) = frames r s.log := by
    rw [frames_append]
    exact List.append_nil _
  have hwait : waiting r (s.log ++ [.accepted r cmd]) = Function.update (waiting r s.log) uid (some cmd) := by
    rw [waiting_append, List.foldl_cons, List.foldl_nil, wait_accepted]
  have hlookup : ∀ k, room.info.lookup k = ((s.heap r).info.lookup k).map (fun v => if k = uid then g v else v) :=
    fun k => alter_lookup (s.heap r) uid g k
  have hpaced : ((s.setRoom r room).emit [.accepted r cmd]).Paced r := by
    refine ⟨?_, ?_, ?_, fun k => ?_, fun k w hw n hn => ?_, fun k hk => ?_⟩
    · rw [hself]
      show (((s.heap r).alter uid g).info.map Prod.fst).Nodup
      rw [alter_info, List.map_map]
      exact hp.keys
    · rw [hself, hlog, hframes]
      exact hp.count
    · rw [hself]
      exact hp.below
    · rw [hself, hlog, hwait, hlookup, Option.bind_map]
      by_cases hk : k = uid
      · rw [hk, Function.update_self, hv]
        show some cmd = (if uid = uid then g v else v).cmds (s.heap r).f
        rw [if_pos rfl]
        show some cmd = Function.update v.cmds (s.heap r).f (some cmd) (s.heap r).f
        rw [Function.update_self]
      · rw [Function.update_of_ne hk, hp.waits k]
        apply congrArg (fun f => ((s.heap r).info.lookup k).bind f)
        funext w
        show w.cmds (s.heap r).f = (if k = uid then g w else w).cmds (s.heap r).f
        rw [if_neg hk]
    · rw [hself] at hw hn
      rw [hlookup] at hw
      obtain ⟨w', hw', rfl⟩ := Option.map_eq_some_iff.1 hw
      have hn : (s.heap r).f < n := hn
      split
      · show Function.update w'.cmds (s.heap r).f (some cmd) n = none
        rw [Function.update_of_ne hn.ne']
        exact hp.later k w' hw' n hn
      · exact hp.later k w' hw' n hn
    · rw [hself] at hk ⊢
      rw [hlookup, Option.map_eq_none_iff] at hk
      exact hp.fs k hk
  have heach : Steps.Each (Fits r) (s.log ++ [.accepted r cmd]) := by
    apply (h.each r).snoc
    refine ⟨fun f fs hf => (by cases hf), fun c hc => ?_⟩
    rw [← (Event.accepted.inj hc).2]
    exact hp.count
  refine ⟨h.mark hr rfl rfl hes hpaced heach, fun hopen ho => ho.mark hes (fun _ _ => ?_)⟩
  exact ⟨⟨b, h.played b r hb hgame⟩, hopen (by rw [hv]; rfl) hgame⟩

theorem frame_minds (h : s.Keeping) (hr : r < s.roomCount) (hon : (s.heap r).f < (s.heap r).fmax) (fds : List Nat)
    (st : Status) : Minds True s ((s.setRoom r { s.heap r with fs := (s.heap r).pack, f := (s.heap r).f + 1 }).emit
      [.broadcast r st fds (.notifyPvpCmd (s.heap r).batId (s.heap r).f (s.heap r).pack)]) := by
  have hp := h.paced r hr
  let room : Room β ρ := { s.heap r with fs := (s.heap r).pack, f := (s.heap r).f + 1 }
  let e : Event β ρ := .broadcast r st fds (.notifyPvpCmd (s.heap r).batId (s.heap r).f (s.heap r).pack)
  have hframe : e.frame? r = some ((s.heap r).f, (s.heap r).pack) := if_pos rfl
  have hself : ((s.setRoom r room).emit [e]).heap r = room := Function.update_self _ _ _
  have hlog : ((s.setRoom r room).emit [e]).log = s.log ++ [e] := rfl
  have hes : ∀ e' ∈ [e], ∀ x, x ≠ r → e'.Quiet x := by
    intro e' he x hx
    rw [List.mem_singleton.1 he]
    refine ⟨if_neg (Ne.symm hx), fun c hc => ?_⟩
    simp only [e, reduceCtorEq] at hc
  have hwait : waiting r (s.log ++ [e]) = fun _ => none := by
    rw [waiting_append, List.foldl_cons, List.foldl_nil, wait_frame hframe]
  have hpack : ∀ uid, (s.heap r).pack uid = waiting r s.log uid := by
    intro uid
    rw [pack_lookup _ hp.keys, hp.waits]
    cases huid : (s.heap r).info.lookup uid with
    | none => exact hp.fs uid huid
    | some v => rfl
  have hpaced : ((s.setRoom r room).emit [e]).Paced r := by
    refine ⟨?_, ?_, ?_, fun k => ?_, fun k w hw n hn => ?_, fun k hk => ?_⟩
    · rw [hself]
      exact hp.keys
    · rw [hself, hlog, frames_append, frames_one hframe, List.length_append]
      exact congrArg (· + 1) hp.count
    · rw [hself]
      exact hon
    · rw [hself, hlog, hwait]
      show none = ((s.heap r).info.lookup k).bind (fun v => v.cmds ((s.heap r).f + 1))
      cases hk : (s.heap r).info.lookup k with
      | none => rfl
      | some v => exact (hp.later k v hk _ (Nat.lt_succ_self _)).symm
    · rw [hself] at hw hn
      exact hp.later k w hw n (Nat.lt_of_succ_lt hn)
    · rw [hself] at hk ⊢
      show (s.heap r).pack k = none
      have hk : (s.heap r).info.lookup k = none := hk
      rw [hpack, hp.waits, hk]
      rfl
  have heach : Steps.Each (Fits r) (s.log ++ [e]) := by
    apply (h.each r).snoc
    constructor
    · intro f fs hf
      rw [hframe, Option.some.injEq, Prod.mk.injEq] at hf
      obtain ⟨rfl, rfl⟩ := hf
      exact ⟨hp.count, hpack⟩
    · intro c hc
      simp only [e, reduceCtorEq] at hc
  refine ⟨h.mark hr rfl rfl hes hpaced heach, fun _ ho => ho.mark hes (fun uid huid => ?_)⟩
  rw [hwait] at huid
  exact absurd rfl huid

theorem turn_minds (h : s.Keeping) (b : String) : Minds True s (s.turn b) := by
  unfold turn
  split
  · exact Minds.refl h
  next r hr =>
  obtain ⟨hlt, -⟩ := h.gamed b r hr
  unfold roomGame
  dsimp only
  split
  · next hover =>
    have hdone : ¬ s.Live r := by
      rintro ⟨k, -, hf, hon⟩
      rw [Bool.or_eq_true, decide_eq_true_eq, hon] at hover
      rcases hover with hle | hend
      · exact absurd hf (not_lt.2 hle)
      · cases hend
    have hset := over_minds h r
    have hstatus : ((s.roomOver r).heap r).status = .eSettle := by
      show (Function.update s.heap r _ r).status = .eSettle
      rw [Function.update_self]
    have hin : ∀ x, (s.roomOver r).gaming b = some x → x = r := fun x hx => Option.some.inj (hx.symm.trans hr)
    refine ⟨hset.1.drop (fun x hx => ?_), fun _ ho => (hset.2 trivial ho).drop (fun x hx uid => ?_)⟩
    · rw [hin x hx, hstatus]
      decide
    · -- what waited would be owed another frame
      rw [hin x hx]
      have hlog : waiting r (s.roomOver r).log = waiting r s.log := by
        show waiting r ((s.log ++ [_]) ++ [_]) = _
        rw [waiting_append, waiting_append]
        rfl
      rw [hlog]
      by_contra hne
      exact hdone (ho r uid hne)
  · next hon =>
    rw [Bool.or_eq_true, not_or, decide_eq_true_eq, not_le] at hon
    let room : Room β ρ := { s.heap r with fs := (s.heap r).pack }
    have hself : (s.setRoom r room).heap r = room := Function.update_self _ _ _
    have htwice : ∀ (fds : List Nat) (st : Status) (msg : Msg β ρ) (room' : Room β ρ),
        ((s.setRoom r room).emit [.broadcast r st fds msg]).setRoom r room' =
          (s.setRoom r room').emit [.broadcast r st fds msg] := by
      intro fds st msg room'
      unfold setRoom emit
      simp only [Function.update_idem]
    unfold notifyMsgBatch
    rw [htwice]
    exact frame_minds h hlt hon.1 _ _

theorem tick_minds (h : s.Keeping) (ids : List String) : Minds True s (s.tick ids) := by
  have hall : ∀ (ids : List String) (s : Center β ρ), s.Keeping → Minds True s (ids.foldl turn s) := by
    intro ids
    induction ids with
    | nil =>
      intro s h
      exact Minds.refl h
    | cons id ids ih =>
      intro s h
      have hone := turn_minds h id
      exact hone.always (ih _ hone.1)
  unfold tick
  split
  · have hturned := hall ids s h
    dsimp only
    split
    · exact hturned.always ⟨hturned.1.congr rfl rfl rfl rfl rfl, fun _ ho => ho.congr rfl rfl rfl⟩
    · exact hturned
  · exact Minds.refl h

theorem createBattle_minds (h : s.Keeping) (batId : String) (users : Roster) (rate time : Option Int) :
    Minds True s (s.createBattle batId users rate time).1 := by
  unfold createBattle
  split
  · exact Minds.refl h
  split
  · exact Minds.refl h
  split
  · exact Minds.refl h
  next hnew =>
  have hnone : s.rooms batId = none := by simpa using hnew
  let made : Center β ρ := { s.setRoom s.roomCount (Room.new batId) with
    rooms := Function.update s.rooms batId (some s.roomCount), roomCount := s.roomCount + 1 }
  have hself : made.heap s.roomCount = Room.new batId := Function.update_self _ _ _
  have hold : ∀ x, x < s.roomCount → made.heap x = s.heap x := fun x hx => Function.update_of_ne hx.ne _ _
  have hframes : frames s.roomCount s.log = [] := frames_quiet (h.unborn _ le_rfl)
  have hwait : waiting s.roomCount s.log = fun _ => none := wait_quiet (h.unborn _ le_rfl) _
  have hroom : ∀ k x, made.rooms k = some x → (k = batId ∧ x = s.roomCount) ∨ s.rooms k = some x := by
    intro k x hk
    have hk : Function.update s.rooms batId (some s.roomCount) k = some x := hk
    by_cases hkb : k = batId
    · rw [hkb, Function.update_self, Option.some.injEq] at hk
      exact .inl ⟨hkb, hk.symm⟩
    · rw [Function.update_of_ne hkb] at hk
      exact .inr hk
  have hmade : made.Keeping := by
    refine ⟨fun k x hk => ?_, fun k x hk => ?_, fun k x hk hgame => ?_, fun x hx e he => ?_, fun x hx => ?_, h.each⟩
    · rcases hroom k x hk with ⟨rfl, rfl⟩ | hk
      · rw [hself]
        exact ⟨Nat.lt_succ_self _, rfl⟩
      · obtain ⟨hx, hxid⟩ := h.held k x hk
        rw [hold x hx]
        exact ⟨Nat.lt_succ_of_lt hx, hxid⟩
    · obtain ⟨hx, hxid⟩ := h.gamed k x hk
      rw [hold x hx]
      exact ⟨Nat.lt_succ_of_lt hx, hxid⟩
    · rcases hroom k x hk with ⟨rfl, rfl⟩ | hk
      · rw [hself] at hgame
        cases hgame
      · rw [hold x (h.held k x hk).1] at hgame
        exact h.played k x hk hgame
    · exact h.unborn x (Nat.le_of_succ_le hx) e he
    · rcases Nat.lt_succ_iff_lt_or_eq.1 hx with hx | rfl
      · exact (h.paced x hx).congr (hold x hx) rfl rfl
      · refine ⟨?_, ?_, ?_, fun uid => ?_, fun uid v hv => ?_, fun uid _ => ?_⟩
        · rw [hself]
          exact List.nodup_nil
        · rw [hself]
          exact (congrArg List.length hframes).symm
        · rw [hself]
          exact le_rfl
        · rw [hself]
          exact congrFun hwait uid
        · rw [hself] at hv
          cases hv
        · rw [hself]
          rfl
  have howed : s.Owed → made.Owed := by
    intro ho x uid hx
    obtain ⟨k, hk, hlive⟩ := ho x uid hx
    refine ⟨k, hk, ?_⟩
    rw [hold x (h.gamed k x hk).1]
    exact hlive
  have harm := arm_minds hmade s.roomCount
  -- the room is written with its players
  let ready : Room β ρ := (made.heap s.roomCount).init users (rate.getD 16).toNat (time.getD 300).toNat
  let written := ((made.arm s.roomCount).setRoom s.roomCount ready).emit []
  have hready : written.heap s.roomCount = ready := Function.update_self _ _ _
  have harmed : (made.arm s.roomCount).log = s.log ++ [.armed s.roomCount (made.heap s.roomCount).batId] := rfl
  have hlog : written.log = s.log ++ [.armed s.roomCount (made.heap s.roomCount).batId] := by
    show (made.arm s.roomCount).log ++ [] = _
    rw [List.append_nil, harmed]
  have hframes' : frames s.roomCount written.log = [] := by
    rw [hlog, frames_append, hframes]
    rfl
  have hwait' : waiting s.roomCount written.log = fun _ => none := by
    rw [hlog, waiting_append, hwait]
    rfl
  have hlookup : ∀ (l : List (Nat × Option Nat)) (uid : Nat) (v : Info β ρ),
      (l.map (fun u => (u.1, (⟨u.2.getD 0, .eInit, fun _ => none, none⟩ : Info β ρ)))).lookup uid = some v →
        ∀ n, v.cmds n = none := by
    intro l uid v hv n
    obtain ⟨u, -, hu⟩ := List.mem_map.1 (mem_of_lookup hv)
    rw [← (Prod.mk.inj hu).2]
  have hpaced : written.Paced s.roomCount := by
    refine ⟨?_, ?_, ?_, fun uid => ?_, fun uid v hv n _ => ?_, fun uid _ => ?_⟩
    · rw [hready]
      show ((users.players.map (fun u => (u.1, (⟨u.2.getD 0, .eInit, fun _ => none, none⟩ : Info β ρ)))).map
        Prod.fst).Nodup
      rw [List.map_map]
      exact users.nodup
    · rw [hready, hframes']
      exact congrArg Room.f hself
    · rw [hready]
      show (made.heap s.roomCount).f ≤ _
      rw [hself]
      exact Nat.zero_le _
    · rw [hready, hwait']
      cases hv : ready.info.lookup uid with
      | none => rfl
      | some v => exact (hlookup users.players uid v hv _).symm
    · rw [hready] at hv
      exact hlookup users.players uid v hv n
    · rw [hready]
      show (made.heap s.roomCount).fs uid = none
      rw [hself]
      rfl
  have heach : Steps.Each (Fits s.roomCount) ((made.arm s.roomCount).log ++ []) := by
    rw [List.append_nil]
    exact harm.1.each s.roomCount
  have hwritten : Minds True (made.arm s.roomCount) written := by
    refine ⟨harm.1.mark (Nat.lt_succ_self _) rfl ?_ (fun e he => by cases he) hpaced heach, fun _ ho =>
      ho.mark (fun e he => by cases he) (fun uid huid => ?_)⟩
    · exact (congrArg Room.status hself).symm
    · have huid : waiting s.roomCount written.log uid ≠ none := huid
      rw [hwait'] at huid
      exact absurd rfl huid
  have hstart : Minds True s made := ⟨hmade, fun _ => howed⟩
  have hall := ((hstart.always harm).always hwritten).always (arm_minds hwritten.1 s.roomCount)
  have hemit : written = (made.arm s.roomCount).setRoom s.roomCount ready := by
    show ((made.arm s.roomCount).setRoom s.roomCount ready).emit [] = _
    unfold emit
    rw [List.append_nil]
  rw [hemit] at hall
  exact hall

theorem Aside.minds (h : s.Keeping) (w : Aside s s') : Minds True s s' := by
  obtain ⟨es, hlog, hes⟩ := w.quiet
  have hquiet : ∀ e ∈ es, ∀ x, e.Quiet x := by
    intro e he x
    have hnone := (hes e he).1
    cases e with
    | broadcast r st fds msg => cases hnone
    | armed r b => cases hnone
    | accepted r cmd => cases hnone
    | sent fd msg => exact ⟨rfl, fun cmd hc => by cases hc⟩
    | handled fd u => exact ⟨rfl, fun cmd hc => by cases hc⟩
    | gateAfk uid subid flag => exact ⟨rfl, fun cmd hc => by cases hc⟩
  have hrest := h.emit hquiet
  exact ⟨hrest.congr w.rooms w.heap w.count w.gaming hlog, fun _ ho => (ho.emit hquiet).congr w.heap w.gaming hlog⟩

theorem request_minds (h : s.Keeping) {method : Center β ρ → Nat → Center β ρ × Except Err Unit} {p : Nat → Prop}
    (hm : ∀ r, s.rooms b = some r → Minds (p r) s (method s r).1) :
    Minds (∀ r, s.rooms b = some r → p r) s (s.request b method).1 := by
  unfold request
  split
  · exact Minds.refl h
  · next r hr => exact (hm r hr).of (fun hp => hp r hr)

def Leaves (s : Center β ρ) (r uid : Nat) : Prop :=
  ((s.heap r).info.lookup uid).isSome ∧ ((s.heap r).alter uid (Room.setStatus .eFree)).isAllLeft = true

/-- **No command comes too late, and no game ends on one.**  A command is given while a frame is to come; and a call that
ends a game, or puts another room in the loop under its id, finds no command stored for the game's current frame. -/
def Served (s : Center β ρ) : Call β ρ → Prop
  | .reqCommitCmd batId uid _ => ∀ r, s.rooms batId = some r → ((s.heap r).info.lookup uid).isSome →
      (s.heap r).status = .eGame → (s.heap r).f < (s.heap r).fmax ∧ (s.heap r).isEnd = false
  | .reqLoad batId uid => ∀ r, s.rooms batId = some r → s.Loads r uid → s.Clear batId
  | .reqLeave batId uid => ∀ r, s.rooms batId = some r → s.Leaves r uid → s.Idle r
  | .afk uid batId _ => (s.users uid).isSome → ∀ r, s.rooms batId = some r → s.Leaves r uid → s.Idle r
  | .timerCallback (.status batId) => s.timerMap (.status batId) = true → ∀ r, s.rooms batId = some r →
      ((s.heap r).status ≠ .eWaitLoad → (s.heap r).status < .eSettle → s.Idle r) ∧
      ((s.heap r).status = .eWaitLoad → s.Clear batId)
  | _ => True

theorem timerCallback_minds (h : s.Keeping) (timer : Timer) :
    Minds (s.Served (.timerCallback timer)) s (s.timerCallback timer) := by
  have htake := timers_minds h (Function.update s.timerMap timer false)
  unfold timerCallback
  split
  · next hon =>
    cases timer with
    | status batId =>
      dsimp only
      split
      · exact htake.of (fun _ => trivial)
      · next r hr => exact (htake.trans (roomTimer_minds htake.1 hr)).of (fun hs => ⟨trivial, hs hon r hr⟩)
    | heartbeat uid =>
      dsimp only
      split
      · exact htake.of (fun _ => trivial)
      · refine (htake.always (Aside.minds htake.1 (Aside.emit ?_))).of (fun _ => trivial)
        intro e he
        rw [List.mem_singleton.1 he]
        exact ⟨rfl, trivial⟩
  · exact Minds.refl h

theorem afk_minds (h : s.Keeping) (uid : Nat) (batId : String) (flag : Option Nat) :
    Minds (s.Served (.afk uid batId flag)) s (s.afk uid batId flag) := by
  unfold afk
  split
  · exact Minds.refl h
  next u hu =>
  have haside : Aside s ((s.userAfk u flag).delUser uid) := (userAfk_aside u flag).trans (delUser_aside uid)
  have hgone := haside.minds h
  dsimp only
  split
  · exact hgone.of (fun _ => trivial)
  · next r hr =>
    have hheld := (hgone.1.held batId r hr).1
    refine (hgone.trans (roomLeave_minds hgone.1 hheld uid)).of (fun hs => ⟨trivial, fun hin hall => ?_⟩)
    rw [haside.heap] at hin hall
    rw [haside.rooms] at hr
    unfold Idle
    rw [haside.heap]
    exact hs (by rw [hu]; rfl) r hr ⟨hin, hall⟩

theorem step_minds (h : s.Keeping) (call : Call β ρ) : Minds (s.Served call) s (s.step call) := by
  cases call with
  | createBattle batId users rate time => exact (createBattle_minds h batId users rate time).of (fun _ => trivial)
  | login uid batId subid => exact ((login_aside uid batId subid).minds h).of (fun _ => trivial)
  | setFd fd uid subid => exact ((setFd_aside fd uid subid).minds h).of (fun _ => trivial)
  | afk uid batId flag => exact afk_minds h uid batId flag
  | dispatchMsg fd => exact ((dispatchMsg_aside fd).minds h).of (fun _ => trivial)
  | reqPrepare batId uid => exact (request_minds h (fun r _ => roomPrepare_minds h r uid)).of (fun _ _ _ => trivial)
  | reqLoad batId uid => exact request_minds h (fun r hr => roomLoad_minds h hr uid)
  | reqLeave batId uid =>
    exact (request_minds h (fun r hr => roomLeave_minds h (h.held batId r hr).1 uid)).of
      (fun hs r hr hin hall => hs r hr ⟨hin, hall⟩)
  | reqCommitCmd batId uid body => exact request_minds h (fun r hr => roomCommitCmd_minds h hr uid body)
  | reqCommitReport batId uid report =>
    exact (request_minds h (fun r _ => roomCommitReport_minds h r uid report)).of (fun _ _ _ => trivial)
  | timerCallback timer => exact timerCallback_minds h timer
  | heartbeat uid on => exact ((heartbeat_aside uid on).minds h).of (fun _ => trivial)
  | tick ids => exact (tick_minds h ids).of (fun _ => trivial)
  | stop => exact ⟨h.congr rfl rfl rfl rfl rfl, fun _ ho => ho.congr rfl rfl rfl⟩

theorem init_keeping (debug : Bool) : (init debug : Center β ρ).Keeping where
  held _ _ h := by cases h
  gamed _ _ h := by cases h
  played _ _ h := by cases h
  unborn _ _ _ h := by cases h
  paced _ h := by cases h
  each r := Steps.Each.nil _

theorem init_owed (debug : Bool) : (init debug : Center β ρ).Owed := fun _ _ h => absurd rfl h

theorem turn_log (s : Center β ρ) (b : String) :
    ∃ es, (s.turn b).log = s.log ++ es ∧ ∀ e ∈ es, ∀ x c, e ≠ .accepted x c := by
  unfold turn
  split
  · exact ⟨[], (List.append_nil _).symm, fun e he => by cases he⟩
  · unfold roomGame
    dsimp only
    split
    · refine ⟨[_] ++ [_], List.append_assoc _ _ _, fun e he x c => ?_⟩
      rcases List.mem_append.1 he with he | he
      · rw [List.mem_singleton.1 he]
        exact fun h => by cases h
      · rw [List.mem_singleton.1 he]
        exact fun h => by cases h
    · refine ⟨[_], rfl, fun e he x c => ?_⟩
      rw [List.mem_singleton.1 he]
      exact fun h => by cases h

theorem turns_log (ids : List String) : ∀ s : Center β ρ,
    ∃ es, (ids.foldl turn s).log = s.log ++ es ∧ ∀ e ∈ es, ∀ x c, e ≠ .accepted x c := by
  induction ids with
  | nil =>
    intro s
    exact ⟨[], (List.append_nil _).symm, fun e he => by cases he⟩
  | cons id ids ih =>
    intro s
    obtain ⟨es, hlog, hes⟩ := turn_log s id
    obtain ⟨es', hlog', hes'⟩ := ih (s.turn id)
    refine ⟨es ++ es', ?_, fun e he => ?_⟩
    · rw [List.foldl_cons, hlog', hlog, List.append_assoc]
    · rcases List.mem_append.1 he with he | he
      · exact hes e he
      · exact hes' e he

theorem wait_none {es : List (Event β ρ)} (h : ∀ e ∈ es, ∀ x c, e ≠ .accepted x c) {uid : Nat} :
    ∀ w : Nat → Option (Cmd β), w uid = none → es.foldl (Event.wait r) w uid = none := by
  induction es with
  | nil =>
    intro w hw
    exact hw
  | cons e es ih =>
    intro w hw
    rw [List.foldl_cons]
    apply ih (fun x hx => h x (List.mem_cons_of_mem _ hx))
    cases hframe : e.frame? r with
    | some fr => rw [wait_frame hframe]
    | none =>
      have hquiet : e.Quiet r := ⟨hframe, h e List.mem_cons_self r⟩
      rwa [hquiet.wait]

theorem turn_other (h : s.Keeping) (hb : s.gaming b = some r) {k : String} (hk : k ≠ b) :
    (s.turn k).gaming b = some r ∧ (s.turn k).heap r = s.heap r := by
  unfold turn
  split
  · exact ⟨hb, rfl⟩
  next x hx =>
  have hxr : r ≠ x := by
    rintro rfl
    exact hk ((h.gamed k _ hx).2.symm.trans (h.gamed b _ hb).2)
  unfold roomGame
  dsimp only
  split
  · exact ⟨(Function.update_of_ne hk.symm _ _).trans hb, Function.update_of_ne hxr _ _⟩
  · refine ⟨hb, ?_⟩
    show Function.update (Function.update s.heap x _) x _ r = s.heap r
    rw [Function.update_of_ne hxr, Function.update_of_ne hxr]

theorem tick_sends (h : s.Keeping) (hb : s.gaming b = some r) (hf : (s.heap r).f < (s.heap r).fmax)
    (hon : (s.heap r).isEnd = false) {ids : List String} (hids : b ∈ ids) (uid : Nat) :
    waiting r (ids.foldl turn s).log uid = none := by
  obtain ⟨before, after, rfl, hfirst⟩ := List.eq_append_cons_of_mem hids
  -- the rooms before it in the turn
  have hreach : ∀ (l : List String) (s : Center β ρ), s.Keeping → s.gaming b = some r → b ∉ l →
      (l.foldl turn s).Keeping ∧ (l.foldl turn s).gaming b = some r ∧ (l.foldl turn s).heap r = s.heap r := by
    intro l
    induction l with
    | nil =>
      intro s h hb _
      exact ⟨h, hb, rfl⟩
    | cons k l ih =>
      intro s h hb hl
      rw [List.mem_cons, not_or] at hl
      obtain ⟨hb', hheap⟩ := turn_other h hb (Ne.symm hl.1)
      obtain ⟨h1, h2, h3⟩ := ih (s.turn k) (turn_minds h k).1 hb' hl.2
      exact ⟨h1, h2, h3.trans hheap⟩
  obtain ⟨-, hb', hheap⟩ := hreach before s h hb hfirst
  rw [List.foldl_append, List.foldl_cons]
  generalize before.foldl turn s = t at hb' hheap ⊢
  obtain ⟨es, hlog, hes⟩ := turns_log after (t.turn b)
  rw [hlog, waiting_append]
  apply wait_none hes
  have hplay : ¬ ((decide ((t.heap r).fmax ≤ (t.heap r).f) || (t.heap r).isEnd) = true) := by
    rw [hheap, hon, Bool.or_false, decide_eq_true_eq]
    exact not_le.2 hf
  unfold turn
  rw [hb']
  unfold roomGame
  dsimp only
  rw [if_neg hplay]
  show waiting r (t.log ++ [.broadcast r _ _ (.notifyPvpCmd _ _ _)]) uid = none
  rw [waiting_append, List.foldl_cons, List.foldl_nil]
  show (if r = r then fun _ => none else _ : Nat → Option (Cmd β)) uid = none
  rw [if_pos rfl]

theorem run_keeping (debug : Bool) (calls : List (Call β ρ)) : (run debug calls).Keeping := by
  have hall : ∀ (calls : List (Call β ρ)) (s : Center β ρ), s.Keeping → (calls.foldl step s).Keeping :=
    Steps.inv_of_run (fun s c h => (step_minds h c).1)
  exact hall calls _ (init_keeping debug)

/-- **The frames of a room**, in every run: they are numbered from 0 and below `fmax`, and each holds every player's last
command since the frame before.  Where no command comes too late and no game ends on one, every accepted command is
superseded by the player's next, or is in exactly one frame, or will be after the next turn of the loop. -/
theorem frames_of_run (debug : Bool) (calls : List (Call β ρ)) (r : Nat) :
    (frames r (run debug calls).log).map Prod.fst = List.range (frames r (run debug calls).log).length ∧
    (∀ fr ∈ frames r (run debug calls).log, fr.1 < ((run debug calls).heap r).fmax) ∧
    (∀ pre e post fr, (run debug calls).log = pre ++ e :: post → e.frame? r = some fr →
      ∀ uid, fr.2 uid = waiting r pre uid) ∧
    (Steps.Along step Served (init debug) calls → ∀ pre cmd post, (run debug calls).log = pre ++ .accepted r cmd :: post →
      Superseded r cmd post ∨ Sent r cmd (run debug calls).log ∨
        ∃ b, (run debug calls).gaming b = some r ∧
          ∀ ids, b ∈ ids → (run debug calls).co = .running → Sent r cmd ((run debug calls).tick ids).log) := by
  have hs : (run debug calls).Keeping := run_keeping debug calls
  have hfit := hs.each r
  refine ⟨frames_numbered hfit, fun fr hfr => ?_, fun pre e post fr hlog he => ?_, fun hserved pre cmd post hlog => ?_⟩
  · by_cases hr : r < (run debug calls).roomCount
    · obtain ⟨i, hi⟩ := List.getElem?_of_mem hfr
      obtain ⟨hlt, -⟩ := List.getElem?_eq_some_iff.1 hi
      have hp := hs.paced r hr
      rw [(frames_get _ hfit i fr hi).1]
      exact (hp.count ▸ hlt).trans_le hp.below
    · rw [frames_quiet (hs.unborn r (not_lt.1 hr))] at hfr
      cases hfr
  · exact ((hfit pre e post hlog).1 fr.1 fr.2 he).2
  · rcases fate hfit hlog with h | h | h
    · exact .inl h
    · exact .inr (.inl h)
    by_cases hsup : Superseded r cmd post
    · exact .inl hsup
    -- the command waits, so a frame is owed, and the next turn sends it
    have hstep : ∀ (s : Center β ρ) c, s.Served c → s.Keeping ∧ s.Owed → (s.step c).Keeping ∧ (s.step c).Owed :=
      fun s c hc hI => ⟨(step_minds hI.1 c).1, (step_minds hI.1 c).2 hc hI.2⟩
    have howed : (run debug calls).Keeping ∧ (run debug calls).Owed :=
      Steps.Along.inv hstep calls _ hserved ⟨init_keeping debug, init_owed debug⟩
    obtain ⟨b, hb, hf, hon⟩ := howed.2 r cmd.uid (by rw [h]; exact Option.some_ne_none cmd)
    refine .inr (.inr ⟨b, hb, fun ids hids hco => ?_⟩)
    have htick : ((run debug calls).tick ids).log = (ids.foldl turn (run debug calls)).log := by
      unfold tick
      rw [if_pos hco]
      dsimp only
      split
      · rfl
      · rfl
    obtain ⟨es, hturns, hes⟩ := turns_log ids (run debug calls)
    have hsplit : ((run debug calls).tick ids).log = pre ++ .accepted r cmd :: (post ++ es) := by
      rw [htick, hturns, hlog, List.append_assoc, List.cons_append]
    rcases fate ((tick_minds hs ids).1.each r) hsplit with ⟨p, c, q, hp, hc, hframes⟩ | hsent | hwait
    · -- no turn gives the command that would supersede it
      rcases List.append_eq_append_iff.1 hp with ⟨m, rfl, hm⟩ | ⟨m, rfl, hm⟩
      · exact absurd rfl (hes (.accepted r c) (hm ▸ List.mem_append_right m List.mem_cons_self) r c)
      · cases m with
        | nil =>
          rw [List.nil_append] at hm
          exact absurd rfl (hes (.accepted r c) (hm ▸ List.mem_cons_self) r c)
        | cons x m =>
          obtain ⟨rfl, -⟩ := List.cons.inj hm
          have hgiven : Superseded r cmd (p ++ .accepted r c :: m) := ⟨p, c, m, rfl, hc, hframes⟩
          exact absurd hgiven hsup
    · exact hsent
    · rw [htick, tick_sends hs hb hf hon hids] at hwait
      cases hwait

/-! A game of one frame. -/

def round : List (Call Unit Unit) := begin ++ [.reqCommitCmd "1" 1 (), .tick ["1"], .tick ["1"]]

theorem frames_of_run_round : ∀ pre cmd post, (run false round).log = pre ++ .accepted 0 cmd :: post →
    Superseded 0 cmd post ∨ Sent 0 cmd (run false round).log := by
  intro pre cmd post hlog
  have hserved : Steps.Along step Served (init false) round := by
    refine ⟨trivial, trivial, ?_, ?_, ?_, trivial, trivial, trivial⟩
    · rintro r - - x hx
      cases hx
    · rintro r - - x hx
      cases hx
    · intro r hr _ _
      cases hr
      decide +kernel
  have hkept : (run false round).Keeping := run_keeping false round
  rcases (frames_of_run false round 0).2.2.2 hserved pre cmd post hlog with h | h | ⟨b, hb, -⟩
  · exact .inl h
  · exact .inr h
  · -- the loop has no room any more
    have hid : ((run false round).heap 0).batId = "1" := by decide +kernel
    have hout : (run false round).gaming "1" = none := by decide +kernel
    rw [← (hkept.gamed b 0 hb).2, hid, hout] at hb
    cases hb

/-- The command of a player comes after the last frame and before the loop has ended the game: it is accepted, and no frame
holds it. -/
theorem command_lost :
    let s : Center Unit Unit := run false (begin ++ [.tick ["1"]])
    let s' : Center Unit Unit := run false (begin ++ [.tick ["1"], .reqCommitCmd "1" 1 (), .tick ["1"]])
    (s.reqCommitCmd "1" 1 ()).2.isOk = true ∧ s'.gaming "1" = none ∧ (s'.heap 0).status = .eSettle ∧
      (frames 0 s'.log).map (fun fr => (fr.1, fr.2 1, fr.2 2)) = [(0, none, none)] := by
  decide +kernel

end Center
end Battle
end Sncpp
