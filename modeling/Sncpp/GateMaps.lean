import Sncpp.Gate
/-!
# GateMaps — the session maps of the gate agree

`Keyed` says that `uidMap` and `usernameMap` hold the same sessions, each under its own keys.  It survives every
handler as long as `afk` and `logout` name the session they remove and `login` stores a session only where none is;
`keeping` is that argument once, for any further invariant that the single updates keep.
-/
namespace Sncpp
namespace Gate

open Co (Prog Pact Vow Abides)

variable {ι K D : Type}

/-- **Two maps, one set of sessions**: each session under its own keys, and its subid drawn for its uid. -/
structure Keyed (s : Svc ι K) : Prop where
  uid_key : ∀ {uid u}, s.uidMap uid = some u → u.uid = uid
  name_key : ∀ {n u}, s.usernameMap n = some u → u.username = n
  same : ∀ u, s.uidMap u.uid = some u ↔ s.usernameMap u.username = some u
  owned : ∀ {uid u}, s.uidMap uid = some u → s.owner u.subid = some uid
  drawn : ∀ {n uid}, s.owner n = some uid → n ≤ s.internalId

/-- What time does: drawn subids keep their uid, and a session stays while its player loses none. -/
structure Later (s s' : Svc ι K) : Prop where
  owner : ∀ {n uid}, s.owner n = some uid → s'.owner n = some uid
  removed : ∀ uid, s.removed uid ≤ s'.removed uid
  stays : ∀ {u : User K}, s.uidMap u.uid = some u → s'.removed u.uid = s.removed u.uid → s'.uidMap u.uid = some u

theorem Later.refl (s : Svc ι K) : Later s s := ⟨id, fun _ => le_rfl, fun h _ => h⟩

theorem Later.trans {a b c : Svc ι K} (h : Later a b) (h' : Later b c) : Later a c where
  owner ho := h'.owner (h.owner ho)
  removed uid := (h.removed uid).trans (h'.removed uid)
  stays {u} hu hr := by
    have hb : b.removed u.uid = a.removed u.uid := le_antisymm ((h'.removed u.uid).trans hr.le) (h.removed u.uid)
    exact h'.stays (h.stays hu hb) (hr.trans hb.symm)

def pact (I : Svc ι K → Prop) : Pact (Svc ι K) :=
  ⟨fun s => Keyed s ∧ I s, Later, False, Later.refl, Later.trans⟩

section Updates

variable {s : Svc ι K} {u : User K} {uid : Nat}

/-- An update that leaves the two maps, the draws and the count of lost sessions alone. -/
def Framed (s s' : Svc ι K) : Prop :=
  s'.uidMap = s.uidMap ∧ s'.usernameMap = s.usernameMap ∧ s'.owner = s.owner ∧ s'.internalId = s.internalId ∧
    s'.removed = s.removed

theorem Keyed.frame (h : Keyed s) {t : Svc ι K} (hf : Framed s t) : Keyed t ∧ Later s t := by
  obtain ⟨hu, hn, ho, hi, hr⟩ := hf
  refine ⟨⟨?_, ?_, ?_, ?_, ?_⟩, ⟨?_, ?_, ?_⟩⟩
  · rw [hu]; exact h.uid_key
  · rw [hn]; exact h.name_key
  · rw [hu, hn]; exact h.same
  · rw [hu, ho]; exact h.owned
  · rw [ho, hi]; exact h.drawn
  · rw [ho]; exact fun h => h
  · rw [hr]; exact fun _ => le_rfl
  · rw [hu]; exact fun h _ => h

theorem Keyed.forget (h : Keyed s) (hu : s.uidMap uid = some u) {names : List Name} (hmem : u.username ∈ names)
    (hnames : ∀ n ∈ names, n.uid = uid) : Keyed (s.forget uid names) ∧ Later s (s.forget uid names) := by
  have huid : u.uid = uid := h.uid_key hu
  have hmap : ∀ {uid' v}, (s.forget uid names).uidMap uid' = some v → uid' ≠ uid ∧ s.uidMap uid' = some v := by
    intro uid' v hv
    by_cases he : uid' = uid
    · simp [Svc.forget, he] at hv
    · exact ⟨he, by simpa [Svc.forget, he] using hv⟩
  have hname : ∀ {n v}, (s.forget uid names).usernameMap n = some v → n ∉ names ∧ s.usernameMap n = some v := by
    intro n v hv
    by_cases he : n ∈ names
    · simp [Svc.forget, he] at hv
    · exact ⟨he, by simpa [Svc.forget, he] using hv⟩
  refine ⟨⟨fun hv => h.uid_key (hmap hv).2, fun hv => h.name_key (hname hv).2, fun v => ⟨fun hv => ?_, fun hv => ?_⟩,
    fun hv => h.owned (hmap hv).2, h.drawn⟩, ⟨id, fun uid' => ?_, fun {v} hv hr => ?_⟩⟩
  · obtain ⟨hne, hv⟩ := hmap hv
    have hout : v.username ∉ names := fun hm => hne (hnames _ hm)
    simpa [Svc.forget, hout] using (h.same v).1 hv
  · obtain ⟨hout, hv⟩ := hname hv
    have hv' := (h.same v).2 hv
    have hne : v.uid ≠ uid := by
      intro he
      rw [he, hu] at hv'
      cases hv'
      exact hout hmem
    simpa [Svc.forget, hne] using hv'
  · by_cases he : uid' = uid
    · simp [Svc.forget, he]
    · simp [Svc.forget, he]
  · have hne : v.uid ≠ uid := by
      intro he
      simp [Svc.forget, he] at hr
    simpa [Svc.forget, hne] using hv

theorem Keyed.draw [Zero ι] (h : Keyed s) (uid : Nat) : Keyed (s.draw uid) ∧ Later s (s.draw uid) := by
  have hne : ∀ {n uid'}, s.owner n = some uid' → n ≠ s.internalId + 1 := by
    intro n uid' ho he
    have := h.drawn ho
    omega
  have hold : ∀ {n uid'}, s.owner n = some uid' → (s.draw uid).owner n = some uid' := by
    intro n uid' ho
    simpa [Svc.draw, hne ho] using ho
  refine ⟨⟨h.uid_key, h.name_key, h.same, fun hu => hold (h.owned hu), fun {n uid'} ho => ?_⟩,
    ⟨hold, fun _ => le_rfl, fun h _ => h⟩⟩
  by_cases he : n = s.internalId + 1
  · simp [Svc.draw, he]
  · have ho' : s.owner n = some uid' := by simpa [Svc.draw, he] using ho
    exact (h.drawn ho').trans (Nat.le_succ _)

theorem Keyed.store (h : Keyed s) (hnone : s.uidMap u.uid = none) (hown : s.owner u.subid = some u.uid) :
    Keyed (s.store u) ∧ Later s (s.store u) := by
  have hmap : ∀ {uid v}, (s.store u).uidMap uid = some v → (uid = u.uid ∧ v = u) ∨
    (uid ≠ u.uid ∧ s.uidMap uid = some v) := by
    intro uid v hv
    by_cases he : uid = u.uid
    · exact .inl ⟨he, by simpa [Svc.store, he, eq_comm] using hv⟩
    · exact .inr ⟨he, by simpa [Svc.store, he] using hv⟩
  have hname : ∀ {n v}, (s.store u).usernameMap n = some v →
      (n = u.username ∧ v = u) ∨ (n ≠ u.username ∧ s.usernameMap n = some v) := by
    intro n v hv
    by_cases he : n = u.username
    · exact .inl ⟨he, by simpa [Svc.store, he, eq_comm] using hv⟩
    · exact .inr ⟨he, by simpa [Svc.store, he] using hv⟩
  refine ⟨⟨fun hv => ?_, fun hv => ?_, fun v => ⟨fun hv => ?_, fun hv => ?_⟩, fun hv => ?_, h.drawn⟩,
    ⟨id, fun _ => le_rfl, fun {v} hv _ => ?_⟩⟩
  · obtain ⟨rfl, rfl⟩ | ⟨-, hv⟩ := hmap hv
    · rfl
    · exact h.uid_key hv
  · obtain ⟨rfl, rfl⟩ | ⟨-, hv⟩ := hname hv
    · rfl
    · exact h.name_key hv
  · obtain ⟨-, rfl⟩ | ⟨hne, hv⟩ := hmap hv
    · simp [Svc.store]
    · have hne' : v.username ≠ u.username := fun he => hne (congrArg Name.uid he)
      simpa [Svc.store, hne'] using (h.same v).1 hv
  · obtain ⟨-, rfl⟩ | ⟨-, hv⟩ := hname hv
    · simp [Svc.store]
    · have hv' := (h.same v).2 hv
      have hne : v.uid ≠ u.uid := by
        intro he
        rw [he, hnone] at hv'
        cases hv'
      simpa [Svc.store, hne] using hv'
  · obtain ⟨rfl, rfl⟩ | ⟨-, hv⟩ := hmap hv
    · exact hown
    · exact h.owned hv
  · have hne : v.uid ≠ u.uid := by
      intro he
      rw [he, hnone] at hv
      cases hv
    simpa [Svc.store, hne] using hv

theorem Keyed.eq_of_subid (h : Keyed s) {v : User K} (hu : s.uidMap u.uid = some u)
    (hv : s.uidMap v.uid = some v) (he : v.subid = u.subid) : v = u := by
  have hown := h.owned hv
  rw [he, h.owned hu] at hown
  rw [Option.some.inj hown, hv] at hu
  exact Option.some.inj hu

theorem eq_of_current {v : User K} (hu : s.uidMap u.uid = some u) (hv : s.uidMap v.uid = some v)
    (he : v.uid = u.uid) : v = u := by
  rw [he, hu] at hv
  exact (Option.some.inj hv).symm

end Updates

theorem keyed_start [Zero ι] : Keyed (.start : Svc ι K) where
  uid_key := nofun
  name_key := nofun
  same _ := ⟨nofun, nofun⟩
  owned := nofun
  drawn := nofun

/-- What ties the sockets to the sessions: a socket's session is the player's and names that socket; the number of
sockets is counted. -/
structure Tied (s : Svc ι K) : Prop where
  conn : ∀ {fd u}, s.connectionMap fd = some u → s.fd u.subid = some fd ∧ s.uidMap u.uid = some u
  count : s.clientNum = s.connection.card

/-- **The session maps agree**: one set of sessions in both maps, every tied socket's session names it and is current,
no session has two sockets, and `clientNum` counts the open ones. -/
structure Agree (s : Svc ι K) : Prop where
  uid_key : ∀ {uid u}, s.uidMap uid = some u → u.uid = uid
  name_key : ∀ {n u}, s.usernameMap n = some u → u.username = n
  same : ∀ u, s.uidMap u.uid = some u ↔ s.usernameMap u.username = some u
  conn : ∀ {fd u}, s.connectionMap fd = some u → s.fd u.subid = some fd ∧ s.uidMap u.uid = some u
  one : ∀ {fd fd' u}, s.connectionMap fd = some u → s.connectionMap fd' = some u → fd = fd'
  count : s.clientNum = s.connection.card

theorem Tied.agree {s : Svc ι K} (h : Tied s) (hk : Keyed s) : Agree s where
  uid_key := hk.uid_key
  name_key := hk.name_key
  same := hk.same
  conn := h.conn
  one hc hc' := by
    have := (h.conn hc).1.symm.trans (h.conn hc').1
    exact Option.some.inj this
  count := h.count

theorem Tied.untied [DecidableEq K] {s : Svc ι K} (h : Tied s) {u : User K} (hc : s.connected u = false)
    {fd : Nat} {v : User K}
    (hv : s.connectionMap fd = some v) : v ≠ u := by
  rintro rfl
  simp [Svc.connected, (h.conn hv).1, hv] at hc

section Calls

variable {may : Req → Reply → Bool} {P : Pact (Svc ι K)}

theorem callSvr_abides (q : Req) : Abides P may (callSvr q) :=
  Abides.bind (Abides.ask q) (fun r => by
    cases r with
    | ret a => exact Abides.pure a
    | raise => exact Abides.err _)

theorem logoutAll_abides (uid : Nat) (subid : Option Nat) : ∀ nodes : List Nat, Abides P may (logoutAll uid subid nodes)
  | [] => Abides.pure ()
  | _ :: nodes => Abides.bind (callSvr_abides _).xpcall (fun _ => logoutAll_abides uid subid nodes)

theorem tellPool_abides (flag : Option Nat) (cmd : PoolCmd) : Abides P may (tellPool flag cmd) :=
  Abides.ite (Abides.pure ()) (Abides.bind (callSvr_abides _) (fun _ => Abides.pure ()))

theorem delSq_abides (uid : Nat) : Abides P may (delSq uid) := fun _ _ hv hi => ⟨hv, hi⟩

theorem modify_abides {I : Svc ι K → Prop} {f : Svc ι K → Svc ι K} (hI : ∀ s, I s → I (f s)) (hf : ∀ s, Framed s (f s)) :
    Abides (pact I) may (Prog.modify f : Co ι K Unit) := by
  refine Abides.modify (fun s hs => ?_)
  obtain ⟨hk, hl⟩ := hs.1.frame (hf s)
  exact ⟨⟨hk, hI s hs.2⟩, hl⟩

def Found (u : User K) (r : Nat) (s : Svc ι K) : Prop :=
  s.owner u.subid = some u.uid ∧ r ≤ s.removed u.uid ∧ (s.removed u.uid = r → s.uidMap u.uid = some u)

theorem Found.later {u : User K} {r : Nat} {s s' : Svc ι K} (h : Found u r s) (hl : Later s s') : Found u r s' := by
  obtain ⟨ho, hr, hu⟩ := h
  refine ⟨hl.owner ho, hr.trans (hl.removed _), fun he => ?_⟩
  have hs : s.removed u.uid = r := le_antisymm ((hl.removed _).trans he.le) hr
  exact hl.stays (hu hs) (he.trans hs.symm)

end Calls

variable [DecidableEq K] [LinearOrder ι] [Zero ι]

/-- **What the single updates must do for a further invariant** under the conditions that `W` records. -/
structure Kept (W : Watch) (I : Svc ι K → Prop) : Prop where
  enters : ∀ {s : Svc ι K} {fd h}, I s → (W.maps = true → fd ∉ s.connection) →
    I { s with connection := insert fd s.connection, clientNum := s.clientNum + 1, handshake := h }
  erases : ∀ {s : Svc ι K} {fd}, I s → (W.maps = true → fd ∉ s.connection) →
    I { s with connection := s.connection.erase fd }
  disconnect : ∀ {s : Svc ι K} {fd}, I s → I (s.disconnect fd)
  untie : ∀ {s : Svc ι K} {fd}, I s → I (s.untie fd)
  handshake : ∀ {s : Svc ι K} {h}, I s → I { s with handshake := h }
  stop : ∀ {s : Svc ι K}, I s → I { s with stoped := true }
  setFd : ∀ {s : Svc ι K} {u}, Keyed s → I s → s.uidMap u.uid = some u → (W.maps = true → s.connected u = false) →
    I (s.setFd u none)
  forget : ∀ {s : Svc ι K} {u names}, Keyed s → I s → s.uidMap u.uid = some u →
    (W.maps = true → s.connected u = false) → I (s.forget u.uid names)
  draw : ∀ {s : Svc ι K} {uid}, Keyed s → I s → I (s.draw uid)
  store : ∀ {s : Svc ι K} {u}, Keyed s → I s → s.uidMap u.uid = none → s.owner u.subid = some u.uid → I (s.store u)
  accept : ∀ {s : Svc ι K} {u : User K} {fd index addr}, Keyed s → I s → s.owner u.subid = some u.uid →
    s.version u.subid < index → (W.maps = true → s.uidMap u.uid = some u ∧
      (s.connected u = false ∨ s.fd u.subid = some fd)) →
    (W.hand = true → s.uidMap u.uid = some u) → I (s.accept u fd index addr)

section Handlers

variable {W : Watch} {I : Svc ι K → Prop} {may : Req → Reply → Bool}

theorem forget_vow (hK : Kept W I) {s : Svc ι K} {u : User K} {uid : Nat} (hs : (pact I).inv s)
    (hu : s.uidMap uid = some u) {names : List Name} (hmem : u.username ∈ names) (hnames : ∀ n ∈ names, n.uid = uid)
    (hc : W.maps = true → s.connected u = false) {α : Type} {k : Co ι K α} (hk : Abides (pact I) may k) :
    Vow (pact I) may (fun s' => s' = s) (Prog.modify (fun s => s.forget uid names) >>= fun _ => k)
      (fun _ => (pact I).inv) (pact I).inv := by
  obtain ⟨hkey, hl⟩ := hs.1.forget hu hmem hnames
  obtain rfl := hs.1.uid_key hu
  exact Vow.modifyAt hl (hk.at ⟨hkey, hK.forget hs.1 hs.2 hu hc⟩)

theorem disconnectHandler_abides (hK : Kept W I) (conf : Conf ι K D) (fd : Nat) (username : Name) :
    Abides (pact I) may (disconnectHandler W conf fd username) := by
  refine Vow.get (fun s hs => ?_)
  split
  · exact (Abides.pure ()).at hs
  · rename_i u hu
    obtain rfl := hs.1.name_key hu
    refine Vow.ite (fun hfd => ?_) (fun _ => (Abides.pure ()).at hs)
    refine Vow.noteAt False.elim (fun hc => forget_vow hK hs ((hs.1.same u).2 hu) ?_ ?_ (fun hW => ?_) ?_)
    · exact List.mem_singleton.2 rfl
    · intro n hn
      rw [List.mem_singleton.1 hn]
      rfl
    · simpa [Svc.connected, hfd] using hc hW
    · exact Abides.bind (logoutAll_abides _ _ _) (fun _ => Abides.bind (callSvr_abides _) (fun _ => Abides.pure ()))

theorem close_abides (hK : Kept W I) (conf : Conf ι K D) (fd : Nat) (inSq : Bool) :
    Abides (pact I) may (close W conf fd inSq) := by
  refine Abides.bind (modify_abides (fun s h => hK.disconnect h) (fun _ => ⟨rfl, rfl, rfl, rfl, rfl⟩)) (fun _ => ?_)
  refine Abides.peek (fun s => ?_)
  split
  · exact Abides.pure ()
  · refine Abides.bind (modify_abides (fun s h => hK.untie h) (fun _ => ⟨rfl, rfl, rfl, rfl, rfl⟩)) (fun _ => ?_)
    refine Abides.ite (disconnectHandler_abides hK conf _ _) ?_
    exact Abides.bind (Abides.serial (disconnectHandler_abides hK conf _ _)) (fun _ => delSq_abides _)

theorem closeFd_abides (hK : Kept W I) (conf : Conf ι K D) (fd : Option Nat) :
    Abides (pact I) may (closeFd W conf fd) := by
  cases fd with
  | none => exact Abides.pure ()
  | some fd => exact close_abides hK conf fd true

theorem request_abides (hK : Kept W I) (conf : Conf ι K D) (fd : Nat) : Abides (pact I) may (request W conf fd) :=
  Abides.peek (fun _ => Abides.ite (close_abides hK conf fd false) (Abides.pure ()))

theorem loginIn_abides (hK : Kept W I) (hW : (W.maps || W.hand) = true) (conf : Conf ι K D) (uid kid : Nat) (secret : K) :
    Abides (pact I) may (loginIn W conf uid kid secret) := by
  refine Vow.get (fun s hs => ?_)
  split
  · rename_i u hu
    refine Vow.noteAt False.elim (fun hc => forget_vow hK hs hu ?_ ?_ (fun hW => ?_) ?_)
    · exact List.mem_singleton.2 rfl
    · intro n hn
      rw [List.mem_singleton.1 hn]
      exact hs.1.uid_key hu
    · simpa using hc hW
    · refine Abides.bind (logoutAll_abides _ _ _) (fun _ => Abides.bind (callSvr_abides _) (fun _ => ?_))
      exact Abides.bind (closeFd_abides hK conf _) (fun _ => Abides.err _)
  · obtain ⟨hk, hl⟩ := hs.1.draw uid
    have hown : (s.draw uid).owner (s.internalId + 1) = some uid := by simp [Svc.draw]
    refine Vow.modifyAt hl (Vow.bind (M := fun _ s' => (pact I).inv s' ∧ s'.owner (s.internalId + 1) = some uid) ?_ ?_)
    · refine Vow.bind (M := fun _ s' => (pact I).inv s' ∧ s'.owner (s.internalId + 1) = some uid) (Vow.ask ?_ ?_) ?_
      · rintro _ rfl
        exact ⟨hk, hK.draw hs.1 hs.2⟩
      · rintro _ s'' r rfl - hi hl'
        exact ⟨hi, hl'.owner hown⟩
      · intro r
        cases r with
        | ret a => exact Vow.pure (fun _ h => h)
        | raise => exact Vow.err (fun _ h => h.1)
    · intro a
      cases a with
      | none => exact Vow.err (fun _ h => h.1)
      | some agent =>
        refine Vow.bind (M := fun _ s' => ((pact I).inv s' ∧ s'.owner (s.internalId + 1) = some uid) ∧ s'.uidMap uid = none)
          (Vow.note False.elim (fun s' h hc => ⟨h, by simpa using hc hW⟩)) (fun _ => ?_)
        refine Vow.bind (M := fun _ => (pact I).inv) (Vow.modify (fun s' h => ?_)) (fun _ => Vow.pure (fun _ h => h))
        obtain ⟨⟨⟨hkey, hI⟩, ho⟩, hnone⟩ := h
        obtain ⟨hk', hl'⟩ := hkey.store (u := ⟨uid, kid, s.internalId + 1, agent, secret⟩) hnone ho
        exact ⟨hl', hk', hK.store hkey hI hnone ho⟩

theorem afkIn_abides (hK : Kept W I) (hW : (W.maps || W.hand) = true) (conf : Conf ι K D) (uid : Nat)
    (subid flag : Option Nat) : Abides (pact I) may (afkIn W conf uid subid flag) := by
  refine Vow.get (fun s hs => ?_)
  split
  · exact (Abides.pure ()).at hs
  · rename_i u hu
    split
    · exact (Abides.pure ()).at hs
    · rename_i fd hfd
      refine Vow.noteAt False.elim (fun hmaps => Vow.noteAt False.elim (fun hhand => ?_))
      simp only [Bool.and_eq_true, Bool.not_eq_true'] at hmaps
      have hnot : notOlder subid u = true := by
        rcases Bool.or_eq_true_iff.1 hW with h | h
        · exact (hmaps h).2
        · exact hhand h
      obtain ⟨n, rfl⟩ : ∃ n, subid = some n := by
        cases subid with
        | none => cases hnot
        | some n => exact ⟨n, rfl⟩
      have hle : u.subid ≤ n := by simpa [notOlder] using hnot
      obtain rfl := hs.1.uid_key hu
      obtain ⟨hk, hl⟩ := hs.1.frame (t := s.setFd u none) ⟨rfl, rfl, rfl, rfl, rfl⟩
      have hs' : (pact I).inv (s.setFd u none) := ⟨hk, hK.setFd hs.1 hs.2 hu (fun h => (hmaps h).1)⟩
      have hcon : (s.setFd u none).connected u = false := by simp [Svc.connected, Svc.setFd]
      refine Vow.modifyAt hl (Vow.ite (fun hold => ?_) (fun hnew => ?_))
      · refine forget_vow hK hs' hu List.mem_cons_self ?_ (fun _ => hcon) ?_
        · intro m hm
          obtain rfl | hm := List.mem_cons.1 hm
          · rfl
          · rw [List.mem_singleton.1 hm]
            rfl
        · refine Abides.bind (logoutAll_abides _ _ _) (fun _ => Abides.bind (tellPool_abides _ _) (fun _ => ?_))
          exact Abides.bind (close_abides hK conf fd true) (fun _ => Abides.err _)
      · -- a subid that is not older and not later is the session's own
        have heq : u.username = usernameEncode u.uid (some n) := by
          by_contra hne
          refine hnew ⟨hne, ?_⟩
          have : u.subid ≠ n := by
            rintro rfl
            exact hne rfl
          simpa using lt_of_le_of_ne hle this
        rw [← heq]
        refine forget_vow hK hs' hu (List.mem_singleton.2 rfl) ?_ (fun _ => hcon) ?_
        · intro m hm
          rw [List.mem_singleton.1 hm]
          rfl
        · refine Abides.bind (logoutAll_abides _ _ _) (fun _ => Abides.bind (tellPool_abides _ _) (fun _ => ?_))
          exact close_abides hK conf fd true

theorem logoutIn_abides (hK : Kept W I) (hW : (W.maps || W.hand) = true) (conf : Conf ι K D) (uid : Nat)
    (subid flag : Option Nat) : Abides (pact I) may (logoutIn W conf uid subid flag) := by
  refine Vow.get (fun s hs => ?_)
  split
  · exact (Abides.pure ()).at hs
  · rename_i u hu
    refine Vow.noteAt False.elim (fun hmaps => Vow.noteAt False.elim (fun hhand => ?_))
    simp only [Bool.and_eq_true, Bool.not_eq_true'] at hmaps
    have hsome : subid.isSome = true := by
      rcases Bool.or_eq_true_iff.1 hW with h | h
      · exact (hmaps h).2
      · exact hhand h
    obtain rfl := hs.1.uid_key hu
    refine Vow.ite (fun _ => ?_) (fun hnew => ?_)
    · refine forget_vow hK hs hu List.mem_cons_self ?_ (fun h => (hmaps h).1) ?_
      · intro m hm
        obtain rfl | hm := List.mem_cons.1 hm
        · rfl
        · rw [List.mem_singleton.1 hm]
          rfl
      · refine Abides.bind (logoutAll_abides _ _ _) (fun _ => Abides.bind (tellPool_abides _ _) (fun _ => ?_))
        exact Abides.peek (fun _ => Abides.bind (closeFd_abides hK conf _) (fun _ => Abides.err _))
    · have heq : u.username = usernameEncode u.uid subid := by
        by_contra hne
        exact hnew ⟨hsome, hne⟩
      rw [← heq]
      refine forget_vow hK hs hu (List.mem_singleton.2 rfl) ?_ (fun h => (hmaps h).1) ?_
      · intro m hm
        rw [List.mem_singleton.1 hm]
        rfl
      · refine Abides.bind (logoutAll_abides _ _ _) (fun _ => Abides.bind (tellPool_abides _ _) (fun _ => ?_))
        exact Abides.peek (fun _ => closeFd_abides hK conf _)

variable [DecidableEq D]

theorem doAuthIn_vow (hK : Kept W I) (conf : Conf ι K D) (fd : Nat) (h : Handshake ι D) (addr : String) (u : User K)
    (r : Nat) : Vow (pact I) may (fun s => (pact I).inv s ∧ Found u r s) (doAuthIn W conf fd h addr u r)
      (fun _ => (pact I).inv) (pact I).inv := by
  refine Vow.get (fun s hs => ?_)
  split
  · exact (Abides.pure _).at hs.1
  · rename_i index _
    refine Vow.ite (fun _ => (Abides.pure _).at hs.1) (fun hver => ?_)
    refine Vow.ite (fun _ => (Abides.pure _).at hs.1) (fun _ => ?_)
    refine Vow.noteAt False.elim (fun hmaps => Vow.noteAt False.elim (fun hhand => ?_))
    obtain ⟨⟨hkey, hI⟩, ho, -, hcur⟩ := hs
    obtain ⟨hk, hl⟩ := hkey.frame (t := s.accept u fd index addr) ⟨rfl, rfl, rfl, rfl, rfl⟩
    refine Vow.modifyAt hl ((Abides.pure _).at ⟨hk, hK.accept hkey hI ho (not_le.1 hver) (fun hW => ?_) (fun hW => ?_)⟩)
    · simpa [Svc.current] using hmaps hW
    · exact hcur (by simpa using hhand hW)

theorem doAuth_abides (hK : Kept W I) (conf : Conf ι K D) (fd : Nat) (msg : Option (Handshake ι D)) (addr : String) :
    Abides (pact I) may (doAuth W conf fd msg addr) := by
  refine Vow.get (fun s hs => ?_)
  split
  · exact (Abides.pure _).at hs
  · rename_i h
    refine Vow.ite (fun _ => (Abides.pure _).at hs) (fun _ => ?_)
    split
    · exact (Abides.pure _).at hs
    · rename_i u hu
      obtain ⟨n, -, hn⟩ := Option.bind_eq_some_iff.1 hu
      obtain rfl := hs.1.name_key hn
      have hcur := (hs.1.same u).2 hn
      have hfound : Found u (s.removed u.uid) s := ⟨hs.1.owned hcur, le_rfl, fun _ => hcur⟩
      -- the lookup is before the wait, the check after it
      refine Vow.serial (doAuthIn_vow hK conf fd h addr u _) (fun s' hs' => hs' ▸ hs) (fun s' s'' hs' hi hl => ?_)
      subst hs'
      exact ⟨hi, hfound.later hl⟩

theorem auth_abides (hK : Kept W I) (conf : Conf ι K D) (fd : Nat) (msg : Option (Handshake ι D)) (addr : String) :
    Abides (pact I) may (auth W conf fd msg addr) := by
  refine Abides.bind (doAuth_abides hK conf fd msg addr).xpcall (fun r => ?_)
  split
  · exact Abides.pure ()
  · exact close_abides hK conf fd false

theorem dispatchMsg_abides (hK : Kept W I) (conf : Conf ι K D) (fd : Nat) (msg : Option (Handshake ι D)) :
    Abides (pact I) may (dispatchMsg W conf fd msg) := by
  refine Abides.peek (fun s => Abides.ite ?_ (Abides.pure ()))
  split
  · refine Abides.bind (auth_abides hK conf fd msg _) (fun _ => ?_)
    exact modify_abides (fun s h => hK.handshake h) (fun _ => ⟨rfl, rfl, rfl, rfl, rfl⟩)
  · exact request_abides hK conf fd

/-- **Every handler keeps the two maps in agreement, and `I`**, as far as the recorded conditions hold. -/
theorem keeping (hK : Kept W I) (hW : (W.maps || W.hand) = true) (conf : Conf ι K D) :
    Co.Keeping (pact I) (uidSys W conf) := by
  refine ⟨fun o s hs => Abides.final ?_ hs, fun e => e.elim⟩
  cases o with
  | «open» fd addr =>
    refine Abides.peek (fun s => Abides.ite (Abides.pure ()) ?_)
    refine Vow.bind (M := fun _ s' => (pact I).inv s' ∧ (W.maps = true → fd ∉ s'.connection))
      (Vow.note False.elim (fun s' h hc => ⟨h, fun hm => by simpa using hc hm⟩)) (fun _ => Vow.modify (fun s' h => ?_))
    obtain ⟨hk, hl⟩ := h.1.1.frame (t := { s' with
      connection := insert fd s'.connection
      clientNum := s'.clientNum + 1
      handshake := Function.update s'.handshake fd (some addr) }) ⟨rfl, rfl, rfl, rfl, rfl⟩
    exact ⟨hl, hk, hK.enters h.1.2 h.2⟩
  | close fd => exact close_abides hK conf fd false
  | closeclient fd =>
    refine Vow.bind (M := fun _ s' => (pact I).inv s' ∧ (W.maps = true → fd ∉ s'.connection))
      (Vow.note False.elim (fun s' h hc => ⟨h, fun hm => by simpa using hc hm⟩)) (fun _ => Vow.modify (fun s' h => ?_))
    obtain ⟨hk, hl⟩ := h.1.1.frame (t := { s' with connection := s'.connection.erase fd }) ⟨rfl, rfl, rfl, rfl, rfl⟩
    exact ⟨hl, hk, hK.erases h.1.2 h.2⟩
  | msg fd m => exact dispatchMsg_abides hK conf fd m
  | login uid kid secret =>
    exact Abides.bind (Abides.serial (loginIn_abides hK hW conf uid kid secret)) (fun _ => Abides.pure ())
  | afk uid subid flag =>
    exact Abides.bind (Abides.serial (afkIn_abides hK hW conf uid subid flag)) (fun _ => delSq_abides uid)
  | logout uid subid flag =>
    exact Abides.bind (Abides.serial (logoutIn_abides hK hW conf uid subid flag)) (fun _ => delSq_abides uid)
  | stop => exact modify_abides (fun s h => hK.stop h) (fun _ => ⟨rfl, rfl, rfl, rfl, rfl⟩)
  | expireSq uid => exact delSq_abides uid

end Handlers

theorem tied_kept : Kept ⟨true, false⟩ (Tied : Svc ι K → Prop) where
  enters h hfd := ⟨h.conn, by simp [h.count, Finset.card_insert_of_notMem (hfd rfl)]⟩
  erases h hfd := ⟨h.conn, by simp [h.count, Finset.erase_eq_of_notMem (hfd rfl)]⟩
  disconnect {s fd} h := by
    refine ⟨h.conn, ?_⟩
    by_cases hfd : fd ∈ s.connection
    · have := Finset.card_pos.2 ⟨fd, hfd⟩
      simp only [Svc.disconnect, if_pos hfd, Finset.card_erase_of_mem hfd, h.count]
      omega
    · simp [Svc.disconnect, hfd, h.count]
  untie {s fd} h := by
    refine ⟨fun {fd' u} hu => ?_, h.count⟩
    by_cases he : fd' = fd
    · simp [Svc.untie, he] at hu
    · exact h.conn (by simpa [Svc.untie, he] using hu)
  handshake h := ⟨h.conn, h.count⟩
  stop h := ⟨h.conn, h.count⟩
  setFd {s u} hk h hu hc := by
    refine ⟨fun {fd v} hv => ?_, h.count⟩
    obtain ⟨hfd, hcur⟩ := h.conn hv
    have hne : v.subid ≠ u.subid := fun he => h.untied (hc rfl) hv (hk.eq_of_subid hu hcur he)
    exact ⟨by simpa [Svc.setFd, hne] using hfd, hcur⟩
  forget {s u names} _ h hu hc := by
    refine ⟨fun {fd v} hv => ?_, h.count⟩
    obtain ⟨hfd, hcur⟩ := h.conn hv
    have hne : v.uid ≠ u.uid := fun he => h.untied (hc rfl) hv (eq_of_current hu hcur he)
    exact ⟨hfd, by simpa [Svc.forget, hne] using hcur⟩
  draw _ h := ⟨h.conn, h.count⟩
  store {s u} hk h hnone ho := by
    refine ⟨fun {fd v} hv => ?_, h.count⟩
    obtain ⟨hfd, hcur⟩ := h.conn hv
    have hne : v.uid ≠ u.uid := by
      intro he
      rw [he, hnone] at hcur
      cases hcur
    have hsub : v.subid ≠ u.subid := by
      intro he
      have hown := hk.owned hcur
      rw [he, ho] at hown
      exact hne (Option.some.inj hown).symm
    exact ⟨by simpa [Svc.store, hsub] using hfd, by simpa [Svc.store, hne] using hcur⟩
  accept {s u fd index addr} hk h _ _ hmaps _ := by
    obtain ⟨hu, halone⟩ := hmaps rfl
    refine ⟨fun {fd' v} hv => ?_, h.count⟩
    by_cases he : fd' = fd
    · subst he
      have : u = v := by simpa [Svc.accept] using hv
      subst this
      exact ⟨by simp [Svc.accept], hu⟩
    · have hv' : s.connectionMap fd' = some v := by simpa [Svc.accept, he] using hv
      obtain ⟨hfd, hcur⟩ := h.conn hv'
      have hne : v ≠ u := by
        rintro rfl
        rcases halone with hc | hs
        · exact h.untied hc hv' rfl
        · rw [hs] at hfd
          exact he (Option.some.inj hfd).symm
      have hsub : v.subid ≠ u.subid := fun he => hne (hk.eq_of_subid hu hcur he)
      exact ⟨by simpa [Svc.accept, hsub] using hfd, hcur⟩

/-- **The session maps agree in every state of a run** in which sockets are opened once, `closeclient` never meets an open
socket, a handshake is accepted only for the player's session while no other socket is tied to it, a session is taken
away only after its socket was untied and by a subid that names it or is later, and a login stores its session where
none is. -/
theorem agree_of_run [DecidableEq D] (conf : Conf ι K D) (es : List (Co.Event (Op ι K D) Reply Empty))
    {w : Co.World (Co.Desk (Svc ι K) Nat) (Nat × Nat) Req Reply}
    (hrun : (gateSys ⟨true, false⟩ conf).run (.init (.new .start)) es = some w) (hclean : w.clean = true) :
    Agree w.st.st := by
  have hstart : (pact Tied).inv (.start : Svc ι K) := ⟨keyed_start, ⟨nofun, rfl⟩⟩
  obtain ⟨hk, ht⟩ := Co.inv_of_run_tabled (keeping tied_kept rfl conf) hstart hrun hclean
  exact ht.agree hk

theorem agree_of_run_handshake : ∃ es w,
    (gateSys ⟨true, false⟩ .plain).run (.init (.new .start)) es = some w ∧ w.clean = true ∧
      w.st.st.connectionMap 5 = some ⟨7, 1, 1, 90, 40⟩ ∧ Agree w.st.st := by
  -- a login, a socket, its handshake
  obtain ⟨w, hrun, hw⟩ : ∃ w ∈ (gateSys ⟨true, false⟩ .plain).run (.init (.new .start))
      [.start (.login 7 1 40), .reply 0 (.ret (some 90)), .start (.open 5 "a"),
        .start (.msg 5 (some ⟨some ⟨7, some 1⟩, some 1, 41⟩))],
      w.clean = true ∧ w.st.st.connectionMap 5 = some ⟨7, 1, 1, 90, 40⟩ := by
    decide +kernel
  exact ⟨_, w, hrun, hw.1, hw.2, agree_of_run _ _ hrun hw.1⟩

/-- **A second handshake ties a second socket to the session**: nothing unties the first one. -/
theorem two_sockets : ∃ es w, (gateSys ⟨true, false⟩ .plain).run (.init (.new .start)) es = some w ∧ ¬Agree w.st.st := by
  obtain ⟨w, hrun, hw⟩ : ∃ w ∈ (gateSys ⟨true, false⟩ .plain).run (.init (.new .start))
      [.start (.login 7 1 40), .reply 0 (.ret (some 90)), .start (.open 5 "a"),
        .start (.msg 5 (some ⟨some ⟨7, some 1⟩, some 1, 41⟩)), .start (.open 6 "b"),
        .start (.msg 6 (some ⟨some ⟨7, some 1⟩, some 2, 42⟩))],
      w.st.st.connectionMap 5 = some ⟨7, 1, 1, 90, 40⟩ ∧ w.st.st.connectionMap 6 = some ⟨7, 1, 1, 90, 40⟩ := by
    decide +kernel
  refine ⟨_, w, hrun, fun ha => ?_⟩
  have := ha.one hw.1 hw.2
  omega

end Gate
end Sncpp
