import Sncpp.GateMaps
/-!
# GateStale — an `afk` or `logout` that comes too late

A session is replaced by a later login, with a greater subid, and then an `afk` or `logout` for the old one takes its
turn on the queue.
-/
namespace Sncpp
namespace Gate

open Co (Prog Pact Vow Abides)

variable {ι K D : Type}

inductive Call where
  | afk (flag : Option Nat)
  | logout (flag : Option Nat)

def Call.op (uid subid : Nat) : Call → Op ι K D
  | .afk flag => .afk uid (some subid) flag
  | .logout flag => .logout uid (some subid) flag

section Calls

variable [DecidableEq K] [DecidableEq D] [LinearOrder ι] [Zero ι]

def Call.body (conf : Conf ι K D) (uid subid : Nat) : Call → Co ι K Unit
  | .afk flag => afkIn ⟨false, false⟩ conf uid (some subid) flag
  | .logout flag => logoutIn ⟨false, false⟩ conf uid (some subid) flag

def Call.rest (conf : Conf ι K D) (uid subid : Nat) (call : Call) : Co ι K Unit :=
  (Prog.inside uid (call.body conf uid subid)).bind (fun _ => delSq uid)

theorem Call.prog_op (conf : Conf ι K D) (uid subid : Nat) (call : Call) :
    (call.op uid subid).prog ⟨false, false⟩ conf = .enter uid (call.rest conf uid subid) := by
  cases call <;> rfl

end Calls

abbrev GateWorld (ι K : Type) : Type := Co.World (Co.Desk (Svc ι K) Nat) (Nat × Nat) Req Reply

/-- The event at which the call has its turn: it comes to a free queue, or it waited for the queue. -/
inductive Turn [DecidableEq K] [DecidableEq D] [LinearOrder ι] [Zero ι] (conf : Conf ι K D) (uid subid : Nat)
    (call : Call) (w : GateWorld ι K) :
    Co.Event (Op ι K D) Reply Empty → Prop where
  | start (h : (w.sq (uid, (w.st.sq uid).getD w.st.nextQ)).current = none) : Turn conf uid subid call w (.start (call.op uid subid))
  | wake {c n : Nat} {h : Nat → Nat} (hk : w.co c = some (.waiting (uid, n) (Co.tabled h (call.rest conf uid subid)))) :
    Turn conf uid subid call w (.wake c)

/-- **The current session is let alone**: the maps and its socket are as before, and no logout of the player was sent to the
agent pool. -/
structure Spared (uid : Nat) (u : User K) (w w' : GateWorld ι K) : Prop where
  uidMap : w'.st.st.uidMap = w.st.st.uidMap
  usernameMap : w'.st.st.usernameMap = w.st.st.usernameMap
  connectionMap : w'.st.st.connectionMap = w.st.st.connectionMap
  fd : w'.st.st.fd u.subid = w.st.st.fd u.subid
  sends : ∀ c n k, w'.co c = some (.calling (.pool (.logout uid n)) k) → w.co c = some (.calling (.pool (.logout uid n)) k)

section Ending

variable {may : Req → Reply → Bool} {P : Pact (Svc ι K)}

/-- The updates that `close` makes keep the pact. -/
structure Ending (P : Pact (Svc ι K)) (may : Req → Reply → Bool) : Prop where
  forget : ∀ uid names, Abides P may (Prog.modify (fun s => s.forget uid names) : Co ι K Unit)
  disconnect : ∀ fd, Abides P may (Prog.modify (fun s => s.disconnect fd) : Co ι K Unit)
  untie : ∀ fd, Abides P may (Prog.modify (fun s => s.untie fd) : Co ι K Unit)

variable [DecidableEq K]

theorem Ending.disconnectHandler (h : Ending P may) (conf : Conf ι K D) (fd : Nat) (username : Name) :
    Abides P may (disconnectHandler ⟨false, false⟩ conf fd username) := by
  refine Abides.peek (fun s => ?_)
  split
  · exact Abides.pure ()
  · refine Abides.ite (Abides.bind (Abides.note _ (fun _ => rfl)) (fun _ => ?_)) (Abides.pure ())
    refine Abides.bind (h.forget _ _) (fun _ => Abides.bind (logoutAll_abides _ _ _) (fun _ => ?_))
    exact Abides.bind (callSvr_abides _) (fun _ => Abides.pure ())

theorem Ending.close (h : Ending P may) (conf : Conf ι K D) (fd : Nat) (inSq : Bool) :
    Abides P may (close ⟨false, false⟩ conf fd inSq) := by
  refine Abides.bind (h.disconnect fd) (fun _ => Abides.peek (fun s => ?_))
  split
  · exact Abides.pure ()
  · refine Abides.bind (h.untie fd) (fun _ => Abides.ite (h.disconnectHandler conf _ _) ?_)
    exact Abides.bind (Abides.serial (h.disconnectHandler conf _ _)) (fun _ => delSq_abides _)

theorem Ending.closeFd (h : Ending P may) (conf : Conf ι K D) (fd : Option Nat) :
    Abides P may (closeFd ⟨false, false⟩ conf fd) := by
  cases fd with
  | none => exact Abides.pure ()
  | some fd => exact h.close conf fd true

end Ending

/-! ## The player without a session -/

section Gone

variable {uid : Nat} {may : Req → Reply → Bool}

def gone (uid : Nat) : Pact (Svc ι K) := .always (fun s => s.uidMap uid = none)

theorem modify_gone {f : Svc ι K → Svc ι K} (hf : ∀ s, s.uidMap uid = none → (f s).uidMap uid = none) :
    Abides (gone uid) may (Prog.modify f : Co ι K Unit) :=
  Abides.modify (fun s hs => ⟨hf s hs, trivial⟩)

theorem forget_gone (uid uid' : Nat) (names : List Name) (s : Svc ι K) (h : s.uidMap uid = none) :
    (s.forget uid' names).uidMap uid = none := by
  by_cases he : uid = uid'
  · simp [Svc.forget, he]
  · simpa [Svc.forget, he] using h

theorem forget_goes {s : Svc ι K} {names : List Name} {α : Type} {k : Co ι K α} (hk : Abides (gone uid) may k) :
    Vow (gone uid) may (fun s' => s' = s) (Prog.modify (fun s => s.forget uid names) >>= fun _ => k)
      (fun _ => (gone uid).inv) (gone uid).inv :=
  Vow.modifyAt trivial (hk.at (by simp [gone, Pact.always, Svc.forget]))

theorem ending_gone : Ending (gone uid : Pact (Svc ι K)) may :=
  ⟨fun _ _ => modify_gone (fun s => forget_gone uid _ _ s), fun _ => modify_gone (fun _ h => h),
    fun _ => modify_gone (fun _ h => h)⟩

variable [DecidableEq K]

theorem afkIn_goes (conf : Conf ι K D) {s : Svc ι K} {u : User K} {fd : Nat} (hu : s.uidMap uid = some u)
    (hfd : s.fd u.subid = some fd) (subid flag : Option Nat) :
    Vow (gone uid) may (fun s' => s' = s) (afkIn ⟨false, false⟩ conf uid subid flag) (fun _ => (gone uid).inv)
      (gone uid).inv := by
  refine Vow.get (fun s' hs' => ?_)
  subst hs'
  simp only [hu, hfd]
  refine Vow.noteAt (fun _ => rfl) (fun _ => Vow.noteAt (fun _ => rfl) (fun _ => Vow.modifyAt trivial ?_))
  refine Vow.ite (fun _ => forget_goes ?_) (fun _ => forget_goes ?_)
  · refine Abides.bind (logoutAll_abides _ _ _) (fun _ => Abides.bind (tellPool_abides _ _) (fun _ => ?_))
    exact Abides.bind (ending_gone.close conf fd true) (fun _ => Abides.err _)
  · refine Abides.bind (logoutAll_abides _ _ _) (fun _ => Abides.bind (tellPool_abides _ _) (fun _ => ?_))
    exact ending_gone.close conf fd true

theorem logoutIn_goes (conf : Conf ι K D) {s : Svc ι K} {u : User K} (hu : s.uidMap uid = some u)
    (subid flag : Option Nat) :
    Vow (gone uid) may (fun s' => s' = s) (logoutIn ⟨false, false⟩ conf uid subid flag) (fun _ => (gone uid).inv)
      (gone uid).inv := by
  refine Vow.get (fun s' hs' => ?_)
  subst hs'
  simp only [hu]
  refine Vow.noteAt (fun _ => rfl) (fun _ => Vow.noteAt (fun _ => rfl) (fun _ => ?_))
  refine Vow.ite (fun _ => forget_goes ?_) (fun _ => forget_goes ?_)
  · refine Abides.bind (logoutAll_abides _ _ _) (fun _ => Abides.bind (tellPool_abides _ _) (fun _ => ?_))
    exact Abides.peek (fun _ => Abides.bind (ending_gone.closeFd conf _) (fun _ => Abides.err _))
  · refine Abides.bind (logoutAll_abides _ _ _) (fun _ => Abides.bind (tellPool_abides _ _) (fun _ => ?_))
    exact Abides.peek (fun _ => ending_gone.closeFd conf _)

end Gone

/-! ## Current sessions have a socket field -/

section Live

/-- A current session stands under its own uid, its subid was drawn for it, and its `fd` is not `nil`. -/
structure Live (s : Svc ι K) : Prop where
  uid_key : ∀ {uid u}, s.uidMap uid = some u → u.uid = uid
  owned : ∀ {uid u}, s.uidMap uid = some u → s.owner u.subid = some uid
  fd : ∀ {uid u}, s.uidMap uid = some u → s.fd u.subid ≠ none
  drawn : ∀ {n uid}, s.owner n = some uid → n ≤ s.internalId

/-- It holds without any condition; drawn subids keep their uid. -/
def live : Pact (Svc ι K) :=
  ⟨Live, fun s s' => ∀ n uid, s.owner n = some uid → s'.owner n = some uid, True, fun _ _ _ h => h,
    fun h h' n uid ho => h' n uid (h n uid ho)⟩

variable {s : Svc ι K} {may : Req → Reply → Bool}

theorem Live.forget (h : Live s) (uid : Nat) (names : List Name) : Live (s.forget uid names) := by
  have hmap : ∀ {uid' v}, (s.forget uid names).uidMap uid' = some v → s.uidMap uid' = some v := by
    intro uid' v hv
    by_cases he : uid' = uid
    · simp [Svc.forget, he] at hv
    · simpa [Svc.forget, he] using hv
  exact ⟨fun hv => h.uid_key (hmap hv), fun hv => h.owned (hmap hv), fun hv => h.fd (hmap hv), h.drawn⟩

theorem Live.forget_setFd (h : Live s) {u : User K} (hu : s.uidMap u.uid = some u) (names : List Name) :
    Live ((s.setFd u none).forget u.uid names) := by
  have hmap : ∀ {uid' v}, ((s.setFd u none).forget u.uid names).uidMap uid' = some v → uid' ≠ u.uid ∧
    s.uidMap uid' = some v := by
    intro uid' v hv
    by_cases he : uid' = u.uid
    · simp [Svc.forget, he] at hv
    · exact ⟨he, by simpa [Svc.forget, Svc.setFd, he] using hv⟩
  refine ⟨fun hv => h.uid_key (hmap hv).2, fun hv => h.owned (hmap hv).2, fun {uid' v} hv => ?_, h.drawn⟩
  obtain ⟨hne, hv⟩ := hmap hv
  have hsub : v.subid ≠ u.subid := by
    intro he
    have hown := h.owned hv
    rw [he, h.owned hu] at hown
    exact hne (Option.some.inj hown).symm
  simpa [Svc.forget, Svc.setFd, hsub] using h.fd hv

theorem Live.draw [Zero ι] (h : Live s) (uid : Nat) : Live (s.draw uid) ∧ live.rely s (s.draw uid) := by
  have hold : ∀ n uid', s.owner n = some uid' → (s.draw uid).owner n = some uid' := by
    intro n uid' ho
    have hne : n ≠ s.internalId + 1 := by
      have := h.drawn ho
      omega
    simpa [Svc.draw, hne] using ho
  refine ⟨⟨h.uid_key, fun hv => hold _ _ (h.owned hv), h.fd, fun {n uid'} ho => ?_⟩, hold⟩
  by_cases he : n = s.internalId + 1
  · simp [Svc.draw, he]
  · have ho' : s.owner n = some uid' := by simpa [Svc.draw, he] using ho
    exact (h.drawn ho').trans (Nat.le_succ _)

theorem Live.setFd (h : Live s) (u : User K) (fd : Nat) : ∀ {uid v}, s.uidMap uid = some v →
    Function.update s.fd u.subid (some fd) v.subid ≠ none := by
  intro uid v hv
  by_cases he : v.subid = u.subid
  · simp [he]
  · simpa [he] using h.fd hv

theorem Live.store (h : Live s) {u : User K} (ho : s.owner u.subid = some u.uid) : Live (s.store u) := by
  have hmap : ∀ {uid v}, (s.store u).uidMap uid = some v → (uid = u.uid ∧ v = u) ∨ s.uidMap uid = some v := by
    intro uid v hv
    by_cases he : uid = u.uid
    · exact .inl ⟨he, by simpa [Svc.store, he, eq_comm] using hv⟩
    · exact .inr (by simpa [Svc.store, he] using hv)
  refine ⟨fun hv => ?_, fun hv => ?_, fun hv => ?_, h.drawn⟩
  · obtain ⟨rfl, rfl⟩ | hv := hmap hv
    · rfl
    · exact h.uid_key hv
  · obtain ⟨rfl, rfl⟩ | hv := hmap hv
    · exact ho
    · exact h.owned hv
  · obtain ⟨-, rfl⟩ | hv := hmap hv
    · simp [Svc.store]
    · exact h.setFd u 0 hv

theorem modify_live {f : Svc ι K → Svc ι K} (hf : ∀ s, Live s → Live (f s)) (ho : ∀ s, (f s).owner = s.owner) :
    Abides live may (Prog.modify f : Co ι K Unit) :=
  Abides.modify (fun s hs => ⟨hf s hs, fun n uid h => by rw [ho]; exact h⟩)

theorem ending_live : Ending (live : Pact (Svc ι K)) may where
  forget _ _ := modify_live (fun _ h => h.forget _ _) (fun _ => rfl)
  disconnect _ := modify_live (fun _ h => ⟨h.uid_key, h.owned, h.fd, h.drawn⟩) (fun _ => rfl)
  untie _ := modify_live (fun _ h => ⟨h.uid_key, h.owned, h.fd, h.drawn⟩) (fun _ => rfl)

variable [DecidableEq K] (conf : Conf ι K D)

theorem afkIn_live (uid : Nat) (subid flag : Option Nat) :
    Abides live may (afkIn ⟨false, false⟩ conf uid subid flag) := by
  refine Vow.get (fun s hs => ?_)
  split
  · exact (Abides.pure ()).at hs
  · rename_i u hu
    split
    · exact (Abides.pure ()).at hs
    · rename_i fd hfd
      obtain rfl := hs.uid_key hu
      refine Vow.noteAt (fun _ => rfl) (fun _ => Vow.noteAt (fun _ => rfl) (fun _ => Vow.modifyAt (fun _ _ h => h) ?_))
      refine Vow.ite (fun _ => Vow.modifyAt (fun _ _ h => h) ?_) (fun _ => Vow.modifyAt (fun _ _ h => h) ?_)
      · refine Abides.at (Abides.bind (logoutAll_abides _ _ _) (fun _ => Abides.bind (tellPool_abides _ _) (fun _ => ?_)))
          (hs.forget_setFd hu _)
        exact Abides.bind (ending_live.close conf fd true) (fun _ => Abides.err _)
      · refine Abides.at (Abides.bind (logoutAll_abides _ _ _) (fun _ => Abides.bind (tellPool_abides _ _) (fun _ => ?_)))
          (hs.forget_setFd hu _)
        exact ending_live.close conf fd true

theorem logoutIn_live (uid : Nat) (subid flag : Option Nat) :
    Abides live may (logoutIn ⟨false, false⟩ conf uid subid flag) := by
  refine Abides.peek (fun s => ?_)
  split
  · exact Abides.pure ()
  · refine Abides.bind (Abides.note _ (fun _ => rfl)) (fun _ => Abides.bind (Abides.note _ (fun _ => rfl)) (fun _ => ?_))
    refine Abides.ite ?_ ?_
    · refine Abides.bind (modify_live (fun s h => h.forget _ _) (fun _ => rfl)) (fun _ => ?_)
      refine Abides.bind (logoutAll_abides _ _ _) (fun _ => Abides.bind (tellPool_abides _ _) (fun _ => ?_))
      exact Abides.peek (fun _ => Abides.bind (ending_live.closeFd conf _) (fun _ => Abides.err _))
    · refine Abides.bind (modify_live (fun s h => h.forget _ _) (fun _ => rfl)) (fun _ => ?_)
      refine Abides.bind (logoutAll_abides _ _ _) (fun _ => Abides.bind (tellPool_abides _ _) (fun _ => ?_))
      exact Abides.peek (fun _ => ending_live.closeFd conf _)

theorem loginIn_live [Zero ι] (uid kid : Nat) (secret : K) :
    Abides live may (loginIn ⟨false, false⟩ conf uid kid secret) := by
  refine Vow.get (fun s hs => ?_)
  split
  · refine Vow.noteAt (fun _ => rfl) (fun _ => Vow.modifyAt (fun _ _ h => h) ?_)
    refine Abides.at (Abides.bind (logoutAll_abides _ _ _) (fun _ => Abides.bind (callSvr_abides _) (fun _ => ?_)))
      (hs.forget _ _)
    exact Abides.bind (ending_live.closeFd conf _) (fun _ => Abides.err _)
  · obtain ⟨hl, hv⟩ := hs.draw uid
    have hown : (s.draw uid).owner (s.internalId + 1) = some uid := by simp [Svc.draw]
    refine Vow.modifyAt hv (Vow.bind (M := fun _ s' => Live s' ∧ s'.owner (s.internalId + 1) = some uid) ?_ ?_)
    · refine Vow.bind (M := fun _ s' => Live s' ∧ s'.owner (s.internalId + 1) = some uid) (Vow.ask ?_ ?_) ?_
      · rintro _ rfl
        exact hl
      · rintro _ s'' r rfl - hi hv'
        exact ⟨hi, hv' _ _ hown⟩
      · intro r
        cases r with
        | ret a => exact Vow.pure (fun _ h => h)
        | raise => exact Vow.err (fun _ h => h.1)
    · intro a
      cases a with
      | none => exact Vow.err (fun _ h => h.1)
      | some agent =>
        refine Vow.bind (M := fun _ s' => Live s' ∧ s'.owner (s.internalId + 1) = some uid)
          (Vow.note (fun _ => rfl) (fun _ h _ => h)) (fun _ => ?_)
        refine Vow.bind (M := fun _ => Live) (Vow.modify (fun s' h => ?_)) (fun _ => Vow.pure (fun _ h => h))
        exact ⟨fun _ _ h => h, h.1.store h.2⟩

variable [DecidableEq D] [LinearOrder ι]

theorem doAuth_live (fd : Nat) (msg : Option (Handshake ι D)) (addr : String) :
    Abides live may (doAuth ⟨false, false⟩ conf fd msg addr) := by
  refine Abides.peek (fun s => ?_)
  split
  · exact Abides.pure _
  · refine Abides.ite (Abides.pure _) ?_
    split
    · exact Abides.pure _
    · refine Abides.serial (Abides.peek (fun s => ?_))
      split
      · exact Abides.pure _
      · refine Abides.ite (Abides.pure _) (Abides.ite (Abides.pure _) ?_)
        refine Abides.bind (Abides.note _ (fun _ => rfl)) (fun _ =>
          Abides.bind (Abides.note _ (fun _ => rfl)) (fun _ => ?_))
        refine Abides.bind (modify_live (fun s h => ⟨h.uid_key, h.owned, ?_, h.drawn⟩) (fun _ => rfl)) (fun _ =>
          Abides.pure _)
        exact h.setFd _ fd

theorem dispatchMsg_live (fd : Nat) (msg : Option (Handshake ι D)) :
    Abides live may (dispatchMsg ⟨false, false⟩ conf fd msg) := by
  refine Abides.peek (fun s => Abides.ite ?_ (Abides.pure ()))
  split
  · refine Abides.bind (Abides.bind (doAuth_live conf fd msg _).xpcall (fun r => ?_)) (fun _ => ?_)
    · split
      · exact Abides.pure ()
      · exact ending_live.close conf fd false
    · exact modify_live (fun s h => ⟨h.uid_key, h.owned, h.fd, h.drawn⟩) (fun _ => rfl)
  · exact Abides.peek (fun _ => Abides.ite (ending_live.close conf fd false) (Abides.pure ()))

theorem keeping_live [Zero ι] : Co.Keeping live (uidSys ⟨false, false⟩ conf) := by
  refine ⟨fun o s hs => Abides.final ?_ hs, fun e => e.elim⟩
  cases o with
  | «open» fd addr =>
    refine Abides.peek (fun s => Abides.ite (Abides.pure ()) (Abides.bind (Abides.note _ (fun _ => rfl)) (fun _ => ?_)))
    exact modify_live (fun s h => ⟨h.uid_key, h.owned, h.fd, h.drawn⟩) (fun _ => rfl)
  | close fd => exact ending_live.close conf fd false
  | closeclient fd =>
    refine Abides.bind (Abides.note _ (fun _ => rfl)) (fun _ => ?_)
    exact modify_live (fun s h => ⟨h.uid_key, h.owned, h.fd, h.drawn⟩) (fun _ => rfl)
  | msg fd m => exact dispatchMsg_live conf fd m
  | login uid kid secret =>
    exact Abides.bind (Abides.serial (loginIn_live conf uid kid secret)) (fun _ => Abides.pure ())
  | afk uid subid flag => exact Abides.bind (Abides.serial (afkIn_live conf uid subid flag)) (fun _ => delSq_abides uid)
  | logout uid subid flag =>
    exact Abides.bind (Abides.serial (logoutIn_live conf uid subid flag)) (fun _ => delSq_abides uid)
  | stop => exact modify_live (fun s h => ⟨h.uid_key, h.owned, h.fd, h.drawn⟩) (fun _ => rfl)
  | expireSq uid => exact delSq_abides uid

end Live

section Turn

variable [DecidableEq K] [DecidableEq D] [LinearOrder ι] [Zero ι]
  {conf : Conf ι K D} {uid subid : Nat} {call : Call} {w w' : GateWorld ι K} {e : Co.Event (Op ι K D) Reply Empty}
  {u : User K}

theorem Turn.step (ht : Turn conf uid subid call w e) (hs : (gateSys ⟨false, false⟩ conf).step w e = some w') :
    ∃ (c : Nat) (h : Nat → Nat) (w₀ : GateWorld ι K), w₀.st.st = w.st.st ∧ w₀.co = w.co ∧
      w' = w₀.advance c (Co.tabled h (call.rest conf uid subid)) := by
  cases ht with
  | start hfree =>
    let n := (w.st.sq uid).getD w.st.nextQ
    let q : Co.Queue := ⟨some w.next, (w.sq (uid, n)).ref + 1, (w.sq (uid, n)).waiting⟩
    refine ⟨w.next, Function.update (fun _ => 0) uid n,
      ⟨⟨w.st.ensure uid, Function.update w.sq (uid, n) q, w.clean⟩, w.co, w.next + 1⟩, Co.ensure_st uid w.st, rfl, ?_⟩
    have hstep : w' = ({ w with next := w.next + 1 }).advance w.next
        (Co.tabled (fun _ => 0) (.enter uid (call.rest conf uid subid))) := by
      rw [← Call.prog_op]
      exact (Option.some.inj hs).symm
    rw [hstep]
    unfold Co.World.advance
    rw [Co.exec_tabled_enter w.next _ uid _ _ rfl hfree]
  | @wake c n h hk =>
    simp only [Co.Sys.step, hk] at hs
    split at hs
    · cases hs
      exact ⟨c, h, { w with sq := Function.update w.sq (uid, n) { w.sq (uid, n) with ref := (w.sq (uid, n)).ref + 1 } },
        rfl, rfl, rfl⟩
    · cases hs

theorem Turn.goes (ht : Turn conf uid subid call w e) (hs : (gateSys ⟨false, false⟩ conf).step w e = some w')
    (hu : w.st.st.uidMap uid = some u) (hfd : ∀ flag, call = .afk flag → w.st.st.fd u.subid ≠ none) :
    w'.st.st.uidMap uid = none := by
  obtain ⟨c, h, w₀, hst, -, rfl⟩ := ht.step hs
  have hbody : Vow (gone uid) (fun _ _ => true) (fun s' => s' = w₀.st.st) (call.body conf uid subid)
      (fun _ => (gone uid).inv) (gone uid).inv := by
    rw [hst]
    cases call with
    | afk flag =>
      obtain ⟨fd, hfd⟩ := Option.ne_none_iff_exists'.1 (hfd flag rfl)
      exact afkIn_goes conf hu hfd _ _
    | logout flag => exact logoutIn_goes conf hu _ _
  exact Vow.exec_tabled (P := gone uid) (g := w₀.toCfg) trivial (Vow.bind hbody.inside (fun _ => delSq_abides uid)) c h

/-- **A late call never lets the current session alone**: at the turn of an `afk` or `logout` whose subid is smaller than
that of the current session, in any run, the session goes. -/
theorem late_call_removes {es : List (Co.Event (Op ι K D) Reply Empty)}
    (hrun : (gateSys ⟨false, false⟩ conf).run (.init (.new .start)) es = some w)
    (hrun' : (gateSys ⟨false, false⟩ conf).run (.init (.new .start)) (es ++ [e]) = some w')
    (ht : Turn conf uid subid call w e) (hu : w.st.st.uidMap uid = some u) (_ : subid < u.subid) :
    w'.st.st.uidMap uid = none ∧ ¬Spared uid u w w' := by
  have hstart : Live (.start : Svc ι K) := ⟨nofun, nofun, nofun, nofun⟩
  have hlive : Live w.st.st := Co.inv_of_run_honest (P := live) trivial (keeping_live conf) hstart hrun
  have hgone := ht.goes (Co.step_of_run es _ w w' hrun hrun') hu (fun _ _ => hlive.fd hu)
  refine ⟨hgone, fun hsp => ?_⟩
  rw [hsp.uidMap, hu] at hgone
  cases hgone

end Turn

def relogin : List (Co.Event (Op Nat Nat Nat) Reply Empty) :=
  [.start (.login 7 1 40), .reply 0 (.ret (some 90)), .start (.logout 7 (some 1) none), .reply 1 (.ret none),
    .reply 1 (.ret none), .start (.login 7 1 40), .reply 2 (.ret (some 91))]

theorem late_call_removes_logout : ∃ w w', (gateSys ⟨false, false⟩ .plain).run (.init (.new .start)) relogin = some w ∧
    (gateSys ⟨false, false⟩ .plain).run (.init (.new .start)) (relogin ++ [.start (.logout 7 (some 1) none)]) = some w' ∧
      w.st.st.uidMap 7 = some ⟨7, 1, 2, 91, 40⟩ ∧ ¬Spared 7 ⟨7, 1, 2, 91, 40⟩ w w' := by
  obtain ⟨w, hrun, hw⟩ : ∃ w ∈ (gateSys ⟨false, false⟩ .plain).run (.init (.new .start)) relogin,
      w.st.st.uidMap 7 = some ⟨7, 1, 2, 91, 40⟩ ∧ (w.sq (7, (w.st.sq 7).getD w.st.nextQ)).current = none := by
    decide +kernel
  have h' : ((gateSys ⟨false, false⟩ .plain).run (.init (.new .start))
      (relogin ++ [.start (.logout 7 (some 1) none)])).isSome = true := by
    decide +kernel
  obtain ⟨w', hrun'⟩ := Option.isSome_iff_exists.1 h'
  have ht : Turn .plain 7 1 (.logout none) w (.start (.logout 7 (some 1) none)) := .start hw.2
  exact ⟨w, w', hrun, hrun', hw.1, (late_call_removes hrun hrun' ht hw.1 (by decide)).2⟩

theorem late_afk_kills : ∃ w w', (gateSys ⟨false, false⟩ .plain).run (.init (.new .start)) relogin = some w ∧
    (gateSys ⟨false, false⟩ .plain).run (.init (.new .start)) (relogin ++ [.start (.afk 7 (some 1) (some 0))]) = some w' ∧
      w.st.st.uidMap 7 = some ⟨7, 1, 2, 91, 40⟩ ∧ Turn .plain 7 1 (.afk (some 0)) w (.start (.afk 7 (some 1) (some 0))) ∧
        ¬Spared 7 ⟨7, 1, 2, 91, 40⟩ w w' := by
  obtain ⟨w, hrun, hw⟩ : ∃ w ∈ (gateSys ⟨false, false⟩ .plain).run (.init (.new .start)) relogin,
      w.st.st.uidMap 7 = some ⟨7, 1, 2, 91, 40⟩ ∧ (w.sq (7, (w.st.sq 7).getD w.st.nextQ)).current = none := by
    decide +kernel
  obtain ⟨w', hrun', hw'⟩ : ∃ w' ∈ (gateSys ⟨false, false⟩ .plain).run (.init (.new .start)) (relogin ++ [.start (.afk 7 (some 1) (some 0))]),
      w'.st.st.uidMap 7 = none := by
    decide +kernel
  refine ⟨w, w', hrun, hrun', hw.1, .start hw.2, fun hsp => ?_⟩
  rw [hsp.uidMap, hw.1] at hw'
  cases hw'

end Gate
end Sncpp
