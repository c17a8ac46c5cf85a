import Sncpp.GateMaps
/-!
# GateReplay — handshakes are not replayed

The indexes accepted for a session increase, whatever the interleaving: `doAuth` compares and sets the version without
a wait in between.  But it finds the session before it waits for its turn and does not look again, so a handshake may
be accepted for a session that has gone meanwhile.
-/
namespace Sncpp
namespace Gate

variable {ι K D : Type} [LinearOrder ι]

/-- **No handshake is replayed**: the indexes accepted for a session increase, so no packet is accepted twice, and every
handshake was accepted for the session its player then had. -/
structure NoReplay (s : Svc ι K) : Prop where
  increasing : s.accepted.Pairwise (fun a b => a.username = b.username → b.index < a.index)
  once : s.accepted.Pairwise (fun a b => (a.username, a.index) ≠ (b.username, b.index))
  current : ∀ a ∈ s.accepted, a.current = true

/-- What carries the property: the accepted indexes of a session are at most its version. -/
structure Logged (s : Svc ι K) : Prop where
  bound : ∀ a ∈ s.accepted, ∃ n, a.username.subid = some n ∧ n ≤ s.internalId ∧ a.index ≤ s.version n
  increasing : s.accepted.Pairwise (fun a b => a.username = b.username → b.index < a.index)
  current : ∀ a ∈ s.accepted, a.current = true

theorem Logged.noReplay {s : Svc ι K} (h : Logged s) : NoReplay s where
  increasing := h.increasing
  once := h.increasing.imp (fun {a b} hlt he => by
    obtain ⟨hname, hidx⟩ := Prod.mk.inj he
    exact (hlt hname).ne hidx.symm)
  current := h.current

variable [DecidableEq K]

theorem Logged.accept {s : Svc ι K} (h : Logged s) (hk : Keyed s) {u : User K} (ho : s.owner u.subid = some u.uid)
    {fd : Nat} {index : ι} {addr : String} (hver : s.version u.subid < index) (hu : s.uidMap u.uid = some u) :
    Logged (s.accept u fd index addr) where
  bound a ha := by
    obtain rfl | ha := List.mem_cons.1 ha
    · exact ⟨u.subid, rfl, hk.drawn ho, by simp [Svc.accept]⟩
    · obtain ⟨n, hn, hle, hidx⟩ := h.bound a ha
      refine ⟨n, hn, hle, ?_⟩
      by_cases he : n = u.subid
      · subst he
        simpa [Svc.accept] using hidx.trans hver.le
      · simpa [Svc.accept, he] using hidx
  increasing := by
    refine List.pairwise_cons.2 ⟨fun b hb he => ?_, h.increasing⟩
    obtain ⟨n, hn, -, hidx⟩ := h.bound b hb
    have hname : some u.subid = some n := by
      rw [← hn, ← he]
      rfl
    cases hname
    exact hidx.trans_lt hver
  current a ha := by
    obtain rfl | ha := List.mem_cons.1 ha
    · simpa [Svc.current] using hu
    · exact h.current a ha

variable [DecidableEq D] [Zero ι]

theorem logged_kept : Kept ⟨false, true⟩ (Logged : Svc ι K → Prop) where
  enters h _ := ⟨h.bound, h.increasing, h.current⟩
  erases h _ := ⟨h.bound, h.increasing, h.current⟩
  disconnect h := ⟨h.bound, h.increasing, h.current⟩
  untie h := ⟨h.bound, h.increasing, h.current⟩
  handshake h := ⟨h.bound, h.increasing, h.current⟩
  stop h := ⟨h.bound, h.increasing, h.current⟩
  setFd _ h _ _ := ⟨h.bound, h.increasing, h.current⟩
  forget _ h _ _ := ⟨h.bound, h.increasing, h.current⟩
  draw {s uid} _ h := by
    refine ⟨fun a ha => ?_, h.increasing, h.current⟩
    obtain ⟨n, hn, hle, hidx⟩ := h.bound a ha
    have hne : n ≠ s.internalId + 1 := by omega
    exact ⟨n, hn, Nat.le_succ_of_le hle, by simpa [Svc.draw, hne] using hidx⟩
  store _ h _ _ := ⟨h.bound, h.increasing, h.current⟩
  accept hk h ho hver _ hhand := h.accept hk ho hver (hhand rfl)

/-- **No handshake is replayed in a run** in which no session of the player goes between a handshake's lookup and its turn,
`afk` and `logout` remove sessions by a subid that names them or is later, and a login stores its session where none
is. -/
theorem noReplay_of_run (conf : Conf ι K D) (es : List (Co.Event (Op ι K D) Reply Empty))
    {w : Co.World (Co.Desk (Svc ι K) Nat) (Nat × Nat) Req Reply}
    (hrun : (gateSys ⟨false, true⟩ conf).run (.init (.new .start)) es = some w) (hclean : w.clean = true) :
    NoReplay w.st.st := by
  have hstart : (pact Logged).inv (.start : Svc ι K) := ⟨keyed_start, ⟨nofun, .nil, nofun⟩⟩
  exact (Co.inv_of_run_tabled (keeping logged_kept rfl conf) hstart hrun hclean).2.noReplay

theorem noReplay_of_run_twice : ∃ es w,
    (gateSys ⟨false, true⟩ .plain).run (.init (.new .start)) es = some w ∧ w.clean = true ∧
      w.st.st.accepted.map (·.index) = [2, 1] ∧ NoReplay w.st.st := by
  -- the packet of index 1 comes again after the one of index 2, and is refused
  obtain ⟨w, hrun, hw⟩ : ∃ w ∈ (gateSys ⟨false, true⟩ .plain).run (.init (.new .start))
      [.start (.login 7 1 40), .reply 0 (.ret (some 90)), .start (.open 5 "a"),
        .start (.msg 5 (some ⟨some ⟨7, some 1⟩, some 1, 41⟩)), .start (.open 6 "b"),
        .start (.msg 6 (some ⟨some ⟨7, some 1⟩, some 2, 42⟩)), .start (.open 8 "c"),
        .start (.msg 8 (some ⟨some ⟨7, some 1⟩, some 1, 41⟩))],
      w.clean = true ∧ w.st.st.accepted.map (·.index) = [2, 1] := by
    decide +kernel
  exact ⟨_, w, hrun, hw.1, hw.2, noReplay_of_run _ _ hrun hw.1⟩

/-- **A handshake is accepted for a session that a login has replaced.**  The `delSq` of an `afk` drops the queue under a
waiting login; a second login gets a new one, and the handshake for the session of the first waits behind the second. -/
theorem replaced_session_accepts : ∃ es w,
    (gateSys ⟨false, true⟩ .plain).run (.init (.new .start)) es = some w ∧ ¬NoReplay w.st.st := by
  obtain ⟨w, hrun, hw⟩ : ∃ w ∈ (gateSys ⟨false, true⟩ .plain).run (.init (.new .start))
      [.start (.login 7 1 40), .reply 0 (.ret (some 90)), .start (.afk 7 (some 1) (some 2)), .start (.login 7 1 40),
        .reply 1 (.ret none), .reply 1 (.ret none), .wake 2, .start (.login 7 1 40), .reply 2 (.ret (some 91)),
        .start (.open 5 "a"), .start (.msg 5 (some ⟨some ⟨7, some 2⟩, some 1, 41⟩)), .reply 3 (.ret (some 92)), .wake 5],
      w.st.st.accepted.map (·.current) = [false] := by
    decide +kernel
  refine ⟨_, w, hrun, fun hno => ?_⟩
  obtain ⟨a, ha, hcur⟩ := List.mem_map.1 (hw ▸ List.mem_singleton_self false)
  rw [hno.current a ha] at hcur
  cases hcur

end Gate
end Sncpp
