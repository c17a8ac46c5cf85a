import Sncpp.MailCount
import Sncpp.MailService
/-!
# MailKeep — a player's mail in memory is the one in the store

`Orderly` says that an object belongs to one player and that a loaded one is what was saved.  The programs that find, load,
change and release a player's mail keep it, together with whatever a development says about the saved mails and the bodies
(`Steady`): a load changes nothing about them, and only the player's own object is changed and saved.
-/
namespace Sncpp
namespace Mail

open Co (Prog Pact Vow Abides)
open Co.Prog (get modify note ask serial)

variable {γ : Type}

/-- **The mails in memory are those in the store**, unless a player is `busy`. -/
structure Orderly (busy : γ → Nat → Bool) (s : Svc γ) : Prop where
  drawn : ∀ {uid o}, s.memList uid = some o → o < s.nextObj
  unmade : ∀ {o}, s.nextObj ≤ o → s.objs o = none
  alone : ∀ {uid uid' o}, s.memList uid = some o → s.memList uid' = some o → uid = uid'
  saved : ∀ {uid o m}, s.memList uid = some o → s.objs o = some m → busy s.notes uid = false → s.stored uid = some m.toData

/-- What the others leave as it is: a player's object is not taken up again, and nothing is saved while it is loaded. -/
structure Later (V : γ → γ → Prop) (s s' : Svc γ) : Prop where
  next : s.nextObj ≤ s'.nextObj
  notes : V s.notes s'.notes
  kept : ∀ {uid o}, o < s.nextObj → s'.memList uid = some o →
    s.memList uid = some o ∧ (s'.objs o = none → s.objs o = none ∧ s'.stored uid = s.stored uid)

/-- What a development must show of what it says: that it is about the saved mails and the bodies. -/
structure Steady (busy : γ → Nat → Bool) (Known : Nat → Body → Prop) (Q : Svc γ → Prop) : Prop where
  newMail : ∀ {s uid}, Orderly busy s → Q s → s.memList uid = none → Q (s.newMail uid)
  load : ∀ {s uid o d}, Orderly busy s → Q s → s.memList uid = some o → s.objs o = none → s.stored uid = some d →
    Q (s.setObj o (.init d))
  stale : ∀ {s o m}, Orderly busy s → Q s → (∀ uid, s.memList uid ≠ some o) → Q (s.setObj o m)
  fill : ∀ {s uid o}, Orderly busy s → Q s → s.memList uid = some o → s.objs o = none → s.stored uid = none →
    Q ((s.setObj o (.init .default)).save uid .default)
  stored : ∀ {s mid b}, Q s → s.bodies mid = some b → Known mid b
  cached : ∀ {s mid b}, Q s → s.mailList mid = some b → Known mid b
  insert : ∀ {s mid b}, Q s → Known mid b → Q (s.insert mid b)
  uncache : ∀ {s mid}, Q s → Q (s.uncache mid)

theorem Later.refl {V : γ → γ → Prop} (hV : ∀ g, V g g) (s : Svc γ) : Later V s s :=
  ⟨Nat.le_refl _, hV _, fun _ hm => ⟨hm, fun ho => ⟨ho, rfl⟩⟩⟩

theorem Later.trans {V : γ → γ → Prop} (hV : ∀ {a b c}, V a b → V b c → V a c) {s s' s'' : Svc γ} (h : Later V s s')
    (h' : Later V s' s'') : Later V s s'' where
  next := Nat.le_trans h.next h'.next
  notes := hV h.notes h'.notes
  kept {uid o} ho hm := by
    obtain ⟨hm', hn'⟩ := h'.kept (Nat.lt_of_lt_of_le ho h.next) hm
    obtain ⟨hm'', hn''⟩ := h.kept ho hm'
    refine ⟨hm'', fun hnone => ?_⟩
    obtain ⟨hnone', hst'⟩ := hn' hnone
    obtain ⟨hnone'', hst''⟩ := hn'' hnone'
    exact ⟨hnone'', hst'.trans hst''⟩

structure Trust (γ : Type) where
  busy : γ → Nat → Bool
  said : Svc γ → Prop
  later : γ → γ → Prop
  refl : ∀ g, later g g
  trans : ∀ {a b c}, later a b → later b c → later a c

def Trust.pact (T : Trust γ) : Pact (Svc γ) :=
  ⟨fun s => Orderly T.busy s ∧ T.said s, Later T.later, False, Later.refl T.refl,
    Later.trans (V := T.later) T.trans⟩

section Changes

variable {busy : γ → Nat → Bool} {V : γ → γ → Prop} {s : Svc γ} {uid o : Nat}

theorem Orderly.frame {s' : Svc γ} (h : Orderly busy s) (hmem : s'.memList = s.memList) (hobjs : s'.objs = s.objs)
    (hnext : s'.nextObj = s.nextObj) (hstored : s'.stored = s.stored)
    (hbusy : ∀ uid, busy s.notes uid = true → busy s'.notes uid = true) : Orderly busy s' where
  drawn hm := by
    rw [hnext]
    exact h.drawn (hmem ▸ hm)
  unmade ho := by
    rw [hobjs]
    exact h.unmade (hnext ▸ ho)
  alone hm hm' := h.alone (hmem ▸ hm) (hmem ▸ hm')
  saved {uid o m} hm ho hb := by
    rw [hstored]
    refine h.saved (hmem ▸ hm) (hobjs ▸ ho) ?_
    cases hc : busy s.notes uid with
    | false => rfl
    | true => rw [hbusy uid hc] at hb; cases hb

theorem Orderly.notes (h : Orderly busy s) {g : γ} (hb : ∀ uid, busy g uid = false → busy s.notes uid = false ∨
    ∀ o m, s.memList uid = some o → s.objs o = some m → s.stored uid = some m.toData) : Orderly busy { s with notes :=
      g } where
  drawn := h.drawn
  unmade := h.unmade
  alone := h.alone
  saved {uid o m} hm ho hno := by
    rcases hb uid hno with hold | hall
    · exact h.saved hm ho hold
    · exact hall o m hm ho

theorem Later.frame {s' : Svc γ} (hmem : s'.memList = s.memList) (hobjs : s'.objs = s.objs)
    (hnext : s'.nextObj = s.nextObj) (hstored : s'.stored = s.stored) (hnotes : V s.notes s'.notes) : Later V s s' where
  next := Nat.le_of_eq hnext.symm
  notes := hnotes
  kept _ hm := ⟨hmem ▸ hm, fun ho => ⟨hobjs ▸ ho, by rw [hstored]⟩⟩

theorem Orderly.newMail (h : Orderly busy s) (hno : s.memList uid = none) : Orderly busy (s.newMail uid) where
  drawn {u o} hm := by
    by_cases hu : u = uid
    · subst hu
      have ho : some s.nextObj = some o := by simpa [Svc.newMail] using hm
      cases ho
      exact Nat.lt_succ_self _
    · exact Nat.lt_succ_of_lt (h.drawn (by simpa [Svc.newMail, hu] using hm))
  unmade ho := h.unmade (Nat.le_of_succ_le ho)
  alone {u u' o} hm hm' := by
    by_cases hu : u = uid <;> by_cases hu' : u' = uid
    · rw [hu, hu']
    · have ho : some s.nextObj = some o := by simpa [Svc.newMail, hu] using hm
      cases ho
      exact absurd (h.drawn (by simpa [Svc.newMail, hu'] using hm')) (Nat.lt_irrefl _)
    · have ho : some s.nextObj = some o := by simpa [Svc.newMail, hu'] using hm'
      cases ho
      exact absurd (h.drawn (by simpa [Svc.newMail, hu] using hm)) (Nat.lt_irrefl _)
    · exact h.alone (by simpa [Svc.newMail, hu] using hm) (by simpa [Svc.newMail, hu'] using hm')
  saved {u o m} hm ho hb := by
    by_cases hu : u = uid
    · have hn : some s.nextObj = some o := by simpa [Svc.newMail, hu] using hm
      cases hn
      rw [show (s.newMail uid).objs s.nextObj = none from h.unmade (Nat.le_refl _)] at ho
      cases ho
    · exact h.saved (by simpa [Svc.newMail, hu] using hm) ho hb

theorem Later.newMail (hV : ∀ g, V g g) (s : Svc γ) (uid : Nat) : Later V s (s.newMail uid) where
  next := Nat.le_succ _
  notes := hV _
  kept {u o} ho hm := by
    by_cases hu : u = uid
    · have hn : some s.nextObj = some o := by simpa [Svc.newMail, hu] using hm
      cases hn
      exact absurd ho (Nat.lt_irrefl _)
    · exact ⟨by simpa [Svc.newMail, hu] using hm, fun hnone => ⟨hnone, rfl⟩⟩

theorem Orderly.release (h : Orderly busy s) (uid : Nat) : Orderly busy (s.release uid) := by
  have hmem : ∀ {u o}, (s.release uid).memList u = some o → s.memList u = some o := by
    intro u o hm
    by_cases hu : u = uid
    · simp [Svc.release, hu] at hm
    · simpa [Svc.release, hu] using hm
  exact ⟨fun hm => h.drawn (hmem hm), h.unmade, fun hm hm' => h.alone (hmem hm) (hmem hm'), fun hm => h.saved (hmem hm)⟩

theorem Later.release (hV : ∀ g, V g g) (s : Svc γ) (uid : Nat) : Later V s (s.release uid) where
  next := Nat.le_refl _
  notes := hV _
  kept {u o} _ hm := by
    by_cases hu : u = uid
    · simp [Svc.release, hu] at hm
    · exact ⟨by simpa [Svc.release, hu] using hm, fun hnone => ⟨hnone, rfl⟩⟩

theorem Orderly.setObj (h : Orderly busy s) {m : PlayerMail} (ho : o < s.nextObj)
    (hm : ∀ uid, s.memList uid = some o → busy s.notes uid = false → s.stored uid = some m.toData) :
    Orderly busy (s.setObj o m) where
  drawn := h.drawn
  unmade {x} hx := by
    have hne : x ≠ o := by
      rintro rfl
      exact absurd ho (Nat.not_lt.2 hx)
    simpa [Svc.setObj, hne] using h.unmade hx
  alone := h.alone
  saved {u x n} hu hx hb := by
    by_cases he : x = o
    · subst he
      have hn : m = n := by simpa [Svc.setObj] using hx
      rw [← hn]
      exact hm u hu hb
    · exact h.saved hu (by simpa [Svc.setObj, he] using hx) hb

theorem Later.setObj (hV : ∀ g, V g g) (s : Svc γ) (o : Nat) (m : PlayerMail) : Later V s (s.setObj o m) where
  next := Nat.le_refl _
  notes := hV _
  kept {u x} _ hm := by
    refine ⟨hm, fun hnone => ⟨?_, rfl⟩⟩
    by_cases he : x = o
    · simp [Svc.setObj, he] at hnone
    · simpa [Svc.setObj, he] using hnone

theorem Orderly.write (h : Orderly busy s) {m : PlayerMail} (hm : s.memList uid = some o) :
    Orderly busy ((s.setObj o m).save uid m.toData) where
  drawn := h.drawn
  unmade {x} hx := by
    have hne : x ≠ o := by
      rintro rfl
      exact absurd (h.drawn hm) (Nat.not_lt.2 hx)
    simpa [Svc.setObj, Svc.save, hne] using h.unmade hx
  alone := h.alone
  saved {u x n} hu hx hb := by
    by_cases he : x = o
    · subst he
      have hn : m = n := by simpa [Svc.setObj, Svc.save] using hx
      rw [← hn, h.alone hu hm]
      exact Function.update_self _ _ _
    · have hne : u ≠ uid := by
        rintro rfl
        exact he (Option.some.inj ((show s.memList u = some x from hu).symm.trans hm))
      have hold := h.saved hu (by simpa [Svc.setObj, Svc.save, he] using hx) hb
      simpa [Svc.setObj, Svc.save, hne] using hold

theorem Later.write (hV : ∀ g, V g g) (hm : s.memList uid = some o) (m : PlayerMail) (d : Data) :
    Later V s ((s.setObj o m).save uid d) where
  next := Nat.le_refl _
  notes := hV _
  kept {u x} _ hu := by
    refine ⟨hu, fun hnone => ?_⟩
    by_cases he : x = o
    · simp [Svc.setObj, Svc.save, he] at hnone
    · have hne : u ≠ uid := by
        rintro rfl
        exact he (Option.some.inj ((show s.memList u = some x from hu).symm.trans hm))
      exact ⟨by simpa [Svc.setObj, Svc.save, he] using hnone, by simp [Svc.setObj, Svc.save, hne]⟩

end Changes

theorem init_toData (d : Data) : (PlayerMail.init d).toData = d := by
  have hfold : ∀ (l : List Nat) (m : PlayerMail), (l.foldl PlayerMail.addRef m).toData = m.toData := by
    intro l
    induction l with
    | nil => exact fun _ => rfl
    | cons r l ih => exact fun m => (ih _).trans (addRef_toData m r)
  exact hfold _ _

theorem addRef_online (m : PlayerMail) (r : Nat) : (m.addRef r).online = m.online := by
  unfold PlayerMail.addRef
  dsimp only
  split <;> rfl

theorem init_online (d : Data) : (PlayerMail.init d).online = false := by
  have hfold : ∀ (l : List Nat) (m : PlayerMail), (l.foldl PlayerMail.addRef m).online = m.online := by
    intro l
    induction l with
    | nil => exact fun _ => rfl
    | cons r l ih => exact fun m => (ih _).trans (addRef_online m r)
  exact hfold _ _

theorem insert_frame (s : Svc γ) (mid : Nat) (b : Body) : (s.insert mid b).memList = s.memList ∧
    (s.insert mid b).objs = s.objs ∧ (s.insert mid b).nextObj = s.nextObj ∧ (s.insert mid b).stored = s.stored ∧
    (s.insert mid b).notes = s.notes := by
  unfold Svc.insert
  split <;> exact ⟨rfl, rfl, rfl, rfl, rfl⟩

section Programs

variable {T : Trust γ} {Known : Nat → Body → Prop} {may : Req → Reply → Bool} {α : Type}

theorem call_abides (q : Req) : Abides T.pact may (call q : Co γ Reply) :=
  Abides.bind (Abides.ask q) (fun _ => Abides.ite (Abides.err _) (Abides.pure _))

theorem delSq_abides (uid : Nat) : Abides T.pact may (delSq uid : Co γ Unit) := fun _ _ hv hs => ⟨hv, hs⟩

/-- **Loading the mail of a player**: while the query is answered the object is the player's and nothing is saved, or the
object is of no use any more. -/
theorem init_vow (hQ : Steady T.busy Known T.said) {uid o : Nat} :
    Vow T.pact may (fun s => T.pact.inv s ∧ s.memList uid = some o ∧ s.objs o = none) (init uid o) (fun _ => T.pact.inv)
      T.pact.inv := by
  refine Vow.get (fun s₀ h₀ => ?_)
  refine Vow.bind (M := fun _ s => T.pact.inv s ∧
    Later T.later s₀ s) (Vow.bind (M := fun _ s => T.pact.inv s ∧ Later T.later s₀ s)
    ?_ (fun r => Vow.ite (fun _ => Vow.err (fun _ hs => hs.1)) (fun _ => Vow.pure (fun _ hs => hs)))) (fun r => ?_)
  · refine Vow.ask (fun s hs => by rw [hs]; exact h₀.1) (fun s s' r hs _ hi hv => ⟨hi, ?_⟩)
    rw [← hs]
    exact hv
  refine Vow.bind (M := fun _ s => (T.pact.inv s ∧ Later T.later s₀ s) ∧ s.objs o = none ∧
    (r = .yes ∨ s₀.stored uid = none)) (Vow.note nofun (fun s hs hn => ⟨hs, ?_⟩)) (fun _ => ?_)
  · have hn' := hn rfl
    simp only [Bool.and_eq_true, Bool.or_eq_true, decide_eq_true_eq, Option.isNone_iff_eq_none] at hn'
    exact ⟨hn'.2, hn'.1⟩
  have hdrawn : o < s₀.nextObj := h₀.1.1.drawn h₀.2.1
  -- what the store has now is what the query found, if the object is still the player's
  have hsame : ∀ s, Later T.later s₀ s → s.objs o = none → ∀ u, s.memList u = some o → u = uid ∧ s.stored u =
    s₀.stored u := by
    intro s hv hnone u hu
    obtain ⟨hu₀, hst⟩ := hv.kept hdrawn hu
    exact ⟨h₀.1.1.alone hu₀ h₀.2.1, (hst hnone).2⟩
  split
  · rename_i d hd
    have hd' : s₀.stored uid = some d := by
      split at hd
      · exact hd
      · cases hd
    refine Vow.modify (fun s hs => ⟨Later.setObj T.refl s o _, ?_⟩)
    obtain ⟨⟨⟨hord, hsaid⟩, hv⟩, hnone, -⟩ := hs
    refine ⟨hord.setObj (Nat.lt_of_lt_of_le hdrawn hv.next) (fun u hu _ => ?_), ?_⟩
    · obtain ⟨rfl, hst⟩ := hsame s hv hnone u hu
      rw [hst, hd', init_toData]
    · by_cases hu : s.memList uid = some o
      · exact hQ.load hord hsaid hu hnone ((hsame s hv hnone uid hu).2.trans hd')
      · refine hQ.stale hord hsaid (fun u hu' => ?_)
        obtain ⟨rfl, -⟩ := hsame s hv hnone u hu'
        exact hu hu'
  · rename_i hd
    refine Vow.bind (M := fun _ s => (T.pact.inv s ∧ s.objs o = none ∧ s.stored uid = none) ∧ s.memList uid = some o)
      (Vow.note nofun (fun s hs hn => ?_)) (fun _ => Vow.modify (fun s hs => ?_))
    · obtain ⟨⟨hinv, hv⟩, hnone, hr⟩ := hs
      have hm : s.memList uid = some o := by simpa using hn rfl
      refine ⟨⟨hinv, hnone, ?_⟩, hm⟩
      rw [(hsame s hv hnone uid hm).2]
      rcases hr with hr | hr
      · rw [if_pos hr] at hd
        exact hd
      · exact hr
    · obtain ⟨⟨⟨hord, hsaid⟩, hnone, hst⟩, hm⟩ := hs
      have hdata : Data.default = (PlayerMail.init .default).toData := (init_toData _).symm
      refine ⟨Later.write T.refl hm _ _, ?_, hQ.fill hord hsaid hm hnone hst⟩
      rw [hdata]
      exact hord.write hm

theorem getPlayerMail_abides (hQ : Steady T.busy Known T.said) (uid : Nat) (isMem : Bool) :
    Abides T.pact may (getPlayerMail uid isMem : Co γ (Option Nat)) := by
  refine Abides.serial (Abides.peek (fun s => Abides.ite (Abides.pure _) ?_))
  refine Abides.bind (call_abides _) (fun _ => Abides.bind (call_abides _) (fun r => Abides.ite (Abides.pure _) ?_))
  refine Vow.get (fun s hs => Vow.noteAt nofun (fun hno => ?_))
  have hno' : s.memList uid = none := Option.isNone_iff_eq_none.1 (hno rfl)
  refine Vow.modifyAt (Later.newMail T.refl s uid) (Vow.bind (M := fun _ => T.pact.inv) ?_ (fun _ =>
    Abides.peek (fun _ => Abides.pure _)))
  refine (init_vow hQ).weaken (fun s' hs' => ?_)
  subst hs'
  refine ⟨⟨hs.1.newMail hno', hQ.newMail hs.1 hs.2 hno'⟩, ?_, ?_⟩
  · simp [Svc.newMail]
  · exact hs.1.unmade (Nat.le_refl _)

theorem login_abides (hQ : Steady T.busy Known T.said) (uid : Nat) : Abides T.pact may (login uid : Co γ Unit) :=
  Abides.bind (getPlayerMail_abides hQ uid false) (fun _ => Abides.pure _)

theorem query_vow (hQ : Steady T.busy Known T.said) (mid : Nat) :
    Vow T.pact may T.pact.inv (query mid : Co γ (Option Body)) (fun b s => T.pact.inv s ∧ ∀ x, b = some x → Known mid x)
      T.pact.inv := by
  refine Vow.get (fun s₀ h₀ => ?_)
  split
  · rename_i b hb
    refine Vow.pure (fun s hs => ⟨by rw [hs]; exact h₀, fun x hx => ?_⟩)
    cases hx
    exact hQ.cached h₀.2 hb
  · refine Vow.bind (M := fun _ => T.pact.inv) ((call_abides _).at h₀) (fun r => ?_)
    split
    · rename_i b hb
      have hk : Known mid b := by
        split at hb
        · exact hQ.stored h₀.2 hb
        · cases hb
      refine Vow.bind (M := fun _ => T.pact.inv) (Vow.modify (fun s hs => ?_)) (fun _ => Vow.pure (fun s hs => ⟨hs, ?_⟩))
      · obtain ⟨hmem, hobjs, hnext, hst, hnotes⟩ := insert_frame s mid b
        refine ⟨Later.frame hmem hobjs hnext hst (by rw [hnotes]; exact T.refl _), ?_, hQ.insert hs.2 hk⟩
        exact hs.1.frame hmem hobjs hnext hst (fun _ hb => by rw [hnotes]; exact hb)
      · intro x hx
        cases hx
        exact hk
    · exact Vow.pure (fun s hs => ⟨hs, nofun⟩)

/-- **A removal leaves the bodies alone**, since `isshared` always counts as true. -/
theorem remove_abides (hQ : Steady T.busy Known T.said) (mid : Nat) (uid : Option Nat) :
    Abides T.pact may (remove mid uid false : Co γ Unit) := by
  refine Vow.bind (query_vow hQ mid) (fun b => ?_)
  split
  · exact Vow.pure (fun _ hs => hs.1)
  · refine Vow.bind (M := fun _ => T.pact.inv) (Vow.pure (fun _ hs => hs.1)) (fun _ => Abides.modify (fun s hs => ?_))
    exact ⟨⟨hs.1.frame rfl rfl rfl rfl (fun _ hb => hb), hQ.uncache hs.2⟩, Later.frame rfl rfl rfl rfl (T.refl _)⟩

theorem runFork_abides (hQ : Steady T.busy Known T.said) (hforks : ∀ {s l}, T.said s → T.said { s with forks := l })
    (mid uid : Nat) : Abides T.pact may (runFork mid uid : Co γ Unit) := by
  refine Abides.peek (fun s => Abides.ite (Abides.bind (Abides.modify (fun s hs => ?_)) (fun _ => remove_abides hQ mid _))
    (Abides.pure ()))
  exact ⟨⟨hs.1.frame rfl rfl rfl rfl (fun _ hb => hb), hforks hs.2⟩, Later.frame rfl rfl rfl rfl (T.refl _)⟩

theorem change_some {s : Svc γ} {uid o : Nat} {f : PlayerMail → PlayerMail} {m : PlayerMail} (h : s.objs o = some m) :
    s.change uid o f = (s.setObj o (f m)).save uid (f m).toData := by
  unfold Svc.change
  rw [h]

theorem alter_some {s : Svc γ} {o : Nat} {f : PlayerMail → PlayerMail} {m : PlayerMail} (h : s.objs o = some m) :
    s.alter o f = s.setObj o (f m) := by
  unfold Svc.alter
  rw [h]

theorem write_at {uid o : Nat} {f : PlayerMail → PlayerMail} {k : Co γ α} {s : Svc γ} {ok : α → Svc γ → Prop}
    {bad : Svc γ → Prop}
    (hk : s.memList uid = some o → Vow T.pact may (fun s' => s' = s.change uid o f) k ok bad) :
    Vow T.pact may (fun s' => s' = s) (write uid o f >>= fun _ => k) ok bad := by
  refine Vow.bind (M := fun _ s' => s' = s.change uid o f ∧ s.memList uid = some o) ?_ (fun _ => Vow.fix (fun s' hs' => ?_))
  · refine Vow.noteAt nofun (fun hn => ?_)
    have hm : s.memList uid = some o := of_decide_eq_true (hn rfl)
    refine Vow.modify (fun s' hs' => ?_)
    subst hs'
    refine ⟨?_, rfl, hm⟩
    cases ho : s'.objs o with
    | none =>
      have hsame : s'.change uid o f = s' := by
        unfold Svc.change
        rw [ho]
      rw [hsame]
      exact Later.refl T.refl s'
    | some m =>
      rw [change_some ho]
      exact Later.write T.refl hm _ _
  · rw [hs'.1]
    exact hk hs'.2

theorem releasePlayerMail_abides {before : Co γ Unit} {uid : Nat} {F : Svc γ → Prop}
    (hb : Vow T.pact may T.pact.inv before (fun _ s => T.pact.inv s ∧ F s) T.pact.inv)
    (hfree : ∀ s, Orderly T.busy s → T.said s → F s → T.said (s.release uid)) :
    Abides T.pact may (releasePlayerMail before uid) := by
  refine Abides.bind (Abides.serial (Vow.bind hb (fun _ => Vow.modify (fun s hs => ?_)))) (fun _ => delSq_abides uid)
  exact ⟨Later.release T.refl s uid, hs.1.1.release uid, hfree s hs.1.1 hs.1.2 hs.2⟩

theorem logout_abides (hQ : Steady T.busy Known T.said) {before : Co γ Unit} {uid : Nat}
    (hr : Abides T.pact may (releasePlayerMail before uid)) : Abides T.pact may (logout before uid) :=
  Abides.bind (getPlayerMail_abides hQ uid true) (fun _ => Abides.ite hr (Abides.pure ()))

end Programs

end Mail
end Sncpp
