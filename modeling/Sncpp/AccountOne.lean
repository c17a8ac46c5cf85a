import Mathlib.Data.List.Nodup
import Sncpp.Account
import Sncpp.CoRely
/-!
# AccountOne — one account a user

Any number of authentications over one database, in any order of their commands, each of which may fail.  The look-up and
the creation are commands of their own, and a look-up that fails is taken for a user without account; but the unique index
refuses a second account of the user, and the creation that is refused ends the login.  With mysql no login gets as far:
the look-up asks for a column that the account table does not have.
-/
namespace Sncpp
namespace Account

open Co (Prog Pact Vow Abides)

def Owns (s : Site) (user : String) (uid : Nat) : Prop := ∃ r ∈ s.db.account, r.user = user ∧ r.id = uid

/-- **One account a user, and no answer but its uid**; the accounts that are there stay. -/
def pact : Pact Site where
  inv s := (s.db.account.map Row.user).Nodup ∧ ∀ a ∈ s.given, Owns s a.1 a.2
  rely s s' := ∀ r ∈ s.db.account, r ∈ s'.db.account
  honest := True
  refl _ _ h := h
  trans h h' r hr := h' r (h r hr)

theorem Owns.later {s : Site} {user : String} {uid : Nat} (h : Owns s user uid) (s' : Site) (hv : pact.rely s s') :
    Owns s' user uid := by
  obtain ⟨r, hr, hown⟩ := h
  exact ⟨r, hv r hr, hown⟩

theorem Owns.unique {s : Site} (hs : pact.inv s) {user : String} {uid uid' : Nat} (h : Owns s user uid)
    (h' : Owns s user uid') :
    uid = uid' := by
  obtain ⟨r, hr, hu, rfl⟩ := h
  obtain ⟨r', hr', hu', rfl⟩ := h'
  rw [List.inj_on_of_nodup_map hs.1 hr hr' (hu.trans hu'.symm)]

/-- A command that drops no account and makes no second one of a user. -/
def Tame (command : Db → Db) : Prop := ∀ db, (∀ r ∈ db.account, r ∈ (command db).account) ∧
  ((db.account.map Row.user).Nodup → ((command db).account.map Row.user).Nodup)

theorem Tame.read : Tame (fun db => db) := fun _ => ⟨fun _ h => h, fun h => h⟩

theorem Tame.nextid : Tame (fun db => db.nextid.1) := fun _ => ⟨fun _ h => h, fun h => h⟩

theorem Tame.safe_insert (row : Row) : Tame (fun db => (db.safe_insert row).1) := by
  intro db
  simp only [Db.safe_insert]
  split
  · exact ⟨fun _ h => h, fun h => h⟩
  · next hnew =>
    refine ⟨fun r hr => List.mem_append_left _ hr, fun hnodup => ?_⟩
    rw [List.map_append, List.nodup_append]
    refine ⟨hnodup, List.nodup_singleton _, fun user hu user' hu' => ?_⟩
    obtain ⟨r, hr, rfl⟩ := List.mem_map.1 hu
    obtain rfl : user' = row.user := List.mem_singleton.1 hu'
    intro heq
    rw [List.any_eq_true, not_exists] at hnew
    exact hnew r ⟨hr, by simp [heq]⟩

theorem mem_of_safe_insert {db : Db} {row : Row} (h : (db.safe_insert row).2 = true) :
    row ∈ (db.safe_insert row).1.account := by
  unfold Db.safe_insert at h ⊢
  split at h
  · cases h
  · next hnew =>
    rw [if_neg hnew]
    exact List.mem_append_right _ (List.mem_singleton.2 rfl)

theorem Tame.keeps {command : Db → Db} (h : Tame command) {s : Site} (hs : pact.inv s) :
    pact.inv { s with db := command s.db } ∧ pact.rely s { s with db := command s.db } :=
  ⟨⟨(h s.db).2 hs.1, fun a ha => (hs.2 a ha).later { s with db := command s.db } (h s.db).1⟩, (h s.db).1⟩

theorem owns_of_find {s : Site} {user : String} {found : Found} {uid : Nat} (h : s.db.find user = some found)
    (huid : found.uid = some uid) : Owns s user uid := by
  obtain ⟨r, hr, rfl⟩ := Option.map_eq_some_iff.1 h
  refine ⟨r, List.mem_of_find?_eq_some hr, ?_, Option.some.inj huid⟩
  simpa using List.find?_some hr

variable {α : Type} {may : Ask → Fate → Bool}

theorem callDbSvr_vow (q : Ask) (command : Db → Db × α) (htame : Tame (fun db => (command db).1)) {Q : α → Site → Prop}
    (hQ : ∀ s, pact.inv s → Q (command s.db).2 { s with db := (command s.db).1 })
    (hlater : ∀ a s s', Q a s → pact.rely s s' → Q a s') :
    Vow pact may pact.inv (callDbSvr q command) (fun r s => pact.inv s ∧ ∀ a, r = some a → Q a s) pact.inv := by
  unfold callDbSvr
  refine Vow.bind (Abides.ask q) (fun fate => ?_)
  cases fate with
  | fine =>
    refine Vow.bind (M := fun a s => pact.inv s ∧ Q a s) (fun _ s hv hs => ?_) (fun a => ?_)
    · obtain ⟨hi, hr⟩ := htame.keeps hs
      exact ⟨pact.trans hv hr, hi, hQ s hs⟩
    · refine Vow.bind (M := fun _ s => pact.inv s ∧ Q a s) ?_ (fun _ => ?_)
      · exact Vow.ask (fun _ h => h.1) (fun s s' _ h _ hi hv => ⟨hi, hlater a s s' h.2 hv⟩)
      · refine Vow.pure (fun s h => ⟨h.1, fun b hb => ?_⟩)
        obtain rfl := Option.some.inj hb
        exact h.2
  | fails done raised =>
    refine Vow.bind (M := fun _ => pact.inv) ?_ (fun _ => Vow.bind (M := fun _ => pact.inv) (Abides.ask _) (fun _ => ?_))
    · refine Vow.when (fun _ => Abides.modify (fun s hs => htame.keeps hs)) (fun _ s hs => hs)
    · refine Vow.ite (fun _ => Vow.err (fun _ h => h)) (fun _ => Vow.pure (fun s h => ⟨h, fun a ha => ?_⟩))
      cases ha

theorem setHelper_keeps (i : Nat) (f : Helper → Helper) {s : Site} (hs : pact.inv s) :
    pact.inv (setHelper i f s) ∧ pact.rely s (setHelper i f s) := ⟨hs, fun _ h => h⟩

theorem generateKid_abides (i : Nat) : Abides pact may (generateKid i) := by
  unfold generateKid
  refine Abides.peek (fun s => ?_)
  split
  · exact Abides.pure _
  · refine Vow.bind (callDbSvr_vow .findGeneral (fun db => (db, db.defaultKid)) Tame.read (Q := fun _ _ => True)
      (fun _ _ => trivial) (fun _ _ _ _ _ => trivial)) (fun ret => ?_)
    refine Vow.weaken ?_ (fun s h => h.1)
    exact Abides.bind (Abides.modify (fun s hs => setHelper_keeps i _ hs)) (fun _ => Abides.pure _)

theorem lookup_abides (md : Digest) (i : Nat) (user : String) : Abides pact may (lookup md i user) :=
  Abides.peek (fun _ => Abides.pure _)

theorem importKid_abides (md : Digest) (i : Nat) (user : String) : Abides pact may (importKid md i user) := by
  unfold importKid
  refine Abides.peek (fun s => Abides.ite (Abides.bind (generateKid_abides i) (fun kid => ?_)) (lookup_abides md i user))
  cases kid with
  | some kid => exact Abides.pure _
  | none => exact lookup_abides md i user

theorem assignKid_abides (md : Digest) (i : Nat) (user : String) (addr : List Char) (kid : Option Nat) :
    Abides pact may (assignKid md i user addr kid) := by
  unfold assignKid
  refine Abides.peek (fun s => ?_)
  split
  · exact Abides.pure _
  · exact importKid_abides md i user

theorem createAccount_vow (user : String) (kid status : Nat) :
    Vow pact may pact.inv (createAccount .mongodb user kid status)
    (fun r s => pact.inv s ∧ ∀ uid, r = some uid → Owns s user uid) pact.inv := by
  unfold createAccount
  refine Vow.bind (callDbSvr_vow .findAndModify Db.nextid Tame.nextid (Q := fun _ _ => True)
    (fun _ _ => trivial) (fun _ _ _ _ _ => trivial)) (fun uid => ?_)
  cases uid with
  | none => exact Vow.err (fun _ h => h.1)
  | some uid =>
    refine Vow.weaken ?_ (fun s h => h.1)
    refine Vow.bind (callDbSvr_vow .insert (fun db => db.safe_insert ⟨uid, user, kid, status⟩) (Tame.safe_insert _)
      (Q := fun done s => done = true → Owns s user uid) (fun s _ hdone => ?_) (fun done s s' h hv hdone => ?_))
        (fun r => ?_)
    · exact ⟨_, mem_of_safe_insert hdone, rfl, rfl⟩
    · exact (h hdone).later _ hv
    · split
      · refine Vow.pure (fun s h => ⟨h.1, fun uid' huid => ?_⟩)
        obtain rfl := Option.some.inj huid
        exact h.2 true rfl rfl
      · exact Vow.err (fun _ h => h.1)

theorem gateOf_vow (user : String) (uid kid : Nat) (status : Option Nat) (isNewUser : Bool) :
    Vow pact may (fun s => pact.inv s ∧ Owns s user uid) (gateOf uid kid status isNewUser)
      (fun r s => pact.inv s ∧ ∀ info, r = some info → Owns s user info.uid) pact.inv := by
  unfold gateOf
  refine Vow.peek (fun s => ?_)
  split
  · exact Vow.pure (fun s h => ⟨h.1, fun info hinfo => by cases hinfo⟩)
  split
  · exact Vow.pure (fun s h => ⟨h.1, fun info hinfo => by cases hinfo⟩)
  · refine Vow.pure (fun s h => ⟨h.1, fun info hinfo => ?_⟩)
    rw [← Option.some.inj hinfo]
    exact h.2

theorem nothing_vow (user : String) {pre : Site → Prop} (hpre : ∀ s, pre s → pact.inv s) :
    Vow pact may pre (pure none : Run (Option Info)) (fun r s => pact.inv s ∧ ∀ info, r = some info → Owns s user info.uid)
      pact.inv :=
  Vow.pure (fun s h => ⟨hpre s h, fun info hinfo => by cases hinfo⟩)

theorem newAccount_vow (md : Digest) (i : Nat) (user : String) (addr : List Char) (kid : Option Nat) :
    Vow pact may pact.inv (newAccount md .mongodb i user addr kid)
      (fun r s => pact.inv s ∧ ∀ info, r = some info → Owns s user info.uid) pact.inv := by
  unfold newAccount
  refine Vow.peek (fun s => Vow.ite (fun _ => nothing_vow user (fun _ h => h)) (fun _ => ?_))
  refine Vow.bind (assignKid_abides md i user addr kid) (fun kid => Vow.peek (fun s => ?_))
  split
  · exact nothing_vow user (fun _ h => h)
  · next kid =>
    refine Vow.ite (fun _ => Vow.bind (createAccount_vow user kid NORMAL) (fun uid => ?_)) (fun _ =>
      nothing_vow user (fun _ h => h))
    cases uid with
    | none => exact nothing_vow user (fun _ h => h.1)
    | some uid => exact (gateOf_vow user uid kid (some NORMAL) true).weaken (fun s h => ⟨h.1, h.2 uid rfl⟩)

theorem oldAccount_vow (md : Digest) (i : Nat) (user : String) (uid : Nat) (kid status : Option Nat) :
    Vow pact may (fun s => pact.inv s ∧ Owns s user uid) (oldAccount md i user uid kid status)
      (fun r s => pact.inv s ∧ ∀ info, r = some info → Owns s user info.uid) pact.inv := by
  have hask : ∀ q : Ask, Vow pact may (fun s => pact.inv s ∧ Owns s user uid) (Prog.ask q : Run Fate)
      (fun _ s => pact.inv s ∧ Owns s user uid) pact.inv :=
    fun q => Vow.ask (fun _ h => h.1) (fun s s' _ h _ hi hv => ⟨hi, h.2.later _ hv⟩)
  have hstay : Vow pact may (fun s => pact.inv s ∧ Owns s user uid) (pure () : Run Unit)
      (fun _ s => pact.inv s ∧ Owns s user uid) pact.inv := Vow.pure (fun _ h => h)
  unfold oldAccount lookup migrate
  refine Vow.bind (M := fun _ s => pact.inv s ∧
    Owns s user uid) (Vow.peek (fun s => Vow.pure (fun _ h => h))) (fun newkid => ?_)
  refine Vow.bind (M := fun _ s => pact.inv s ∧ Owns s user uid) ?_ (fun _ => Vow.peek (fun s => ?_))
  · split
    · exact hstay
    · next newkid =>
      refine Vow.ite (fun _ => hstay) (fun _ => ?_)
      refine Vow.bind (hask _) (fun _ => Vow.bind (hask _) (fun _ => Vow.bind (hask _) (fun fate => ?_)))
      split
      · exact Vow.err (fun _ h => h.1)
      · exact hstay
  · split
    · exact nothing_vow user (fun _ h => h.1)
    · next kid _ =>
      exact Vow.ite (fun _ => gateOf_vow user uid kid status false) (fun _ => nothing_vow user (fun _ h => h.1))

theorem getAccountInfo_vow (md : Digest) (dbtype : DbType) (i : Nat) (user : String) (addr : List Char) :
    Vow pact may pact.inv (getAccountInfo md dbtype i user addr)
      (fun r s => pact.inv s ∧ ∀ info, r = some info → Owns s user info.uid) pact.inv := by
  unfold getAccountInfo queryAccountByUser
  cases dbtype with
  | mongodb =>
    refine Vow.bind (M := fun r s => pact.inv s ∧ ∀ found uid, r = some found → found.uid = some uid → Owns s user uid) ?_
      (fun r => ?_)
    · refine Vow.bind (callDbSvr_vow .findAccount (fun db => (db, db.find user)) Tame.read
        (Q := fun r s => ∀ found uid, r = some found → found.uid = some uid → Owns s user uid)
        (fun s _ found uid hr huid => owns_of_find hr huid)
        (fun r s s' h hv found uid hr huid => (h found uid hr huid).later _ hv)) (fun r => ?_)
      split
      · next found =>
        refine Vow.pure (fun s h => ⟨h.1, fun found' uid hfound huid => ?_⟩)
        rw [← Option.some.inj hfound] at huid
        exact h.2 _ rfl found uid rfl huid
      · refine Vow.pure (fun s h => ⟨h.1, fun found' uid hfound huid => ?_⟩)
        rw [← Option.some.inj hfound] at huid
        cases huid
    · cases r with
      | none => exact nothing_vow user (fun _ h => h.1)
      | some found =>
        simp only
        split
        · exact (newAccount_vow md i user addr found.kid).weaken (fun _ h => h.1)
        · next uid huid =>
          exact (oldAccount_vow md i user uid found.kid found.status).weaken (fun s h => ⟨h.1, h.2 found uid rfl huid⟩)
  | mysql =>
    refine Vow.bind (M := fun r s => pact.inv s ∧ r = none) ?_ (fun r => ?_)
    · refine Vow.bind (callDbSvr_vow .findAccount (fun db => (db, db.select ["uid", "kid", "status"] user)) Tame.read
        (Q := fun r _ => r = none) (fun s _ => s.db.select_uid user) (fun _ _ _ h _ => h)) (fun r => ?_)
      split
      · exact Vow.pure (fun s h => by cases h.2 _ rfl)
      · exact Vow.pure (fun s h => by cases h.2 _ rfl)
      · exact Vow.pure (fun s h => ⟨h.1, rfl⟩)
    · cases r with
      | none => exact nothing_vow user (fun _ h => h.1)
      | some found => exact fun _ _ _ h => by cases h.2

theorem auth_abides (md : Digest) (dbtype : DbType) (i : Nat) (user : String) (addr : List Char) :
    Abides pact may (auth md dbtype i user addr) := by
  unfold auth
  refine Abides.bind (Abides.ask _) (fun fate => ?_)
  cases fate with
  | fails done raised => exact Abides.err _
  | fine =>
    refine Vow.bind (getAccountInfo_vow md dbtype i user addr) (fun r => ?_)
    cases r with
    | none => exact Vow.err (fun _ h => h.1)
    | some info =>
      refine Vow.modify (fun s h => ⟨fun _ hr => hr, h.1.1, fun a ha => ?_⟩)
      rcases List.mem_append.1 ha with ha | ha
      · exact h.1.2 a ha
      · rw [List.mem_singleton.1 ha]
        exact h.2 info rfl

def system (md : Digest) (dbtype : DbType) : Co.Sys Site Empty Ask Fate (Nat × String × List Char) Change where
  prog o := auth md dbtype o.1 o.2.1 o.2.2
  may _ _ := true
  env := Change.apply md

theorem keeping (md : Digest) (dbtype : DbType) : Co.Keeping pact (system md dbtype) where
  prog o _ hs := (auth_abides md dbtype o.1 o.2.1 o.2.2).final hs
  env c s hs := by
    cases c with
    | reload conf => exact ⟨hs, fun _ h => h⟩
    | updateNewUserKid i => exact setHelper_keeps i _ hs
    | registerGate i nodeid => exact setHelper_keeps i _ hs
    | unregisterGate i nodeid => exact setHelper_keeps i _ hs
    | setImportStyle i mStyle => exact setHelper_keeps i _ hs

/-- **In every order of the logins' commands a user has one account, and is given its uid.** -/
theorem one_account_of_run (md : Digest) (dbtype : DbType) {s : Site} (hone : (s.db.account.map Row.user).Nodup)
    (hgiven : s.given = []) {es : List (Co.Event (Nat × String × List Char) Fate Change)} {w : Co.World Site Empty Ask Fate}
    (hrun : (system md dbtype).run (.init s) es = some w) :
    (w.st.db.account.map Row.user).Nodup ∧
      ∀ user uid uid', (user, uid) ∈ w.st.given → (user, uid') ∈ w.st.given → uid = uid' := by
  have hinv : pact.inv s := ⟨hone, fun a ha => by simp [hgiven] at ha⟩
  have hs := (Co.sound_of_run (keeping md dbtype) es _ w ⟨hinv, fun _ _ h => by cases h⟩ hrun (.inl trivial)).inv
  exact ⟨hs.1, fun user uid uid' h h' => (hs.2 _ h).unique hs (hs.2 _ h')⟩

def site : Site :=
  { helper := fun _ => ⟨.balance, [(7, [7])], [7], some 7, none, ⟨[(7, 1)], [(0, 7)]⟩⟩
    conf := ⟨[⟨7, 7, true⟩], [⟨7, "localhost", "10.0.0.7", 6500⟩], none⟩
    db := ⟨[], 1000, none⟩
    given := [] }

def race : List (Co.Event (Nat × String × List Char) Fate Change) :=
  [.start (0, "a", []), .start (1, "a", [])] ++ [0, 1, 0, 1, 0, 1, 0, 0, 0, 0, 1, 1, 1, 1].map (fun c => .reply c .fine)

def raced : Co.World Site Empty Ask Fate := ((system flat .mongodb).run (.init site) race).getD (.init site)

theorem one_account_of_race : raced.st.given = [("a", 1001)] ∧ (raced.st.db.account.map Row.user).Nodup ∧
    ∀ user uid uid', (user, uid) ∈ raced.st.given → (user, uid') ∈ raced.st.given → uid = uid' := by
  have hrun : (system flat .mongodb).run (.init site) race = some raced := rfl
  exact ⟨by decide +kernel, one_account_of_run flat .mongodb (s := site) List.nodup_nil rfl hrun⟩

end Account
end Sncpp
