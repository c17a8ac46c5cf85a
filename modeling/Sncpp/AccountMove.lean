import Sncpp.AccountKid
/-!
# AccountMove — a user whose kingdom changes

A login compares the kingdom that the hash has for the user with that of the account's row, and asks both to move the
player's data if they differ.  The row keeps the kingdom the account was made in: `setKidOfUid` writes the other
store.
-/
namespace Sncpp
namespace Account

open Co (Prog asks)

variable {α β : Type}

def Ask.moves : Ask → Bool
  | .migrateIn _ _ => true
  | .migrateOut _ _ _ => true
  | _ => false

def Rests (p : Run α) : Prop := ∀ ans s, (asks ans p s).filter Ask.moves = []

theorem Rests.pure (a : α) : Rests (Pure.pure a : Run α) := fun _ _ => rfl

theorem Rests.err (m : String) : Rests (.err m : Run α) := fun _ _ => rfl

theorem Rests.get {g : Site → Run α} (hg : ∀ s, Rests (g s)) : Rests (Prog.get >>= g) := fun ans s => hg s ans s

theorem Rests.ask {q : Ask} (hq : q.moves = false) {g : Fate → Run α} (hg : ∀ r, Rests (g r)) :
    Rests (Prog.ask q >>= g) := by
  intro ans s
  have hcons : asks ans (Prog.ask q >>= g) s = q :: asks ans (g (ans q)) s := rfl
  rw [hcons, List.filter_cons_of_neg (by rw [hq]; exact Bool.false_ne_true)]
  exact hg (ans q) ans s

theorem Rests.modify (f : Site → Site) : Rests (Prog.modify f : Run Unit) := fun _ _ => rfl

theorem Rests.filter_bind {p : Run α} (hp : Rests p) (g : α → Run β) (ans : Ask → Fate) (s : Site) :
    (asks ans (p >>= g) s).filter Ask.moves = (Co.nextAsks ans g (p.solo ans s)).filter Ask.moves := by
  rw [Co.asks_bind, List.filter_append, hp ans s, List.nil_append]

theorem Rests.filter_next {g : α → Run β} (hg : ∀ a, Rests (g a)) (ans : Ask → Fate) (r : Except String α × Site) :
    (Co.nextAsks ans g r).filter Ask.moves = [] := by
  cases r with
  | mk r s =>
    cases r with
    | error m => rfl
    | ok a => exact hg a ans s

theorem Rests.bind {p : Run α} {g : α → Run β} (hp : Rests p) (hg : ∀ a, Rests (g a)) : Rests (p >>= g) := by
  intro ans s
  rw [hp.filter_bind]
  exact Rests.filter_next hg ans _

theorem callDbSvr_rests {q : Ask} (hq : q.moves = false) (command : Db → Db × α) : Rests (callDbSvr q command) := by
  unfold callDbSvr
  refine Rests.ask hq (fun fate => ?_)
  cases fate with
  | fine => exact Rests.bind (fun _ _ => rfl) (fun _ => Rests.ask rfl (fun _ => Rests.pure _))
  | fails done raised =>
    refine Rests.bind ?_ (fun _ => Rests.ask rfl (fun _ => ?_))
    · unfold Prog.when
      split
      · exact Rests.modify _
      · exact Rests.pure ()
    · split
      · exact Rests.err _
      · exact Rests.pure _

theorem queryAccountByUser_rests (dbtype : DbType) (user : String) : Rests (queryAccountByUser dbtype user) := by
  unfold queryAccountByUser
  split
  · refine Rests.bind (callDbSvr_rests rfl _) (fun r => ?_)
    split <;> exact Rests.pure _
  · refine Rests.bind (callDbSvr_rests rfl _) (fun r => ?_)
    split <;> exact Rests.pure _

theorem gateOf_rests (uid kid : Nat) (status : Option Nat) (isNewUser : Bool) :
    Rests (gateOf uid kid status isNewUser) := by
  unfold gateOf
  refine Rests.get (fun s => ?_)
  split
  · exact Rests.pure _
  split <;> exact Rests.pure _

theorem assignKid_rests (md : Digest) (i : Nat) (user : String) (addr : List Char) (kid : Option Nat) :
    Rests (assignKid md i user addr kid) := by
  unfold assignKid importKid lookup generateKid
  refine Rests.get (fun s => ?_)
  split
  · exact Rests.pure _
  · refine Rests.get (fun s => ?_)
    split
    · refine Rests.bind (Rests.get (fun s => ?_)) (fun kid => ?_)
      · split
        · exact Rests.pure _
        · exact Rests.bind (callDbSvr_rests rfl _) (fun _ => Rests.bind (Rests.modify _) (fun _ => Rests.pure _))
      · split
        · exact Rests.pure _
        · exact Rests.get (fun _ => Rests.pure _)
    · exact Rests.get (fun _ => Rests.pure _)

theorem newAccount_rests (md : Digest) (dbtype : DbType) (i : Nat) (user : String) (addr : List Char) (kid : Option Nat) :
    Rests (newAccount md dbtype i user addr kid) := by
  unfold newAccount createAccount
  refine Rests.get (fun s => ?_)
  split
  · exact Rests.pure _
  · refine Rests.bind (assignKid_rests _ _ _ _ _) (fun kid => Rests.get (fun s => ?_))
    split
    · exact Rests.pure _
    split
    · refine Rests.bind ?_ (fun uid => ?_)
      · split
        · refine Rests.bind (callDbSvr_rests rfl _) (fun uid => ?_)
          split
          · exact Rests.err _
          · refine Rests.bind (callDbSvr_rests rfl _) (fun r => ?_)
            split
            · exact Rests.pure _
            · exact Rests.err _
        · exact callDbSvr_rests rfl _
      · split
        · exact Rests.pure _
        · exact gateOf_rests _ _ _ _
    · exact Rests.pure _

def fine : Ask → Fate := fun _ => .fine

def moves (md : Digest) (dbtype : DbType) (i : Nat) (user : String) (addr : List Char) (s : Site) : List Ask :=
  (asks fine (getAccountInfo md dbtype i user addr) s).filter Ask.moves

/-- The moves of the data of `uid` from one kingdom to another. -/
def moved (uid kid newkid : Nat) : List Ask := if newkid = kid then [] else
    [.migrateIn newkid uid, .migrateOut kid uid newkid]

theorem migrate_moves (uid kid : Nat) (newkid : Option Nat) (s : Site) :
    (asks fine (migrate uid (some kid) newkid) s).filter Ask.moves = moved uid kid (newkid.getD kid) := by
  unfold migrate moved
  cases newkid with
  | none => simp [asks, Pure.pure]
  | some newkid =>
    by_cases h : newkid = kid
    · simp [h, asks, Pure.pure]
    · simp only [Option.some.injEq, h, if_false, Option.getD_some]
      rfl

theorem moved_inj {uid kid kid' newkid : Nat} (h : moved uid kid newkid = moved uid kid' newkid) : kid = kid' := by
  unfold moved at h
  split at h
  · next hk =>
    split at h
    · next hk' => exact hk.symm.trans hk'
    · cases h
  · split at h
    · cases h
    · injection h with _ h
      injection h with h _
      injection h

section Login

variable {md : Digest} {i : Nat} {user : String} {addr : List Char} {s : Site}

/-- **The moves of a login with an account**: from the kingdom of its row to the one that is assigned. -/
theorem moves_account (md : Digest) (i : Nat) (addr : List Char) {r : Row}
    (hfind : s.db.find user = some ⟨r.id, r.kid, r.status⟩) : ∃ newkid,
    assigned md .mongodb i user addr fine s = some newkid ∧ moves md .mongodb i user addr s = moved r.id r.kid newkid := by
  have hfine : ∀ q, fine q = .fine := fun _ => rfl
  refine ⟨((s.helper i).hash.lookup md user).getD r.kid, ?_, ?_⟩
  · unfold assigned
    rw [query_mongodb hfine, hfind]
    show ((s.helper i).hash.lookup md user).or (some r.kid) = _
    rw [Option.or_some]
  · unfold moves getAccountInfo
    rw [(queryAccountByUser_rests _ _).filter_bind, query_mongodb hfine, hfind]
    show (asks fine (oldAccount md i user r.id (some r.kid) (some r.status)) s).filter Ask.moves = _
    unfold oldAccount
    have hlookup : Rests (lookup md i user) := Rests.get (fun _ => Rests.pure _)
    rw [hlookup.filter_bind]
    show (asks fine (migrate r.id (some r.kid) ((s.helper i).hash.lookup md user) >>= _) s).filter Ask.moves = _
    rw [Co.asks_bind, List.filter_append, migrate_moves]
    refine (congrArg _ (Rests.filter_next (fun _ => Rests.get (fun s' => ?_)) fine _)).trans (List.append_nil _)
    split
    · exact Rests.pure _
    split
    · exact gateOf_rests _ _ _ _
    · exact Rests.pure _

theorem moves_mysql : assigned md .mysql i user addr fine s = none ∧ moves md .mysql i user addr s = [] := by
  have hfine : ∀ q, fine q = .fine := fun _ => rfl
  constructor
  · unfold assigned
    rw [query_mysql hfine]
  · unfold moves getAccountInfo
    rw [(queryAccountByUser_rests _ _).filter_bind, query_mysql hfine]
    rfl

theorem moves_new (hfind : s.db.find user = none) : moves md .mongodb i user addr s = [] := by
  have hfine : ∀ q, fine q = .fine := fun _ => rfl
  unfold moves getAccountInfo
  rw [(queryAccountByUser_rests _ _).filter_bind, query_mongodb hfine, hfind]
  exact newAccount_rests md .mongodb i user addr none fine s

end Login

structure Story where
  site : Site
  place : String → Option Nat

inductive Turn where
  | change (c : Change)
  | login (i : Nat) (user : String) (addr : List Char)

def Story.turn (md : Digest) (dbtype : DbType) (t : Story) : Turn → Story
  | .change c => { t with site := c.apply md t.site }
  | .login i user addr =>
    let site := ((getAccountInfo md dbtype i user addr).solo fine t.site).2
    if (site.db.find user).isSome then
      ⟨site, Function.update t.place user ((assigned md dbtype i user addr fine t.site).or (t.place user))⟩
    else { t with site := site }

/-- **A login moves the player from where it is**, and one that does not change the kingdom moves nobody. -/
def Moves (md : Digest) (dbtype : DbType) (t : Story) : Turn → Prop
  | .change _ => True
  | .login i user addr => (t.site.db.find user = none → moves md dbtype i user addr t.site = []) ∧
      ∀ found kid, t.site.db.find user = some found → t.place user = some kid → moves md dbtype i user addr t.site =
        moved (found.uid.getD 0) kid ((assigned md dbtype i user addr fine t.site).getD kid)

/-- The player is where the account was made, or no account is found anyway. -/
def AtHome (dbtype : DbType) (t : Story) : Turn → Prop
  | .change _ => True
  | .login _ user _ => dbtype = .mongodb →
      ∀ found kid, t.site.db.find user = some found → t.place user = some kid → found.kid = some kid

theorem moves_iff (md : Digest) (dbtype : DbType) (t : Story) : ∀ e : Turn, Moves md dbtype t e ↔ AtHome dbtype t e
  | .change _ => Iff.rfl
  | .login i user addr => by
    unfold Moves AtHome
    cases dbtype with
    | mysql =>
      refine iff_of_true ⟨fun _ => moves_mysql.2, fun found kid _ _ => ?_⟩ (fun h => by cases h)
      rw [moves_mysql.1, moves_mysql.2]
      exact (if_pos rfl).symm
    | mongodb =>
      constructor
      · rintro ⟨-, h⟩ - found kid hfound hplace
        obtain ⟨r, -, rfl⟩ := Option.map_eq_some_iff.1 hfound
        obtain ⟨newkid, hassigned, hmoves⟩ := moves_account md i addr hfound
        have hmoved := h _ kid hfound hplace
        rw [hassigned, hmoves] at hmoved
        exact congrArg some (moved_inj hmoved)
      · intro h
        refine ⟨moves_new, fun found kid hfound hplace => ?_⟩
        have hkid := h rfl found kid hfound hplace
        obtain ⟨r, -, rfl⟩ := Option.map_eq_some_iff.1 hfound
        obtain ⟨newkid, hassigned, hmoves⟩ := moves_account md i addr hfound
        rw [hassigned, hmoves, Option.some.inj hkid]
        rfl

/-- **The logins of a run move the players from where they are if and only if every login finds the player where the
account was made.** -/
theorem moves_of_run (md : Digest) (dbtype : DbType) (t : Story) (es : List Turn) :
    Steps.Along (Story.turn md dbtype) (Moves md dbtype) t es ↔ Steps.Along (Story.turn md dbtype) (AtHome dbtype) t es :=
  ⟨Steps.Along.mono (fun t e h => (moves_iff md dbtype t e).1 h) es t,
    Steps.Along.mono (fun t e h => (moves_iff md dbtype t e).2 h) es t⟩

def wander : Story :=
  ⟨{ helper := fun _ => { Helper.ctor with svrList := [2], aliveList := [(2, [2])], hash := ⟨[(2, 1024)], [(0, 2)]⟩ }
     conf := ⟨[⟨2, 2, true⟩], [⟨2, "localhost", "10.0.0.2", 6500⟩], none⟩
     db := ⟨[⟨1001, "a", 1, 0⟩], 1001, none⟩
     given := [] }, fun _ => some 1⟩

/-- The first login moves the player to kingdom 2, and the next one moves it there from kingdom 1 again. -/
theorem moved_twice : ¬ Steps.Along (Story.turn flat .mongodb) (Moves flat .mongodb) wander [.login 0 "a" [],
    .login 0 "a" []] := by
  rintro ⟨-, ⟨-, hlast⟩, -⟩
  have hmoves := hlast ⟨some 1001, some 1, some 0⟩ 2 (by decide +kernel) (by decide +kernel)
  have hagain : moves flat .mongodb 0 "a" [] (wander.turn flat .mongodb (.login 0 "a" [])).site =
      [.migrateIn 2 1001, .migrateOut 1 1001 2] := by decide +kernel
  rw [hagain] at hmoves
  exact absurd hmoves (by decide +kernel)

end Account
end Sncpp
