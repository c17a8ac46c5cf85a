import Mathlib.Data.List.Nodup
import Sncpp.Account
import Sncpp.CoSolo
/-!
# AccountKid — the kingdoms that users are sent to

The helper of a slave knows the registered nodes with their kingdoms, and the hash has those kingdoms as its nodes.
The two agree as long as a node that goes shares no kingdom with one that stays (`Parts`).
-/
namespace Sncpp
namespace Account

open Co (Prog)

/-- **The nodes of the hash are the kingdoms of the list.** -/
def Helper.Exact (h : Helper) : Prop := ∀ kid, kid ∈ h.hash.nodes ↔ ∃ e ∈ h.aliveList, kid ∈ e.2

def Helper.Parts (h : Helper) (goes : Nat → Bool) : Prop :=
  ∀ e ∈ h.aliveList, goes e.1 = true → ∀ e' ∈ h.aliveList, goes e'.1 = false → ∀ kid ∈ e.2, kid ∉ e'.2

namespace Helper

variable {md : Digest} {h : Helper}

structure Good (h : Helper) : Prop where
  exact : h.Exact
  keys : (h.aliveList.map Prod.fst).Nodup

theorem nodes_deleted (md : Digest) (es : List (Nat × List Nat)) (hash : Conhash) (k : Nat) :
    k ∈ (es.foldl (fun hash e => e.2.foldl (Conhash.deletenode md) hash) hash).nodes ↔
      k ∈ hash.nodes ∧ ∀ e ∈ es, k ∉ e.2 := by
  induction es generalizing hash with
  | nil => simp
  | cons e es ih => rw [List.foldl_cons, ih, Conhash.nodes_deletenodes, List.forall_mem_cons, and_assoc]

theorem exact_of_parts (md : Digest) (h : Helper) (hg : h.Exact) (goes : Nat → Bool) (hparts : h.Parts goes) (k : Nat) :
    k ∈ ((h.aliveList.filter (fun e => goes e.1)).foldl (fun hash e =>
      e.2.foldl (Conhash.deletenode md) hash) h.hash).nodes ↔
      ∃ e ∈ h.aliveList.filter (fun e => !goes e.1), k ∈ e.2 := by
  rw [nodes_deleted, hg k]
  simp only [List.mem_filter, Bool.not_eq_true']
  constructor
  · rintro ⟨⟨e, he, hk⟩, hnone⟩
    refine ⟨e, ⟨he, ?_⟩, hk⟩
    cases hgo : goes e.1 with
    | false => rfl
    | true => exact absurd hk (hnone e ⟨he, hgo⟩)
  · rintro ⟨e, ⟨he, hstay⟩, hk⟩
    exact ⟨⟨e, he, hk⟩, fun e' he' hk' => hparts e' he'.1 he'.2 e he hstay k hk' hk⟩

theorem Good.updateNewUserKid (hg : h.Good) {conf : Conf}
    (hparts : h.Parts (fun nodeid => !((conf.kingdoms.filter Kingdom.isNew).map Kingdom.nodeid).contains nodeid)) :
    (h.updateNewUserKid md conf).Good := by
  refine ⟨fun k => ?_, ?_⟩
  · have hk := exact_of_parts md h hg.exact _ hparts k
    simp only [Bool.not_not] at hk
    exact hk
  · exact (List.filter_sublist.map _).nodup hg.keys

theorem Good.unregisterGate (hg : h.Good) {nodeid : Nat} (hparts : h.Parts (fun id => id == nodeid)) :
    (h.unregisterGate md nodeid).Good := by
  unfold Helper.unregisterGate
  cases hl : h.aliveList.lookup nodeid with
  | none => exact hg
  | some kidList =>
    -- the node has one entry
    have hone : ∀ k, (∃ e ∈ h.aliveList.filter (fun e => e.1 == nodeid), k ∈ e.2) ↔ k ∈ kidList := by
      obtain ⟨l₁, l₂, heq, hno⟩ := List.lookup_eq_some_iff.1 hl
      intro k
      simp only [List.mem_filter, beq_iff_eq]
      have hmem : (nodeid, kidList) ∈ h.aliveList := heq ▸ List.mem_append_right _ List.mem_cons_self
      constructor
      · rintro ⟨e, ⟨he, hid⟩, hk⟩
        have hsame := List.inj_on_of_nodup_map hg.keys he hmem hid
        rw [hsame] at hk
        exact hk
      · exact fun hk => ⟨_, ⟨hmem, rfl⟩, hk⟩
    refine ⟨fun k => ?_, (List.filter_sublist.map _).nodup hg.keys⟩
    have hk := exact_of_parts md h hg.exact _ hparts k
    rw [nodes_deleted] at hk
    show k ∈ (kidList.foldl (Conhash.deletenode md) h.hash).nodes ↔ _
    rw [Conhash.nodes_deletenodes, ← hone k]
    simp only [not_exists, not_and]
    exact hk

theorem Good.registerGate (hg : h.Good) (conf : Conf) (nodeid : Nat) : (h.registerGate md conf nodeid).Good := by
  unfold Helper.registerGate
  split
  · next hnew =>
    simp only
    split
    · exact hg
    · refine ⟨fun k => ?_, ?_⟩
      · show k ∈ ((conf.getKingdomIDListByNodeID nodeid).foldl (fun hash kid => hash.addnode md kid 1024) h.hash).nodes ↔ _
        rw [Conhash.nodes_addnodes, hg.exact k]
        simp only [List.mem_append, List.mem_singleton]
        constructor
        · rintro (⟨e, he, hk⟩ | hk)
          · exact ⟨e, Or.inl he, hk⟩
          · exact ⟨_, Or.inr rfl, hk⟩
        · rintro ⟨e, he | rfl, hk⟩
          · exact Or.inl ⟨e, he, hk⟩
          · exact Or.inr hk
      · rw [Bool.and_eq_true, Bool.not_eq_true'] at hnew
        rw [List.map_append, List.nodup_append]
        refine ⟨hg.keys, List.nodup_singleton _, fun id hid id' hid' heq => ?_⟩
        obtain rfl : id' = nodeid := List.mem_singleton.1 hid'
        obtain ⟨e, he, rfl⟩ := List.mem_map.1 hid
        have hnone := hnew.1
        unfold alive at hnone
        rw [Option.isSome_eq_false_iff, Option.isNone_iff_eq_none, List.lookup_eq_none_iff] at hnone
        have hno := hnone e he
        rw [heq] at hno
        simp at hno
  · exact hg

end Helper

/-! ## What a look at an account leaves alone -/

variable {α β : Type}

structure Still (s s' : Site) : Prop where
  conf : s'.conf = s.conf
  aliveList : ∀ i, (s'.helper i).aliveList = (s.helper i).aliveList
  hash : ∀ i, (s'.helper i).hash = (s.helper i).hash

theorem Still.refl (s : Site) : Still s s := ⟨rfl, fun _ => rfl, fun _ => rfl⟩

theorem Still.trans {s s' s'' : Site} (h : Still s s') (h' : Still s' s'') : Still s s'' :=
  ⟨h'.conf.trans h.conf, fun i => (h'.aliveList i).trans (h.aliveList i), fun i => (h'.hash i).trans (h.hash i)⟩

theorem Still.alive {s s' : Site} (h : Still s s') (i id : Nat) : (s'.helper i).alive id = (s.helper i).alive id := by
  unfold Helper.alive
  rw [h.aliveList]

theorem Still.good {s s' : Site} (h : Still s s') {i : Nat} (hg : (s.helper i).Good) : (s'.helper i).Good := by
  obtain ⟨hexact, hkeys⟩ := hg
  refine ⟨fun kid => ?_, ?_⟩
  · rw [h.hash, h.aliveList]
    exact hexact kid
  · rw [h.aliveList]
    exact hkeys

theorem still_db (s : Site) (db : Db) : Still s { s with db := db } := ⟨rfl, fun _ => rfl, fun _ => rfl⟩

def Leaves (p : Run α) : Prop := ∀ ans s, Still s (p.solo ans s).2

theorem Leaves.pure (a : α) : Leaves (Pure.pure a : Run α) := fun _ s => Still.refl s

theorem Leaves.err (m : String) : Leaves (.err m : Run α) := fun _ s => Still.refl s

theorem Leaves.get {g : Site → Run α} (hg : ∀ s, Leaves (g s)) : Leaves (Prog.get >>= g) := fun ans s => hg s ans s

theorem Leaves.ask (q : Ask) {g : Fate → Run α} (hg : ∀ r, Leaves (g r)) : Leaves (Prog.ask q >>= g) :=
  fun ans s => hg (ans q) ans s

theorem Leaves.modify {f : Site → Site} (hf : ∀ s, Still s (f s)) : Leaves (Prog.modify f : Run Unit) := fun _ s => hf s

theorem Leaves.bind {p : Run α} {g : α → Run β} (hp : Leaves p) (hg : ∀ a, Leaves (g a)) : Leaves (p >>= g) := by
  intro ans s
  rw [Co.solo_bind]
  have hs := hp ans s
  cases hr : p.solo ans s with
  | mk r s' =>
    rw [hr] at hs
    cases r with
    | error m => exact hs
    | ok a => exact hs.trans (hg a ans s')

theorem callDbSvr_leaves (q : Ask) (command : Db → Db × α) : Leaves (callDbSvr q command) := by
  unfold callDbSvr
  refine Leaves.ask q (fun fate => ?_)
  cases fate with
  | fine => exact Leaves.bind (fun _ s => still_db s _) (fun _ => Leaves.ask _ (fun _ => Leaves.pure _))
  | fails done raised =>
    refine Leaves.bind ?_ (fun _ => Leaves.ask _ (fun _ => ?_))
    · unfold Prog.when
      split
      · exact Leaves.modify (fun s => still_db s _)
      · exact Leaves.pure ()
    · split
      · exact Leaves.err _
      · exact Leaves.pure _

theorem queryAccountByUser_leaves (dbtype : DbType) (user : String) : Leaves (queryAccountByUser dbtype user) := by
  unfold queryAccountByUser
  split
  · refine Leaves.bind (callDbSvr_leaves _ _) (fun r => ?_)
    split <;> exact Leaves.pure _
  · refine Leaves.bind (callDbSvr_leaves _ _) (fun r => ?_)
    split <;> exact Leaves.pure _

theorem setHelper_still (i : Nat) {f : Helper → Helper} (hf : ∀ h, (f h).aliveList = h.aliveList ∧ (f h).hash = h.hash)
    (s : Site) :
    Still s (setHelper i f s) := by
  have hat : ∀ j, ((setHelper i f s).helper j).aliveList = (s.helper j).aliveList ∧
      ((setHelper i f s).helper j).hash = (s.helper j).hash := by
    intro j
    show (Function.update s.helper i (f (s.helper i)) j).aliveList = _ ∧
      (Function.update s.helper i (f (s.helper i)) j).hash = _
    by_cases hj : j = i
    · subst hj
      rw [Function.update_self]
      exact hf _
    · rw [Function.update_of_ne hj]
      exact ⟨rfl, rfl⟩
  exact ⟨rfl, fun j => (hat j).1, fun j => (hat j).2⟩

theorem generateKid_leaves (i : Nat) : Leaves (generateKid i) := by
  unfold generateKid
  refine Leaves.get (fun s => ?_)
  split
  · exact Leaves.pure _
  · exact Leaves.bind (callDbSvr_leaves _ _) (fun ret =>
      Leaves.bind (Leaves.modify (setHelper_still i (fun h => ⟨rfl, rfl⟩))) (fun _ => Leaves.pure _))

theorem lookup_leaves (md : Digest) (i : Nat) (user : String) :
    Leaves (lookup md i user) := Leaves.get (fun _ => Leaves.pure _)

theorem assignKid_leaves (md : Digest) (i : Nat) (user : String) (addr : List Char) (kid : Option Nat) :
    Leaves (assignKid md i user addr kid) := by
  unfold assignKid importKid
  refine Leaves.get (fun s => ?_)
  split
  · exact Leaves.pure _
  · refine Leaves.get (fun s => ?_)
    split
    · refine Leaves.bind (generateKid_leaves i) (fun kid => ?_)
      split
      · exact Leaves.pure _
      · exact lookup_leaves md i user
    · exact lookup_leaves md i user

theorem createAccount_leaves (dbtype : DbType) (user : String) (kid status : Nat) :
    Leaves (createAccount dbtype user kid status) := by
  unfold createAccount
  split
  · refine Leaves.bind (callDbSvr_leaves _ _) (fun uid => ?_)
    split
    · exact Leaves.err _
    · refine Leaves.bind (callDbSvr_leaves _ _) (fun r => ?_)
      split
      · exact Leaves.pure _
      · exact Leaves.err _
  · exact callDbSvr_leaves _ _

theorem migrate_leaves (uid : Nat) (kid newkid : Option Nat) : Leaves (migrate uid kid newkid) := by
  unfold migrate
  split
  · exact Leaves.pure _
  split
  · exact Leaves.pure _
  · refine Leaves.ask _ (fun _ => Leaves.ask _ (fun _ => Leaves.ask _ (fun fate => ?_)))
    split
    · exact Leaves.err _
    · exact Leaves.pure _

theorem gateOf_leaves (uid kid : Nat) (status : Option Nat) (isNewUser : Bool) :
    Leaves (gateOf uid kid status isNewUser) := by
  unfold gateOf
  refine Leaves.get (fun s => ?_)
  split
  · exact Leaves.pure _
  split <;> exact Leaves.pure _

theorem getAccountInfo_leaves (md : Digest) (dbtype : DbType) (i : Nat) (user : String) (addr : List Char) :
    Leaves (getAccountInfo md dbtype i user addr) := by
  unfold getAccountInfo newAccount oldAccount
  refine Leaves.bind (queryAccountByUser_leaves dbtype user) (fun r => ?_)
  split
  · exact Leaves.pure _
  split
  · refine Leaves.get (fun s => ?_)
    split
    · exact Leaves.pure _
    · refine Leaves.bind (assignKid_leaves _ _ _ _ _) (fun kid => Leaves.get (fun s => ?_))
      split
      · exact Leaves.pure _
      split
      · refine Leaves.bind (createAccount_leaves _ _ _ _) (fun uid => ?_)
        split
        · exact Leaves.pure _
        · exact gateOf_leaves _ _ _ _
      · exact Leaves.pure _
  · refine Leaves.bind (lookup_leaves _ _ _) (fun newkid =>
      Leaves.bind (migrate_leaves _ _ _) (fun _ => Leaves.get (fun s => ?_)))
    split
    · exact Leaves.pure _
    split
    · exact gateOf_leaves _ _ _ _
    · exact Leaves.pure _

/-! ## The kingdom that is assigned -/

def Serves (s : Site) (i kid : Nat) : Prop :=
  ∃ kingdomConf, s.conf.getKingdomConfByKid kid = some kingdomConf ∧ (s.helper i).alive kingdomConf.nodeid = true

/-- The slave names a gate for the kingdom: it has a registered node's id, and the configuration has a gate of its node. -/
def Opens (s : Site) (i kid : Nat) : Prop :=
  (s.helper i).alive kid = true ∧ ∃ kingdomConf gateConf, s.conf.getKingdomConfByKid kid = some kingdomConf ∧
    s.conf.gateConfGame kingdomConf.nodeid = some gateConf

/-- The kingdom that is assigned to the user: that of the hash or of the account, or of the rules for a user without one. -/
def assigned (md : Digest) (dbtype : DbType) (i : Nat) (user : String) (addr : List Char) (ans : Ask → Fate) (s : Site) :
    Option Nat :=
  match (queryAccountByUser dbtype user).solo ans s with
  | (.ok (some found), s) =>
    match found.uid with
    | none =>
      if (s.helper i).aliveList.isEmpty then none
      else
        match (assignKid md i user addr found.kid).solo ans s with
        | (.ok kid, _) => kid
        | _ => none
    | some _ => ((s.helper i).hash.lookup md user).or found.kid
  | _ => none

def Succeeds (ans : Ask → Fate) (s : Site) : Prop := (∀ q, ans q = .fine) ∧ ∀ r ∈ s.db.account, r.id ≤ s.db.seq

structure Answered (md : Digest) (dbtype : DbType) (i : Nat) (user : String) (addr : List Char)
    (ans : Ask → Fate) (s : Site) :
    Prop where
  only : ∀ info, ((getAccountInfo md dbtype i user addr).solo ans s).1 = .ok (some info) → Serves s i info.kid
  does : Succeeds ans s → ∀ kid, assigned md dbtype i user addr ans s = some kid → Serves s i kid →
    ∃ info, ((getAccountInfo md dbtype i user addr).solo ans s).1 = .ok (some info) ∧ info.kid = kid

section Solo

variable {md : Digest} {dbtype : DbType} {i : Nat} {user : String} {addr : List Char} {ans : Ask → Fate} {s : Site}

theorem gateOf_some {uid kid : Nat} {status : Option Nat} {isNewUser : Bool} {info : Info}
    (h : ((gateOf uid kid status isNewUser).solo ans s).1 = .ok (some info)) : info.kid = kid ∧
      ∃ kingdomConf gateConf, s.conf.getKingdomConfByKid kid = some kingdomConf ∧
        s.conf.gateConfGame kingdomConf.nodeid = some gateConf := by
  unfold gateOf at h
  rw [Co.solo_get_bind] at h
  split at h
  · cases h
  · next kingdomConf hk =>
    split at h
    · cases h
    · next gateConf hg =>
      cases h
      exact ⟨rfl, kingdomConf, gateConf, hk, hg⟩

theorem gateOf_opens {kid : Nat} (h : ∃ kingdomConf gateConf, s.conf.getKingdomConfByKid kid = some kingdomConf ∧
      s.conf.gateConfGame kingdomConf.nodeid = some gateConf) (uid : Nat) (status : Option Nat) (isNewUser : Bool) :
    ∃ info, ((gateOf uid kid status isNewUser).solo ans s).1 = .ok (some info) ∧ info.kid = kid := by
  obtain ⟨kingdomConf, gateConf, hk, hg⟩ := h
  unfold gateOf
  rw [Co.solo_get_bind, hk]
  simp only
  rw [hg]
  exact ⟨_, rfl, rfl⟩

theorem opens_of_info {info : Info} (h : ((getAccountInfo md dbtype i user addr).solo ans s).1 = .ok (some info)) :
    assigned md dbtype i user addr ans s = some info.kid ∧ Opens s i info.kid := by
  unfold getAccountInfo at h
  obtain ⟨r, s₁, hquery, h⟩ := Co.ok_of_solo_bind h
  have hs₁ : Still s s₁ := by
    have hleaves := queryAccountByUser_leaves dbtype user ans s
    rw [hquery] at hleaves
    exact hleaves
  unfold assigned
  rw [hquery]
  cases r with
  | none => cases h
  | some found =>
    simp only at h ⊢
    cases huid : found.uid with
    | none =>
      rw [huid] at h
      simp only [newAccount] at h ⊢
      rw [Co.solo_get_bind] at h
      split at h
      · cases h
      · next hempty =>
        rw [if_neg hempty]
        obtain ⟨kid, s₂, hassign, h⟩ := Co.ok_of_solo_bind h
        have hs₂ : Still s s₂ := by
          have hleaves := assignKid_leaves md i user addr found.kid ans s₁
          rw [hassign] at hleaves
          exact hs₁.trans hleaves
        rw [hassign]
        rw [Co.solo_get_bind] at h
        cases kid with
        | none => cases h
        | some kid =>
          simp only at h ⊢
          split at h
          · next halive =>
            obtain ⟨uid, s₃, hcreate, h⟩ := Co.ok_of_solo_bind h
            have hs₃ : Still s s₃ := by
              have hleaves := createAccount_leaves dbtype user kid NORMAL ans s₂
              rw [hcreate] at hleaves
              exact hs₂.trans hleaves
            cases uid with
            | none => cases h
            | some uid =>
              obtain ⟨rfl, hconf⟩ := gateOf_some h
              rw [hs₃.conf] at hconf
              exact ⟨rfl, (hs₂.alive i _).symm.trans halive, hconf⟩
          · cases h
    | some uid =>
      rw [huid] at h
      simp only [oldAccount, lookup] at h ⊢
      obtain ⟨newkid, s₂, hlookup, h⟩ := Co.ok_of_solo_bind h
      rw [Co.solo_get_bind] at hlookup
      cases hlookup
      obtain ⟨_, s₃, hmigrate, h⟩ := Co.ok_of_solo_bind h
      have hs₃ : Still s s₃ := by
        have hleaves := migrate_leaves uid found.kid ((s₁.helper i).hash.lookup md user) ans s₁
        rw [hmigrate] at hleaves
        exact hs₁.trans hleaves
      rw [Co.solo_get_bind] at h
      split at h
      · cases h
      · next kid hkid =>
        split at h
        · next halive =>
          obtain ⟨rfl, hconf⟩ := gateOf_some h
          rw [hs₃.conf] at hconf
          exact ⟨hkid, (hs₃.alive i _).symm.trans halive, hconf⟩
        · cases h

theorem callDbSvr_fine (hfine : ∀ q, ans q = .fine) (q : Ask) (command : Db → Db × α) :
    (callDbSvr q command).solo ans s = (.ok (some (command s.db).2), { s with db := (command s.db).1 }) := by
  unfold callDbSvr
  rw [Co.solo_ask_bind, hfine]
  rfl

theorem assignKid_db (md : Digest) (i : Nat) (user : String) (addr : List Char) (s : Site) (hfine : ∀ q, ans q = .fine)
    (kid : Option Nat) :
    ((assignKid md i user addr kid).solo ans s).2.db = s.db := by
  unfold assignKid importKid
  rw [Co.solo_get_bind]
  split
  · rfl
  · rw [Co.solo_get_bind]
    split
    · unfold generateKid
      rw [Co.solo_bind, Co.solo_get_bind]
      split
      · next kid _ =>
        by_cases hk : kid > 0
        · rw [if_pos hk]
          rfl
        · rw [if_neg hk]
          rfl
      · rw [Co.solo_bind_ok (callDbSvr_fine hfine _ _), Co.solo_modify_bind]
        by_cases hk : ((some s.db.defaultKid).getD none).getD 0 > 0
        · rw [if_pos hk]
          rfl
        · rw [if_neg hk]
          rfl
    · rfl

theorem createAccount_fine (s : Site) (user : String) (hfine : ∀ q, ans q = .fine) (hfind : s.db.find user = none)
    (hseq : ∀ r ∈ s.db.account, r.id ≤ s.db.seq) (kid status : Nat) : ∃ uid s',
      (createAccount .mongodb user kid status).solo ans s = (.ok (some uid), s') := by
  have hinsert : (s.db.nextid.1.safe_insert ⟨s.db.seq + 1, user, kid, status⟩).2 = true := by
    unfold Db.safe_insert
    rw [if_neg]
    rw [List.any_eq_true]
    rintro ⟨r, hr, hsame⟩
    unfold Db.find at hfind
    rw [Option.map_eq_none_iff, List.find?_eq_none] at hfind
    rw [Bool.or_eq_true] at hsame
    rcases hsame with hsame | hsame
    · exact hfind r hr hsame
    · have hid : r.id = s.db.seq + 1 := by simpa using hsame
      have := hseq r hr
      omega
  unfold createAccount
  simp only
  rw [Co.solo_bind_ok (callDbSvr_fine hfine _ _)]
  simp only
  rw [Co.solo_bind_ok (callDbSvr_fine hfine _ _)]
  simp only
  have hsnd : s.db.nextid.2 = s.db.seq + 1 := rfl
  rw [hsnd, hinsert]
  exact ⟨_, _, rfl⟩

theorem migrate_fine (hfine : ∀ q, ans q = .fine) (uid : Nat) (kid newkid : Option Nat) :
    (migrate uid kid newkid).solo ans s = (.ok (), s) := by
  unfold migrate
  split
  · rfl
  split
  · rfl
  · rw [Co.solo_ask_bind, Co.solo_ask_bind, Co.solo_ask_bind, hfine]
    rfl

theorem query_mongodb (hfine : ∀ q, ans q = .fine) : (queryAccountByUser .mongodb user).solo ans s =
    (.ok (some ((s.db.find user).getD ⟨none, none, none⟩)), s) := by
  unfold queryAccountByUser
  simp only
  rw [Co.solo_bind_ok (callDbSvr_fine hfine _ _)]
  cases s.db.find user <;> rfl

theorem query_mysql (hfine : ∀ q, ans q = .fine) : (queryAccountByUser .mysql user).solo ans s = (.ok none, s) := by
  unfold queryAccountByUser
  simp only
  rw [Co.solo_bind_ok (callDbSvr_fine hfine _ _), s.db.select_uid]
  rfl

theorem uid_of_find {found : Found} (h : s.db.find user = some found) : found.uid.isSome = true := by
  obtain ⟨r, -, rfl⟩ := Option.map_eq_some_iff.1 h
  rfl

/-- **If every call is answered, a kingdom that is assigned and whose gate can be named gets its account.** -/
theorem info_of_opens (hok : Succeeds ans s) {kid : Nat} (hassigned : assigned md dbtype i user addr ans s = some kid)
    (hopens : Opens s i kid) : ∃ info, ((getAccountInfo md dbtype i user addr).solo ans s).1 = .ok (some info) ∧
      info.kid = kid := by
  obtain ⟨hfine, hseq⟩ := hok
  obtain ⟨halive, hconf⟩ := hopens
  unfold assigned at hassigned
  unfold getAccountInfo
  cases dbtype with
  | mysql =>
    rw [query_mysql hfine] at hassigned
    cases hassigned
  | mongodb =>
    rw [query_mongodb hfine] at hassigned
    rw [Co.solo_bind_ok (query_mongodb hfine)]
    simp only at hassigned ⊢
    cases hfind : s.db.find user with
    | none =>
      rw [hfind] at hassigned
      simp only [Option.getD_none] at hassigned ⊢
      split at hassigned
      · cases hassigned
      · next hempty =>
        unfold newAccount
        rw [Co.solo_get_bind, if_neg hempty]
        cases hassign : (assignKid md i user addr none).solo ans s with
        | mk r s₁ =>
          rw [hassign] at hassigned
          cases r with
          | error m => cases hassigned
          | ok kid' =>
            obtain rfl : kid' = some kid := hassigned
            have hs₁ := assignKid_leaves md i user addr none ans s
            have hdb := assignKid_db md i user addr s hfine none
            rw [hassign] at hs₁ hdb
            simp only at hs₁ hdb
            rw [Co.solo_bind_ok hassign, Co.solo_get_bind]
            simp only
            rw [hs₁.alive, if_pos halive]
            obtain ⟨uid, s₂, hcreate⟩ := createAccount_fine s₁ user hfine (by rw [hdb]; exact hfind)
              (by rw [hdb]; exact hseq) kid NORMAL
            have hs₂ := createAccount_leaves .mongodb user kid NORMAL ans s₁
            rw [hcreate] at hs₂
            rw [Co.solo_bind_ok hcreate]
            refine gateOf_opens ?_ _ _ _
            rw [hs₂.conf, hs₁.conf]
            exact hconf
    | some found =>
      rw [hfind] at hassigned
      simp only [Option.getD_some] at hassigned ⊢
      obtain ⟨uid, huid⟩ := Option.isSome_iff_exists.1 (uid_of_find hfind)
      rw [huid] at hassigned ⊢
      simp only at hassigned ⊢
      unfold oldAccount lookup
      have hlookup : (Prog.get >>= fun s' => pure ((s'.helper i).hash.lookup md user) : Run (Option Nat)).solo ans s =
          (.ok ((s.helper i).hash.lookup md user), s) := rfl
      rw [Co.solo_bind_ok hlookup, Co.solo_bind_ok (migrate_fine hfine _ _ _), Co.solo_get_bind, hassigned]
      simp only
      rw [if_pos halive]
      exact gateOf_opens hconf _ _ _

end Solo

inductive Step where
  | change (c : Change)
  | getAccountInfo (i : Nat) (user : String) (addr : List Char) (ans : Ask → Fate)

def Step.apply (md : Digest) (dbtype : DbType) (s : Site) : Step → Site
  | .change c => c.apply md s
  | .getAccountInfo i user addr ans => ((Account.getAccountInfo md dbtype i user addr).solo ans s).2

/-- **The steps that come out right**: nodes that go share no kingdom with nodes that stay, and a kingdom that is assigned
has the id of a registered node if and only if its own node is registered. -/
def Fits (md : Digest) (dbtype : DbType) (s : Site) : Step → Prop
  | .change (.updateNewUserKid i) =>
    (s.helper i).Parts (fun nodeid => !((s.conf.kingdoms.filter Kingdom.isNew).map Kingdom.nodeid).contains nodeid)
  | .change (.unregisterGate i nodeid) => (s.helper i).Parts (fun id => id == nodeid)
  | .change _ => True
  | .getAccountInfo i user addr ans =>
    ∀ kid, assigned md dbtype i user addr ans s = some kid → (Opens s i kid ↔ Serves s i kid)

def Right (md : Digest) (dbtype : DbType) (s : Site) : Step → Prop
  | .change _ => True
  | .getAccountInfo i user addr ans => Answered md dbtype i user addr ans s

theorem Fits.right {md : Digest} {dbtype : DbType} {s : Site} : ∀ {e : Step}, Fits md dbtype s e → Right md dbtype s e
  | .change _, _ => trivial
  | .getAccountInfo i user addr ans, h => by
    refine ⟨fun info hinfo => ?_, fun hok kid hkid hserves => ?_⟩
    · obtain ⟨hassigned, hopens⟩ := opens_of_info hinfo
      exact (h _ hassigned).1 hopens
    · exact info_of_opens hok hkid ((h kid hkid).2 hserves)

theorem setHelper_good {s : Site} (hs : ∀ i, (s.helper i).Good) {i : Nat} {f : Helper → Helper}
    (hf : (f (s.helper i)).Good) :
    ∀ j, ((setHelper i f s).helper j).Good := by
  intro j
  show (Function.update s.helper i (f (s.helper i)) j).Good
  by_cases hj : j = i
  · subst hj
    rw [Function.update_self]
    exact hf
  · rw [Function.update_of_ne hj]
    exact hs j

theorem Fits.good {md : Digest} {dbtype : DbType} {s : Site} (hs : ∀ i, (s.helper i).Good) :
    ∀ {e : Step}, Fits md dbtype s e →
    ∀ i, ((e.apply md dbtype s).helper i).Good
  | .change (.reload _), _ => hs
  | .change (.updateNewUserKid i), h =>
    setHelper_good (f := fun h => h.updateNewUserKid md s.conf) hs ((hs i).updateNewUserKid h)
  | .change (.registerGate i nodeid), _ => setHelper_good (f := fun h => h.registerGate md s.conf nodeid) hs
    ((hs i).registerGate s.conf nodeid)
  | .change (.unregisterGate i nodeid), h =>
    setHelper_good (f := fun h => h.unregisterGate md nodeid) hs ((hs i).unregisterGate h)
  | .change (.setImportStyle i mStyle), _ =>
    setHelper_good (f := fun h => h.setImportStyle mStyle) hs ⟨(hs i).exact, (hs i).keys⟩
  | .getAccountInfo i user addr ans, _ => fun j => (getAccountInfo_leaves md dbtype i user addr ans s).good (hs j)

/-- **In every run whose steps fit, the nodes of the hash are the kingdoms of the list, and every look at an account is
answered as it is to be.** -/
theorem kingdoms_of_run (md : Digest) (dbtype : DbType) {s : Site} (hstart : ∀ i, s.helper i = Helper.ctor) {es : List Step}
    (hes : Steps.Along (Step.apply md dbtype) (Fits md dbtype) s es) :
    (∀ i, ((es.foldl (Step.apply md dbtype) s).helper i).Exact) ∧
      Steps.Along (Step.apply md dbtype) (Right md dbtype) s es := by
  have hgood : ∀ i, (s.helper i).Good := by
    intro i
    rw [hstart]
    refine ⟨fun kid => ?_, List.nodup_nil⟩
    constructor
    · intro h
      cases h
    · rintro ⟨e, he, -⟩
      cases he
  refine ⟨fun i => ?_, Steps.Along.mono (fun s e h => h.right) es s hes⟩
  exact (Steps.Along.inv (I := fun s : Site => ∀ i, (s.helper i).Good) (fun s e h hs => h.good hs) es s hes hgood i).exact

def land (kid nodeid : Nat) : Site :=
  { helper := fun _ => .ctor
    conf := ⟨[⟨kid, nodeid, true⟩], [⟨nodeid, "localhost", "10.0.0.1", 6500⟩], none⟩
    db := ⟨[], 1000, none⟩
    given := [] }

def comeAndGo : List Step :=
  [.change (.updateNewUserKid 0), .change (.registerGate 0 7), .change (.unregisterGate 0 7)]

theorem kingdoms_of_run_comeAndGo :
    (∀ i, ((comeAndGo.foldl (Step.apply flat .mongodb) (land 7 7)).helper i).Exact) ∧
      Steps.Along (Step.apply flat .mongodb) (Right flat .mongodb) (land 7 7) comeAndGo := by
  refine kingdoms_of_run flat .mongodb (fun _ => rfl) ⟨?_, trivial, ?_, trivial⟩
  · intro e he
    cases he
  · intro e he hgoes e' he' hstays
    have hone : (((Step.change (.registerGate 0 7)).apply flat .mongodb
        ((Step.change (.updateNewUserKid 0)).apply flat .mongodb (land 7 7))).helper 0).aliveList = [(7, [7])] := by
      decide +kernel
    rw [hone] at he he'
    rw [List.mem_singleton.1 he'] at hstays
    cases hstays

def elsewhere : Site := [Step.change (.updateNewUserKid 0),
    .change (.registerGate 0 1)].foldl (Step.apply flat .mongodb) (land 5 1)

/-- The user is assigned the kingdom of the registered node, and gets no account. -/
theorem kingdom_refused : ¬ Answered flat .mongodb 0 "a" [] (fun _ => .fine) elsewhere := by
  intro h
  have hassigned : assigned flat .mongodb 0 "a" [] (fun _ => .fine) elsewhere = some 5 := by decide +kernel
  have hserves : Serves elsewhere 0 5 := ⟨⟨5, 1, true⟩, by decide +kernel, by decide +kernel⟩
  have hids : ∀ r ∈ elsewhere.db.account, r.id ≤ elsewhere.db.seq := by
    intro r hr
    cases hr
  obtain ⟨info, hinfo, -⟩ := h.does ⟨fun _ => rfl, hids⟩ 5 hassigned hserves
  have hnone : ((((getAccountInfo flat .mongodb 0 "a" []).solo (fun _ => .fine) elsewhere).1).toOption.join).isNone =
    true := by
    decide +kernel
  rw [hinfo] at hnone
  cases hnone

end Account
end Sncpp
