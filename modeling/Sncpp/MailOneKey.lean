import Sncpp.MailRecount
import Sncpp.Tally
/-!
# MailOneKey — claiming every attachment at once (`reqGetMailExtraOneKey`, `mergeReward`)

The request adds up the attachments of the mails that have one to claim, removes the mails that have none, and marks
what is left.
-/
namespace Sncpp
namespace Mail

open Tally

/-- `sMailExtra`; an item without an id or a count is passed over, and so is none here. -/
abbrev Reward : Type := List (Item Nat)

def mergeItem (v : Item Nat) : Reward → Reward
  | [] => [v]
  | x :: dest => if x.id = v.id then ⟨x.id, x.count + v.count⟩ :: dest else x :: mergeItem v dest

def mergeReward (dest reward : Reward) : Reward := reward.foldl (fun dest v => mergeItem v dest) dest

/-- The mails of the set types that have an attachment to claim, in the order in which the indexes are gone through. -/
def PlayerMail.claimables (m : PlayerMail) (visits : List (SetType × List Nat)) : List (SetType × Nat) :=
  visits.flatMap (fun v => (v.2.filter (fun mid => (m.claimable v.1 mid).isSome)).map (fun mid => (v.1, mid)))

/-- The first loop: what it adds up.  `content` is `content.extra` of the body of a mail, if there is one. -/
def PlayerMail.oneKeyExtras (m : PlayerMail) (visits : List (SetType × List Nat))
    (content : Nat → Option (Option Reward)) : Reward :=
  (m.claimables visits).foldl (fun extras p =>
    match content p.2 with
    | some (some extra) => mergeReward extras extra
    | _ => extras) []

def oneKeyTurn (st : SetType) (p : List Nat × PlayerMail) (mid : Nat) : List Nat × PlayerMail :=
  match p.2.midRef st mid with
  | none => p
  | some r =>
    let c := p.2.cells r
    let m₁ := p.2.view st r
    let m₂ := if c.unclaimed then p.2.mark st r else m₁
    (if !c.isView || c.unclaimed then p.1 ++ [mid] else p.1, m₂)

/-- `reqGetMailExtraOneKey`, where the name `extra` has the value `extra`: the ids, what was added up and the covers. -/
def PlayerMail.oneKey (m : PlayerMail) (visits : List (SetType × List Nat)) (content : Nat → Option (Option Reward))
    (extra : Option Reward) : Except Err (List Nat × Reward × List Cover) × PlayerMail :=
  let extras := m.oneKeyExtras visits content
  let m₁ := (m.errcells visits).foldl (fun m r => (m.removeMail (m.cells r).mid true (some r)).2) m
  match extra with
  -- `next` of nil raises
  | none => (.error .raised, m₁)
  | some _ =>
    let p := visits.foldl (fun p v => v.2.foldl (oneKeyTurn v.1) p) (([] : List Nat), m₁)
    (.ok (p.1, extras, visits.map (fun v => p.2.coverRef v.1)), p.2)

def PlayerMail.claimOneKey (m : PlayerMail) (visits : List (SetType × List Nat)) (content : Nat → Option (Option Reward)) :
    Except Err (List Nat × Reward × List Cover) × PlayerMail := m.oneKey visits content none

def PlayerMail.claimInTurn (m : PlayerMail) (visits : List (SetType × List Nat))
    (content : Nat → Option (Option Reward)) : PlayerMail :=
  (m.claimables visits).foldl (fun m p => (m.reqGetMailExtra p.1 p.2 (content p.2)).2) m

/-- **One request claims what one claim each would**: it answers with the sum of the attachments, every mail of the set
types is read and stays, and what is claimed, and the count of it, is as after the single claims. -/
structure ClaimsAll (m : PlayerMail) (visits : List (SetType × List Nat)) (content : Nat → Option (Option Reward)) :
    Prop where
  answer : ∃ mids extras covers, (m.claimOneKey visits content).1 = .ok (mids, extras, covers) ∧
    ∀ id, total id extras = ((m.claimables visits).map (fun p => total id (((content p.2).bind (fun e => e)).getD []))).sum
  kept : ∀ st, (m.claimOneKey visits content).2.listOf st = m.listOf st
  read : ∀ v ∈ visits, ∀ mid ∈ v.2, ∀ r, m.midRef v.1 mid = some r → ((m.claimOneKey visits content).2.cells r).isView =
    true
  claimed : ∀ r, ((m.claimOneKey visits content).2.cells r).isGetExtra = ((m.claimInTurn visits content).cells r).isGetExtra
  count : ∀ st, ((m.claimOneKey visits content).2.coverRef st).hasExtraNum =
    ((m.claimInTurn visits content).coverRef st).hasExtraNum

theorem total_mergeItem (k : Nat) (v : Item Nat) : ∀ dest : Reward, total k (mergeItem v dest) = total k dest + if v.id =
    k then v.count else 0
  | [] => by
    rw [mergeItem, total_cons, total_nil]
    omega
  | x :: dest => by
    rw [mergeItem]
    by_cases hx : x.id = v.id
    · rw [if_pos hx, total_cons, total_cons, hx]
      simp only
      split <;> omega
    · rw [if_neg hx, total_cons, total_cons, total_mergeItem k v dest]
      omega

theorem total_mergeReward (k : Nat) : ∀ dest reward : Reward, total k (mergeReward dest reward) = total k dest +
    total k reward
  | dest, [] => by
    rw [total_nil]
    exact (add_zero _).symm
  | dest, v :: reward => by
    show total k (mergeReward (mergeItem v dest) reward) = _
    rw [total_mergeReward k _ reward, total_mergeItem, total_cons]
    omega

theorem total_oneKeyExtras (m : PlayerMail) (visits : List (SetType × List Nat)) (content : Nat → Option (Option Reward))
    (k : Nat) :
    total k (m.oneKeyExtras visits content) =
      ((m.claimables visits).map (fun p => total k (((content p.2).bind (fun e => e)).getD []))).sum := by
  have h : ∀ (l : List (SetType × Nat)) (extras : Reward),
      total k (l.foldl (fun extras p =>
        match content p.2 with
        | some (some extra) => mergeReward extras extra
        | _ =>
          extras) extras) = total k extras +
            (l.map (fun p => total k (((content p.2).bind (fun e => e)).getD []))).sum := by
    intro l
    induction l with
    | nil => simp
    | cons p l ih =>
      intro extras
      rw [List.foldl_cons, ih, List.map_cons, List.sum_cons]
      rcases content p.2 with - | - | extra
      · simp
      · simp
      · simp only [Option.bind_some, Option.getD_some]
        rw [total_mergeReward]
        omega
  rw [PlayerMail.oneKeyExtras, h, total_nil, zero_add]

/-- **The request adds the attachments up, and never answers**, whatever the mails and the set types are. -/
theorem oneKey_never (m : PlayerMail) (visits : List (SetType × List Nat)) (content : Nat → Option (Option Reward)) :
    (∀ k, total k (m.oneKeyExtras visits content) =
      ((m.claimables visits).map (fun p => total k (((content p.2).bind (fun e => e)).getD []))).sum) ∧
    (m.claimOneKey visits content).1 = .error .raised ∧ ¬ClaimsAll m visits content := by
  refine ⟨total_oneKeyExtras m visits content, rfl, fun h => ?_⟩
  obtain ⟨mids, extras, covers, hok, -⟩ := h.answer
  cases hok

def twoMails : PlayerMail := ((PlayerMail.init oneMail).addNewMail ⟨32, .system, 5, false, 0⟩ none true).2

/-- **The request for the system mails** raises, does not claim the one attachment, and the other mail is gone. -/
theorem oneKey_loses_a_mail :
    let content : Nat → Option (Option Reward) := fun mid => if mid = 31 then some (some [⟨1001, 2⟩]) else some none
    (twoMails.claimOneKey [(.system, [31, 32])] content).1 = .error .raised ∧
      (twoMails.listOf .system).length = 2 ∧
        ((twoMails.claimOneKey [(.system, [31, 32])] content).2.listOf .system).length = 1 ∧
      ¬ClaimsAll twoMails [(.system, [31, 32])] content := by
  refine ⟨rfl, by decide, by decide, fun h => ?_⟩
  obtain ⟨mids, extras, covers, hok, -⟩ := h.answer
  cases hok

end Mail
end Sncpp
