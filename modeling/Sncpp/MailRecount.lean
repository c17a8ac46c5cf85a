import Sncpp.MailCount
/-!
# MailRecount — the runs in which the counters are right

Every operation of a player's mail, one after the other, on mails whose bodies may be missing.
-/
namespace Sncpp
namespace Mail

variable {E : Type} [EmptyCollection E]

section Claim

variable {m : PlayerMail} {st : SetType} {mid r : Nat}

theorem mark_list (m : PlayerMail) (st : SetType) (r : Nat) : (m.mark st r).list = m.list := view_list m st r

theorem mark_cells {x : Nat} (hx : x ≠ r) : (m.mark st r).cells x = m.cells x := by
  unfold PlayerMail.mark PlayerMail.view
  split <;> simp [PlayerMail.setCover, PlayerMail.setCell, hx]

theorem mark_hasExtra (m : PlayerMail) (st : SetType) (r : Nat) :
    ((m.mark st r).coverRef st).hasExtraNum = (m.coverRef st).hasExtraNum - 1 := by
  unfold PlayerMail.mark PlayerMail.view
  split <;> simp [PlayerMail.setCover, PlayerMail.setCell]

/-- **A mail that is gone is counted out once more**: marking it as claimed breaks the count. -/
theorem mark_gone (h : Good m) (hr : r ∉ m.listOf st) : ¬Recounted (m.mark st r) := by
  intro hrec
  have hlist : (m.mark st r).listOf st = m.listOf st := by
    unfold Data.listOf
    rw [mark_list]
  have hbad := (hrec st).hasExtra
  have hcount : (m.listOf st).countP (fun x => ((m.mark st r).cells x).unclaimed) =
      (m.listOf st).countP (fun x => (m.cells x).unclaimed) := by
    refine List.countP_congr (fun x hx => ?_)
    have hne : x ≠ r := by
      rintro rfl
      exact hr hx
    rw [mark_cells hne]
  rw [hlist, mark_hasExtra, (h.counts st).hasExtra, hcount] at hbad
  omega

theorem claimable_some (hc : m.claimable st mid = some r) : m.midRef st mid = some r ∧ (m.cells r).unclaimed = true :=
  Option.filter_eq_some_iff.1 hc

/-- **Claiming keeps the count exactly when the body is found**, if there is anything to claim. -/
theorem reqGetMailExtra_good (h : Good m) (st : SetType) (mid : Nat) (found : Option (Option E)) :
    ((found = none → m.claimable st mid = none) → Good (m.reqGetMailExtra st mid found).2) ∧
      (Recounted (m.reqGetMailExtra st mid found).2 → found = none → m.claimable st mid = none) := by
  unfold PlayerMail.reqGetMailExtra
  cases hc : m.claimable st mid with
  | none => exact ⟨fun _ => h, fun _ _ => rfl⟩
  | some r =>
    obtain ⟨href, hun⟩ := claimable_some hc
    obtain ⟨hmem, rfl⟩ := h.mem_of_ref href
    cases found with
    | none =>
      refine ⟨fun hf => (by cases hf rfl), fun hrec => ?_⟩
      have hgone : r ∉ (m.drop st r).listOf st := by
        rw [drop_listOf, if_pos rfl]
        exact (h.shape.rest hmem).2.2.1
      simp only [PlayerMail.takeExtra, removeMail_eq h.shape hmem, Bool.not_true, Bool.false_and, Bool.false_eq_true,
        if_false] at hrec
      exact absurd hrec (mark_gone (h.drop hmem) hgone)
    | some extra =>
      refine ⟨fun _ => ?_, fun _ hf => (by cases hf)⟩
      cases extra with
      | none => exact h
      | some extra => exact h.mark hmem hun

end Claim

/-- The operations of the claim, each with what its lookups of bodies found and the order in which it goes through an
index. -/
inductive Op (E : Type) where
  | addNewMail (v : Head) (share : Option Nat) (found : Bool)
  | removeMail (mid : Nat) (isAuto : Bool)
  | reqMailBrief (st : SetType) (first stop : Nat)
  | reqMailDetail (st : SetType) (mid : Nat) (flag : Bool) (found : Option E)
  | reqDelMail (st : SetType) (mids : List Nat)
  | reqDelMailOneKey (st : SetType) (visit : List Nat)
  | reqGetMailExtra (st : SetType) (mid : Nat) (found : Option (Option E))
  | reqGetMailExtraOneKey (visits : List (SetType × List Nat))
  | reCollectMail (st : SetType) (mid : Nat)
  | loadShareMail (ret : Option (List Load × Nat))
  | updateExpireTimer (time : Nat)

def step (m : PlayerMail) : Op E → PlayerMail
  | .addNewMail v share found => (m.addNewMail v share found).2
  | .removeMail mid isAuto => (m.removeMail mid isAuto none).2
  | .reqMailBrief st first stop => (m.reqMailBrief st first stop).2
  | .reqMailDetail st mid flag found => (m.reqMailDetail st mid flag found).2
  | .reqDelMail st mids => (m.reqDelMail st mids).2
  | .reqDelMailOneKey st visit => (m.reqDelMailOneKey st visit).2
  | .reqGetMailExtra st mid found => (m.reqGetMailExtra st mid found).2
  | .reqGetMailExtraOneKey visits => (m.reqGetMailExtraOneKey visits).2
  | .reCollectMail st mid => (m.reCollectMail st mid).2
  | .loadShareMail ret => m.loadShareMail ret
  | .updateExpireTimer time => m.updateExpireTimer time

def Op.Fresh (m : PlayerMail) : Op E → Prop
  | .addNewMail v _ _ => Mail.Fresh m v.mid
  | .loadShareMail ret => ∀ p, ret = some p → FreshAll m (p.1.filterMap Load.head)
  | _ => True

def Op.Backed (m : PlayerMail) : Op E → Prop
  | .reqGetMailExtra st mid found => found = none → m.claimable st mid = none
  | _ => True

def Along (Q : PlayerMail → Op E → Prop) : PlayerMail → List (Op E) → Prop
  | _, [] => True
  | m, op :: ops => Q m op ∧ Along Q (step m op) ops

def RecountedAlong : PlayerMail → List (Op E) → Prop
  | m, [] => Recounted m
  | m, op :: ops => Recounted m ∧ RecountedAlong (step m op) ops

/-- **One step**: it keeps the count if a claim finds its body, and breaks it if not. -/
theorem step_good {m : PlayerMail} (h : Good m) (op : Op E) (hfresh : op.Fresh m) :
    (op.Backed m → Good (step m op)) ∧ (Recounted (step m op) → op.Backed m) := by
  cases op with
  | addNewMail v share found => exact ⟨fun _ => addNewMail_good h hfresh share found, fun _ => trivial⟩
  | removeMail mid isAuto => exact ⟨fun _ => removeMail_none_good h mid isAuto, fun _ => trivial⟩
  | reqMailBrief st first stop => exact ⟨fun _ => reqMailBrief_good h st first stop, fun _ => trivial⟩
  | reqMailDetail st mid flag found => exact ⟨fun _ => reqMailDetail_good h st mid flag found, fun _ => trivial⟩
  | reqDelMail st mids => exact ⟨fun _ => foldl_delOne_good st mids _ h, fun _ => trivial⟩
  | reqDelMailOneKey st visit => exact ⟨fun _ => foldl_delOne_good st visit _ h, fun _ => trivial⟩
  | reqGetMailExtra st mid found => exact reqGetMailExtra_good h st mid found
  | reqGetMailExtraOneKey visits => exact ⟨fun _ => reqGetMailExtraOneKey_good h visits, fun _ => trivial⟩
  | reCollectMail st mid => exact ⟨fun _ => reCollectMail_good h st mid, fun _ => trivial⟩
  | loadShareMail ret => exact ⟨fun _ => loadShareMail_good h hfresh, fun _ => trivial⟩
  | updateExpireTimer time => exact ⟨fun _ => updateExpireTimer_good h time, fun _ => trivial⟩

theorem recountedAlong_head {m : PlayerMail} : ∀ {ops : List (Op E)}, RecountedAlong m ops → Recounted m
  | [], h => h
  | _ :: _, h => h.1

theorem along_recounted : ∀ (ops : List (Op E)) {m : PlayerMail}, Good m → Along Op.Fresh m ops →
    (RecountedAlong m ops ↔ Along Op.Backed m ops)
  | [], _, h, _ => ⟨fun _ => trivial, fun _ => h.counts⟩
  | op :: ops, m, h, hfresh => by
    obtain ⟨hkeep, hbreak⟩ := step_good h op hfresh.1
    constructor
    · rintro ⟨-, hrest⟩
      have hback := hbreak (recountedAlong_head hrest)
      exact ⟨hback, (along_recounted ops (hkeep hback) hfresh.2).1 hrest⟩
    · rintro ⟨hback, hrest⟩
      exact ⟨h.counts, (along_recounted ops (hkeep hback) hfresh.2).2 hrest⟩

/-- **The counters equal a recount throughout a run from any stored list exactly when every claim of an attachment finds the
body of its mail.** -/
theorem recounted_along_iff {d : Data} (hd : Shape d) (ops : List (Op E))
    (hfresh : Along Op.Fresh (PlayerMail.init d) ops) :
    RecountedAlong (PlayerMail.init d) ops ↔ Along Op.Backed (PlayerMail.init d) ops :=
  along_recounted ops (init_good hd) hfresh

def oneMail : Data where
  list st := if st = .system then some [0] else none
  cells _ := ⟨31, .system, 5, true, 0, false, false, false⟩
  next := 1
  curShareId := 0

theorem oneMail_shape : Shape oneMail := by
  have hmem : ∀ st r, r ∈ oneMail.listOf st → st = .system ∧ r = 0 := by
    intro st r hr
    by_cases he : st = .system
    · exact ⟨he, by simpa [Data.listOf, oneMail, he] using hr⟩
    · simp [Data.listOf, oneMail, he] at hr
  refine ⟨fun st => ?_, fun st r hr => ?_, fun st st' r r' hr hr' _ => ?_⟩
  · cases st <;> decide
  · obtain ⟨rfl, rfl⟩ := hmem st r hr
    exact ⟨rfl, Nat.one_pos⟩
  · rw [(hmem st r hr).2, (hmem st' r' hr').2]

theorem recounted_along_claim : RecountedAlong (PlayerMail.init oneMail)
    [.reqGetMailExtra .system 31 (some (some [1])), .reqDelMail (E := List Nat) .system [31]] := by
  refine (recounted_along_iff oneMail_shape _ ?_).2 ?_
  · exact ⟨trivial, trivial, trivial⟩
  · exact ⟨nofun, trivial, trivial⟩

/-- **A claim that finds no body leaves the counters at minus one.** -/
theorem claim_counts_twice : Along Op.Fresh (PlayerMail.init oneMail) [.reqGetMailExtra (E := List Nat) .system 31 none] ∧
    ¬RecountedAlong (PlayerMail.init oneMail) [.reqGetMailExtra (E := List Nat) .system 31 none] := by
  refine ⟨⟨trivial, trivial⟩, fun h => ?_⟩
  have hbad := (h.2 .system).hasExtra
  revert hbad
  decide +kernel

end Mail
end Sncpp
