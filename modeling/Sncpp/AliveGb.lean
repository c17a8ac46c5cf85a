import Sncpp.Conhash
/-!
# AliveGb — the ring of global nodes (`serverStartCenter:reloadConf`, `checkAliveGb`, `serverStartMgr:finishInit`)

A check asks one node of the configuration after another and puts what answers on the ring; a reload replaces the
configuration and takes off the ring what is not in it.
-/
namespace Sncpp
namespace AliveGb

open Conhash

/-- A node that a check waits for; `gone` if the configuration was without it since the check took it up. -/
structure Check where
  node : Nat
  gone : Bool
deriving DecidableEq

inductive Reload where
  | reading
  | saving
deriving DecidableEq

inductive Answer where
  | yes
  | no
  | raised
deriving DecidableEq

structure World where
  mapStartedService : List (Nat × Option Nat)
  conf : List Nat
  aliveGb : List Nat
  hashGb : Conhash
  reloads : List Reload
  checks : List Check
  timers : Nat
  /-- The nodes that were added while the ring had them. -/
  again : List Nat

/-- A check takes up the next node of the configuration, in whatever order; `first` and `next` say which, if there is one.
A loop over the nodes is at its end when it takes none. -/
inductive Event where
  | reloadConf
  | setGlobalConf (n : Nat) (conf : List Nat)
  | prune (n : Nat)
  | finishInit (svrName : Nat) (address : Option Nat) (first : Option Nat)
  | answer (n : Nat) (answer : Answer) (raises : Bool) (next : Option Nat)
  | timeout (first : Option Nat)

namespace World

variable (md : Digest) (w : World)

/-- At the end of its loop a check sets a timer for the next one. -/
def take (node : Option Nat) : World :=
  match node with
  | some k => if k ∈ w.conf then { w with checks := w.checks ++ [⟨k, false⟩] } else { w with timers := w.timers + 1 }
  | none => { w with timers := w.timers + 1 }

def mark (k : Nat) (ok : Bool) : World :=
  if ok then
    if k ∈ w.aliveGb then w
    else { w with
      aliveGb := w.aliveGb ++ [k]
      hashGb := w.hashGb.addnode md k 1024
      again := if k ∈ w.hashGb.nodes then w.again ++ [k] else w.again }
  else
    if k ∈ w.aliveGb then { w with aliveGb := w.aliveGb.filter (· ≠ k), hashGb := w.hashGb.deletenode md k }
    else w

def pruned : World := { w with
  aliveGb := w.aliveGb.filter (· ∈ w.conf)
  hashGb := (w.aliveGb.filter (· ∉ w.conf)).foldl (deletenode md) w.hashGb }

/-- `serverStartMgr:finishInit`, up to the check: what is known of the services. -/
def started (svrName : Nat) (address : Option Nat) : List (Nat × Option Nat) :=
  w.mapStartedService.map (fun e => if e.1 = svrName then (e.1, address) else e)

def allOk (svrName : Nat) (address : Option Nat) : Bool :=
  address.isSome && w.mapStartedService.any (fun e => e.1 == svrName) && (w.started svrName address).all (fun e =>
    e.2.isSome)

def step : Event → World
  | .reloadConf => { w with reloads := w.reloads ++ [.reading] }
  | .setGlobalConf n conf =>
    match w.reloads[n]? with
    | some .reading => { w with
        conf := conf
        reloads := w.reloads.set n .saving
        checks := w.checks.map (fun c => if c.node ∈ conf then c else { c with gone := true }) }
    | _ => w
  | .prune n =>
    match w.reloads[n]? with
    | some .saving => { w.pruned md with reloads := w.reloads.eraseIdx n }
    | _ => w
  | .finishInit svrName address first =>
    if address.isSome && w.mapStartedService.any (fun e => e.1 == svrName) then
      let w₁ := { w with mapStartedService := w.started svrName address }
      if w.allOk svrName address then w₁.take first else w₁
    else w
  | .answer n answer raises next =>
    match w.checks[n]? with
    | none => w
    | some c =>
      let w₁ := { w with checks := w.checks.eraseIdx n }
      -- the view of a node that is not in the configuration raises, and so may one that was not
      if c.node ∉ w.conf ∨ (c.gone = true ∧ raises = true) then w₁
      else (w₁.mark md c.node (answer = .yes)).take next
  | .timeout first => if w.timers = 0 then w else { w with timers := w.timers - 1 }.take first

def loops : Nat := w.checks.length + w.timers

/-- **The ring is the live nodes**, no live node is added again, the ring keeps to the configuration when nothing is going
on, and there is one loop at most. -/
structure Ring : Prop where
  nodes : ∀ k, k ∈ w.hashGb.nodes ↔ k ∈ w.aliveGb
  once : w.again = []
  conf : w.reloads = [] → w.checks = [] → ∀ k ∈ w.hashGb.nodes, k ∈ w.conf
  loop : w.loops ≤ 1

def Kept : Event → Prop
  | .finishInit svrName address _ => w.allOk svrName address = true → w.loops = 0
  | _ => True

instance : ∀ e : Event, Decidable (w.Kept e)
  | .finishInit svrName address _ => inferInstanceAs (Decidable (w.allOk svrName address = true → w.loops = 0))
  | .reloadConf | .setGlobalConf .. | .prune _ | .answer .. | .timeout _ => isTrue trivial

/-- The invariant; after the new configuration is there a reload still has to prune the ring. -/
structure Good : Prop where
  nodes : ∀ k, k ∈ w.hashGb.nodes ↔ k ∈ w.aliveGb
  once : w.again = []
  conf : Reload.saving ∉ w.reloads → ∀ k ∈ w.aliveGb, k ∈ w.conf

variable {md w}

/-! ## What a node's answer and a prune do -/

theorem take_same (node : Option Nat) : (w.take node).hashGb = w.hashGb ∧ (w.take node).aliveGb = w.aliveGb ∧
    (w.take node).again = w.again ∧ (w.take node).conf = w.conf ∧ (w.take node).reloads = w.reloads := by
  unfold take
  split
  · split <;> exact ⟨rfl, rfl, rfl, rfl, rfl⟩
  · exact ⟨rfl, rfl, rfl, rfl, rfl⟩

theorem loops_take (node : Option Nat) : (w.take node).loops = w.loops + 1 := by
  unfold take loops
  split
  · split
    · simp only [List.length_append, List.length_singleton]
      omega
    · rfl
  · rfl

theorem Good.of_eq {w' : World} (h : w.Good) (hhash : w'.hashGb = w.hashGb) (halive : w'.aliveGb = w.aliveGb)
    (hagain : w'.again = w.again) (hconf : w'.conf = w.conf) (hreloads : Reload.saving ∉ w'.reloads →
      Reload.saving ∉ w.reloads) :
    w'.Good where
  nodes k := by rw [hhash, halive, h.nodes k]
  once := hagain.trans h.once
  conf hr k hk := by
    rw [hconf]
    rw [halive] at hk
    exact h.conf (hreloads hr) k hk

theorem Good.take (h : w.Good) (node : Option Nat) : (w.take node).Good := by
  obtain ⟨hhash, halive, hagain, hconf, hreloads⟩ := w.take_same node
  exact h.of_eq hhash halive hagain hconf (fun hr => hreloads ▸ hr)

theorem Good.mark (h : w.Good) (md : Digest) {k : Nat} (hk : k ∈ w.conf) (ok : Bool) : (w.mark md k ok).Good := by
  unfold World.mark
  cases ok with
  | true =>
    rw [if_pos rfl]
    split
    · exact h
    · rename_i hnew
      have hout : k ∉ w.hashGb.nodes := fun hm => hnew ((h.nodes k).1 hm)
      refine ⟨fun x => ?_, ?_, fun hr x hx => ?_⟩
      · simp only
        rw [nodes_addnode, h.nodes x, List.mem_append, List.mem_singleton]
      · simp only
        rw [if_neg hout]
        exact h.once
      · rcases List.mem_append.1 hx with hx | hx
        · exact h.conf hr x hx
        · rw [List.mem_singleton.1 hx]
          exact hk
  | false =>
    rw [if_neg Bool.false_ne_true]
    split
    · refine ⟨fun x => ?_, h.once, fun hr x hx => h.conf hr x (List.mem_filter.1 hx).1⟩
      simp only
      rw [nodes_deletenode, h.nodes x, List.mem_filter, decide_eq_true_eq]
    · exact h

theorem Good.pruned (h : w.Good) (md : Digest) (reloads : List Reload) :
    ({ w.pruned md with reloads := reloads } : World).Good where
  nodes k := by
    show k ∈ ((w.aliveGb.filter (· ∉ w.conf)).foldl (deletenode md) w.hashGb).nodes ↔ k ∈ w.aliveGb.filter (· ∈ w.conf)
    rw [nodes_deletenodes, h.nodes k, List.mem_filter, List.mem_filter, decide_eq_true_eq, decide_eq_true_eq]
    tauto
  once := h.once
  conf _ k hk := of_decide_eq_true (List.mem_filter.1 hk).2

theorem mark_same (md : Digest) (k : Nat) (ok : Bool) : (w.mark md k ok).checks = w.checks ∧ (w.mark md k ok).timers =
    w.timers := by
  unfold mark
  cases ok with
  | true =>
    rw [if_pos rfl]
    split <;> exact ⟨rfl, rfl⟩
  | false =>
    rw [if_neg Bool.false_ne_true]
    split <;> exact ⟨rfl, rfl⟩

theorem Good.step (h : w.Good) (md : Digest) (e : Event) : (w.step md e).Good := by
  cases e with
  | reloadConf => exact h.of_eq rfl rfl rfl rfl (fun hr hm => hr (List.mem_append_left _ hm))
  | setGlobalConf n conf =>
    unfold World.step
    simp only
    split
    · rename_i hn
      obtain ⟨hlt, -⟩ := List.getElem?_eq_some_iff.1 hn
      exact ⟨h.nodes, h.once, fun hr => absurd (List.mem_set hlt _) hr⟩
    · exact h
  | prune n =>
    unfold World.step
    simp only
    split
    · exact h.pruned md _
    · exact h
  | finishInit svrName address first =>
    unfold World.step
    simp only
    have hstarted : ({ w with mapStartedService := w.started svrName address } : World).Good := h.of_eq rfl rfl rfl rfl id
    split
    · split
      · exact hstarted.take first
      · exact hstarted
    · exact h
  | answer n answer raises next =>
    unfold World.step
    simp only
    cases hc : w.checks[n]? with
    | none => exact h
    | some c =>
      simp only
      have herased : ({ w with checks := w.checks.eraseIdx n } : World).Good := h.of_eq rfl rfl rfl rfl id
      split
      · exact herased
      · rename_i hin
        exact (herased.mark md (by_contra fun hout => hin (.inl hout)) _).take next
  | timeout first =>
    unfold World.step
    simp only
    split
    · exact h
    · exact (h.of_eq rfl rfl rfl rfl id : ({ w with timers := w.timers - 1 } : World).Good).take first

theorem loops_step (md : Digest) (e : Event) : (w.step md e).loops ≤ w.loops ∨
    ∃ svrName address first, e = .finishInit svrName address first ∧ w.allOk svrName address = true ∧
      (w.step md e).loops = w.loops + 1 := by
  cases e with
  | reloadConf => exact .inl (le_refl _)
  | setGlobalConf n conf =>
    refine .inl ?_
    unfold step
    simp only
    split
    · unfold loops
      simp only [List.length_map]
      exact le_refl _
    · exact le_refl _
  | prune n =>
    refine .inl ?_
    unfold step
    simp only
    split <;> exact le_refl _
  | finishInit svrName address first =>
    unfold step
    simp only
    split
    · split
      · rename_i hok
        exact .inr ⟨svrName, address, first, rfl, hok, loops_take first⟩
      · exact .inl (le_refl _)
    · exact .inl (le_refl _)
  | answer n answer raises next =>
    refine .inl ?_
    unfold step
    simp only
    cases hc : w.checks[n]? with
    | none => exact le_refl _
    | some c =>
      obtain ⟨hlt, -⟩ := List.getElem?_eq_some_iff.1 hc
      have herased := List.length_eraseIdx_of_lt hlt
      simp only
      split
      · unfold loops
        simp only
        omega
      · rw [loops_take]
        obtain ⟨hchecks, htimers⟩ := mark_same (w := { w with checks := w.checks.eraseIdx n }) md c.node (answer = .yes)
        unfold loops
        rw [hchecks, htimers]
        simp only
        omega
  | timeout first =>
    refine .inl ?_
    unfold step
    simp only
    split
    · exact le_refl _
    · rw [loops_take]
      unfold loops
      simp only
      omega

theorem loops_finishInit {svrName : Nat} {address first : Option Nat} (hok : w.allOk svrName address = true) :
    (w.step md (.finishInit svrName address first)).loops = w.loops + 1 := by
  have hknown := (Bool.and_eq_true_iff.1 hok).1
  unfold step
  simp only
  rw [if_pos hknown, if_pos hok]
  exact loops_take first

theorem Good.ring (h : w.Good) (hloop : w.loops ≤ 1) : w.Ring where
  nodes := h.nodes
  once := h.once
  conf hr _ k hk := h.conf (by rw [hr]; exact List.not_mem_nil) k ((h.nodes k).1 hk)
  loop := hloop

def start (services : List Nat) (conf : List Nat) : World :=
  ⟨services.map (fun svrName => (svrName, none)), conf, [], .new, [], [], 0, []⟩

theorem good_start (services conf : List Nat) : (start services conf).Good :=
  ⟨fun _ => Iff.rfl, rfl, fun _ _ hk => (by cases hk)⟩

end World
end AliveGb
end Sncpp
