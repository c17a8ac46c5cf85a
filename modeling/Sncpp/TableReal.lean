import Sncpp.TableMonitor
/-!
# TableReal — tables that are given back (`_decode`, `_getReal`)

`_decode` puts back, in place, what has been put aside, so that nothing below a table tells its changes (`decode_spec`);
`_getReal` makes a copy that tells nothing, and leaves the tables as they are (`getReal_spec`).  Both may find tables that
tell their changes below others that do not.
-/
namespace Sncpp
namespace TableMonitor

variable {κ σ : Type} [DecidableEq κ]

namespace Heap

variable {p : Pairs κ σ} {h : Heap κ σ}

def Bare (h : Heap κ σ) : Prop := ∀ n, (h.node n).real.isSome → (h.node n).fields = ∅

/-- **What decoding does to the tables of a rank below `bound`**, apart from `but`: they may come to tell nothing. -/
structure Unwraps (rank : Nat → Nat) (bound : Nat) (but : Option Nat) (h h' : Heap κ σ) : Prop where
  fresh : h'.fresh = h.fresh
  read : ∀ m, some m ≠ but → ∀ k, h'.read m k = h.read m k
  node : ∀ m, some m ≠ but → h'.node m = h.node m ∨ rank m < bound ∧ (h'.node m).real = none
  bare : h.Bare → h'.Bare

namespace Unwraps

variable {rank : Nat → Nat} {bound : Nat} {but : Option Nat} {h h' h'' : Heap κ σ}

theorem refl : Unwraps rank bound but h h := ⟨rfl, fun _ _ _ => rfl, fun _ _ => Or.inl rfl, id⟩

theorem trans (hu : Unwraps rank bound but h h') (hu' : Unwraps rank bound but h' h'') : Unwraps rank bound but h h'' := by
  refine ⟨hu'.fresh.trans hu.fresh, fun m hm k => (hu'.read m hm k).trans (hu.read m hm k), fun m hm => ?_,
    fun hbare => hu'.bare (hu.bare hbare)⟩
  rcases hu'.node m hm with heq | hnone
  · rw [heq]
    exact hu.node m hm
  · exact Or.inr hnone

theorem weaken (hu : Unwraps rank bound none h h') {n : Nat} (hn : bound ≤ rank n) :
    Unwraps rank (rank n) (some n) h h' ∧ h'.node n = h.node n := by
  refine ⟨⟨hu.fresh, fun m _ => hu.read m (Option.some_ne_none m), fun m _ => ?_, hu.bare⟩, ?_⟩
  · exact (hu.node m (Option.some_ne_none m)).imp_right fun ⟨hlt, hnone⟩ => ⟨hlt.trans_le hn, hnone⟩
  · rcases hu.node n (Option.some_ne_none n) with heq | ⟨hlt, -⟩
    · exact heq
    · exact absurd hn (not_le.2 hlt)

theorem real (hu : Unwraps rank bound but h h') {m : Nat} (hm : some m ≠ but) (hreal : (h.node m).real = none) :
    (h'.node m).real = none := by
  rcases hu.node m hm with heq | ⟨-, hnone⟩
  · rwa [heq]
  · exact hnone

theorem setNode (h : Heap κ σ) (n : Nat) {x : Node κ σ} (hx : x.real = none) :
    Unwraps rank bound (some n) h (h.setNode n x) := by
  have hother : ∀ m, some m ≠ some n → (h.setNode n x).node m = h.node m :=
    fun m hm => h.setNode_of_ne (fun heq => hm (by rw [heq])) x
  refine ⟨rfl, fun m hm k => read_congr (hother m hm) k, fun m hm => Or.inl (hother m hm), fun hbare m hm => ?_⟩
  by_cases hmn : m = n
  · rw [hmn, setNode_self, hx] at hm
    cases hm
  · have hne : some m ≠ some n := fun heq => hmn (Option.some.inj heq)
    rw [hother m hne] at hm ⊢
    exact hbare m hm

end Unwraps

theorem reach_congr {rank : Nat → Nat} {bound : Nat} {h h' : Heap κ σ} (hrank : Ranked h.Child rank)
    (hread : ∀ m, rank m < bound → ∀ k, h'.read m k = h.read m k) {c m : Nat} (hc : rank c < bound)
    (hreach : Relation.ReflTransGen h.Child c m) : Relation.ReflTransGen h'.Child c m ∧ rank m < bound := by
  induction hreach with
  | refl => exact ⟨Relation.ReflTransGen.refl, hc⟩
  | tail _ hstep ih =>
    obtain ⟨hreach, hlt⟩ := ih
    have hlt' := hrank _ _ hstep
    obtain ⟨k, hk⟩ := hstep
    exact ⟨hreach.tail ⟨k, (hread _ hlt k).trans hk⟩, hlt'.trans hlt⟩

/-- What decoding a value does, with fuel for its rank: nothing that it leads to tells its changes. -/
def Decodes (p : Pairs κ σ) (rank : Nat → Nat) (fuel : Nat) : Prop :=
  ∀ (h : Heap κ σ) (v : Value σ) (bound : Nat), h.Bare → Ranked h.Child rank → Below rank fuel v → Below rank bound v →
    ∃ h', decode p fuel h v = some h' ∧ Unwraps rank bound none h h' ∧
      ∀ n, v = .table n → ∀ m, Relation.ReflTransGen h.Child n m → (h'.node m).real = none

/-- **The loop of `_decode`**: the keys are set again, over tables that tell nothing. -/
theorem decode_loop {rank : Nat → Nat} {fuel : Nat} (ih : Decodes p rank fuel) {n : Nat} (hfuel : rank n ≤ fuel)
    (es : List (Sigma fun _ : κ => Value σ)) : ∀ h : Heap κ σ, h.Bare → (h.node n).real = none → Ranked h.Child rank →
    (∀ e ∈ es, Below rank (rank n) e.2) → (es.map Sigma.fst).Nodup →
      ∃ h', es.foldlM (decodeField (decode p fuel) n) h = some h' ∧ Unwraps rank (rank n) (some n) h h' ∧
        (h'.node n).real = none ∧ (∀ k ∉ es.map Sigma.fst, (h'.node n).fields.lookup k = (h.node n).fields.lookup k) ∧
        ∀ e ∈ es, (h'.node n).fields.lookup e.1 = some e.2 ∧
          ∀ c, e.2 = .table c → ∀ m, Relation.ReflTransGen h.Child c m → (h'.node m).real = none := by
  induction es with
  | nil =>
    intro h _ hreal _ _ _
    exact ⟨h, rfl, Unwraps.refl, hreal, fun _ _ => rfl, fun e he => by cases he⟩
  | cons e es iht =>
    intro h hbare hreal hrank hbelow hnodup
    obtain ⟨hnot, hnodup⟩ := List.nodup_cons.1 hnodup
    have hbelow_e := hbelow e List.mem_cons_self
    obtain ⟨h₁, hdecode, hunwraps, hnone⟩ := ih h e.2 (rank n) hbare hrank (fun m hm => (hbelow_e m hm).trans_le hfuel) hbelow_e
    obtain ⟨hapart, hsame⟩ := hunwraps.weaken le_rfl
    have hreal₁ : (h₁.node n).real = none := by rw [hsame, hreal]
    have hset : Unwraps rank (rank n) (some n) h₁ (h₁.setFields n ((h₁.node n).fields.insert e.1 e.2)) :=
      Unwraps.setNode h₁ n hreal₁
    have hnode : (h₁.setFields n ((h₁.node n).fields.insert e.1 e.2)).node n = ⟨(h.node n).fields.insert e.1 e.2, none⟩ := by
      rw [setFields, setNode_self, ← hreal₁, hsame]
    generalize heq₂ : h₁.setFields n ((h₁.node n).fields.insert e.1 e.2) = h₂ at hset hnode
    have hboth := hapart.trans hset
    have hrank₂ : Ranked h₂.Child rank := by
      rintro m c ⟨k, hk⟩
      by_cases hmn : m = n
      · subst hmn
        rw [read_bare (by rw [hnode]), hnode] at hk
        by_cases hke : k = e.1
        · rw [hke, AList.lookup_insert] at hk
          exact hbelow_e c (Option.some.inj hk)
        · rw [AList.lookup_insert_ne hke] at hk
          exact hrank m c ⟨k, by rw [read_bare hreal, hk]⟩
      · rw [hboth.read m (fun heq => hmn (Option.some.inj heq))] at hk
        exact hrank m c ⟨k, hk⟩
    have hlow : ∀ m, rank m < rank n → some m ≠ some n := fun m hm heq => by
      rw [Option.some.inj heq] at hm
      exact lt_irrefl _ hm
    obtain ⟨h', hloop, hunwraps', hreal', hfields, hlist⟩ := iht h₂ (hboth.bare hbare) (by rw [hnode]) hrank₂
      (fun e' he' => hbelow e' (List.mem_cons_of_mem e he')) hnodup
    refine ⟨h', ?_, hboth.trans hunwraps', hreal', fun k hk => ?_, fun e' he' => ?_⟩
    · rw [List.foldlM_cons]
      simp only [decodeField, hdecode, Option.bind_eq_bind, Option.bind_some, Option.pure_def, heq₂]
      exact hloop
    · rw [List.map_cons, List.mem_cons, not_or] at hk
      rw [hfields k hk.2, hnode, AList.lookup_insert_ne hk.1]
    · rcases List.mem_cons.1 he' with rfl | he'
      · refine ⟨by rw [hfields _ hnot, hnode, AList.lookup_insert], fun c hc m hm => ?_⟩
        have hlt := (reach_congr hrank (fun _ _ _ => rfl) (hbelow_e c hc) hm).2
        exact hunwraps'.real (hlow m hlt) (hset.real (hlow m hlt) (hnone c hc m hm))
      · obtain ⟨hlookup, hreach⟩ := hlist e' he'
        refine ⟨hlookup, fun c hc m hm => hreach c hc m ?_⟩
        exact (reach_congr hrank (fun m' hm' => hboth.read m' (hlow m' hm'))
          (hbelow e' (List.mem_cons_of_mem e he') c hc) hm).1

/-- **What `_decode` does**: nothing that the value leads to tells its changes, and what is read is the same. -/
theorem decode_spec (p : Pairs κ σ) (rank : Nat → Nat) : ∀ fuel : Nat, Decodes p rank fuel
  | fuel, h, .scalar s, bound, _, _, _, _ => ⟨h, by cases fuel <;> rfl, Unwraps.refl, fun n hn => by cases hn⟩
  | 0, h, .table n, bound, _, _, hfuel, _ => absurd (hfuel n rfl) (Nat.not_lt_zero _)
  | fuel + 1, h, .table n, bound, hbare, hrank, hfuel, hbound => by
    have hset : Unwraps rank (rank n) (some n) h (h.setNode n { h.node n with real := none }) := Unwraps.setNode h n rfl
    have hnode : (h.setNode n { h.node n with real := none }).node n = ⟨(h.node n).fields, none⟩ := setNode_self h n _
    have hown := fun k => read_own n (hbare n) k
    have hbelow : ∀ e ∈ p.order (h.own n).entries, Below rank (rank n) e.2 := by
      intro e he c hc
      exact hrank n c ⟨e.1, by rw [hown, (mem_order p _ e).1 he, hc]⟩
    have hsub : ∀ k v, (h.node n).fields.lookup k = some v → h.read n k = some v := by
      intro k v hk
      rw [read, hk]
    have hrank' : Ranked (h.setNode n { h.node n with real := none }).Child rank := by
      refine hrank.mono ?_
      rintro m c ⟨k, hk⟩
      refine ⟨k, ?_⟩
      by_cases hmn : m = n
      · rw [hmn, read_bare (by rw [hnode]), hnode] at hk
        rw [hmn, hsub k _ hk]
      · rwa [hset.read m (fun heq => hmn (Option.some.inj heq))] at hk
    obtain ⟨h', hloop, hunwraps, hreal, hfields, hlist⟩ := decode_loop (decode_spec p rank fuel)
      (Nat.le_of_lt_succ (hfuel n rfl)) (p.order (h.own n).entries) _ (hset.bare hbare) (by rw [hnode]) hrank' hbelow
      (nodup_order p _)
    have hboth := hset.trans hunwraps
    have hread : ∀ k, h'.read n k = h.read n k := by
      intro k
      rw [read_bare hreal, hown]
      cases hk : (h.own n).lookup k with
      | some v => exact (hlist ⟨k, v⟩ ((mem_order p _ _).2 hk)).1
      | none =>
        have hnone : h.read n k = none := by rw [hown, hk]
        rw [hfields k (by rw [mem_order_keys, hk]; exact not_not.2 rfl), hnode]
        cases hf : (h.node n).fields.lookup k with
        | none => rfl
        | some v => rw [← hnone, hsub k v hf]
    refine ⟨h', by rw [decode]; exact hloop, ⟨hboth.fresh, fun m _ k => ?_, fun m _ => ?_, hboth.bare⟩, fun n' hn' m hm => ?_⟩
    · by_cases hmn : m = n
      · rw [hmn, hread]
      · exact hboth.read m (fun heq => hmn (Option.some.inj heq)) k
    · by_cases hmn : m = n
      · rw [hmn]
        exact Or.inr ⟨hbound n rfl, hreal⟩
      · exact (hboth.node m (fun heq => hmn (Option.some.inj heq))).imp_right fun hlow =>
          ⟨hlow.1.trans (hbound n rfl), hlow.2⟩
    · obtain rfl := Value.table.inj hn'
      rcases Relation.ReflTransGen.cases_head hm with rfl | ⟨c, ⟨k, hk⟩, hm⟩
      · exact hreal
      · have hc : rank c < rank n := hrank n c ⟨k, hk⟩
        rw [hown] at hk
        refine (hlist ⟨k, .table c⟩ ((mem_order p _ _).2 hk)).2 c rfl m ?_
        refine (reach_congr hrank (fun m' hm' k' => hset.read m' (fun heq => ?_) k') hc hm).1
        rw [Option.some.inj heq] at hm'
        exact lt_irrefl _ hm'

/-- Two values are the same, up to tables that `R` relates. -/
inductive Matches (R : Nat → Nat → Prop) : Value σ → Value σ → Prop where
  | scalar (s : σ) : Matches R (.scalar s) (.scalar s)
  | table {n m : Nat} (h : R n m) : Matches R (.table n) (.table m)

theorem Matches.mono {R R' : Nat → Nat → Prop} (h : ∀ n m, R n m → R' n m) {v v' : Value σ} (hv : Matches R v v') :
    Matches R' v v' := by
  cases hv with
  | scalar s => exact .scalar s
  | table hR => exact .table (h _ _ hR)

theorem rel_mono {R R' : Nat → Nat → Prop} (h : ∀ n m, R n m → R' n m) {a b : Option (Value σ)}
    (hr : Option.Rel (Matches R) a b) : Option.Rel (Matches R') a b := by
  cases hr with
  | none => exact .none
  | some hv => exact .some (hv.mono h)

/-- **A copy of a table**: it tells nothing, and holds what is read of the other. -/
structure Copy (g : Heap κ σ) (R : Nat → Nat → Prop) (h : Heap κ σ) (m n : Nat) : Prop where
  real : (h.node m).real = none
  fields : ∀ k, Option.Rel (Matches R) ((h.node m).fields.lookup k) (g.read n k)

theorem Copy.mono {g h h' : Heap κ σ} {R R' : Nat → Nat → Prop} (hR : ∀ n m, R n m → R' n m) {m n : Nat}
    (hc : Copy g R h m n) (heq : h'.node m = h.node m) : Copy g R' h' m n := by
  refine ⟨by rw [heq, hc.real], fun k => ?_⟩
  rw [heq]
  exact rel_mono hR (hc.fields k)

structure Copies (g : Heap κ σ) (R : Nat → Nat → Prop) (h h' : Heap κ σ) : Prop where
  fresh : h.fresh ≤ h'.fresh
  copy : ∀ m n, R m n → h.fresh ≤ m ∧ m < h'.fresh ∧ Copy g R h' m n

/-- What `_getReal` does, with fuel for the rank of the value: `g` has the tables that are copied. -/
def GetsReal (p : Pairs κ σ) (g : Heap κ σ) (rank : Nat → Nat) (fuel : Nat) : Prop :=
  ∀ (h : Heap κ σ) (v : Value σ), g.fresh ≤ h.fresh → (∀ m < g.fresh, h.node m = g.node m) → Below rank fuel v →
    (∀ m, v = .table m → m < g.fresh) → ∃ h' v' R, getReal p fuel h v = some (h', v') ∧
      (∀ m < h.fresh, h'.node m = h.node m) ∧ Copies g R h h' ∧ Matches R v' v

/-- **The loop of `_getReal`**: the copy of a table gets copies of what is read of it. -/
theorem copy_loop {g : Heap κ σ} {rank : Nat → Nat} {fuel : Nat} (ih : GetsReal p g rank fuel) {ret : Nat}
    (hret : g.fresh ≤ ret) (es : List (Sigma fun _ : κ => Value σ)) : ∀ h : Heap κ σ, ret < h.fresh →
    (∀ m < g.fresh, h.node m = g.node m) → (h.node ret).real = none →
    (∀ e ∈ es, Below rank fuel e.2 ∧ ∀ m, e.2 = .table m → m < g.fresh) → (es.map Sigma.fst).Nodup →
      ∃ h' R, es.foldlM (copyField (getReal p fuel) ret) h = some h' ∧ (∀ m < h.fresh, m ≠ ret → h'.node m = h.node m) ∧
        Copies g R h h' ∧ (h'.node ret).real = none ∧
        (∀ k ∉ es.map Sigma.fst, (h'.node ret).fields.lookup k = (h.node ret).fields.lookup k) ∧
        ∀ e ∈ es, ∃ v', (h'.node ret).fields.lookup e.1 = some v' ∧ Matches R v' e.2 := by
  induction es with
  | nil =>
    intro h _ _ hreal _ _
    exact ⟨h, fun _ _ => False, rfl, fun _ _ _ => rfl, ⟨le_rfl, fun _ _ hR => hR.elim⟩, hreal, fun _ _ => rfl,
      fun e he => by cases he⟩
  | cons e es iht =>
    intro h hlt hold hreal hes hnodup
    obtain ⟨hnot, hnodup⟩ := List.nodup_cons.1 hnodup
    obtain ⟨hbelow, hknown⟩ := hes e List.mem_cons_self
    obtain ⟨h₁, v₁, R₁, hget, hsame, hcopies, hmatches⟩ := ih h e.2 (hret.trans hlt.le) hold hbelow hknown
    have hnode : (h₁.setFields ret ((h₁.node ret).fields.insert e.1 v₁)).node ret =
        ⟨(h.node ret).fields.insert e.1 v₁, none⟩ := by
      rw [setFields, setNode_self, ← hreal, hsame ret hlt]
    have hother : ∀ m ≠ ret, (h₁.setFields ret ((h₁.node ret).fields.insert e.1 v₁)).node m = h₁.node m :=
      fun m hm => h₁.setNode_of_ne hm _
    have hfresh : (h₁.setFields ret ((h₁.node ret).fields.insert e.1 v₁)).fresh = h₁.fresh := rfl
    generalize heq₂ : h₁.setFields ret ((h₁.node ret).fields.insert e.1 v₁) = h₂ at hnode hother hfresh
    obtain ⟨h', R, hloop, hsame', hcopies', hreal', hfields, hlist⟩ := iht h₂ (by rw [hfresh]; exact hlt.trans_le hcopies.fresh)
      (fun m hm => by rw [hother m (ne_of_lt (hm.trans_le hret)), hsame m (hm.trans_le (hret.trans hlt.le)), hold m hm])
      (by rw [hnode]) (fun e' he' => hes e' (List.mem_cons_of_mem e he')) hnodup
    have hleft : ∀ n m, R₁ n m → R₁ n m ∨ R n m := fun _ _ => Or.inl
    have hright : ∀ n m, R n m → R₁ n m ∨ R n m := fun _ _ => Or.inr
    refine ⟨h', fun n m => R₁ n m ∨ R n m, ?_, fun m hm hne => ?_, ⟨?_, ?_⟩, hreal', fun k hk => ?_, fun e' he' => ?_⟩
    · rw [List.foldlM_cons]
      simp only [copyField, hget, Option.bind_eq_bind, Option.bind_some, Option.pure_def, heq₂]
      exact hloop
    · rw [hsame' m (by rw [hfresh]; exact hm.trans_le hcopies.fresh) hne, hother m hne, hsame m hm]
    · exact hcopies.fresh.trans (hfresh.ge.trans hcopies'.fresh)
    · rintro m n (hR | hR)
      · obtain ⟨hlow, hhigh, hcopy⟩ := hcopies.copy m n hR
        have hne : m ≠ ret := (hlt.trans_le hlow).ne'
        have heq : h'.node m = h₁.node m := by rw [hsame' m (by rwa [hfresh]) hne, hother m hne]
        exact ⟨hlow, hhigh.trans_le (hfresh.ge.trans hcopies'.fresh), hcopy.mono hleft heq⟩
      · obtain ⟨hlow, hhigh, hcopy⟩ := hcopies'.copy m n hR
        rw [hfresh] at hlow
        exact ⟨hcopies.fresh.trans hlow, hhigh, hcopy.mono hright rfl⟩
    · rw [List.map_cons, List.mem_cons, not_or] at hk
      rw [hfields k hk.2, hnode, AList.lookup_insert_ne hk.1]
    · rcases List.mem_cons.1 he' with rfl | he'
      · exact ⟨v₁, by rw [hfields _ hnot, hnode, AList.lookup_insert], hmatches.mono hleft⟩
      · obtain ⟨v', hlookup, hv'⟩ := hlist e' he'
        exact ⟨v', hlookup, hv'.mono hright⟩

/-- **What `_getReal` does**: the value is copied, and the tables that there were are left as they are. -/
theorem getReal_spec (p : Pairs κ σ) {g : Heap κ σ} {rank : Nat → Nat} (hbare : g.Bare) (hrank : Ranked g.Child rank)
    (hknown : ∀ n m, g.Child n m → m < g.fresh) : ∀ fuel : Nat, GetsReal p g rank fuel
  | fuel, h, .scalar s, _, _, _, _ => ⟨h, .scalar s, fun _ _ => False, by cases fuel <;> rfl, fun _ _ => rfl,
      ⟨le_rfl, fun _ _ hR => hR.elim⟩, .scalar s⟩
  | 0, h, .table n, _, _, hfuel, _ => absurd (hfuel n rfl) (Nat.not_lt_zero _)
  | fuel + 1, h, .table n, hle, hold, hfuel, hn => by
    have hnode : h.node n = g.node n := hold n (hn n rfl)
    have hown : h.own n = g.own n := by rw [own, own, hnode]
    have hread := fun k => read_own n (hbare n) k
    have hnew : (h.new ∅).node h.fresh = ⟨∅, none⟩ := Function.update_self ..
    have hother : ∀ m ≠ h.fresh, (h.new ∅).node m = h.node m := fun m hm => Function.update_of_ne hm ..
    have hes : ∀ e ∈ p.order (h.own n).entries, Below rank fuel e.2 ∧ ∀ m, e.2 = .table m → m < g.fresh := by
      intro e he
      have hchild : ∀ m, e.2 = .table m → g.Child n m := by
        intro m hm
        rw [hown] at he
        exact ⟨e.1, by rw [hread, (mem_order p _ e).1 he, hm]⟩
      exact ⟨fun m hm => (hrank n m (hchild m hm)).trans_le (Nat.le_of_lt_succ (hfuel n rfl)),
        fun m hm => hknown n m (hchild m hm)⟩
    obtain ⟨h', R, hloop, hsame, hcopies, hreal, hfields, hlist⟩ := copy_loop (getReal_spec p hbare hrank hknown fuel) hle
      (p.order (h.own n).entries) (h.new ∅) (Nat.lt_succ_self _)
      (fun m hm => (hother m (hm.trans_le hle).ne).trans (hold m hm)) (by rw [hnew]) hes (nodup_order p _)
    have hsub : ∀ m n', R m n' → R m n' ∨ m = h.fresh ∧ n' = n := fun _ _ => Or.inl
    refine ⟨h', .table h.fresh, fun m n' => R m n' ∨ m = h.fresh ∧ n' = n, ?_, fun m hm => ?_, ⟨?_, ?_⟩,
      .table (Or.inr ⟨rfl, rfl⟩)⟩
    · rw [getReal]
      have hbind := congrArg (fun r : Option (Heap κ σ) => r.bind fun h' => some (h', (Value.table h.fresh : Value σ))) hloop
      exact hbind
    · rw [hsame m (Nat.lt_succ_of_lt hm) hm.ne, hother m hm.ne]
    · exact (Nat.le_succ _).trans hcopies.fresh
    · rintro m n' (hR | ⟨rfl, rfl⟩)
      · obtain ⟨hlow, hhigh, hcopy⟩ := hcopies.copy m n' hR
        exact ⟨(Nat.le_succ _).trans hlow, hhigh, hcopy.mono hsub rfl⟩
      · refine ⟨le_rfl, (Nat.lt_succ_self _).trans_le hcopies.fresh, hreal, fun k => ?_⟩
        rw [hread, ← hown]
        cases hk : (h.own n').lookup k with
        | none =>
          rw [hfields k (by rw [mem_order_keys, hk]; exact not_not.2 rfl), hnew]
          exact .none
        | some v =>
          obtain ⟨v', hv', hmatches⟩ := hlist ⟨k, v⟩ ((mem_order p _ _).2 hk)
          rw [hv']
          exact .some (hmatches.mono hsub)

end Heap
end TableMonitor
end Sncpp
