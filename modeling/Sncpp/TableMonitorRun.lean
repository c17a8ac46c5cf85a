import Sncpp.Steps
import Sncpp.TableReal
/-!
# TableMonitorRun — monitored tables over every run

The same operations on tables that tell their changes and on tables that do not: each gives the same, each write that changes
a value is told, and what is given back at any time is the table that tells nothing (`monitored_of_run`).
-/
namespace Sncpp
namespace TableMonitor

open TableMonitor.Heap (Child encode decode getReal Matches Copy)

variable {κ σ : Type} [DecidableEq κ]

structure Both (κ σ : Type) where
  monitored : Heap κ σ
  plain : Heap κ σ

inductive Event (κ σ : Type) where
  | new (fields : Fields κ σ)
  | write (n : Nat) (k : κ) (v : Option (Value σ))
  | read (n : Nat) (k : κ)
  | len (n : Nat)
  | pairs (n : Nat)

variable (p : Pairs κ σ) (f : Bool)

def step [BEq σ] (b : Both κ σ) : Event κ σ → Both κ σ
  | .new fields => ⟨b.monitored.new fields, b.plain.new fields⟩
  | .write n k v =>
    ⟨((b.monitored.write p f n k v).map Prod.fst).getD b.monitored, ((b.plain.write p f n k v).map Prod.fst).getD b.plain⟩
  | .read _ _ => b
  | .len _ => b
  | .pairs _ => b

structure Plain (h : Heap κ σ) : Prop where
  real : ∀ n, (h.node n).real = none
  known : ∀ n m, h.Child n m → m < h.fresh
  acyclic : ∃ rank, Ranked h.Child rank

/-- What is written is nil, a scalar, or a table that there is and that does not hold the one that is written to. -/
def Fits (b : Both κ σ) : Event κ σ → Prop
  | .new fields => ∀ k m, fields.lookup k = some (.table m) → m < b.plain.fresh
  | .write n _ (some (.table m)) => m < b.plain.fresh ∧ ¬Relation.ReflTransGen b.plain.Child m n
  | _ => True

/-- The table `v'` of `h` tells nothing, and is the same as `v` of `g`. -/
def Same (g : Heap κ σ) (v : Value σ) (h : Heap κ σ) (v' : Value σ) : Prop :=
  ∃ R, Matches R v' v ∧ ∀ m n, R m n → Copy g R h m n

/-- **`decode` and `getReal` of the table give the one that tells nothing.** -/
structure Restores (root : Nat) (b : Both κ σ) : Prop where
  decode : ∃ h, decode p (b.monitored.fresh + 1) b.monitored (.table root) = some h ∧
    Same b.plain (.table root) h (.table root)
  getReal : ∃ h v, getReal p (b.monitored.fresh + 1) b.monitored (.table root) = some (h, v) ∧
    Same b.plain (.table root) h v

def Does [BEq σ] (root : Nat) (b : Both κ σ) : Event κ σ → Prop
  | .new _ => b.monitored.fresh = b.plain.fresh
  | .write n k v => ∃ h call, b.monitored.write p f n k v = some (h, call) ∧
      (Relation.ReflTransGen b.plain.Child root n → (call.isSome ↔ f = true ∧ (b.plain.read n k != v) = true)) ∧
      ∀ c ∈ call, c.key = k ∧ c.value = v
  | .read n k => b.monitored.read n k = b.plain.read n k
  | .len n => ∀ index len, b.monitored.Len index n len ↔ b.plain.Len index n len
  | .pairs n => (b.monitored.pairs p n).Perm (b.plain.pairs p n)

def Right [BEq σ] (root : Nat) (b : Both κ σ) (e : Event κ σ) : Prop := Does p f root b e ∧ Restores p root (step p f b e)

/-- **The tables that tell their changes hold what the others do**; that of the program does tell them. -/
structure Good (root : Nat) (b : Both κ σ) : Prop where
  plain : Plain b.plain
  fresh : b.monitored.fresh = b.plain.fresh
  read : ∀ n k, b.monitored.read n k = b.plain.read n k
  closed : b.monitored.Closed
  told : (b.monitored.node root).real.isSome
  known : root < b.plain.fresh

theorem Plain.ranks {h : Heap κ σ} (hplain : Plain h) : ∃ rank, Ranked h.Child rank ∧ ∀ n, rank n ≤ h.fresh := by
  obtain ⟨rank, hrank⟩ := hplain.acyclic
  exact hrank.bounded hplain.known

namespace Good

variable {root : Nat} {b : Both κ σ}

theorem child (h : Good root b) : b.monitored.Child = b.plain.Child := by
  funext n m
  simp only [Child, h.read]

theorem restores (h : Good root b) : Restores p root b := by
  obtain ⟨rank, hrank, hle⟩ := h.plain.ranks
  rw [← h.child] at hrank
  have hbelow : Heap.Below rank (b.monitored.fresh + 1) (.table root : Value σ) := by
    intro m hm
    rw [h.fresh]
    exact Nat.lt_succ_of_le (hle m)
  constructor
  · obtain ⟨h', hdecode, hunwraps, hnone⟩ :=
      Heap.decode_spec p rank (b.monitored.fresh + 1) b.monitored (.table root) _ h.closed.bare hrank hbelow hbelow
    refine ⟨h', hdecode, fun m n => m = n ∧ Relation.ReflTransGen b.monitored.Child root m,
      .table ⟨rfl, Relation.ReflTransGen.refl⟩, ?_⟩
    rintro m n ⟨rfl, hm⟩
    have hreal := hnone root rfl m hm
    refine ⟨hreal, fun k => ?_⟩
    rw [← Heap.read_bare hreal, hunwraps.read m (Option.some_ne_none m), h.read]
    cases hk : b.plain.read m k with
    | none => exact .none
    | some v =>
      cases v with
      | scalar s => exact .some (.scalar s)
      | table c => exact .some (.table ⟨rfl, hm.tail ⟨k, by rw [h.read, hk]⟩⟩)
  · have hknown : ∀ n m, b.monitored.Child n m → m < b.monitored.fresh := by
      intro n m hm
      rw [h.fresh]
      rw [h.child] at hm
      exact h.plain.known n m hm
    obtain ⟨h', v, R, hget, -, hcopies, hmatches⟩ :=
      Heap.getReal_spec p h.closed.bare hrank hknown (b.monitored.fresh + 1) b.monitored (.table root) le_rfl
        (fun _ _ => rfl) hbelow (fun m hm => by rw [← Value.table.inj hm, h.fresh]; exact h.known)
    refine ⟨h', v, hget, R, hmatches, fun m n hR => ?_⟩
    obtain ⟨hreal, hfields⟩ := (hcopies.copy m n hR).2.2
    exact ⟨hreal, fun k => by rw [← h.read]; exact hfields k⟩

end Good

theorem lookup_rawset (fields : Fields κ σ) (k : κ) (v : Option (Value σ)) (k' : κ) :
    (rawset fields k v).lookup k' = if k' = k then v else fields.lookup k' := by
  by_cases hk : k' = k
  · rw [if_pos hk, hk]
    cases v with
    | none => exact AList.lookup_erase ..
    | some v => exact AList.lookup_insert ..
  · rw [if_neg hk]
    cases v with
    | none => exact AList.lookup_erase_ne hk
    | some v => exact AList.lookup_insert_ne hk

namespace Heap

variable {h : Heap κ σ} {n : Nat} {k : κ} {v : Option (Value σ)}

theorem write_bare [BEq σ] (hreal : (h.node n).real = none) :
    h.write p f n k v = some (h.setFields n (rawset (h.node n).fields k v), none) := by
  rw [write, hreal]
  split <;> rfl

structure Writes (n : Nat) (k : κ) (v : Option (Value σ)) (h h' : Heap κ σ) : Prop where
  fresh : h'.fresh = h.fresh
  read : ∀ m k', h'.read m k' = if m = n ∧ k' = k then v else h.read m k'
  closed : h.Closed → h'.Closed
  told : ∀ m, (h.node m).real.isSome → (h'.node m).real.isSome

theorem setFields_writes (hreal : (h.node n).real = none) : Writes n k v h (h.setFields n (rawset (h.node n).fields k v)) := by
  have hapart : Apart (fun _ => 0) n h (h.setFields n (rawset (h.node n).fields k v)) := Apart.setFields h hreal _
  have hnode : (h.setFields n (rawset (h.node n).fields k v)).node n = ⟨rawset (h.node n).fields k v, none⟩ := by
    rw [setFields, setNode_self, ← hreal]
  refine ⟨rfl, fun m k' => ?_, hapart.closed, fun m hm => hapart.isSome (fun heq => ?_) hm⟩
  · by_cases hm : m = n
    · rw [hm, read_bare (by rw [hnode]), hnode, lookup_rawset, read_bare hreal]
      simp only [true_and]
    · rw [if_neg fun heq => hm heq.1]
      exact hapart.read m hm k'
  · rw [heq, hreal] at hm
    cases hm

theorem encodeWritten_spec {rank : Nat → Nat} (hrank : Ranked h.Child rank) (hle : ∀ m, rank m ≤ h.fresh) (path : List κ)
    (v : Option (Value σ)) : ∃ h₁, h.encodeWritten p path v = some h₁ ∧ Wraps rank (h.fresh + 1) h h₁ ∧
      ∀ m, v = some (.table m) → (h₁.node m).real.isSome := by
  cases v with
  | none => exact ⟨h, rfl, Wraps.refl, fun m hm => by cases hm⟩
  | some v =>
    have hbelow : Below rank (h.fresh + 1) v := fun m _ => Nat.lt_succ_of_le (hle m)
    obtain ⟨h₁, hencode, hwraps, htold⟩ := encode_spec p rank _ h path v _ hrank hbelow hbelow
    exact ⟨h₁, hencode, hwraps, fun m hm => htold m (Option.some.inj hm)⟩

/-- **A table that tells its changes**: what is written is encoded, and the callback hears of it if it is not what was there. -/
theorem write_told [BEq σ] (hclosed : h.Closed) {rank : Nat → Nat} (hrank : Ranked h.Child rank) (hle : ∀ m, rank m ≤ h.fresh)
    {closure : Real κ σ} (hreal : (h.node n).real = some closure) : ∃ h', h.write p f n k v =
        some (h', if f && h.read n k != v then some ⟨closure.path, k, v⟩ else none) ∧ Writes n k v h h' := by
  have hempty : (h.node n).fields = ∅ := hclosed.bare n (by rw [hreal]; rfl)
  obtain ⟨h₁, hencode, hwraps, htold⟩ := encodeWritten_spec p hrank hle (closure.path ++ [k]) v
  have hnode : h₁.node n = h.node n := by
    rcases hwraps.node n with heq | ⟨hnone, -, -⟩
    · exact heq
    · rw [hnone] at hreal
      cases hreal
  have hold : ∀ k', h.read n k' = closure.fields.lookup k' := by
    intro k'
    rw [Heap.read, hreal, hempty]
    rfl
  let x : Node κ σ := ⟨∅, some { closure with fields := rawset closure.fields k v }⟩
  have hself : (h₁.setNode n x).node n = x := setNode_self ..
  have hother : ∀ m ≠ n, (h₁.setNode n x).node m = h₁.node m := fun m hm => h₁.setNode_of_ne hm x
  have hread : ∀ m k', (h₁.setNode n x).read m k' = if m = n ∧ k' = k then v else h.read m k' := by
    intro m k'
    by_cases hm : m = n
    · rw [hm, hold, Heap.read, hself]
      simp only [true_and]
      exact lookup_rawset closure.fields k v k'
    · rw [if_neg fun heq => hm heq.1, read_congr (hother m hm), hwraps.read]
  refine ⟨h₁.setNode n x, ?_, hwraps.fresh, hread, fun _ => ⟨fun m hm => ?_, ?_⟩, fun m hm => ?_⟩
  · have hwrite : h.write p f n k v = (h.encodeWritten p (closure.path ++ [k]) v).bind fun h => (h.node n).real.bind fun real =>
        some (h.setNode n { h.node n with real := some { real with fields := rawset real.fields k v } },
          if f && real.fields.lookup k != v then some ⟨closure.path, k, v⟩ else none) := by
      rw [write, hempty]
      simp only [hreal]
      rfl
    rw [hwrite, hencode, Option.bind_some, hnode, hreal, Option.bind_some, hold]
    simp only [hempty]
    rfl
  · by_cases hmn : m = n
    · rw [hmn, hself]
    · rw [hother m hmn] at hm ⊢
      exact (hwraps.closed hclosed).bare m hm
  · rintro m c hm ⟨k', hk'⟩
    rw [hread] at hk'
    have hc : (h₁.node c).real.isSome := by
      split at hk'
      · exact htold c hk'
      · have hm' : (h₁.node m).real.isSome := by
          by_cases hmn : m = n
          · rw [hmn, hnode, hreal]
            rfl
          · rwa [hother m hmn] at hm
        exact (hwraps.closed hclosed).real m c hm' ⟨k', (hwraps.read m k').trans hk'⟩
    by_cases hcn : c = n
    · rw [hcn, hself]
      rfl
    · rwa [hother c hcn]
  · by_cases hmn : m = n
    · rw [hmn, hself]
      rfl
    · rw [hother m hmn]
      exact hwraps.isSome hm

/-- **A write and the call of the callback**, which there is for each change of a table that tells its changes. -/
theorem write_spec [BEq σ] (hclosed : h.Closed) {rank : Nat → Nat} (hrank : Ranked h.Child rank) (hle : ∀ m, rank m ≤ h.fresh) :
    ∃ h' call, h.write p f n k v = some (h', call) ∧ Writes n k v h h' ∧
      ((h.node n).real.isSome → (call.isSome ↔ f = true ∧ (h.read n k != v) = true)) ∧ ∀ c ∈ call, c.key = k ∧ c.value = v := by
  cases hreal : (h.node n).real with
  | none => exact ⟨_, none, write_bare p f hreal, setFields_writes hreal, nofun, nofun⟩
  | some closure =>
    obtain ⟨h', hwrite, hwrites⟩ := write_told p f hclosed hrank hle (k := k) (v := v) hreal
    refine ⟨h', _, hwrite, hwrites, fun _ => ?_, fun c hc => ?_⟩
    · rw [← Bool.and_eq_true_iff]
      split
      · next hcall => exact iff_of_true rfl hcall
      · next hcall => exact iff_of_false nofun hcall
    · split at hc
      · obtain rfl := Option.some.inj hc
        exact ⟨rfl, rfl⟩
      · cases hc

theorem read_new (h : Heap κ σ) (fields : Fields κ σ) (m : Nat) (k : κ) :
    (h.new fields).read m k = if m = h.fresh then fields.lookup k else h.read m k := by
  by_cases hm : m = h.fresh
  · have hnode : (h.new fields).node h.fresh = ⟨fields, none⟩ := Function.update_self ..
    rw [if_pos hm, hm, read_bare (by rw [hnode]), hnode]
  · rw [if_neg hm]
    exact read_congr (Function.update_of_ne hm _ _) k

end Heap

namespace Plain

variable {h : Heap κ σ}

theorem closed (hplain : Plain h) : h.Closed where
  bare n hn := by
    rw [hplain.real n] at hn
    cases hn
  real n m hn := by
    rw [hplain.real n] at hn
    cases hn

theorem new (hplain : Plain h) {fields : Fields κ σ} (hfields : ∀ k m, fields.lookup k = some (.table m) → m < h.fresh) :
    Plain (h.new fields) := by
  have hchild : ∀ a b, (h.new fields).Child a b → a ≠ h.fresh ∧ h.Child a b ∨ a = h.fresh ∧ b < h.fresh := by
    rintro a b ⟨k, hk⟩
    rw [Heap.read_new] at hk
    by_cases ha : a = h.fresh
    · rw [if_pos ha] at hk
      exact Or.inr ⟨ha, hfields k b hk⟩
    · rw [if_neg ha] at hk
      exact Or.inl ⟨ha, k, hk⟩
  obtain ⟨rank, hrank, hle⟩ := hplain.ranks
  refine ⟨fun n => ?_, fun a b hab => ?_, Function.update rank h.fresh (h.fresh + 1), fun a b hab => ?_⟩
  · by_cases hn : n = h.fresh
    · rw [hn, show (h.new fields).node h.fresh = ⟨fields, none⟩ from Function.update_self ..]
    · rw [show (h.new fields).node n = h.node n from Function.update_of_ne hn ..]
      exact hplain.real n
  · rcases hchild a b hab with ⟨-, hab⟩ | ⟨-, hb⟩
    · exact Nat.lt_succ_of_lt (hplain.known a b hab)
    · exact Nat.lt_succ_of_lt hb
  · rcases hchild a b hab with ⟨ha, hab⟩ | ⟨rfl, hb⟩
    · rw [Function.update_of_ne ha, Function.update_of_ne (hplain.known a b hab).ne]
      exact hrank a b hab
    · rw [Function.update_self, Function.update_of_ne hb.ne]
      exact Nat.lt_succ_of_le (hle b)

theorem write (hplain : Plain h) {n : Nat} {k : κ} {v : Option (Value σ)}
    (hv : ∀ m, v = some (.table m) → m < h.fresh ∧ ¬Relation.ReflTransGen h.Child m n) :
    Plain (h.setFields n (rawset (h.node n).fields k v)) := by
  have hwrites : Heap.Writes n k v h _ := Heap.setFields_writes (hplain.real n)
  have hchild : ∀ a b, (h.setFields n (rawset (h.node n).fields k v)).Child a b →
      h.Child a b ∨ a = n ∧ v = some (.table b) := by
    rintro a b ⟨k', hk'⟩
    rw [hwrites.read] at hk'
    split at hk'
    · next heq => exact Or.inr ⟨heq.1, hk'⟩
    · exact Or.inl ⟨k', hk'⟩
  refine ⟨fun m => ?_, fun a b hab => (hchild a b hab).elim (hplain.known a b) fun hv' => (hv b hv'.2).1, ?_⟩
  · by_cases hm : m = n
    · rw [hm, Heap.setFields, Heap.setNode_self]
      exact hplain.real n
    · rw [Heap.setFields, Heap.setNode_of_ne _ hm]
      exact hplain.real m
  · obtain ⟨rank, hrank⟩ := hplain.acyclic
    by_cases hm : ∃ m, v = some (.table m)
    · -- a table is put into another
      obtain ⟨m, rfl⟩ := hm
      obtain ⟨rank', hrank'⟩ := hrank.add (hv m rfl).2
      refine ⟨rank', hrank'.mono fun a b hab => (hchild a b hab).imp_right fun hnew => ⟨hnew.1, ?_⟩⟩
      exact (Value.table.inj (Option.some.inj hnew.2)).symm
    · exact ⟨rank, hrank.mono fun a b hab => (hchild a b hab).resolve_right fun hv' => hm ⟨b, hv'.2⟩⟩

end Plain

namespace Good

variable {root : Nat} {b : Both κ σ} {e : Event κ σ}

theorem told_of_reach (h : Good root b) {n : Nat} (hn : Relation.ReflTransGen b.plain.Child root n) :
    (b.monitored.node n).real.isSome := by
  induction hn with
  | refl => exact h.told
  | tail _ hchild ih => exact h.closed.real _ _ ih (by rwa [h.child])

theorem own_lookup (h : Good root b) (n : Nat) (k : κ) : (b.monitored.own n).lookup k = (b.plain.own n).lookup k := by
  rw [← h.closed.read, h.read, ← h.plain.closed.read]

theorem own_perm (h : Good root b) (n : Nat) : (b.monitored.own n).entries.Perm (b.plain.own n).entries := by
  refine (List.perm_ext_iff_of_nodup (b.monitored.own n).nodupKeys.nodup (b.plain.own n).nodupKeys.nodup).2 fun e => ?_
  rw [← AList.mem_lookup_iff, ← AList.mem_lookup_iff, h.own_lookup]

theorem new (h : Good root b) {fields : Fields κ σ}
    (hfields : ∀ k m, fields.lookup k = some (.table m) → m < b.plain.fresh) :
    Good root ⟨b.monitored.new fields, b.plain.new fields⟩ := by
  have hself : (b.monitored.new fields).node b.plain.fresh = ⟨fields, none⟩ := by
    rw [← h.fresh]
    exact Function.update_self ..
  have hother : ∀ m ≠ b.plain.fresh, (b.monitored.new fields).node m = b.monitored.node m := by
    intro m hm
    rw [← h.fresh] at hm
    exact Function.update_of_ne hm ..
  refine ⟨h.plain.new hfields, congrArg Nat.succ h.fresh, fun n k => ?_, ⟨fun n hn => ?_, ?_⟩, ?_, Nat.lt_succ_of_lt h.known⟩
  · rw [Heap.read_new, Heap.read_new, h.fresh, h.read]
  · by_cases hm : n = b.plain.fresh
    · rw [hm, hself] at hn
      cases hn
    · rw [hother n hm] at hn ⊢
      exact h.closed.bare n hn
  · rintro n m hn ⟨k, hk⟩
    by_cases hm : n = b.plain.fresh
    · rw [hm, hself] at hn
      cases hn
    · rw [Heap.read_new, h.fresh, if_neg hm] at hk
      rw [hother n hm] at hn
      have hknown := h.plain.known n m ⟨k, by rw [← h.read, hk]⟩
      rw [hother m hknown.ne]
      exact h.closed.real n m hn ⟨k, hk⟩
  · rw [hother root h.known.ne]
    exact h.told

variable [BEq σ]

theorem write (h : Good root b) {n : Nat} {k : κ} {v : Option (Value σ)}
    (hv : ∀ m, v = some (.table m) → m < b.plain.fresh ∧ ¬Relation.ReflTransGen b.plain.Child m n) :
    Good root (step p f b (.write n k v)) ∧ Does p f root b (.write n k v) := by
  obtain ⟨rank, hrank, hle⟩ := h.plain.ranks
  rw [← h.child] at hrank
  rw [← h.fresh] at hle
  obtain ⟨h', call, hwrite, hwrites, hcall, hsaid⟩ := Heap.write_spec p f h.closed hrank hle (n := n) (k := k) (v := v)
  have hplain : Heap.Writes n k v b.plain _ := Heap.setFields_writes (h.plain.real n)
  have hstep : step p f b (.write n k v) = ⟨h', b.plain.setFields n (rawset (b.plain.node n).fields k v)⟩ := by
    rw [step, hwrite, Heap.write_bare p f (h.plain.real n)]
    rfl
  refine ⟨?_, h', call, hwrite, fun hn => ?_, hsaid⟩
  · rw [hstep]
    refine ⟨h.plain.write hv, hwrites.fresh.trans h.fresh, fun m k' => ?_, hwrites.closed h.closed,
      hwrites.told root h.told, h.known⟩
    rw [hwrites.read, hplain.read, h.read]
  · rw [← h.read]
    exact hcall (h.told_of_reach hn)

theorem step (h : Good root b) (he : Fits b e) : Good root (step p f b e) ∧ Right p f root b e := by
  have hdoes : Good root (TableMonitor.step p f b e) ∧ Does p f root b e := by
    cases e with
    | new fields => exact ⟨h.new he, h.fresh⟩
    | write n k v =>
      refine h.write p f fun m hm => ?_
      rw [hm] at he
      exact he
    | read n k => exact ⟨h, h.read n k⟩
    | len n =>
      refine ⟨h, fun index len => ?_⟩
      unfold Heap.Len Border
      rw [h.own_lookup, h.own_lookup]
    | pairs n => exact ⟨h, ((p.perm _).trans (h.own_perm n)).trans (p.perm _).symm⟩
  exact ⟨hdoes.1, hdoes.2, hdoes.1.restores p⟩

end Good

/-- **Tables that tell their changes are as the tables that do not.**  `encode` of a table returns; whatever is then done to
both, each operation gives the same, the callback is called for the writes that change a value, and `decode` and `getReal`
give the table that tells nothing. -/
theorem monitored_of_run [BEq σ] {h : Heap κ σ} (hplain : Plain h) {root : Nat} (hroot : root < h.fresh)
    (path : List κ) (es : List (Event κ σ)) : ∃ h₁, encode p (h.fresh + 1) h path (.table root) = some h₁ ∧
      Restores p root ⟨h₁, h⟩ ∧
      (Steps.Along (step p f) Fits ⟨h₁, h⟩ es → Steps.Along (step p f) (Right p f root) ⟨h₁, h⟩ es) := by
  obtain ⟨rank, hrank, hle⟩ := hplain.ranks
  have hbelow : Heap.Below rank (h.fresh + 1) (.table root : Value σ) := fun m _ => Nat.lt_succ_of_le (hle m)
  obtain ⟨h₁, hencode, hwraps, htold⟩ := Heap.encode_spec p rank _ h path (.table root) _ hrank hbelow hbelow
  have hgood : Good root ⟨h₁, h⟩ :=
    ⟨hplain, hwraps.fresh, hwraps.read, hwraps.closed hplain.closed, htold root rfl, hroot⟩
  refine ⟨h₁, hencode, hgood.restores p, fun hes => ?_⟩
  exact Steps.Along.keep (I := Good root) (fun _ _ he hb => hb.step p f he) es _ hgood hes

def Heap.one (κ σ : Type) : Heap κ σ := ⟨fun _ => ⟨∅, none⟩, 1⟩

theorem Plain.one : Plain (Heap.one κ σ) where
  real _ := rfl
  known _ _ h := by
    obtain ⟨k, hk⟩ := h
    cases hk
  acyclic := by
    refine ⟨fun _ => 0, fun a b h => ?_⟩
    obtain ⟨k, hk⟩ := h
    cases hk

theorem monitored_of_run_nested : ∃ h₁, encode ⟨id, .refl⟩ 2 (Heap.one Nat Bool) [] (.table 0) = some h₁ ∧
    Steps.Along (step ⟨id, .refl⟩ true) (Right ⟨id, .refl⟩ true 0) ⟨h₁, Heap.one Nat Bool⟩
      [.new ∅, .write 0 5 (some (.table 1)), .write 1 3 (some (.scalar true)), .len 1] := by
  obtain ⟨h₁, hencode, -, hrun⟩ := monitored_of_run ⟨id, .refl⟩ true Plain.one Nat.one_pos []
    [.new ∅, .write 0 5 (some (.table 1)), .write 1 3 (some (.scalar true)), .len 1]
  refine ⟨h₁, hencode, hrun ⟨nofun, ⟨Nat.lt_succ_self 1, fun hreach => ?_⟩, trivial, trivial, trivial⟩⟩
  -- the new table holds nothing
  rcases hreach.cases_head with h | ⟨c, ⟨k, hk⟩, -⟩
  · cases h
  · cases hk

end TableMonitor
end Sncpp
