import Sncpp.WordFilterSound
/-!
# WordFilterUndo — two filters that look alike along lower-case code points

What looking into a filter shows (`Shows`) is which levels are there and which of them end a word.
-/
namespace Sncpp
namespace WordFilter
namespace Filter

variable {f g : Filter}

/-! ## What looking into a filter shows -/

/-- **Along lower-case code points these levels are there, and these of them end a word.** -/
structure Shows (ignoreCode : List Nat) (replaceCode : Nat) (I : Filter → Prop) (leads ends : List Nat → Prop) : Prop where
  stable : Stable I
  ignoreCode : ∀ f, I f → f.ignoreCode = ignoreCode
  replaceCode : ∀ f, I f → f.replaceCode = replaceCode
  there : ∀ f path code, I f → f.Opened path → Lower (code :: path) →
    ((f.level (code :: path)).isSome = true ↔ leads (code :: path))
  ended : ∀ f path code, I f → f.Opened path → Lower (code :: path) → leads (code :: path) →
    ((f.unfoldLevel (code :: path)).isEnd (code :: path) = true ↔ ends (code :: path))

variable {ignoreCode : List Nat} {replaceCode : Nat} {W : List (List Nat)} {I J : Filter → Prop}
  {leads leads' ends ends' : List Nat → Prop}

theorem Ready.shows : Shows ignoreCode replaceCode (Ready ignoreCode replaceCode W) (Leads W) (fun p => p.reverse ∈ W) where
  stable := Ready.stable
  ignoreCode _ h := h.ignoreCode
  replaceCode _ h := h.replaceCode
  there _ _ code h hopen _ := h.sound.trie.leads_iff hopen code
  ended _ _ code h hopen _ hleads := ((h.sound.trie.look hopen code).resolve_left fun hno => hno.2 hleads).2.2.2

theorem Shows.look (hI : Shows ignoreCode replaceCode I leads ends) (h : I f) {path : List Nat} (hopen : f.Opened path)
    (hlow : Lower path) (code : Nat) :
    I (f.unfoldLevel (convertEnLowerCode code :: path)) ∧
    (((f.unfoldLevel (convertEnLowerCode code :: path)).level (convertEnLowerCode code :: path)).isNone = true ∧
        ¬leads (convertEnLowerCode code :: path) ∨
      ((f.unfoldLevel (convertEnLowerCode code :: path)).level (convertEnLowerCode code :: path)).isNone = false ∧
        leads (convertEnLowerCode code :: path) ∧
        (f.unfoldLevel (convertEnLowerCode code :: path)).Opened (convertEnLowerCode code :: path) ∧
        ((f.unfoldLevel (convertEnLowerCode code :: path)).isEnd (convertEnLowerCode code :: path) = true ↔
          ends (convertEnLowerCode code :: path))) := by
  have hlow' := hlow.cons code
  have hthere := hI.there f path _ h hopen hlow'
  obtain ⟨hsame, hopens, -⟩ := unfoldLevel_levels f (convertEnLowerCode code :: path)
  refine ⟨hI.stable f _ (List.cons_ne_nil _ _) hlow' h, ?_⟩
  by_cases hsome : (f.level (convertEnLowerCode code :: path)).isSome = true
  · refine .inr ⟨?_, hthere.1 hsome, hopens (List.cons_ne_nil _ _) hsome,
      hI.ended f path _ h hopen hlow' (hthere.1 hsome)⟩
    rw [← Option.not_isSome, hsame, hsome]
    rfl
  · refine .inl ⟨?_, fun hleads => hsome (hthere.2 hleads)⟩
    rw [← Option.not_isSome, hsame, Bool.eq_false_iff.2 hsome]
    rfl

def unmark (f : Filter) (path : List Nat) : Filter := f.modify path (fun level => { level with isEnd := false })

theorem opened_unmark {k p : List Nat} : (f.unmark k).Opened p ↔ f.Opened p := by
  refine ⟨fun h => h.imp id fun ⟨level, hl, hi⟩ => ?_, fun h => h.modify k fun _ h => h⟩
  by_cases hp : p = k
  · subst hp
    unfold unmark at hl
    rw [modify_self] at hl
    obtain ⟨level', hl', rfl⟩ := Option.map_eq_some_iff.1 hl
    exact ⟨level', hl', hi⟩
  · exact ⟨level, (modify_other _ hp).symm.trans hl, hi⟩

theorem unmark_isSome (f : Filter) (k p : List Nat) : ((f.unmark k).level p).isSome = (f.level p).isSome := by
  by_cases hp : p = k
  · subst hp
    unfold unmark
    rw [modify_self, Option.isSome_map]
  · unfold unmark
    rw [modify_other _ hp]

theorem unfoldLevel_unmark (h : Trie W f) {k : List Nat} (hk : k ≠ []) (hopen : f.Opened k) {path : List Nat}
    (hp : path ≠ []) : (f.unmark k).unfoldLevel path = (f.unfoldLevel path).unmark k := by
  obtain ⟨levelk, hlk, hik⟩ := hopen.resolve_left hk
  cases hl : f.level path with
  | none =>
    have hnone : (f.unmark k).level path = none := Option.isNone_iff_eq_none.1 (by
      rw [← Option.not_isSome, unmark_isSome, hl]
      rfl)
    rw [unfoldLevel_none hl, unfoldLevel_none hnone]
  | some level =>
    by_cases hi : level.isInit = true
    · obtain ⟨level', hl', hi'⟩ := (opened_unmark (k := k).2 (.inr ⟨level, hl, hi⟩)).resolve_left hp
      rw [unfoldLevel_init hl hi, unfoldLevel_init hl' hi']
    have hi := Bool.eq_false_iff.2 hi
    obtain ⟨-, -, hnone⟩ := h.folded path level hp hl hi
    have hpk : path ≠ k := by
      rintro rfl
      rw [Option.some.inj (hl.symm.trans hlk), hik] at hi
      cases hi
    have hkc : ∀ code, code :: path ≠ k := by
      rintro code rfl
      cases (hnone code).symm.trans hlk
    have hother : ∀ p, p ≠ k → (f.unmark k).level p = f.level p := fun p hp => modify_other _ hp
    obtain ⟨hself, htails, hrest⟩ := unfoldLevel_folded hl hi hnone
    obtain ⟨hself', htails', hrest'⟩ := unfoldLevel_folded ((hother path hpk).trans hl) hi
      (fun code => (hother _ (hkc code)).trans (hnone code))
    refine filter_ext ((unfoldLevel_codes _ _).2.trans (unfoldLevel_codes f path).2.symm)
      ((unfoldLevel_codes _ _).1.trans (unfoldLevel_codes f path).1.symm) (fun q => ?_)
    by_cases hqp : q = path
    · subst hqp
      rw [hself']
      exact ((modify_other _ hpk).trans hself).symm
    by_cases hqc : ∃ code, q = code :: path
    · obtain ⟨code, rfl⟩ := hqc
      rw [htails']
      exact ((modify_other _ (hkc code)).trans (htails code)).symm
    rw [hrest' q hqp (not_exists.1 hqc)]
    by_cases hqk : q = k
    · subst hqk
      unfold unmark
      rw [modify_self, modify_self, hrest q hqp (not_exists.1 hqc)]
    · unfold unmark
      rw [modify_other _ hqk, modify_other _ hqk, hrest q hqp (not_exists.1 hqc)]

def Unmarked (ignoreCode : List Nat) (replaceCode : Nat) (W : List (List Nat)) (k : List Nat) (f : Filter) : Prop :=
  ∃ g, Ready ignoreCode replaceCode W g ∧ g.Opened k ∧ f = g.unmark k

theorem Unmarked.shows {k : List Nat} (hk : k ≠ []) : Shows ignoreCode replaceCode (Unmarked ignoreCode replaceCode W k)
    (Leads W) (fun p => p.reverse ∈ W ∧ p ≠ k) where
  stable := by
    rintro f path hp hlow ⟨g, hg, hopen, rfl⟩
    exact ⟨g.unfoldLevel path, Ready.stable g path hp hlow hg, (unfoldLevel_levels g path).2.2 k hopen,
      unfoldLevel_unmark hg.sound.trie hk hopen hp⟩
  ignoreCode := by
    rintro f ⟨g, hg, -, rfl⟩
    exact hg.ignoreCode
  replaceCode := by
    rintro f ⟨g, hg, -, rfl⟩
    exact hg.replaceCode
  there := by
    rintro f path code ⟨g, hg, -, rfl⟩ hopen _
    rw [unmark_isSome]
    exact hg.sound.trie.leads_iff (opened_unmark.1 hopen) code
  ended := by
    rintro f path code ⟨g, hg, hopenk, rfl⟩ hopen hlow hleads
    rw [unfoldLevel_unmark hg.sound.trie hk hopenk (List.cons_ne_nil _ _)]
    have hend := Ready.shows.ended g path code hg (opened_unmark.1 hopen) hlow hleads
    by_cases hkc : code :: path = k
    · rw [hkc]
      refine iff_of_false ?_ (fun h => h.2 rfl)
      unfold isEnd unmark
      rw [modify_self, Option.any_map]
      simp
    · rw [and_iff_left hkc, ← hend]
      unfold isEnd unmark
      rw [modify_other _ hkc]

/-- **A way stops short**: the second filter has levels along it, the first does not, and no word ends on it. -/
def Stump (leads leads' ends : List Nat → Prop) (path t : List Nat) : Prop :=
  leads' (t.reverse ++ path) ∧ ¬leads (t.reverse ++ path) ∧ ∀ u v, t = u ++ v → u ≠ [] → ¬ends (u.reverse ++ path)

/-- What is to be known of the two: the second has further levels, but the same ends. -/
structure Alongside (leads leads' ends ends' : List Nat → Prop) : Prop where
  more : ∀ p, leads p → leads' p
  same : ∀ p, p ≠ [] → Lower p → (ends p ↔ ends' p)
  back : ∀ front p, p ≠ [] → leads (front ++ p) → leads p
  back' : ∀ front p, p ≠ [] → leads' (front ++ p) → leads' p
  ends_leads : ∀ p, p ≠ [] → ends p → leads p
  ends_leads' : ∀ p, p ≠ [] → ends' p → leads' p

def read (ignoreCode iter : List Nat) : List Nat := heard ignoreCode (iter.map convertEnLowerCode)

theorem read_lower (ignoreCode iter : List Nat) : Lower (read ignoreCode iter) := by
  intro c hc
  obtain ⟨code, -, rfl⟩ := List.mem_map.1 (mem_heard.1 hc).1
  exact convertEnLowerCode_idem code

theorem read_ignored {code : Nat} (h : convertEnLowerCode code ∈ ignoreCode) (iter : List Nat) :
    read ignoreCode (code :: iter) = read ignoreCode iter :=
  heard_ignored (by simpa using h) _

theorem read_cons {code : Nat} (h : convertEnLowerCode code ∉ ignoreCode) (iter : List Nat) :
    read ignoreCode (code :: iter) = convertEnLowerCode code :: read ignoreCode iter :=
  heard_cons (by simpa using h) _

theorem reverse_cons_append (code : Nat) (t path : List Nat) : (code :: t).reverse ++ path = t.reverse ++ code :: path := by
  simp

theorem Shows.findEnd_past (hJ : Shows ignoreCode replaceCode J leads' ends') (hL : Alongside leads leads' ends ends')
    (codeList : List Nat) : ∀ (iter : List Nat) {g : Filter} (path tempList : List Nat) (b : Option Nat), J g →
    g.Opened path → Lower path → path ≠ [] → leads' path → ¬leads path → tempList ≠ [] →
    (findEnd codeList g path tempList b iter).replace = none ∧
      (¬(2 ≤ (tempList ++ iter).length ∧ leads' ((read ignoreCode iter).reverse ++ path)) →
        (findEnd codeList g path tempList b iter).codeList = codeList ++ tempList.take 1)
  | [], g, path, tempList, b, _, _, _, _, hleads, _, _ => by
    refine ⟨rfl, fun hshort => ?_⟩
    show codeList ++ tempList = _
    rw [List.append_nil] at hshort
    rw [List.take_of_length_le]
    have hone : ¬2 ≤ tempList.length := fun htwo => hshort ⟨htwo, hleads⟩
    omega
  | code :: iter, g, path, tempList, b, h, hopen, hlow, hp, hleads, hno, htemp => by
    obtain ⟨hkeep, hlook⟩ := hJ.look h hopen hlow code
    have htake : (tempList ++ [convertEnLowerCode code]).take 1 = tempList.take 1 :=
      List.take_append_of_le_length (List.length_pos_iff.2 htemp)
    have hlen : (tempList ++ [convertEnLowerCode code] ++ iter).length = (tempList ++ code :: iter).length := by simp
    have htemp' : tempList ++ [convertEnLowerCode code] ≠ [] := by simp
    unfold findEnd
    simp only
    by_cases hign : g.ignores (convertEnLowerCode code) = true
    · rw [if_pos hign, ← htake, ← hlen, read_ignored (hJ.ignoreCode g h ▸ ignores_iff.1 hign)]
      exact hJ.findEnd_past hL codeList iter _ _ _ h hopen hlow hp hleads hno htemp'
    rw [if_neg hign, ← hlen, read_cons (hJ.ignoreCode g h ▸ fun hmem => hign (ignores_iff.2 hmem)), reverse_cons_append]
    generalize g.unfoldLevel (convertEnLowerCode code :: path) = g' at hkeep hlook ⊢
    have hno' : ¬leads (convertEnLowerCode code :: path) := fun hl => hno (hL.back [convertEnLowerCode code] path hp hl)
    rcases hlook with ⟨hnone, -⟩ | ⟨hsome, hleads', hopen', hend⟩
    · rw [if_pos hnone]
      refine ⟨rfl, fun _ => ?_⟩
      show codeList ++ _ = _
      rw [htake]
    · have hno'' : ¬g'.isEnd (convertEnLowerCode code :: path) = true := fun he => hno'
        (hL.ends_leads _ (List.cons_ne_nil _ _) ((hL.same _ (List.cons_ne_nil _ _) (hlow.cons code)).2 (hend.1 he)))
      rw [hsome, if_neg Bool.false_ne_true, if_neg hno'', ← htake]
      exact hJ.findEnd_past hL codeList iter _ _ _ hkeep hopen' (hlow.cons code) (List.cons_ne_nil _ _) hleads' hno' htemp'

structure Agree (look look' : Look) : Prop where
  codeList : look.codeList = look'.codeList
  replace : look.replace = look'.replace
  iter : ∀ r, look.replace = some r → look.iter = look'.iter

theorem Shows.findEnd_agree (hI : Shows ignoreCode replaceCode I leads ends)
    (hJ : Shows ignoreCode replaceCode J leads' ends') (hL : Alongside leads leads' ends ends') (codeList : List Nat) :
    ∀ (iter : List Nat) {f g : Filter} (path tempList : List Nat) (b : Option Nat), I f → J g → f.Opened path →
    g.Opened path → Lower path → (2 ≤ (tempList ++ iter).length → ¬Stump leads leads' ends path (read ignoreCode iter)) →
    Agree (findEnd codeList f path tempList b iter) (findEnd codeList g path tempList b iter)
  | [], _, _, _, _, _, _, _, _, _, _, _ => ⟨rfl, rfl, fun _ _ => rfl⟩
  | code :: iter, f, g, path, tempList, b, hf, hg, hfo, hgo, hlow, hstump => by
    obtain ⟨hkf, hlf⟩ := hI.look hf hfo hlow code
    obtain ⟨hkg, hlg⟩ := hJ.look hg hgo hlow code
    have hlen : (tempList ++ [convertEnLowerCode code] ++ iter).length = (tempList ++ code :: iter).length := by simp
    have hignores : g.ignores (convertEnLowerCode code) = f.ignores (convertEnLowerCode code) := by
      unfold ignores
      rw [hI.ignoreCode f hf, hJ.ignoreCode g hg]
    unfold findEnd
    simp only
    rw [hignores]
    by_cases hign : f.ignores (convertEnLowerCode code) = true
    · rw [if_pos hign, if_pos hign]
      rw [read_ignored (hI.ignoreCode f hf ▸ ignores_iff.1 hign), ← hlen] at hstump
      exact hI.findEnd_agree hJ hL codeList iter _ _ _ hf hg hfo hgo hlow hstump
    rw [if_neg hign, if_neg hign]
    rw [read_cons (hI.ignoreCode f hf ▸ fun hmem => hign (ignores_iff.2 hmem)), ← hlen] at hstump
    generalize f.unfoldLevel (convertEnLowerCode code :: path) = f' at hkf hlf ⊢
    generalize g.unfoldLevel (convertEnLowerCode code :: path) = g' at hkg hlg ⊢
    have hsame := hL.same (convertEnLowerCode code :: path) (List.cons_ne_nil _ _) (hlow.cons code)
    rcases hlf with ⟨hnf, hnl⟩ | ⟨hyf, hl, hof, hef⟩
    · rw [if_pos hnf]
      rcases hlg with ⟨hng, -⟩ | ⟨hyg, hl', hog, heg⟩
      · rw [if_pos hng]
        exact ⟨rfl, rfl, fun _ _ => rfl⟩
      · -- the second filter goes on alone
        have hnone : ¬ends (convertEnLowerCode code :: path) := fun he => hnl (hL.ends_leads _ (List.cons_ne_nil _ _) he)
        obtain ⟨hreplace, hlist⟩ := hJ.findEnd_past hL codeList iter (convertEnLowerCode code :: path)
          (tempList ++ [convertEnLowerCode code])
          (some (b.getD (codeList.length + (tempList ++ [convertEnLowerCode code]).length))) hkg hog (hlow.cons code)
          (List.cons_ne_nil _ _) hl' hnl (by simp)
        rw [hyg, if_neg Bool.false_ne_true, if_neg fun he => hnone (hsame.2 (heg.1 he))]
        refine ⟨(hlist fun hboth => hstump hboth.1 ⟨?_, fun hlong => ?_, fun u v huv hu he => ?_⟩).symm, hreplace.symm,
          fun r hr => by cases hr⟩
        · rw [reverse_cons_append]
          exact hboth.2
        · rw [reverse_cons_append] at hlong
          exact hnl (hL.back _ _ (List.cons_ne_nil _ _) hlong)
        · cases u with
          | nil => exact hu rfl
          | cons c u =>
            obtain ⟨rfl, -⟩ := List.cons.inj huv
            rw [reverse_cons_append] at he
            exact hnl (hL.back _ _ (List.cons_ne_nil _ _) (hL.ends_leads _ (by simp) he))
    · rcases hlg with ⟨-, hnl'⟩ | ⟨hyg, -, hog, heg⟩
      · exact absurd (hL.more _ hl) hnl'
      have hend : f'.isEnd (convertEnLowerCode code :: path) = g'.isEnd (convertEnLowerCode code :: path) :=
        Bool.eq_iff_iff.2 (hef.trans (hsame.trans heg.symm))
      rw [hyf, hyg, hend, if_neg Bool.false_ne_true, if_neg Bool.false_ne_true]
      by_cases hover : g'.isEnd (convertEnLowerCode code :: path) = true
      · rw [if_pos hover, if_pos hover]
        exact ⟨rfl, rfl, fun _ _ => rfl⟩
      rw [if_neg hover, if_neg hover]
      refine hI.findEnd_agree hJ hL codeList iter _ _ _ hkf hkg hof hog (hlow.cons code) (fun htwo hshort => ?_)
      obtain ⟨hmore, hless, hnone⟩ := hshort
      refine hstump htwo ⟨?_, ?_, fun u v huv hu he => ?_⟩
      · rw [reverse_cons_append]
        exact hmore
      · rw [reverse_cons_append]
        exact hless
      · cases u with
        | nil => exact hu rfl
        | cons c u =>
          obtain ⟨rfl, hrest⟩ := List.cons.inj huv
          rw [reverse_cons_append] at he
          by_cases hu' : u = []
          · subst hu'
            exact hover (heg.2 (hsame.1 he))
          · exact hnone u v hrest hu' he

theorem Shows.stretch_letters (hI : Shows ignoreCode replaceCode I leads ends)
    (hback : ∀ front p, p ≠ [] → leads (front ++ p) → leads p) (hends : ∀ p, p ≠ [] → ends p → leads p) :
    ∀ (iter : List Nat) {f : Filter} (path : List Nat) (next : Option (List Nat)) (tempList : List Nat) (new : Bool), I f →
    f.Opened path → Lower path →
    (letters iter = [] → stretch f (some path) next tempList new iter =
      ⟨f, next, tempList ++ (iter.take 1).map convertEnLowerCode, new, iter.drop 1⟩) ∧
    (letters iter ≠ [] → (stretch f (some path) next tempList new iter).hasNewLetter = true ∧
      ((stretch f (some path) next tempList new iter).next.any (stretch f (some path) next tempList new iter).filter.isEnd =
        true ↔ ends ((letters iter).reverse ++ path)) ∧
      (ends ((letters iter).reverse ++ path) →
        (stretch f (some path) next tempList new iter).tempList =
          tempList ++ (iter.take ((letters iter).length + 1)).map convertEnLowerCode ∧
        (stretch f (some path) next tempList new iter).iter = iter.drop ((letters iter).length + 1)))
  | [], _, _, _, tempList, _, _, _, _ =>
    ⟨fun _ => by rw [List.take_nil, List.map_nil, List.append_nil]; rfl, fun h => absurd rfl h⟩
  | code :: iter, f, path, next, tempList, new, h, hopen, hlow => by
    unfold stretch
    simp only
    by_cases hletter : isLetter (convertEnLowerCode code) = true
    · rw [if_pos hletter, letters_cons iter hletter]
      refine ⟨fun hnil => absurd hnil (List.cons_ne_nil _ _), fun _ => ?_⟩
      obtain ⟨hkeep, hlook⟩ := hI.look h hopen hlow code
      rw [← (unfoldLevel_levels f (convertEnLowerCode code :: path)).1, reverse_cons_append]
      generalize f.unfoldLevel (convertEnLowerCode code :: path) = f' at hkeep hlook ⊢
      rcases hlook with ⟨hno, hnl⟩ | ⟨hyes, -, hopen', hend⟩
      · rw [if_neg (by rw [Option.isNone_iff_eq_none.1 hno]; decide)]
        obtain ⟨hnext, hnew⟩ := stretch_none f' (tempList ++ [convertEnLowerCode code]) iter
        have hnot : ¬ends ((letters iter).reverse ++ convertEnLowerCode code :: path) := fun he =>
          hnl (hback _ _ (List.cons_ne_nil _ _) (hends _ (by simp) he))
        rw [hnext]
        exact ⟨hnew, iff_of_false Bool.false_ne_true hnot, fun he => absurd he hnot⟩
      · rw [if_pos (by rw [← Option.not_isNone, hyes]; rfl)]
        obtain ⟨hstop, hgo⟩ := hI.stretch_letters hback hends iter (convertEnLowerCode code :: path)
          (some (convertEnLowerCode code :: path)) (tempList ++
            [convertEnLowerCode code]) true hkeep hopen' (hlow.cons code)
        by_cases hrest : letters iter = []
        · rw [hstop hrest, hrest]
          exact ⟨rfl, hend, fun _ => ⟨by simp, rfl⟩⟩
        · obtain ⟨hnew, hany, htemp⟩ := hgo hrest
          refine ⟨hnew, hany, fun he => ?_⟩
          obtain ⟨hlist, hiter⟩ := htemp he
          rw [hlist, hiter]
          exact ⟨by simp, rfl⟩
    · rw [if_neg hletter, letters_other iter hletter]
      exact ⟨fun _ => rfl, fun hne => absurd rfl hne⟩

theorem Shows.replaceLetters_agree (hI : Shows ignoreCode replaceCode I leads ends)
    (hJ : Shows ignoreCode replaceCode J leads' ends') (hL : Alongside leads leads' ends ends') (hf : I f) (hg : J g)
    (codeList : List Nat) {r : Replace} (hfo : f.Opened r.level) (hgo : g.Opened r.level) (hlow : Lower r.level)
    (iter : List Nat) :
    (replaceLetters f codeList r iter).codeList = (replaceLetters g codeList r iter).codeList ∧
      (replaceLetters f codeList r iter).replace = (replaceLetters g codeList r iter).replace ∧
      (replaceLetters f codeList r iter).iter = (replaceLetters g codeList r iter).iter := by
  obtain ⟨hstopf, hgof⟩ := hI.stretch_letters hL.back hL.ends_leads iter r.level none [] false hf hfo hlow
  obtain ⟨hstopg, hgog⟩ := hJ.stretch_letters hL.back' hL.ends_leads' iter r.level none [] false hg hgo hlow
  unfold replaceLetters
  split
  · exact ⟨rfl, rfl, rfl⟩
  simp only
  by_cases hnone : letters iter = []
  · rw [hstopf hnone, hstopg hnone]
    exact ⟨rfl, rfl, rfl⟩
  obtain ⟨hnewf, hanyf, htempf⟩ := hgof hnone
  obtain ⟨hnewg, hanyg, htempg⟩ := hgog hnone
  have hlower : Lower ((letters iter).reverse ++ r.level) := by
    intro c hc
    rcases List.mem_append.1 hc with hc | hc
    · obtain ⟨code, -, rfl⟩ := List.mem_map.1 (List.takeWhile_subset _ (List.mem_reverse.1 hc))
      exact convertEnLowerCode_idem code
    · exact hlow c hc
  have hsame := hL.same ((letters iter).reverse ++ r.level) (by simp [hnone]) hlower
  by_cases he : ends ((letters iter).reverse ++ r.level)
  · obtain ⟨hlistf, hiterf⟩ := htempf he
    obtain ⟨hlistg, hiterg⟩ := htempg (hsame.1 he)
    rw [if_pos (hanyf.2 he), if_pos (hanyg.2 (hsame.1 he)), hlistf, hlistg, hiterf, hiterg]
    exact ⟨rfl, rfl, rfl⟩
  · rw [if_neg fun h => he (hanyf.1 h), if_neg fun h => he (hsame.2 (hanyg.1 h)), if_pos hnewf, if_pos hnewg]
    exact ⟨rfl, rfl, rfl⟩

/-- **Two scans side by side**: they differ in the filter only. -/
structure Abreast (I J : Filter → Prop) (s t : Scan) : Prop where
  first : I s.filter
  second : J t.filter
  codeList : s.codeList = t.codeList
  filterWordList : s.filterWordList = t.filterWordList
  beReplaced : s.beReplaced = t.beReplaced
  iter : s.iter = t.iter

theorem Abreast.settle (hI : Shows ignoreCode replaceCode I leads ends) (hJ : Shows ignoreCode replaceCode J leads' ends')
    (hL : Alongside leads leads' ends ends') {s t : Scan} (hwords : s.filterWordList = t.filterWordList)
    (hbe : s.beReplaced = t.beReplaced) {look look' : Look} {r : Replace} (hf : I look.filter) (hg : J look'.filter)
    (hagree : Agree look look') (hr : look.replace = some r) (hfo : look.filter.Opened r.level)
    (hgo : look'.filter.Opened r.level) (hlow : Lower r.level) : Abreast I J (settle s look r) (settle t look' r) := by
  have hiter := hagree.iter r hr
  have hletters := hI.replaceLetters_agree hJ hL hf hg look.codeList hfo hgo hlow look.iter
  have hkf := hI.stable.replaceLetters hf look.codeList hlow look.iter
  have hkg := hJ.stable.replaceLetters hg look.codeList hlow look.iter
  unfold Filter.settle
  rw [← hagree.codeList, ← hiter]
  by_cases hletter : isLetterAt look.codeList r.endIndex = true
  · rw [if_pos hletter, if_pos hletter]
    obtain ⟨hlist, hreplace, hrest⟩ := hletters
    simp only
    rw [← hreplace]
    split
    · exact ⟨hkf, hkg, hlist, hwords, hbe, hrest⟩
    · refine ⟨hkf, hkg, ?_, ?_, rfl, hrest⟩
      · show mask _ _ _ = mask _ _ _
        rw [hlist, hI.replaceCode _ hkf, hJ.replaceCode _ hkg]
      · show s.filterWordList ++ _ = t.filterWordList ++ _
        rw [hlist, hwords]
  · rw [if_neg hletter, if_neg hletter]
    simp only
    rw [← hagree.replace, hr]
    refine ⟨hf, hg, ?_, ?_, rfl, hiter⟩
    · show mask _ _ _ = mask _ _ _
      rw [hagree.codeList, hI.replaceCode _ hf, hJ.replaceCode _ hg]
    · show s.filterWordList ++ _ = t.filterWordList ++ _
      rw [hagree.codeList, hwords]

def Reaching (ignoreCode : List Nat) (leads leads' ends : List Nat → Prop) (iter : List Nat) : Prop :=
  2 ≤ iter.length → ¬Stump leads leads' ends [] (read ignoreCode iter)

theorem Abreast.turn (hI : Shows ignoreCode replaceCode I leads ends) (hJ : Shows ignoreCode replaceCode J leads' ends')
    (hL : Alongside leads leads' ends ends') {s t : Scan} (h : Abreast I J s t)
    (hreach : Reaching ignoreCode leads leads' ends s.iter) : Abreast I J (turn s) (turn t) := by
  obtain ⟨f, codeList, words, be, iter⟩ := s
  obtain ⟨g, codeList', words', be', iter'⟩ := t
  obtain ⟨hf, hg, rfl, rfl, rfl, rfl⟩ := h
  cases iter with
  | nil => exact ⟨hf, hg, rfl, rfl, rfl, rfl⟩
  | cons code iter =>
    have hagree := hI.findEnd_agree hJ hL codeList (code :: iter) [] [] none hf hg (.inl rfl) (.inl rfl) lower_nil hreach
    obtain ⟨hkf, hlow⟩ := hI.stable.findEnd codeList (code :: iter) hf [] [] none lower_nil
    obtain ⟨hkg, -⟩ := hJ.stable.findEnd codeList (code :: iter) hg [] [] none lower_nil
    have hfo := findEnd_found codeList (code :: iter) f [] [] none
    have hgo := findEnd_found codeList (code :: iter) g [] [] none
    unfold Filter.turn
    simp only
    generalize findEnd codeList f [] [] none (code :: iter) = look at *
    generalize findEnd codeList g [] [] none (code :: iter) = look' at *
    cases hr : look.replace with
    | none =>
      rw [← hagree.replace, hr]
      exact ⟨hkf, hkg, hagree.codeList, rfl, rfl, rfl⟩
    | some r =>
      rw [← hagree.replace, hr]
      exact Abreast.settle (s := ⟨f, codeList, words, be, code :: iter⟩) (t := ⟨g, codeList, words, be, code :: iter⟩)
        hI hJ hL rfl rfl hkf hkg hagree hr (hfo r hr) (hgo r (hagree.replace ▸ hr)) (hlow r hr)

theorem turn_drops (s : Scan) : (turn s).iter <:+ s.iter := by
  obtain ⟨f, codeList, words, be, iter⟩ := s
  cases iter with
  | nil => exact List.suffix_refl _
  | cons code iter =>
    have hfound := (findEnd_reads codeList (code :: iter) f [] [] none).found
    unfold turn
    simp only
    cases hr : (findEnd codeList f [] [] none (code :: iter)).replace with
    | none => exact List.suffix_cons _ _
    | some r =>
      obtain ⟨-, ⟨a, ha, -⟩, hend, -⟩ := hfound r hr
      have hsuffix : (findEnd codeList f [] [] none (code :: iter)).iter <:+ code :: iter := ⟨a, ha.symm⟩
      refine List.IsSuffix.trans ?_ hsuffix
      rcases (settle_cases ⟨f, codeList, words, be, code :: iter⟩ _ r hr hend).2 with ⟨-, hiter, -⟩ | ⟨a', ha', -⟩
      · exact ⟨[], hiter⟩
      · exact ⟨a', ha'.symm⟩

theorem Abreast.turns (hI : Shows ignoreCode replaceCode I leads ends) (hJ : Shows ignoreCode replaceCode J leads' ends')
    (hL : Alongside leads leads' ends ends') : ∀ (k : Nat) {s t : Scan}, Abreast I J s t →
    (∀ iter, iter <:+ s.iter → Reaching ignoreCode leads leads' ends iter) →
    Abreast I J (Filter.turn^[k] s) (Filter.turn^[k] t)
  | 0, _, _, h, _ => h
  | k + 1, s, t, h, hreach => by
    rw [Function.iterate_succ_apply, Function.iterate_succ_apply]
    exact Abreast.turns hI hJ hL k (h.turn hI hJ hL (hreach _ (List.suffix_refl _)))
      (fun iter hiter => hreach iter (hiter.trans (turn_drops s)))

theorem doFilter_turns (f : Filter) (text : List Nat) : (f.doFilter text).2 =
    if (Filter.turn^[text.length] (start f text)).beReplaced then
      some ((Filter.turn^[text.length] (start f text)).codeList, (Filter.turn^[text.length] (start f text)).filterWordList)
    else none := by
  unfold doFilter
  simp only
  rw [loop_eq text.length (start f text) (Nat.le_refl _)]

/-- **Two filters that show the same ends filter a text alike, where the text does not stop short.** -/
theorem doFilter_agree (hI : Shows ignoreCode replaceCode I leads ends) (hJ : Shows ignoreCode replaceCode J leads' ends')
    (hL : Alongside leads leads' ends ends') (hf : I f) (hg : J g) {text : List Nat}
    (hreach : ∀ iter, iter <:+ text → Reaching ignoreCode leads leads' ends iter) :
    (f.doFilter text).2 = (g.doFilter text).2 := by
  have hstart : Abreast I J (start f text) (start g text) := ⟨hf, hg, rfl, rfl, rfl, rfl⟩
  obtain ⟨-, -, hlist, hwords, hbe, -⟩ := hstart.turns hI hJ hL text.length hreach
  rw [doFilter_turns, doFilter_turns, hlist, hwords, hbe]

theorem Shows.findEnd_none (hI : Shows ignoreCode replaceCode I leads ends)
    (hno : ∀ p, p ≠ [] → Lower p → (∀ c ∈ p, c ∉ ignoreCode) → ¬ends p) (codeList : List Nat) :
    ∀ (iter : List Nat) {f : Filter} (path tempList : List Nat) (b : Option Nat), I f → f.Opened path → Lower path →
    (∀ c ∈ path, c ∉ ignoreCode) → (findEnd codeList f path tempList b iter).replace = none
  | [], _, _, _, _, _, _, _, _ => rfl
  | code :: iter, f, path, tempList, b, h, hopen, hlow, hheard => by
    obtain ⟨hkeep, hlook⟩ := hI.look h hopen hlow code
    unfold findEnd
    simp only
    split
    · exact hI.findEnd_none hno codeList iter _ _ _ h hopen hlow hheard
    next hign =>
    have hheard' : ∀ c ∈ convertEnLowerCode code :: path, c ∉ ignoreCode := by
      intro c hc
      rcases List.mem_cons.1 hc with rfl | hc
      · exact hI.ignoreCode f h ▸ fun hmem => hign (ignores_iff.2 hmem)
      · exact hheard c hc
    have hnot := hno _ (List.cons_ne_nil _ _) (hlow.cons code) hheard'
    rcases hlook with ⟨hnone, -⟩ | ⟨hsome, -, hopen', hend⟩
    · rw [if_pos hnone]
    · rw [hsome, if_neg Bool.false_ne_true, if_neg fun he => hnot (hend.1 he)]
      exact hI.findEnd_none hno codeList iter _ _ _ hkeep hopen' (hlow.cons code) hheard'

theorem Shows.doFilter_none (hI : Shows ignoreCode replaceCode I leads ends)
    (hno : ∀ p, p ≠ [] → Lower p → (∀ c ∈ p, c ∉ ignoreCode) → ¬ends p) (h : I f) (text : List Nat) :
    (f.doFilter text).2 = none := by
  have hturns : ∀ k, I (Filter.turn^[k] (start f text)).filter ∧
      (Filter.turn^[k] (start f text)).beReplaced = false := by
    intro k
    induction k with
    | zero => exact ⟨h, rfl⟩
    | succ k ih =>
      rw [Function.iterate_succ_apply']
      refine ⟨hI.stable.turn ih.1, ?_⟩
      generalize Filter.turn^[k] (start f text) = s at *
      cases hs : s.iter with
      | nil =>
        rw [turn_nil hs]
        exact ih.2
      | cons code iter =>
        have hnone := hI.findEnd_none hno s.codeList s.iter [] [] none ih.1 (.inl rfl) lower_nil
          (fun c hc => by cases hc)
        rw [turn_miss hs hnone]
        exact ih.2
  rw [doFilter_turns, (hturns text.length).2]
  rfl

end Filter
end WordFilter
end Sncpp
