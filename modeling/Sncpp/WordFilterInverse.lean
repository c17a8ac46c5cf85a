import Mathlib.Data.List.TakeWhile
import Sncpp.WordFilterUndo
/-!
# WordFilterInverse — a word that is added and deleted again

A word whose first place in its own text counts is reported after it has been added (`Ready.reported`).  Deleting it
takes the end of the levels that its lower-case code points lead to, so another word of the dictionary loses its end
if it is this one in lower case; and the levels the word was unfolded to stay, so a text that ends on them is read on
to its end where it was not before.
-/
namespace Sncpp
namespace WordFilter
namespace Filter

variable {ignoreCode : List Nat} {replaceCode : Nat} {W : List (List Nat)} {f : Filter}

/-- **The first word that is heard from the beginning of a text is that of its first `n` code points, and its place
counts**: it does not end with a letter, or none stands before it and the letters behind it, if any, end a word too. -/
structure FirstCounts (W : List (List Nat)) (ignoreCode text : List Nat) (n : Nat) : Prop where
  listed : read ignoreCode (text.take n) ∈ W
  ne : read ignoreCode (text.take n) ≠ []
  first : ∀ m, m < n → read ignoreCode (text.take m) ∈ W → read ignoreCode (text.take m) = []
  counts : isLetterAt ((text.take n).map convertEnLowerCode) n = true →
    isLetterAt ((text.take n).map convertEnLowerCode)
        (((text.take n).map convertEnLowerCode).takeWhile ignoreCode.contains).length = false ∧
      (letters (text.drop n) = [] ∨ read ignoreCode (text.take n) ++ letters (text.drop n) ∈ W)

theorem findEnd_first (codeList : List Nat) : ∀ (iter : List Nat) (n : Nat) {f : Filter}, Trie W f →
    f.ignoreCode = ignoreCode → ∀ (path tempList : List Nat) (b : Option Nat), f.Opened path →
    path.reverse ++ read ignoreCode (iter.take n) ∈ W → read ignoreCode (iter.take n) ≠ [] →
    (∀ m, m < n → path.reverse ++ read ignoreCode (iter.take m) ∈ W → read ignoreCode (iter.take m) = []) →
    (findEnd codeList f path tempList b iter).codeList = codeList ++ tempList ++ (iter.take n).map convertEnLowerCode ∧
      (findEnd codeList f path tempList b iter).replace = some ⟨b.getD (codeList.length + tempList.length +
        (((iter.take n).map convertEnLowerCode).takeWhile ignoreCode.contains).length + 1),
        codeList.length + tempList.length + n, (read ignoreCode (iter.take n)).reverse ++ path⟩ ∧
      (findEnd codeList f path tempList b iter).iter = iter.drop n
  | [], n, _, _, _, _, _, _, _, _, hne, _ => by
    rw [List.take_nil] at hne
    exact absurd rfl hne
  | _ :: _, 0, _, _, _, _, _, _, _, _, hne, _ => absurd rfl hne
  | code :: iter, n + 1, f, h, hign, path, tempList, b, hopen, hword, hne, hfirst => by
    have hlook := h.look hopen (convertEnLowerCode code)
    have hkept := h.unfoldLevel_kept (convertEnLowerCode code) path
    have hlist : codeList ++ tempList ++ ((code :: iter).take (n + 1)).map convertEnLowerCode =
        codeList ++ (tempList ++ [convertEnLowerCode code]) ++ (iter.take n).map convertEnLowerCode := by simp
    have hlen : (tempList ++ [convertEnLowerCode code]).length = tempList.length + 1 := by simp
    unfold findEnd
    simp only
    rw [List.take_succ_cons] at hword hne
    by_cases hskip : f.ignores (convertEnLowerCode code) = true
    · have hmem : convertEnLowerCode code ∈ ignoreCode := hign ▸ ignores_iff.1 hskip
      rw [read_ignored hmem] at hword hne
      obtain ⟨hcodes, hreplace, hiter⟩ := findEnd_first codeList iter n h hign path
        (tempList ++ [convertEnLowerCode code]) b hopen hword hne (fun m hm hin => by
          have hlater := hfirst (m + 1) (Nat.succ_lt_succ hm)
          rw [List.take_succ_cons, read_ignored hmem] at hlater
          exact hlater hin)
      rw [if_pos hskip, hcodes, hreplace, hiter, hlist, List.take_succ_cons, read_ignored hmem, List.map_cons,
        List.takeWhile_cons_of_pos (by simpa using hmem)]
      have hbegin : ∀ k, codeList.length + (tempList.length + 1) + k + 1 =
          codeList.length + tempList.length + (k + 1) + 1 := fun k => by omega
      have hend : codeList.length + (tempList.length + 1) + n = codeList.length + tempList.length + (n + 1) := by omega
      rw [hlen, hbegin, hend]
      exact ⟨rfl, rfl, rfl⟩
    have hmem : convertEnLowerCode code ∉ ignoreCode := fun hmem => hskip (ignores_iff.2 (hign ▸ hmem))
    have hword' := hword
    rw [read_cons hmem] at hword'
    have happend : path.reverse ++ convertEnLowerCode code :: read ignoreCode (iter.take n) =
        (convertEnLowerCode code :: path).reverse ++ read ignoreCode (iter.take n) := by simp
    rw [happend] at hword'
    rw [if_neg hskip, hlist, List.take_succ_cons, read_cons hmem, List.map_cons,
      List.takeWhile_cons_of_neg (by simpa using hmem)]
    rcases hlook with ⟨-, hno⟩ | ⟨hsome, -, hopen', hend⟩
    · exact absurd ⟨_, hword', List.prefix_append _ _⟩ hno
    generalize f.unfoldLevel (convertEnLowerCode code :: path) = f' at hkept hsome hopen' hend ⊢
    rw [hsome, if_neg Bool.false_ne_true]
    by_cases hover : f'.isEnd (convertEnLowerCode code :: path) = true
    · -- the word ends here, so it is the one that is read
      have hone : n = 0 := by
        by_contra hn
        have hshort := hfirst 1 (by omega)
        rw [List.take_succ_cons, List.take_zero, read_cons hmem] at hshort
        have hin : path.reverse ++ convertEnLowerCode code :: read ignoreCode [] ∈ W := by
          have hpath := hend.1 hover
          rw [List.reverse_cons] at hpath
          exact hpath
        cases hshort hin
      subst hone
      rw [if_pos hover]
      refine ⟨by simp, ?_, rfl⟩
      simp only [List.length_append, List.length_cons, List.length_nil, List.take_zero]
      rfl
    · rw [if_neg hover]
      have hne' : read ignoreCode (iter.take n) ≠ [] := by
        intro hnil
        rw [hnil, List.append_nil] at hword'
        exact hover (hend.2 hword')
      obtain ⟨hcodes, hreplace, hiter⟩ := findEnd_first codeList iter n hkept.trie (hkept.ignoreCode.trans hign)
        (convertEnLowerCode code :: path) (tempList ++ [convertEnLowerCode code])
        (some (b.getD (codeList.length + (tempList ++ [convertEnLowerCode code]).length))) hopen' hword' hne'
        (fun m hm hin => by
          have hlater := hfirst (m + 1) (Nat.succ_lt_succ hm)
          rw [List.take_succ_cons, read_cons hmem] at hlater
          cases hlater (by
            rw [List.reverse_cons, List.append_assoc] at hin
            exact hin))
      have hend' : codeList.length + (tempList.length + 1) + n = codeList.length + tempList.length + (n + 1) := by omega
      rw [hcodes, hreplace, hiter, hlen, hend', reverse_cons_append]
      exact ⟨rfl, rfl, rfl⟩

theorem Ready.reported (h : Ready ignoreCode replaceCode W f) {text : List Nat} {n : Nat}
    (hfirst : FirstCounts W ignoreCode text n) : (f.doFilter text).2.isSome = true := by
  obtain ⟨hlisted, hne, hleast, hcounts⟩ := hfirst
  rw [doFilter_counts h.sound.trie]
  cases text with
  | nil =>
    rw [List.take_nil] at hne
    exact absurd rfl hne
  | cons code iter =>
    obtain ⟨hlist, hreplace, hiter⟩ := findEnd_first [] (code :: iter) n h.sound.trie h.ignoreCode [] [] none (.inl rfl)
      hlisted hne hleast
    have hplace : findReplace f [] (code :: iter) = findEnd [] f [] [] none (code :: iter) := by
      unfold findReplace
      simp only [hreplace]
    refine ⟨_, by rw [places_some (hplace ▸ hreplace)]; exact List.mem_cons_self, ?_⟩
    intro hend
    simp only [hplace, hlist, hiter, List.nil_append, List.length_nil, Nat.zero_add, List.append_nil,
      Option.getD_none, Nat.add_sub_cancel, List.reverse_reverse] at hend ⊢
    exact hcounts hend

def lowerPart (w : List Nat) : List Nat := w.takeWhile (fun code => convertEnLowerCode code == code)

/-- No text ends on a level that only a deleted word leads to: some word begins with what it begins with, or ends on its
way, or it is one code point and none is ignored. -/
def Trodden (W : List (List Nat)) (ignoreCode w : List Nat) : Prop :=
  (∃ u ∈ W, lowerPart w <+: u) ∨ (∃ u ∈ W, u ≠ [] ∧ u <+: lowerPart w) ∨
    (lowerPart w).length = 1 ∧ ∀ i ∈ ignoreCode, convertEnLowerCode i ≠ i

/-- No word can be read: each has an upper-case letter or an ignored code point. -/
def Unread (W : List (List Nat)) (ignoreCode : List Nat) : Prop :=
  ∀ u ∈ W, u ≠ [] → Lower u → ∃ c ∈ u, c ∈ ignoreCode

def LeavesNothing (W : List (List Nat)) (ignoreCode w : List Nat) : Prop := Trodden W ignoreCode w ∨ Unread W ignoreCode

theorem prefix_lowerPart {t w : List Nat} (h : t <+: w) (hlow : Lower t) : t <+: lowerPart w := by
  obtain ⟨rest, rfl⟩ := h
  unfold lowerPart
  rw [List.takeWhile_append_of_pos fun c hc => by simpa using hlow c hc]
  exact List.prefix_append _ _

theorem leads_of_mem {p : List Nat} (h : p.reverse ∈ W) : Leads W p := ⟨_, h, List.prefix_rfl⟩

theorem Trodden.reaching {w : List Nat} (h : Trodden W ignoreCode w) (iter : List Nat) :
    Reaching ignoreCode (Leads W) (Leads (W ++ [w])) (fun p => p.reverse ∈ W) iter := by
  rintro htwo ⟨hmore, hless, hnone⟩
  rw [List.append_nil] at hmore hless
  have hon : read ignoreCode iter <+: lowerPart w := by
    refine prefix_lowerPart ?_ (read_lower ignoreCode iter)
    have hway := (leads_append.1 hmore).resolve_left hless
    rwa [List.reverse_reverse] at hway
  have hleads : ∀ u ∈ W, ¬read ignoreCode iter <+: u := fun u hu hru => hless ⟨u, hu, by rwa [List.reverse_reverse]⟩
  rcases h with ⟨u, hu, hwu⟩ | ⟨u, hu, hne, huw⟩ | ⟨hone, hign⟩
  · exact hleads u hu (hon.trans hwu)
  · rcases List.prefix_or_prefix_of_prefix hon huw with hru | ⟨v, hv⟩
    · exact hleads u hu hru
    · refine hnone u v hv.symm hne ?_
      show (u.reverse ++ []).reverse ∈ W
      rw [List.append_nil, List.reverse_reverse]
      exact hu
  · have hall : read ignoreCode iter = iter.map convertEnLowerCode := by
      refine List.filter_eq_self.2 fun c hc => ?_
      obtain ⟨code, -, rfl⟩ := List.mem_map.1 hc
      rw [Bool.not_eq_true', List.contains_eq_mem, decide_eq_false_iff_not]
      exact fun hmem => hign _ hmem (convertEnLowerCode_idem code)
    have hlen := hon.length_le
    rw [hall, List.length_map] at hlen
    omega

theorem Ready.shows_del (h : Ready ignoreCode replaceCode W f) {words : List Nat} (hne : heard ignoreCode words ≠ []) :
    ∃ J ends, Shows ignoreCode replaceCode J (Leads W) ends ∧ J (f.delFilterWord words) ∧
      ∀ p, ends p ↔ p.reverse ∈ W ∧ p ≠ ((heard ignoreCode words).map convertEnLowerCode).reverse := by
  obtain ⟨g, hg, ⟨heq, hno⟩ | ⟨hopen, heq⟩⟩ := h.del words
  · refine ⟨_, _, Ready.shows, heq ▸ hg, fun p => (and_iff_left_of_imp fun hp => ?_).symm⟩
    rintro rfl
    exact hno (leads_of_mem hp)
  · refine ⟨_, _, Unmarked.shows (by simpa using hne), ⟨g, hg, hopen, heq⟩, fun p => Iff.rfl⟩

structure Inverse (W : List (List Nat)) (f : Filter) (words : List Nat) : Prop where
  reported : ((f.addFilterWord words true).doFilter words).2.isSome = true
  undone : heard f.ignoreCode words ∉ W → ∀ text,
    (((f.addFilterWord words true).delFilterWord words).doFilter text).2 = (f.doFilter text).2
  absent : heard f.ignoreCode words ∉ W → ∀ text, ((f.delFilterWord words).doFilter text).2 = (f.doFilter text).2

/-- **A word can be added and deleted**: its first place counts, it is not a word of the dictionary but for its case, and it
leaves nothing. -/
structure Invertible (W : List (List Nat)) (ignoreCode words : List Nat) : Prop where
  first : ∃ n, FirstCounts (W ++ [heard ignoreCode words]) ignoreCode words n
  apart : heard ignoreCode words ∉ W → (heard ignoreCode words).map convertEnLowerCode ∉ W
  leaves : heard ignoreCode words ∉ W → LeavesNothing W ignoreCode (heard ignoreCode words)

theorem Ready.absent (h : Ready ignoreCode replaceCode W f) {words : List Nat} (hne : heard ignoreCode words ≠ [])
    (hnot : (heard ignoreCode words).map convertEnLowerCode ∉ W) (text : List Nat) :
    ((f.delFilterWord words).doFilter text).2 = (f.doFilter text).2 := by
  obtain ⟨J, ends, hJ, hdel, hends⟩ := h.shows_del hne
  have hsame : ∀ p, p.reverse ∈ W ↔ ends p := by
    intro p
    rw [hends, iff_comm]
    refine and_iff_left_of_imp fun hp => ?_
    rintro rfl
    rw [List.reverse_reverse] at hp
    exact hnot hp
  have hL : Alongside (Leads W) (Leads W) (fun p => p.reverse ∈ W) ends :=
    ⟨fun _ hp => hp, fun p _ _ => hsame p, fun _ _ _ hp => leads_suffix hp, fun _ _ _ hp => leads_suffix hp,
      fun _ _ hp => leads_of_mem hp, fun p _ hp => leads_of_mem ((hsame p).2 hp)⟩
  exact (doFilter_agree Ready.shows hJ hL h hdel fun _ _ _ hstump => hstump.2.1 hstump.1).symm

theorem Ready.undone (h : Ready ignoreCode replaceCode W f) {words : List Nat} (hne : heard ignoreCode words ≠ [])
    (hnot : (heard ignoreCode words).map convertEnLowerCode ∉ W)
    (hleaves : LeavesNothing W ignoreCode (heard ignoreCode words)) (text : List Nat) :
    (((f.addFilterWord words true).delFilterWord words).doFilter text).2 = (f.doFilter text).2 := by
  obtain ⟨J, ends, hJ, hdel, hends⟩ := (h.add hne).shows_del hne
  have hsame : ∀ p, p ≠ [] → Lower p → (p.reverse ∈ W ↔ ends p) := by
    intro p _ hlow
    rw [hends, List.mem_append, List.mem_singleton]
    constructor
    · refine fun hp => ⟨.inl hp, ?_⟩
      rintro rfl
      rw [List.reverse_reverse] at hp
      exact hnot hp
    · rintro ⟨hp | hp, hother⟩
      · exact hp
      · -- the word itself is in lower case then
        refine absurd ?_ hother
        rw [← hp, List.map_reverse, List.reverse_reverse]
        exact ((List.map_congr_left fun c hc => hlow c hc).trans (List.map_id _)).symm
  rcases hleaves with htrodden | hunread
  · have hL : Alongside (Leads W) (Leads (W ++ [heard ignoreCode words])) (fun p => p.reverse ∈ W) ends :=
      ⟨fun _ hp => leads_append.2 (.inl hp), hsame, fun _ _ _ hp => leads_suffix hp, fun _ _ _ hp => leads_suffix hp,
        fun _ _ hp => leads_of_mem hp, fun p _ hp => leads_of_mem ((hends p).1 hp).1⟩
    exact (doFilter_agree Ready.shows hJ hL h hdel fun iter _ => htrodden.reaching iter).symm
  · have hno : ∀ p, p ≠ [] → Lower p → (∀ c ∈ p, c ∉ ignoreCode) → p.reverse ∉ W := by
      intro p hp hlow hheard hin
      obtain ⟨c, hc, hign⟩ := hunread _ hin (by simpa using hp) (fun c hc => hlow c (List.mem_reverse.1 hc))
      exact hheard c (List.mem_reverse.1 hc) hign
    rw [hJ.doFilter_none (fun p hp hlow hheard he => hno p hp hlow hheard ((hsame p hp hlow).2 he)) hdel,
      Ready.shows.doFilter_none hno h]

/-- **However the filter was filled and whatever it has been asked, a word that can be is reported once it is added, and
deleting it again makes every result what it was; deleting a word that is not there changes none.** -/
theorem inverse_of_asked (replaceCode : Nat) (ignoreCode : List Nat) (list : List (List Nat)) (removeIgnoreWords : Bool)
    (queries : List Query) {words : List Nat} (hne : heard ignoreCode words ≠ [])
    (hwords : Invertible (entries ignoreCode list removeIgnoreWords) ignoreCode words) :
    Inverse (entries ignoreCode list removeIgnoreWords)
      (asked replaceCode ignoreCode list removeIgnoreWords queries) words := by
  have hready := ready_asked replaceCode ignoreCode list removeIgnoreWords queries
  obtain ⟨⟨n, hfirst⟩, hapart, hleaves⟩ := hwords
  refine ⟨(hready.add hne).reported hfirst, fun hnew text => ?_, fun hnew text => ?_⟩
  · rw [hready.ignoreCode] at hnew
    exact hready.undone hne (hapart hnew) (hleaves hnew) text
  · rw [hready.ignoreCode] at hnew
    exact hready.absent hne (hapart hnew) text

/-- The dictionary has one word, and what it begins with is added, with an ignored code point in it. -/
theorem inverse_of_asked_one : Inverse (entries [32] [[97, 98, 99]] true)
    (asked 42 [32] [[97, 98, 99]] true [.isFilter [97, 98, 99], .doFilter [97]]) [97, 32, 98] :=
  inverse_of_asked 42 [32] [[97, 98, 99]] true [.isFilter [97, 98, 99], .doFilter [97]] (by decide)
    ⟨⟨3, by decide, by decide, by decide, by decide⟩, fun _ => by decide,
      fun _ => .inl (.inl ⟨[97, 98, 99], by decide, by decide⟩)⟩

theorem upper_unreported : ¬Inverse (entries [] [] true) (asked 42 [] [] true []) [65] := by
  intro h
  have hno : ((asked 42 [] [] true []).addFilterWord [65] true |>.doFilter [65]).2.isSome = false := by decide +kernel
  cases h.reported.symm.trans hno

end Filter
end WordFilter
end Sncpp
