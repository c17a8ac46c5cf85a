import Sncpp.Gsub
/-!
# EncodeURL — texts in an address (`svrFunc.encodeURL`, `svrFunc.decodeURL`)

`encodeURL` writes a byte as two hexadecimal digits unless it is a letter, a digit, `.`, `-` or a blank, and then puts `+` for
each blank.  `decodeURL` reads the digits and leaves `+` as it is, so that blanks come back as `+`
(`decodeURL_encodeURL`) and all other bytes as they were.
-/
namespace Sncpp
namespace SvrFunc

def isDigit (c : UInt8) : Bool := '0'.toUInt8 ≤ c && c ≤ '9'.toUInt8

def isAlnum (c : UInt8) : Bool :=
  isDigit c || 'A'.toUInt8 ≤ c && c ≤ 'Z'.toUInt8 || 'a'.toUInt8 ≤ c && c ≤ 'z'.toUInt8

def isXdigit (c : UInt8) : Bool :=
  isDigit c || 'A'.toUInt8 ≤ c && c ≤ 'F'.toUInt8 || 'a'.toUInt8 ≤ c && c ≤ 'f'.toUInt8

def toUpper (c : UInt8) : UInt8 := if 'a'.toUInt8 ≤ c && c ≤ 'z'.toUInt8 then c - 32 else c

def digit (c : UInt8) : Nat := if isDigit c then c.toNat - '0'.toNat else (toUpper c).toNat - 'A'.toNat + 10

def tonumber (h : List UInt8) : Nat := h.foldl (fun n c => n * 16 + digit c) 0

def char (n : Nat) : List UInt8 := [UInt8.ofNat n]

def byte (c : List UInt8) : UInt8 := c.headD 0

def hexDigit (n : Nat) : UInt8 := UInt8.ofNat (if n < 10 then '0'.toNat + n else 'A'.toNat + (n - 10))

def format (b : UInt8) : List UInt8 := ['%'.toUInt8, hexDigit (b.toNat / 16), hexDigit (b.toNat % 16)]

def escaped (c : UInt8) : Bool := !(isAlnum c || c == '.'.toUInt8 || c == '-'.toUInt8 || c == ' '.toUInt8)

/-- What is captured of `%%(%x%x)` comes after the percent sign. -/
def decodeURL (s : List UInt8) : List UInt8 :=
  ((⟨(· == '%'.toUInt8), [isXdigit, isXdigit]⟩ : Pattern UInt8).gsub (fun m => char (tonumber m.tail)) s).1

def encodeURL (s : List UInt8) : List UInt8 × Nat :=
  let s := ((⟨escaped, []⟩ : Pattern UInt8).gsub (fun c => format (byte c)) s).1
  (⟨(· == ' '.toUInt8), []⟩ : Pattern UInt8).gsub (fun _ => ['+'.toUInt8]) s

/-- **Letters, digits, `.`, `-`, `+`, and percent signs with two hexadecimal digits each.** -/
inductive Encoded : List UInt8 → Prop
  | nil : Encoded []
  | plain {c : UInt8} {s : List UInt8} (hc : isAlnum c = true ∨ c = '.'.toUInt8 ∨ c = '-'.toUInt8 ∨ c = '+'.toUInt8)
      (hs : Encoded s) : Encoded (c :: s)
  | percent {a b : UInt8} {s : List UInt8} (ha : isXdigit a = true) (hb : isXdigit b = true) (hs : Encoded s) :
      Encoded ('%'.toUInt8 :: a :: b :: s)

def encodeByte (c : UInt8) : List UInt8 :=
  if c = ' '.toUInt8 then ['+'.toUInt8] else if escaped c then format c else [c]

def plus (c : UInt8) : UInt8 := if c = ' '.toUInt8 then '+'.toUInt8 else c

theorem hexDigit_spec : ∀ n < 16, isXdigit (hexDigit n) = true ∧ digit (hexDigit n) = n ∧ hexDigit n ≠ ' '.toUInt8 := by
  decide

theorem char_tonumber_format (c : UInt8) : char (tonumber (format c).tail) = [c] := by
  have hlt := c.toNat_lt
  have hhigh := (hexDigit_spec (c.toNat / 16) (by omega)).2.1
  have hlow := (hexDigit_spec (c.toNat % 16) (by omega)).2.1
  have hnumber : tonumber (format c).tail = c.toNat := by
    show (0 * 16 + digit (hexDigit (c.toNat / 16))) * 16 + digit (hexDigit (c.toNat % 16)) = c.toNat
    rw [hhigh, hlow]
    omega
  rw [hnumber, char, UInt8.ofNat_toNat]

theorem plain_of_not_escaped {c : UInt8} (hc : escaped c = false) (hblank : c ≠ ' '.toUInt8) :
    isAlnum c = true ∨ c = '.'.toUInt8 ∨ c = '-'.toUInt8 := by
  simp only [escaped, Bool.not_eq_false', Bool.or_eq_true, beq_iff_eq] at hc
  exact or_assoc.1 (hc.resolve_right hblank)

theorem encodeURL_eq (s : List UInt8) : (encodeURL s).1 = s.flatMap encodeByte := by
  rw [encodeURL, Pattern.gsub_single, Pattern.gsub_single, List.flatMap_assoc]
  refine List.flatMap_congr fun c _ => ?_
  by_cases hblank : c = ' '.toUInt8
  · rw [hblank]
    rfl
  · rw [encodeByte, if_neg hblank]
    cases hc : escaped c with
    | false => simp [hblank]
    | true =>
      have hlt := c.toNat_lt
      have hhigh := (hexDigit_spec (c.toNat / 16) (by omega)).2.2
      have hlow := (hexDigit_spec (c.toNat % 16) (by omega)).2.2
      have hpercent : '%'.toUInt8 ≠ ' '.toUInt8 := by decide
      simp [byte, format, hhigh, hlow, hpercent]

/-- **What is decoded of an encoded text**: the text, with `+` for each blank. -/
theorem decodeURL_encodeURL (s : List UInt8) : decodeURL (encodeURL s).1 = s.map plus := by
  have hmap : s.map plus = s.flatMap fun c => [plus c] := List.map_eq_flatMap
  rw [encodeURL_eq, hmap]
  refine Pattern.gsub_flatMap fun c _ => ?_
  unfold encodeByte plus
  by_cases hblank : c = ' '.toUInt8
  · rw [if_pos hblank, if_pos hblank]
    exact Or.inr ⟨_, rfl, rfl, rfl⟩
  · rw [if_neg hblank, if_neg hblank]
    cases hc : escaped c with
    | false =>
      refine Or.inr ⟨c, rfl, beq_false_of_ne fun heq => ?_, rfl⟩
      rw [heq] at hc
      cases hc
    | true =>
      have hlt := c.toNat_lt
      have hhigh := (hexDigit_spec (c.toNat / 16) (by omega)).1
      have hlow := (hexDigit_spec (c.toNat % 16) (by omega)).1
      refine Or.inl ⟨?_, rfl, (char_tonumber_format c).symm⟩
      simp [Pattern.takes, format, hhigh, hlow]

theorem encoded_encodeByte (c : UInt8) {s : List UInt8} (hs : Encoded s) : Encoded (encodeByte c ++ s) := by
  unfold encodeByte
  by_cases hblank : c = ' '.toUInt8
  · rw [if_pos hblank]
    exact .plain (Or.inr (Or.inr (Or.inr rfl))) hs
  · rw [if_neg hblank]
    cases hc : escaped c with
    | false => exact .plain ((plain_of_not_escaped hc hblank).imp_right (Or.imp_right Or.inl)) hs
    | true =>
      have hlt := c.toNat_lt
      exact .percent (hexDigit_spec _ (by omega)).1 (hexDigit_spec _ (by omega)).1 hs

theorem encoded_encodeURL (s : List UInt8) : Encoded (encodeURL s).1 := by
  rw [encodeURL_eq]
  induction s with
  | nil => exact .nil
  | cons c s ih => exact encoded_encodeByte c ih

/-- **A text comes back, from a text of the characters of an address, exactly if it has no blank.** -/
theorem url_round_trip_iff (s : List UInt8) : decodeURL (encodeURL s).1 = s ∧ Encoded (encodeURL s).1 ↔ ' '.toUInt8 ∉ s := by
  rw [and_iff_left (encoded_encodeURL s), decodeURL_encodeURL]
  constructor
  · intro heq hblank
    rw [← heq] at hblank
    obtain ⟨c, -, hc⟩ := List.mem_map.1 hblank
    unfold plus at hc
    split at hc
    · cases hc
    · contradiction
  · intro hblank
    refine (List.map_congr_left fun c hc => if_neg fun heq => hblank ?_).trans (List.map_id s)
    rwa [← heq]

theorem blank_changed : ¬∀ s, decodeURL (encodeURL s).1 = s ∧ Encoded (encodeURL s).1 :=
  fun h => absurd (h [' '.toUInt8]).1 (by decide)

end SvrFunc
end Sncpp
