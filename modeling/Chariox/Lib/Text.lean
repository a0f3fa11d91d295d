import Mathlib

/-!
# Characters and texts

The functions of Rust's `char` and `str` that models of Rust programs need, and the decimal form of a number.
-/

namespace Chariox

open List

/-- `char::is_whitespace`. -/
def isWhiteSpace (c : Char) : Bool :=
  let n := c.toNat
  (9 ≤ n && n ≤ 13) || n = 0x20 || n = 0x85 || n = 0xA0 || n = 0x1680 || (0x2000 ≤ n && n ≤ 0x200A) || n = 0x2028 ||
    n = 0x2029 || n = 0x202F || n = 0x205F || n = 0x3000

/-- `char::is_control`. -/
def isControl (c : Char) : Bool :=
  let n := c.toNat
  n < 0x20 || (0x7F ≤ n && n ≤ 0x9F)

/-- A digit of the lower case hexadecimal form. -/
def isLowerHex (c : Char) : Bool := c.isDigit || ('a' ≤ c && c ≤ 'f')

/-- A digest is `sha256:` and 64 hexadecimal digits. -/
def isDigest (digest : String) : Bool :=
  "sha256:".toList.isPrefixOf digest.toList && (digest.toList.drop 7).length = 64 && (digest.toList.drop 7).all isLowerHex

/-- `str::trim`. -/
def trimText (text : List Char) : List Char :=
  ((text.dropWhile isWhiteSpace).reverse.dropWhile isWhiteSpace).reverse

/-- `str::split` at a character. -/
def splitChar (sep : Char) : List Char → List (List Char)
  | [] => [[]]
  | c :: text =>
    if c = sep then [] :: splitChar sep text
    else
      match splitChar sep text with
      | [] => [[c]]
      | part :: parts => (c :: part) :: parts

/-- `str::split_once` at a character. -/
def splitOnce (sep : Char) : List Char → Option (List Char × List Char)
  | [] => none
  | c :: text => if c = sep then some ([], text) else (splitOnce sep text).map (fun parts => (c :: parts.1, parts.2))

variable {sep : Char}

theorem splitOnce_eq_none {p : List Char} (h : splitOnce sep p = none) : sep ∉ p := by
  induction p with
  | nil => simp
  | cons c p ih =>
    unfold splitOnce at h
    split at h
    · cases h
    · rename_i hc
      simp only [Option.map_eq_none_iff] at h
      simp [Ne.symm hc, ih h]

theorem splitOnce_eq_some {p head tail : List Char} (h : splitOnce sep p = some (head, tail)) :
    p = head ++ sep :: tail ∧ sep ∉ head := by
  induction p generalizing head with
  | nil => cases h
  | cons c p ih =>
    unfold splitOnce at h
    split at h
    · rename_i hc
      cases h
      simp [hc]
    · rename_i hc
      obtain ⟨⟨first, rest⟩, hsplit, heq⟩ := Option.map_eq_some_iff.1 h
      cases heq
      obtain ⟨rfl, hnot⟩ := ih hsplit
      simp [Ne.symm hc, hnot]

theorem splitOnce_of_notMem {p : List Char} (h : sep ∉ p) : splitOnce sep p = none := by
  cases hs : splitOnce sep p with
  | none => rfl
  | some parts => exact absurd ((splitOnce_eq_some hs).1 ▸ by simp) h

theorem splitOnce_append {head : List Char} (h : sep ∉ head) (tail : List Char) :
    splitOnce sep (head ++ sep :: tail) = some (head, tail) := by
  induction head with
  | nil => simp [splitOnce]
  | cons c head ih =>
    obtain ⟨hc, hh⟩ := not_or.1 (fun hm => h (mem_cons.2 hm))
    simp [splitOnce, Ne.symm hc, ih hh]

/-- Texts that are a label and a number differ when the numbers do. -/
theorem numbered_injective {label : String} {m n : Nat} (h : label ++ toString m = label ++ toString n) : m = n := by
  have h' : (label ++ toString m).toList = (label ++ toString n).toList := congrArg String.toList h
  rw [String.toList_append, String.toList_append] at h'
  have hd := congrArg (fun ds => Nat.ofDigitChars 10 ds 0) (append_cancel_left h')
  simpa [Nat.toString_eq_ofList_toDigits] using hd

end Chariox
