import Mathlib

/-!
# JSON texts of a fixed shape

The serialised form of a record is a fixed text with values in its gaps.  The values here have no parts: `null`, natural
numbers, and strings without control characters.  What is written is read back (`read_write`).
-/

namespace Chariox.Json

open List

/-! ### Strings -/

def escape (c : Char) : List Char := if c = '"' ∨ c = '\\' then ['\\', c] else [c]

/-- The string up to its closing quote, and what follows. -/
def readString : List Char → Option (List Char × List Char)
  | [] => none
  | '"' :: rest => some ([], rest)
  | '\\' :: c :: rest => (readString rest).map (fun parts => (c :: parts.1, parts.2))
  | c :: rest => (readString rest).map (fun parts => (c :: parts.1, parts.2))

theorem readString_escape (text rest : List Char) :
    readString (text.flatMap escape ++ '"' :: rest) = some (text, rest) := by
  induction text with
  | nil => rfl
  | cons c text ih =>
    rw [flatMap_cons, append_assoc, escape]
    split
    · simp only [cons_append, nil_append, readString, ih, Option.map_some]
    · rename_i hc
      obtain ⟨hquote, hslash⟩ := not_or.1 hc
      rw [singleton_append, readString.eq_4 _ _ hquote (fun _ _ heq => absurd heq hslash), ih, Option.map_some]

/-! ### Values in the gaps of a text -/

inductive Scalar
  | null
  | natural (n : Nat)
  | string (text : List Char)
  deriving DecidableEq, Repr

def Scalar.write : Scalar → List Char
  | .null => ['n', 'u', 'l', 'l']
  | .natural n => Nat.toDigits 10 n
  | .string text => '"' :: (text.flatMap escape ++ ['"'])

def Scalar.read : List Char → Option (Scalar × List Char)
  | '"' :: rest => (readString rest).map (fun parts => (.string parts.1, parts.2))
  | 'n' :: 'u' :: 'l' :: 'l' :: rest => some (.null, rest)
  | text =>
    if (text.takeWhile Char.isDigit).isEmpty then none
    else some (.natural (Nat.ofDigitChars 10 (text.takeWhile Char.isDigit) 0), text.dropWhile Char.isDigit)

/-- The values, each behind its label, and the end of the text. -/
def write (labels : List (List Char)) (last : List Char) (values : List Scalar) : List Char :=
  (labels.zip values).flatMap (fun gap => gap.1 ++ gap.2.write) ++ last

/-- The values behind the labels, if the text has them all and the end. -/
def read (last : List Char) : List (List Char) → List Char → Option (List Scalar)
  | [], text => if text = last then some [] else none
  | label :: labels, text =>
    if label.isPrefixOf text then do
      let (value, rest) ← Scalar.read (text.drop label.length)
      let values ← read last labels rest
      return value :: values
    else none

/-- No number runs on into the text. -/
def Delimits (text : List Char) : Prop := text.head?.any (fun c => !c.isDigit) = true

instance (text : List Char) : Decidable (Delimits text) := inferInstanceAs (Decidable (_ = _))

theorem isDigit_of_mem_toDigits {n : Nat} {c : Char} (h : c ∈ Nat.toDigits 10 n) : c.isDigit = true :=
  Nat.isDigit_of_mem_toDigits (by omega) (by omega) h

theorem Scalar.read_write (v : Scalar) {rest : List Char} (h : Delimits rest) :
    Scalar.read (v.write ++ rest) = some (v, rest) := by
  cases v with
  | null => rfl
  | string text =>
    simp only [write, cons_append, append_assoc, nil_append, Scalar.read, readString_escape, Option.map_some]
  | natural n =>
    obtain ⟨c, cs, hcs⟩ := exists_cons_of_ne_nil (Nat.toDigits_ne_nil (n := n) (b := 10))
    have hc : c.isDigit = true := isDigit_of_mem_toDigits (hcs ▸ mem_cons_self)
    have hstop : rest.takeWhile Char.isDigit = [] ∧ rest.dropWhile Char.isDigit = rest := by
      cases rest with
      | nil => exact ⟨rfl, rfl⟩
      | cons d rest => simpa [Delimits] using h
    have hwhile : (Nat.toDigits 10 n ++ rest).takeWhile Char.isDigit = Nat.toDigits 10 n ∧
        (Nat.toDigits 10 n ++ rest).dropWhile Char.isDigit = rest := by
      rw [takeWhile_append_of_pos fun _ => isDigit_of_mem_toDigits,
        dropWhile_append_of_pos fun _ => isDigit_of_mem_toDigits, hstop.1, hstop.2, append_nil]
      exact ⟨rfl, rfl⟩
    show Scalar.read (Nat.toDigits 10 n ++ rest) = _
    rw [Scalar.read.eq_3, hwhile.1, hwhile.2, hcs, ← hcs, Nat.ofDigitChars_ten_toDigits]
    · simp [hcs]
    all_goals
      intro x hx
      rw [hcs, cons_append] at hx
      rw [(cons.inj hx).1] at hc
      revert hc
      decide

theorem write_cons (label : List Char) (labels : List (List Char)) (last : List Char) (v : Scalar)
    (values : List Scalar) :
    write (label :: labels) last (v :: values) = label ++ (v.write ++ write labels last values) := by
  simp [write]

variable {last : List Char} (hlast : Delimits last) {labels : List (List Char)} {values : List Scalar}
  (hlabels : ∀ label ∈ labels, Delimits label) (hlen : labels.length = values.length)

include hlast hlabels hlen

theorem delimits_write : Delimits (write labels last values) := by
  cases labels with
  | nil => exact hlast
  | cons label labels =>
    cases values with
    | nil => cases hlen
    | cons =>
      have hlabel : Delimits label := hlabels label mem_cons_self
      cases label with
      | nil => cases hlabel
      | cons => exact hlabel

/-- What is written is read back. -/
theorem read_write : read last labels (write labels last values) = some values := by
  induction labels generalizing values with
  | nil => simp [read, write, length_eq_zero_iff.1 hlen.symm]
  | cons label labels ih =>
    cases values with
    | nil => cases hlen
    | cons value values =>
      have hmore : ∀ l ∈ labels, Delimits l := fun l hl => hlabels l (mem_cons_of_mem _ hl)
      have hlen : labels.length = values.length := by simpa using hlen
      have hlabel : ∀ rest, label.isPrefixOf (label ++ rest) = true := by simp
      rw [write_cons, read, if_pos (hlabel _), drop_left, value.read_write (delimits_write hlast hmore hlen)]
      simp [ih hmore hlen]

end Chariox.Json
