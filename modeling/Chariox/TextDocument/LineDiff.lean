import Chariox.TextDocument.Model

/-!
# The line diff as an alignment

The matched lines of two texts are kept pieces; what lies between two matches is a change.  The deltas that the diff
computes are the changes of this alignment, whose source is the base and whose target is the current text.
-/

namespace Chariox.TextDocument

open Chariox.Alignment List

/-! ### Lines -/

theorem splitInclusive_flatten (text : Text) : (splitInclusive text).flatten = text := by
  induction text with
  | nil => rfl
  | cons c text ih =>
    unfold splitInclusive
    split
    · simp [ih]
    cases hlns : splitInclusive text with
    | nil =>
      rw [hlns] at ih
      simp [← ih]
    | cons =>
      rw [hlns] at ih
      simp [← ih]

/-- The offset where line `i` begins. -/
def lineOffset (lines : List Text) (i : Nat) : Nat := byteLen (lines.take i).flatten

variable {pairs : List (Nat × Nat)} {lines base current : List Text} {i j a : Nat}

theorem lineOffset_succ (h : i < lines.length) : lineOffset lines (i + 1) = lineOffset lines i + byteLen lines[i] := by
  unfold lineOffset byteLen
  rw [← take_append_getElem h, flatten_append]
  simp

theorem lineSpansFrom_getElem? (st : Nat) (ls : List Text) (i : Nat) :
    (lineSpansFrom st ls)[i]? = ls[i]?.map (fun line =>
      { text := line, range := ⟨st + lineOffset ls i, st + lineOffset ls i + byteLen line⟩ }) := by
  induction ls generalizing st i with
  | nil => simp [lineSpansFrom]
  | cons line ls ih =>
    cases i with
    | zero => simp [lineSpansFrom, lineOffset]
    | succ =>
      simp only [lineSpansFrom, getElem?_cons_succ, ih]
      simp [lineOffset, Nat.add_assoc]

theorem lineSpansFrom_length (st : Nat) (ls : List Text) : (lineSpansFrom st ls).length = ls.length := by
  induction ls generalizing st with
  | nil => rfl
  | cons line ls ih => simp [lineSpansFrom, ih]

section Spans

variable (text : Text)

theorem lineSpans_getElem? (i : Nat) : (lineSpans text)[i]? = (splitInclusive text)[i]?.map (fun line =>
    { text := line
      range := ⟨lineOffset (splitInclusive text) i, lineOffset (splitInclusive text) i + byteLen line⟩ }) := by
  rw [lineSpans, lineSpansFrom_getElem?]
  simp

theorem lineSpans_length : (lineSpans text).length = (splitInclusive text).length := lineSpansFrom_length ..

theorem lineSpans_text : (lineSpans text).map LineSpan.text = splitInclusive text := by
  refine ext_getElem? fun i => ?_
  simp [lineSpans_getElem?, Function.comp_def]

variable {text}

variable {i : Nat}

/-- The line before position `i + 1` ends where line `i + 1` begins. -/
theorem lineSpans_stop (h : i < (splitInclusive text).length) :
    ((lineSpans text)[i]?.map (fun line => line.range.stop)) = some (lineOffset (splitInclusive text) (i + 1)) := by
  rw [lineSpans_getElem?, getElem?_eq_getElem h, lineOffset_succ h]
  rfl

theorem startOffset_eq (h : i ≤ (splitInclusive text).length) :
    startOffset (lineSpans text) i = lineOffset (splitInclusive text) i := by
  unfold startOffset
  by_cases hlt : i < (splitInclusive text).length
  · rw [lineSpans_getElem?, getElem?_eq_getElem hlt]
    rfl
  have hnone : (lineSpans text)[i]? = none := by
    rw [getElem?_eq_none_iff, lineSpans_length]
    omega
  rw [hnone]
  cases i with
  | zero =>
    rw [hnone]
    rfl
  | succ i =>
    obtain ⟨line, hl, hs⟩ := Option.map_eq_some_iff.1 (lineSpans_stop (show i < (splitInclusive text).length by omega))
    simp only [Nat.add_sub_cancel, hl, hs]

theorem endOffset_eq {j : Nat} (hij : i ≤ j) (h : j ≤ (splitInclusive text).length) :
    endOffset (lineSpans text) i j = lineOffset (splitInclusive text) j := by
  unfold endOffset
  by_cases heq : i = j
  · rw [if_pos heq, startOffset_eq (by omega), heq]
  rw [if_neg heq]
  obtain ⟨k, rfl⟩ : ∃ k, j = k + 1 := ⟨j - 1, by omega⟩
  obtain ⟨line, hl, hs⟩ := Option.map_eq_some_iff.1 (lineSpans_stop (show k < (splitInclusive text).length by omega))
  simp only [Nat.add_sub_cancel, hl, hs]

end Spans

/-! ### Matches -/

/-- The matches from lines `i` and `j` on: increasing in both texts, each of two equal lines. -/
inductive Matching (base current : List Text) : Nat → Nat → List (Nat × Nat) → Prop
  | nil (i j : Nat) : Matching base current i j []
  | cons {i j a b : Nat} {rest : List (Nat × Nat)} {line : Text} (hi : i ≤ a) (hj : j ≤ b) (hline : base[a]? = some line)
      (hother : current[b]? = some line) (hrest : Matching base current (a + 1) (b + 1) rest) :
      Matching base current i j ((a, b) :: rest)

theorem Matching.mono {i' j' : Nat}
    (h : Matching base current i j pairs) (hi : i' ≤ i) (hj : j' ≤ j) : Matching base current i' j' pairs := by
  cases h with
  | nil => exact .nil i' j'
  | cons ha hb hl ho hr => exact .cons (Nat.le_trans hi ha) (Nat.le_trans hj hb) hl ho hr

theorem lcsWalk_matching (base cur : List LineSpan) (lengths : List (List Nat)) (fuel i j : Nat) :
    Matching (base.map LineSpan.text) (cur.map LineSpan.text) i j (lcsWalk base cur lengths fuel i j) := by
  induction fuel generalizing i j with
  | zero => exact .nil i j
  | succ fuel ih =>
    unfold lcsWalk
    split
    · rename_i line o hl ho
      split
      · rename_i hs
        have hbase : (base.map LineSpan.text)[i]? = some line.text := by simp [hl]
        have hcur : (cur.map LineSpan.text)[j]? = some line.text := by simp [ho, hs]
        exact .cons (Nat.le_refl i) (Nat.le_refl j) hbase hcur (ih (i + 1) (j + 1))
      split
      · exact (ih (i + 1) j).mono (Nat.le_succ i) (Nat.le_refl j)
      · exact (ih i (j + 1)).mono (Nat.le_refl i) (Nat.le_succ j)
    · exact .nil i j

theorem lineLcsMatches_matching (base cur : Text) :
    Matching (splitInclusive base) (splitInclusive cur) 0 0 (lineLcsMatches (lineSpans base) (lineSpans cur)) := by
  have h := lcsWalk_matching (lineSpans base) (lineSpans cur)
  rw [lineSpans_text, lineSpans_text] at h
  exact h ..

/-! ### Pieces -/

/-- The lines between two matches. -/
def gapPieces (old new : List Text) : List (Piece Char) :=
  if old = [] ∧ new = [] then [] else [.changed old.flatten new.flatten]

/-- The pieces from lines `i` and `j` on. -/
def linePieces (base current : List Text) : List (Nat × Nat) → Nat → Nat → List (Piece Char)
  | [], i, j => gapPieces (base.drop i) (current.drop j)
  | (a, b) :: rest, i, j =>
    gapPieces ((base.take a).drop i) ((current.take b).drop j) ++
      .kept (base.getD a []) :: linePieces base current rest (a + 1) (b + 1)

theorem source_gapPieces (old new : List Text) : source (gapPieces old new) = old.flatten := by
  unfold gapPieces
  split
  · rename_i hn
    rw [hn.1]
    rfl
  · simp [source]

theorem target_gapPieces (old new : List Text) : target (gapPieces old new) = new.flatten := by
  unfold gapPieces
  split
  · rename_i hn
    rw [hn.2]
    rfl
  · simp [target]

/-- The lines from `i` on are those before `a`, line `a` and those after it. -/
theorem drop_eq_gap {line : Text} (hi : i ≤ a) (hl : lines[a]? = some line) :
    lines.drop i = (lines.take a).drop i ++ line :: lines.drop (a + 1) := by
  obtain ⟨hlt, rfl⟩ := List.getElem?_eq_some_iff.1 hl
  rw [← List.drop_eq_getElem_cons hlt, ← List.drop_append_of_le_length (by simp; omega), List.take_append_drop]

theorem Matching.source_linePieces
    (h : Matching base current i j pairs) : source (linePieces base current pairs i j) = (base.drop i).flatten := by
  induction h with
  | nil => exact source_gapPieces ..
  | cons hi hj hl ho hr ih =>
    rw [drop_eq_gap hi hl]
    simp [linePieces, source, source_gapPieces, ih, hl]

theorem Matching.target_linePieces
    (h : Matching base current i j pairs) : target (linePieces base current pairs i j) = (current.drop j).flatten := by
  induction h with
  | nil => exact target_gapPieces ..
  | cons hi hj hl ho hr ih =>
    rw [drop_eq_gap hj ho]
    simp [linePieces, target, target_gapPieces, ih, hl]

/-! ### Deltas -/

/-- What the diff records of a change. -/
def deltaOf (change : Change Char) : ChangeDelta where
  range := ⟨change.start, change.stop Char.utf8Size⟩
  removedLen := byteLen change.old
  insertedLen := byteLen change.new

theorem lineOffset_gap (ls : List Text) (hi : i ≤ a) :
    lineOffset ls a = lineOffset ls i + byteLen ((ls.take a).drop i).flatten := by
  have htake : ls.take a = ls.take i ++ (ls.take a).drop i := by
    conv_lhs => rw [← take_append_drop i (ls.take a), take_take, Nat.min_eq_left hi]
  unfold lineOffset byteLen
  conv_lhs => rw [htake, flatten_append, size_append]

theorem gap_eq_nil (hi : i ≤ a) (ha : a ≤ lines.length) : (lines.take a).drop i = [] ↔ i = a := by
  rw [drop_eq_nil_iff, length_take]
  omega

section Deltas

variable {base current : Text}

theorem pushDelta_eq (ds : List ChangeDelta) {i a j b : Nat} (hi : i ≤ a) (ha : a ≤ (splitInclusive base).length)
    (hj : j ≤ b) (hb : b ≤ (splitInclusive current).length) :
    pushDelta ds (lineSpans base) (lineSpans current) i a j b = ds ++
      (changes Char.utf8Size (lineOffset (splitInclusive base) i)
        (gapPieces (((splitInclusive base).take a).drop i) (((splitInclusive current).take b).drop j))).map deltaOf := by
  unfold pushDelta gapPieces
  simp only [gap_eq_nil hi ha, gap_eq_nil hj hb]
  by_cases hnil : i = a ∧ j = b
  · simp [hnil, changes]
  have hcond : ¬ (decide (i = a) && decide (j = b)) = true := by simpa using hnil
  have hbase := lineOffset_gap (splitInclusive base) hi
  have hcur := lineOffset_gap (splitInclusive current) hj
  rw [if_neg hcond, if_neg hnil, startOffset_eq (by omega), startOffset_eq (by omega), endOffset_eq hi ha,
    endOffset_eq hj hb]
  simp only [changes, map_cons, map_nil, deltaOf, Change.stop]
  rw [hbase, hcur, Nat.add_sub_cancel_left, Nat.add_sub_cancel_left]

theorem changeDeltasLoop_eq {i j : Nat} {pairs : List (Nat × Nat)} (ds : List ChangeDelta)
    (h : Matching (splitInclusive base) (splitInclusive current) i j pairs) (hi : i ≤ (splitInclusive base).length)
    (hj : j ≤ (splitInclusive current).length) :
    changeDeltasLoop (lineSpans base) (lineSpans current) pairs ds i j = ds ++
      (changes Char.utf8Size (lineOffset (splitInclusive base) i)
        (linePieces (splitInclusive base) (splitInclusive current) pairs i j)).map deltaOf := by
  induction h generalizing ds with
  | nil =>
    rw [changeDeltasLoop, lineSpans_length, lineSpans_length, pushDelta_eq ds hi le_rfl hj le_rfl,
      List.take_length, List.take_length]
    rfl
  | cons ha hb hl ho hr ih =>
    obtain ⟨hlt, rfl⟩ := List.getElem?_eq_some_iff.1 hl
    obtain ⟨hltOther, -⟩ := List.getElem?_eq_some_iff.1 ho
    rw [changeDeltasLoop, ih _ hlt hltOther, pushDelta_eq ds ha (Nat.le_of_lt hlt) hb (Nat.le_of_lt hltOther),
      linePieces, changes_append, changes, source_gapPieces, List.map_append, List.append_assoc]
    have hoff := lineOffset_gap (splitInclusive base) ha
    have hnext := lineOffset_succ hlt
    rw [hnext, hoff]
    simp [hl]

variable (base current)

/-- The alignment that the line diff computes. -/
def diffPieces (base current : Text) : List (Piece Char) :=
  linePieces (splitInclusive base) (splitInclusive current) (lineLcsMatches (lineSpans base) (lineSpans current)) 0 0

theorem source_diffPieces : source (diffPieces base current) = base := by
  have h := (lineLcsMatches_matching base current).source_linePieces
  rwa [drop_zero, splitInclusive_flatten] at h

theorem target_diffPieces : target (diffPieces base current) = current := by
  have h := (lineLcsMatches_matching base current).target_linePieces
  rwa [drop_zero, splitInclusive_flatten] at h

theorem changeDeltas_eq (h : base ≠ current) :
    changeDeltas base current = (changes Char.utf8Size 0 (diffPieces base current)).map deltaOf := by
  rw [changeDeltas, if_neg h]
  rw [changeDeltasLoop_eq [] (lineLcsMatches_matching base current) (Nat.zero_le _) (Nat.zero_le _)]
  rfl

end Deltas

end Chariox.TextDocument
