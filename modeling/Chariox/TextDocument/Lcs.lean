import Chariox.TextDocument.LineDiff

/-!
# The longest common subsequence of lines

The table of the line diff holds, for the rests of the two lists, the length of their longest common subsequence, and
the walk through the table pairs that many lines (`lineLcsMatches_longest`).
-/

namespace Chariox.TextDocument

open List

def lcsLength : List Text → List Text → Nat
  | [], _ => 0
  | _ :: _, [] => 0
  | line :: base, other :: current =>
    if line = other then lcsLength base current + 1
    else max (lcsLength base (other :: current)) (lcsLength (line :: base) current)
termination_by base current => base.length + current.length

variable {i j : Nat} {pairs : List (Nat × Nat)}

theorem length_le_lcsLength {l base current : List Text} (hb : l <+ base) (hc : l <+ current) :
    l.length ≤ lcsLength base current := by
  fun_induction lcsLength base current generalizing l with
  | case1 => simp [sublist_nil.1 hb]
  | case2 => simp [sublist_nil.1 hc]
  | case3 line base current ih =>
    cases l with
    | nil => simp
    | cons => simpa using ih hb.tail hc.tail
  | case4 line base o current hne ih ih' =>
    cases hb with
    | cons _ hb => exact le_max_of_le_left (ih hb hc)
    | cons_cons _ hb =>
      cases hc with
      | cons _ hc => exact le_max_of_le_right (ih' (hb.cons_cons line) hc)
      | cons_cons => exact absurd rfl hne

theorem cons_sublist_drop {ls l : List Text} {a : Nat} {line : Text} (hi : i ≤ a) (hli : ls[a]? = some line)
    (hl : l <+ ls.drop (a + 1)) : line :: l <+ ls.drop i := by
  obtain ⟨ha, rfl⟩ := List.getElem?_eq_some_iff.1 hli
  have hdrop := hl.cons_cons ls[a]
  rw [← drop_eq_getElem_cons ha] at hdrop
  exact hdrop.trans (drop_sublist_drop_left ls hi)

theorem Matching.length_le {base cur : List Text} (h : Matching base cur i j pairs) :
    pairs.length ≤ lcsLength (base.drop i) (cur.drop j) := by
  obtain ⟨l, hl, hb, hc⟩ : ∃ l, l.length = pairs.length ∧ l <+ base.drop i ∧ l <+ cur.drop j := by
    induction h with
    | nil => exact ⟨[], rfl, nil_sublist _, nil_sublist _⟩
    | cons hi hj hli ho _ ih =>
      obtain ⟨l, hl, hb, hc⟩ := ih
      exact ⟨_ :: l, by simp [hl], cons_sublist_drop hi hli hb, cons_sublist_drop hj ho hc⟩
  rw [← hl]
  exact length_le_lcsLength hb hc

/-! ### The table -/

/-- The length for the rests of two lists of lines. -/
def restLength (base current : List LineSpan) : Nat := lcsLength (base.map LineSpan.text) (current.map LineSpan.text)

@[simp] theorem restLength_nil (cur : List LineSpan) : restLength [] cur = 0 := by
  rw [restLength, map_nil, lcsLength]

@[simp] theorem restLength_nil_right (base : List LineSpan) : restLength base [] = 0 := by
  cases base <;> simp [restLength, lcsLength]

theorem restLength_cons (line o : LineSpan) (base cur : List LineSpan) : restLength (line :: base) (o :: cur) =
      if line.text = o.text then restLength base cur + 1
      else max (restLength base (o :: cur)) (restLength (line :: base) cur) := by
  simp only [restLength, map_cons, lcsLength]

theorem headD_tails {α : Type} (f : List LineSpan → α) (l : List LineSpan) (d : α) : (l.tails.map f).headD d = f l := by
  cases l <;> rfl

theorem lcsRow_eq (line : LineSpan) (base cur : List LineSpan) :
    lcsRow line.text cur (cur.tails.map (restLength base)) = cur.tails.map (restLength (line :: base)) := by
  induction cur with
  | nil => simp [lcsRow]
  | cons o cur ih =>
    simp only [tails_cons, map_cons, lcsRow, tail_cons, ih, headD_tails, headD_cons, restLength_cons]

theorem lcsLengths_eq (base cur : List LineSpan) :
    lcsLengths base cur = base.tails.map (fun rest => cur.tails.map (restLength rest)) := by
  induction base with
  | nil =>
    have hzero : cur.tails.map (restLength []) = replicate (cur.length + 1) 0 := by
      rw [← length_tails, map_eq_replicate_iff]
      exact fun rest _ => restLength_nil rest
    simp [lcsLengths, hzero]
  | cons line base ih => rw [lcsLengths, ih, headD_tails, lcsRow_eq, tails_cons, map_cons]

variable {base current : List LineSpan}

theorem lcsLengths_getD (hi : i ≤ base.length) (hj : j ≤ current.length) :
    ((lcsLengths base current).getD i []).getD j 0 = restLength (base.drop i) (current.drop j) := by
  have hrow : i < (base.tails.map (fun rest => current.tails.map (restLength rest))).length := by simp; omega
  rw [lcsLengths_eq, getD_eq_getElem _ _ hrow, getElem_map, getElem_tails, getD_eq_getElem _ _ (by simp; omega),
    getElem_map, getElem_tails]

/-! ### The walk -/

theorem lcsWalk_length (fuel : Nat) (hf : base.length - i + (current.length - j) ≤ fuel) :
    (lcsWalk base current (lcsLengths base current) fuel i j).length = restLength (base.drop i) (current.drop j) := by
  induction fuel generalizing i j with
  | zero => simp [lcsWalk, drop_eq_nil_of_le (show base.length ≤ i by omega)]
  | succ fuel ih =>
    by_cases hi : i < base.length
    · by_cases hj : j < current.length
      · simp only [lcsWalk, getElem?_eq_getElem hi, getElem?_eq_getElem hj]
        rw [lcsLengths_getD (i := i + 1) hi (Nat.le_of_lt hj), lcsLengths_getD (j := j + 1) (Nat.le_of_lt hi) hj,
          drop_eq_getElem_cons hi, drop_eq_getElem_cons hj, restLength_cons, ← drop_eq_getElem_cons hi,
          ← drop_eq_getElem_cons hj]
        split
        · rw [length_cons, ih (by omega)]
        split
        · rw [ih (by omega)]
          omega
        · rw [ih (by omega)]
          omega
      · simp [lcsWalk, getElem?_eq_none (Nat.not_lt.1 hj), drop_eq_nil_of_le (Nat.not_lt.1 hj)]
    · simp [lcsWalk, getElem?_eq_none (Nat.not_lt.1 hi), drop_eq_nil_of_le (Nat.not_lt.1 hi)]

/-- The matches increase in both lists and pair equal lines, and no list of such pairs is longer. -/
theorem lineLcsMatches_longest (base current : List LineSpan) :
    Matching (base.map LineSpan.text) (current.map LineSpan.text) 0 0 (lineLcsMatches base current) ∧
      ∀ pairs, Matching (base.map LineSpan.text) (current.map LineSpan.text) 0 0 pairs →
        pairs.length ≤ (lineLcsMatches base current).length := by
  refine ⟨lcsWalk_matching base current _ _ 0 0, fun pairs h => ?_⟩
  have hlen : (lineLcsMatches base current).length = restLength base current := lcsWalk_length _ (by omega)
  rw [hlen]
  exact h.length_le

end Chariox.TextDocument
