import Chariox.TextDocument.Rebase

/-!
# Unambiguous replacement

`ReplaceText` looks for the old text once more behind the first occurrence, so it does not see an occurrence that
overlaps the first one (`overlapping_occurrence_unseen`).  That a plan exists exactly when there is one occurrence, and
replaces it, is true of the texts in which such an overlap does not come alone (`plan_iff_one_occurrence`).
-/

namespace Chariox.TextDocument

open Chariox.Alignment List

/-- The pattern stands in the text at a byte offset. -/
def OccursAt (text pattern : Text) (offset : Nat) : Prop :=
  ∃ before after, text = before ++ (pattern ++ after) ∧ byteLen before = offset

/-- If another occurrence overlaps the first one, some occurrence starts at or behind the end of the first. -/
def OverlapSeen (text pattern : Text) : Prop :=
  ∀ first, OccursAt text pattern first → (∀ i, OccursAt text pattern i → first ≤ i) →
    (∃ i, OccursAt text pattern i ∧ first < i ∧ i < first + byteLen pattern) →
    ∃ i, OccursAt text pattern i ∧ first + byteLen pattern ≤ i

variable {base text pattern oldText newText : Text} {offset : Nat}

theorem findText_le (h : OccursAt text pattern offset) : ∃ first ≤ offset, findText pattern text = some first := by
  obtain ⟨before, aft, rfl, rfl⟩ := h
  induction before with
  | nil =>
    refine ⟨0, Nat.zero_le _, ?_⟩
    cases htext : pattern ++ aft with
    | nil => simp [findText, (append_eq_nil_iff.1 htext).1]
    | cons c text =>
      have hpfx : pattern.isPrefixOf (c :: text) = true := by
        rw [List.isPrefixOf_iff_prefix, ← htext]
        exact prefix_append ..
      rw [nil_append, findText, if_pos hpfx]
  | cons c before ih =>
    rw [cons_append, findText]
    split
    · exact ⟨0, Nat.zero_le _, rfl⟩
    obtain ⟨first, hle, hf⟩ := ih
    refine ⟨first + c.utf8Size, ?_, by rw [hf]; rfl⟩
    have hsize : byteLen (c :: before) = c.utf8Size + byteLen before := size_cons ..
    omega

/-- The first occurrence, with a second one behind it or none. -/
theorem planReplaceText_eq (base old new : Text) :
    (∀ off, ¬ OccursAt base old off) ∧ (∃ e, planReplaceText base old new = .error e) ∨
    ∃ b after, base = b ++ (old ++ after) ∧
      (∀ off, OccursAt base old off → byteLen b ≤ off) ∧
      ((∃ off, OccursAt after old off) ∧ (∃ e, planReplaceText base old new = .error e) ∨
        (∀ off, ¬ OccursAt after old off) ∧ planReplaceText base old new =
          .ok ⟨⟨byteLen b, byteLen b + byteLen old⟩, old, new⟩) := by
  unfold planReplaceText
  cases hfind : findText old base with
  | none =>
    refine .inl ⟨fun off h => ?_, _, rfl⟩
    obtain ⟨first, -, hf⟩ := findText_le h
    cases hfind.symm.trans hf
  | some st =>
    obtain ⟨b, after, rfl, rfl⟩ := exists_of_findText hfind
    refine .inr ⟨b, after, rfl, fun off h => ?_, ?_⟩
    · obtain ⟨first, hle, hf⟩ := findText_le h
      cases hfind.symm.trans hf
      exact hle
    have hrest : textFrom (b ++ (old ++ after)) (byteLen b + byteLen old) = after := by
      rw [← size_append, ← append_assoc, textFrom_left]
    dsimp only
    rw [hrest]
    cases hagain : findText old after with
    | none =>
      refine .inr ⟨fun off h => ?_, rfl⟩
      obtain ⟨first, -, hf⟩ := findText_le h
      cases hagain.symm.trans hf
    | some second =>
      exact .inl ⟨⟨second, exists_of_findText hagain⟩, _, rfl⟩

/-- The operations that look for the old text: a replacement of a text, and of a range of the base that does not hold
the text it is said to hold. -/
inductive LooksFor (base oldText newText : Text) : AgentEditOperation → Prop
  | replaceText : LooksFor base oldText newText (.replaceText oldText newText)
  | replaceRange (range : TextRange) (hstart : validateBoundary base range.start = .ok ())
      (hstop : validateBoundary base range.stop = .ok ()) (hle : range.start ≤ range.stop)
      (hin : range.stop ≤ byteLen base) (hslice : slice base range ≠ oldText) :
      LooksFor base oldText newText (.replaceRange range oldText newText)

theorem LooksFor.planned {op : AgentEditOperation} (h : LooksFor base oldText newText op) :
    planOperation base op = planReplaceText base oldText newText ∨
      oldText = [] ∧ ∃ e, planOperation base op = .error e := by
  cases h with
  | replaceText => exact .inl rfl
  | replaceRange rg hst hs hle hin hsl =>
    have hout : ¬ (decide (rg.start > rg.stop) || decide (rg.stop > byteLen base)) = true := by
      simp [hle, hin]
    have hplan : planOperation base (.replaceRange rg oldText newText) = if oldText ≠ [] then
        planReplaceText base oldText newText
        else .error (.invalidOperation "range content does not match old_text in the base snapshot") := by
      rw [planOperation, planReplaceRange, hst, hs]
      rw [if_neg hout, if_pos hsl]
      rfl
    rw [hplan]
    by_cases hold : oldText = []
    · exact .inr ⟨hold, _, if_neg (not_not.2 hold)⟩
    · exact .inl (if_pos hold)

/-- Behind the first occurrence stand all other ones that do not overlap it. -/
theorem OccursAt.behind {b aft : Text} (h : OccursAt (b ++ (oldText ++ aft)) oldText offset)
    (hle : byteLen b + byteLen oldText ≤ offset) : ∃ offset, OccursAt aft oldText offset := by
  obtain ⟨front, rest, ht, rfl⟩ := h
  rw [← append_assoc] at ht
  obtain ⟨gap, -, ha⟩ := exists_of_size_le Char.utf8Size Char.utf8Size_pos ht (by rwa [size_append])
  exact ⟨byteLen gap, gap, rest, ha, rfl⟩

/-- There is a plan exactly when there is one occurrence, and the plan replaces that occurrence: this is so exactly for
the texts in which an overlap with the first occurrence is seen. -/
theorem plan_iff_one_occurrence (base oldText newText : Text) (operation : AgentEditOperation)
    (hlooks : LooksFor base oldText newText operation) :
    (((∃ plan, planOperation base operation = .ok plan) ↔ oldText ≠ [] ∧ ∃! offset, OccursAt base oldText offset) ∧
      ∀ plan, planOperation base operation = .ok plan → ∃ before after, base = before ++ (oldText ++ after) ∧
        (∀ offset, OccursAt base oldText offset → offset = byteLen before) ∧
        plan = ⟨⟨byteLen before, byteLen before + byteLen oldText⟩, oldText, newText⟩ ∧
        applyPlan base plan = .ok (before ++ newText ++ after)) ↔ OverlapSeen base oldText := by
  rcases hlooks.planned with heq | ⟨hol, e, he⟩
  rotate_left
  · rw [he]
    refine iff_of_true ⟨⟨nofun, fun h => absurd hol h.1⟩, nofun⟩ ?_
    rintro first - - ⟨i, -, hlt, hend⟩
    rw [hol, byteLen, size_nil] at hend
    omega
  rw [heq]
  rcases planReplaceText_eq base oldText newText with
    ⟨hnone, e, he⟩ | ⟨before, after, hbase, hfst, ⟨⟨offset, hagain⟩, e, he⟩ | ⟨hnone, hplan⟩⟩
  · rw [he]
    refine iff_of_true ⟨⟨nofun, ?_⟩, nofun⟩ fun first hoc => absurd hoc (hnone first)
    rintro ⟨-, offset, ho, -⟩
    exact absurd ho (hnone offset)
  · rw [he]
    obtain ⟨gap, rest, rfl, -⟩ := hagain
    have hone : OccursAt base oldText (byteLen before) := ⟨before, _, hbase, rfl⟩
    have htwo : OccursAt base oldText (byteLen (before ++ oldText ++ gap)) := ⟨_, rest, by simp [hbase], rfl⟩
    simp only [byteLen, size_append] at hone htwo hfst ⊢
    refine iff_of_true ⟨⟨nofun, ?_⟩, nofun⟩ fun first _ hmin _ => ⟨_, htwo, ?_⟩
    · rintro ⟨hol, first, -, honly⟩
      -- the first occurrence and the one behind it have different offsets
      have hsame := (honly _ hone).trans (honly _ htwo).symm
      have hpos : size Char.utf8Size oldText ≠ 0 := fun hz => hol (eq_nil_of_size Char.utf8Size Char.utf8Size_pos hz)
      omega
    · have hle := hmin _ hone
      unfold byteLen
      omega
  · have hone : OccursAt base oldText (byteLen before) := ⟨before, after, hbase, rfl⟩
    have hinside : ∀ offset, OccursAt base oldText offset → offset < byteLen before + byteLen oldText := by
      intro offset ho
      by_contra hle
      rw [hbase] at ho
      obtain ⟨o, hot⟩ := ho.behind (Nat.le_of_not_lt hle)
      exact hnone o hot
    have hol : oldText ≠ [] := by
      rintro rfl
      exact hnone 0 ⟨[], after, rfl, rfl⟩
    rw [hplan]
    constructor
    · rintro ⟨hiff, -⟩ first hoc - ⟨i, hi, hlt, -⟩
      obtain ⟨-, _, -, honly⟩ := hiff.1 ⟨_, rfl⟩
      exact absurd ((honly _ hi).trans (honly _ hoc).symm) (Nat.ne_of_gt hlt)
    · intro hseen
      have honly : ∀ offset, OccursAt base oldText offset → offset = byteLen before := by
        intro offset ho
        by_contra hne
        have hlt : byteLen before < offset := lt_of_le_of_ne (hfst offset ho) (Ne.symm hne)
        obtain ⟨i, hi, hend⟩ := hseen _ hone hfst ⟨offset, ho, hlt, hinside offset ho⟩
        exact absurd (hinside i hi) (Nat.not_lt_of_le hend)
      refine ⟨⟨fun _ => ⟨hol, byteLen before, hone, honly⟩, fun _ => ⟨_, rfl⟩⟩, ?_⟩
      rintro plan ⟨⟩
      refine ⟨before, after, hbase, honly, rfl, ?_⟩
      rw [hbase]
      exact applyPlan_of_validOn rfl

theorem one_occurrence_replaced : ∃ before after, ['a', 'b', 'a'] = before ++ (['b'] ++ after) ∧
    applyPlan ['a', 'b', 'a'] ⟨⟨1, 2⟩, ['b'], ['c']⟩ = .ok (before ++ ['c'] ++ after) := by
  have hseen : OverlapSeen ['a', 'b', 'a'] ['b'] := by
    rintro first - - ⟨i, -, hlt, hend⟩
    have hone : byteLen ['b'] = 1 := rfl
    omega
  obtain ⟨before, after, hb, -, -, ha⟩ := ((plan_iff_one_occurrence ['a', 'b', 'a'] ['b'] ['c'] _ .replaceText).2
    hseen).2 ⟨⟨1, 2⟩, ['b'], ['c']⟩ (by decide)
  exact ⟨before, after, hb, ha⟩

/-- The old text stands at the offsets 0 and 1, and there is a plan. -/
theorem overlapping_occurrence_unseen :
    planOperation ['a', 'a', 'a'] (.replaceText ['a', 'a'] []) = .ok ⟨⟨0, 2⟩, ['a', 'a'], []⟩ ∧
      OccursAt ['a', 'a', 'a'] ['a', 'a'] 0 ∧ OccursAt ['a', 'a', 'a'] ['a', 'a'] 1 :=
  ⟨by decide, ⟨[], ['a'], rfl, rfl⟩, ⟨['a'], [], rfl, rfl⟩⟩

end Chariox.TextDocument
