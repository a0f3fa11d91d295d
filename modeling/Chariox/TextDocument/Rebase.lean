import Chariox.Lib.Except
import Chariox.TextDocument.LineDiff

/-!
# Rebasing an edit

A plan that is valid on the base and is rebased without a conflict applies to the current text, and its result has both
the change of the plan and the line changes made since the base.
-/

namespace Chariox.TextDocument

open Chariox.Alignment List

/-! ### Plans -/

/-- The range of the plan lies on character boundaries of the text and holds the old text. -/
def TextEditPlan.ValidOn (plan : TextEditPlan) (text : Text) : Prop :=
  ∃ before after, text = before ++ (plan.oldText ++ after) ∧
    plan.range = ⟨byteLen before, byteLen before + byteLen plan.oldText⟩

theorem splitAtSize_left (a b : Text) : splitAtSize Char.utf8Size (a ++ b) (byteLen a) = some (a, b) :=
  splitAtSize_append Char.utf8Size Char.utf8Size_pos a b

theorem validateBoundary_left (a b : Text) : validateBoundary (a ++ b) (byteLen a) = .ok () := by
  rw [validateBoundary, isCharBoundary, splitAtSize_left]
  simp

variable {plan : TextEditPlan} {range : TextRange} {base : Text} {offset : Nat}

theorem exists_of_validateBoundary {text : Text} (h : validateBoundary text offset = .ok ()) :
    ∃ a b, text = a ++ b ∧ byteLen a = offset := by
  unfold validateBoundary at h
  split at h
  · rename_i hc
    rw [Bool.and_eq_true, isCharBoundary, Option.isSome_iff_exists] at hc
    obtain ⟨⟨a, b⟩, hs⟩ := hc.2
    exact ⟨a, b, splitAtSize_eq_some _ hs⟩
  · cases h

theorem textTo_left (a b : Text) : textTo (a ++ b) (byteLen a) = a := by
  rw [textTo, splitAtSize_left]
  rfl

theorem textFrom_left (a b : Text) : textFrom (a ++ b) (byteLen a) = b := by
  rw [textFrom, splitAtSize_left]
  rfl

theorem slice_middle (a m c : Text) : slice (a ++ (m ++ c)) ⟨byteLen a, byteLen a + byteLen m⟩ = m := by
  have hsize : byteLen a + byteLen m = byteLen (a ++ m) := by simp
  rw [slice, hsize, ← append_assoc, textTo_left, textFrom_left]

theorem applyPlan_of_validOn {b after : Text} (hr : plan.range = ⟨byteLen b, byteLen b + byteLen plan.oldText⟩) :
    applyPlan (b ++ (plan.oldText ++ after)) plan = .ok (b ++ plan.newText ++ after) := by
  have hsize : byteLen b + byteLen plan.oldText = byteLen (b ++ plan.oldText) := by simp
  have hstop : validateBoundary (b ++ (plan.oldText ++ after)) (byteLen b + byteLen plan.oldText) = .ok () := by
    rw [hsize, ← append_assoc]
    exact validateBoundary_left _ _
  have hin : ¬ (decide (byteLen b > byteLen b + byteLen plan.oldText) ||
      decide (byteLen b + byteLen plan.oldText > byteLen (b ++ (plan.oldText ++ after)))) = true := by
    simp
  have hfrom : textFrom (b ++ (plan.oldText ++ after)) (byteLen b + byteLen plan.oldText) = after := by
    rw [hsize, ← append_assoc, textFrom_left]
  rw [applyPlan, hr]
  rw [validateBoundary_left, hstop]
  rw [if_neg hin, slice_middle, if_neg (by simp), textTo_left, hfrom]
  rfl

theorem exists_of_findText {pattern text : Text} (h : findText pattern text = some offset) :
    ∃ a b, text = a ++ (pattern ++ b) ∧ byteLen a = offset := by
  induction text generalizing offset with
  | nil =>
    unfold findText at h
    split at h
    · rename_i hn
      cases h
      exact ⟨[], [], by simp [hn], rfl⟩
    · cases h
  | cons c text ih =>
    unfold findText at h
    split at h
    · rename_i hp
      cases h
      obtain ⟨b, hb⟩ := isPrefixOf_iff_prefix.1 hp
      exact ⟨[], b, hb.symm, rfl⟩
    · obtain ⟨off', ho, rfl⟩ := Option.map_eq_some_iff.1 h
      obtain ⟨a, b, rfl, rfl⟩ := ih ho
      exact ⟨c :: a, b, rfl, by simp [Nat.add_comm]⟩

theorem planReplaceText_validOn {old new : Text} (h : planReplaceText base old new = .ok plan) : plan.ValidOn base := by
  unfold planReplaceText at h
  split at h
  · cases h
  rename_i hf
  dsimp only at h
  split at h
  · cases h
  cases h
  obtain ⟨a, b, hb, hst⟩ := exists_of_findText hf
  exact ⟨a, b, hb, by rw [hst]⟩

theorem planReplaceRange_validOn {oldText new : Text}
    (h : planReplaceRange base range oldText new = .ok plan) : plan.ValidOn base := by
  obtain ⟨_, hst, h⟩ := of_bind_ok h
  obtain ⟨_, hstop, h⟩ := of_bind_ok h
  split at h
  · cases h
  rename_i hin
  split at h
  · split at h
    · exact planReplaceText_validOn h
    · cases h
  rename_i hs
  cases h
  obtain ⟨a, b, hb, ha⟩ := exists_of_validateBoundary hst
  obtain ⟨c, d, hb', hc⟩ := exists_of_validateBoundary hstop
  simp only [Bool.or_eq_true, decide_eq_true_eq] at hin
  obtain ⟨m, rfl, rfl⟩ := exists_of_size_le Char.utf8Size Char.utf8Size_pos (hb.symm.trans hb')
    (show byteLen a ≤ byteLen c by omega)
  have hrng : range = ⟨byteLen a, byteLen a + byteLen m⟩ := by
    have hsize : byteLen (a ++ m) = byteLen a + byteLen m := size_append ..
    rw [← hsize, hc, ha]
  have hold : m = oldText := by
    rw [not_not, hrng, hb, slice_middle] at hs
    exact hs
  subst hold
  exact ⟨a, d, hb, hrng⟩

theorem planOperation_validOn {op : AgentEditOperation} (h : planOperation base op = .ok plan) : plan.ValidOn base := by
  cases op with
  | replaceText => exact planReplaceText_validOn h
  | replaceRange => exact planReplaceRange_validOn h
  | writeArtifact =>
    unfold planOperation at h
    dsimp only at h
    split at h <;> cases h
    exact ⟨[], [], by simp, by simp⟩

/-- A plan that is made can be applied, and changes only the text it replaces. -/
theorem planned_edit_applies (base : Text) (op : AgentEditOperation) :
    (∃ e, planOperation base op = .error e) ∨ ∃ plan before after, planOperation base op = .ok plan ∧
      base = before ++ (plan.oldText ++ after) ∧ applyPlan base plan = .ok (before ++ plan.newText ++ after) := by
  cases h : planOperation base op with
  | error e => exact .inl ⟨e, rfl⟩
  | ok plan =>
    obtain ⟨before, after, rfl, hr⟩ := planOperation_validOn h
    exact .inr ⟨plan, before, after, rfl, rfl, applyPlan_of_validOn hr⟩

/-! ### Shifting -/

theorem shiftOffset_eq {shifted : Nat} {shift : Int} (h : shiftOffset offset shift = .ok shifted) :
    (shifted : Int) = offset + shift := by
  unfold shiftOffset at h
  split at h
  · split at h
    · cases h
      omega
    · cases h
  · split at h
    · cases h
      omega
    · cases h

/-- What the deltas that end before `planStart` add. -/
def totalShift (planStart : Nat) (deltas : List ChangeDelta) : Int :=
  ((deltas.filter (fun delta => delta.range.stop ≤ planStart)).map
    (fun delta => (delta.insertedLen : Int) - delta.removedLen)).sum

theorem shiftRange_eq {ps : Nat} {deltas : List ChangeDelta} {st stop : Nat}
    (h : shiftRange ps deltas st stop = .ok range) : (range.start : Int) = st + totalShift ps deltas ∧
      (range.stop : Int) = stop + totalShift ps deltas := by
  induction deltas generalizing st stop with
  | nil =>
    cases h
    simp [totalShift]
  | cons dt deltas ih =>
    unfold shiftRange at h
    by_cases hbef : dt.range.stop ≤ ps
    · rw [if_pos hbef] at h
      obtain ⟨st', hst, h⟩ := of_bind_ok h
      obtain ⟨stop', hs, h⟩ := of_bind_ok h
      have hrest := ih h
      have hst' := shiftOffset_eq hst
      have hstop' := shiftOffset_eq hs
      have htot : totalShift ps (dt :: deltas) =
          (dt.insertedLen : Int) - dt.removedLen + totalShift ps deltas := by
        simp [totalShift, hbef]
      omega
    · rw [if_neg hbef] at h
      have htot : totalShift ps (dt :: deltas) = totalShift ps deltas := by
        simp [totalShift, hbef]
      rw [htot]
      exact ih h

/-! ### Rebasing -/

theorem rebasePlan_eq {cur : Text} {rebased : TextEditPlan} (h : rebasePlan base cur plan = .ok rebased) :
    (∀ dt ∈ changeDeltas base cur, deltaConflictsWithRange dt plan.range = false) ∧
      shiftRange plan.range.start (changeDeltas base cur) plan.range.start plan.range.stop = .ok rebased.range ∧
      rebased.oldText = plan.oldText ∧ rebased.newText = plan.newText := by
  unfold rebasePlan at h
  split at h
  · rename_i hs
    cases h
    rw [changeDeltas, if_pos hs]
    exact ⟨by simp, rfl, rfl, rfl⟩
  · dsimp only at h
    split at h
    · cases h
    rename_i hn
    obtain ⟨rg, hr, h⟩ := of_bind_ok h
    cases h
    refine ⟨?_, hr, rfl, rfl⟩
    simpa using hn

theorem exists_alignment (base current : Text) : ∃ ps : List (Piece Char), source ps = base ∧
    target ps = current ∧ (changes Char.utf8Size 0 ps).map deltaOf = changeDeltas base current := by
  by_cases hsame : base = current
  · refine ⟨[.kept base], by simp [source], by simp [target, hsame], ?_⟩
    rw [changeDeltas, if_pos hsame]
    rfl
  · exact ⟨diffPieces base current, source_diffPieces base current, target_diffPieces base current,
      (changeDeltas_eq base current hsame).symm⟩

theorem apart_of_not_conflict {c : Change Char} (h : deltaConflictsWithRange (deltaOf c) range = false) :
    c.stop Char.utf8Size ≤ range.start ∨ range.stop ≤ c.start := by
  unfold deltaConflictsWithRange at h
  split at h
  · rename_i he
    have hstop : c.start = c.stop Char.utf8Size := of_decide_eq_true he
    have hinside : ¬ (range.start < c.start ∧ c.start < range.stop) := by
      intro hin
      rw [Bool.and_eq_false_iff, decide_eq_false_iff_not, decide_eq_false_iff_not] at h
      exact h.elim (fun hn => hn hin.1) fun hn => hn hin.2
    omega
  · have hover : ¬ (range.start < c.stop Char.utf8Size ∧ c.start < range.stop) := by
      intro hin
      rw [TextRange.overlaps, Bool.and_eq_false_iff, decide_eq_false_iff_not, decide_eq_false_iff_not] at h
      exact h.elim (fun hn => hn hin.1) fun hn => hn hin.2
    omega

/-- The shift of the changes that end before the range is what they add to the text before it. -/
theorem totalShift_eq {p st stop : Nat} {before aft : List (Piece Char)}
    (hb : ∀ c ∈ changes Char.utf8Size p before, c.stop Char.utf8Size ≤ st)
    (ha : ∀ c ∈ changes Char.utf8Size stop aft, st < c.stop Char.utf8Size) :
    totalShift st ((changes Char.utf8Size p before ++ changes Char.utf8Size stop aft).map deltaOf) =
      (byteLen (target before) : Int) - byteLen (source before) := by
  have hsize : (byteLen (target before) : Int) = byteLen (source before) + ((changes Char.utf8Size p before).map
      fun c => (byteLen c.new : Int) - byteLen c.old).sum := size_target Char.utf8Size p before
  have hleft : (changes Char.utf8Size p before).filter (fun c => decide ((deltaOf c).range.stop ≤ st)) =
      changes Char.utf8Size p before := by
    rw [filter_eq_self]
    intro c hc
    exact decide_eq_true (hb c hc)
  have hrt : (changes Char.utf8Size stop aft).filter (fun c => decide ((deltaOf c).range.stop ≤ st)) = [] := by
    rw [filter_eq_nil_iff]
    intro c hc
    have hlt := ha c hc
    rw [decide_eq_true_eq]
    exact Nat.not_le_of_lt hlt
  have htot : totalShift st ((changes Char.utf8Size p before ++ changes Char.utf8Size stop aft).map deltaOf) =
      ((changes Char.utf8Size p before).map
        fun c => (byteLen c.new : Int) - byteLen c.old).sum := by
    unfold totalShift
    rw [filter_map, filter_append]
    simp only [Function.comp_def]
    rw [hleft, hrt, append_nil, map_map]
    rfl
  omega

/-! ### Lines that neither side touches -/

def TextRange.apart (range other : TextRange) : Bool := range.stop ≤ other.start || other.stop ≤ range.start

/-- The lines of the base outside the plan and outside every change since. -/
def untouchedLines (base current : Text) (plan : TextEditPlan) : List LineSpan :=
  (lineSpans base).filter (fun line =>
    line.range.apart plan.range && (changeDeltas base current).all (fun delta => line.range.apart delta.range))

def LineSpan.span (line : LineSpan) : Span Char := ⟨line.range.start, line.text⟩

theorem lineSpansFrom_spans (st : Nat) (sgs : List Text) :
    Spans Char.utf8Size st ((lineSpansFrom st sgs).map LineSpan.span) sgs.flatten ∧
      ∀ line ∈ lineSpansFrom st sgs, line.range.stop = line.range.start + byteLen line.text := by
  induction sgs generalizing st with
  | nil => exact ⟨trivial, by simp [lineSpansFrom]⟩
  | cons sg sgs ih =>
    obtain ⟨hs, hst⟩ := ih (st + byteLen sg)
    refine ⟨⟨[], sgs.flatten, rfl, rfl, hs⟩, ?_⟩
    exact forall_mem_cons.2 ⟨rfl, hst⟩

theorem lineSpans_spans (text : Text) : Spans Char.utf8Size 0 ((lineSpans text).map LineSpan.span) text := by
  have h := (lineSpansFrom_spans 0 (splitInclusive text)).1
  rwa [splitInclusive_flatten] at h

theorem apart_of_mem_untouchedLines {cur : Text} {line : LineSpan} (h : line ∈ untouchedLines base cur plan) :
    (plan.range.stop ≤ line.range.start ∨ line.range.start + byteLen line.text ≤ plan.range.start) ∧
      ∀ dt ∈ changeDeltas base cur,
        dt.range.stop ≤ line.range.start ∨ line.range.start + byteLen line.text ≤ dt.range.start := by
  obtain ⟨hl, hap⟩ := mem_filter.1 h
  rw [← (lineSpansFrom_spans 0 (splitInclusive base)).2 line hl]
  rw [Bool.and_eq_true, all_eq_true] at hap
  have happ : ∀ rg : TextRange, line.range.apart rg = true →
      rg.stop ≤ line.range.start ∨ line.range.stop ≤ rg.start := by
    intro rg hr
    rw [TextRange.apart, Bool.or_eq_true, decide_eq_true_eq, decide_eq_true_eq] at hr
    exact hr.symm
  exact ⟨happ _ hap.1, fun dt hd => happ _ (hap.2 dt hd)⟩

section Sound

variable {base current : Text} {plan rebased : TextEditPlan} {before after : List (Piece Char)}

/-- The rebased range stands where the text before the plan's range has moved. -/
theorem rebased_range {a : Text} (hr : plan.range = ⟨byteLen a, byteLen a + byteLen plan.oldText⟩)
    (hsh : shiftRange plan.range.start (changeDeltas base current) plan.range.start plan.range.stop = .ok rebased.range)
    (ht : totalShift plan.range.start (changeDeltas base current) = (byteLen (target before) : Int) - byteLen a) :
    rebased.range = ⟨byteLen (target before), byteLen (target before) + byteLen plan.oldText⟩ := by
  obtain ⟨hst, hs⟩ := shiftRange_eq hsh
  rw [ht, hr] at hst hs
  dsimp only at hst hs
  have hst' : rebased.range.start = byteLen (target before) := by omega
  have hstop' : rebased.range.stop = byteLen (target before) + byteLen plan.oldText := by omega
  rw [← hstop', ← hst']

theorem untouchedLines_inOrder (hsr : source (before ++ .changed plan.oldText plan.newText :: after) = base)
    (hb : byteLen (source before) = plan.range.start) (hr : plan.range.stop = plan.range.start + byteLen plan.oldText)
    (hdl : (changes Char.utf8Size 0 (before ++ .kept plan.oldText :: after)).map deltaOf = changeDeltas base current) :
    InOrder ((untouchedLines base current plan).map LineSpan.text)
      (target (before ++ .changed plan.oldText plan.newText :: after)) := by
  have hspans : Spans Char.utf8Size 0 ((untouchedLines base current plan).map LineSpan.span)
      (source (before ++ .changed plan.oldText plan.newText :: after)) := by
    rw [hsr]
    exact (lineSpans_spans base).sublist (filter_sublist.map _)
  have hap : ∀ span ∈ (untouchedLines base current plan).map LineSpan.span,
      ∀ c ∈ changes Char.utf8Size 0 (before ++ .changed plan.oldText plan.newText :: after),
        c.stop Char.utf8Size ≤ span.start ∨ span.start + byteLen span.text ≤ c.start := by
    intro span hs c hc
    obtain ⟨line, hl, rfl⟩ := mem_map.1 hs
    obtain ⟨hp, hd⟩ := apart_of_mem_untouchedLines hl
    rw [changes_append, Nat.zero_add] at hc
    -- a change of the result is the plan's or one of the deltas
    have hcases : c = ⟨byteLen (source before), plan.oldText, plan.newText⟩ ∨
        deltaOf c ∈ changeDeltas base current := by
      rw [← hdl, changes_append, Nat.zero_add]
      rcases mem_append.1 hc with hc | hc
      · exact .inr (mem_map_of_mem (mem_append_left _ hc))
      rcases mem_cons.1 hc with rfl | hc
      · exact .inl rfl
      · exact .inr (mem_map_of_mem (mem_append_right _ hc))
    rcases hcases with rfl | hm
    · rw [hr, ← hb] at hp
      exact hp
    · exact hd _ hm
  have hinOrder := hspans.inOrder Char.utf8Size_pos hap
  rwa [map_map] at hinOrder

/-- A range that no change touches is a kept piece, and the changes before it shift it. -/
theorem exists_kept {a c : Text} (hba : base = a ++ (plan.oldText ++ c))
    (hr : plan.range = ⟨byteLen a, byteLen a + byteLen plan.oldText⟩)
    (hcf : ∀ dt ∈ changeDeltas base current, deltaConflictsWithRange dt plan.range = false) :
    ∃ before after : List (Piece Char), source before = a ∧ source after = c ∧
      target (before ++ .kept plan.oldText :: after) = current ∧
      (changes Char.utf8Size 0 (before ++ .kept plan.oldText :: after)).map deltaOf = changeDeltas base current ∧
      totalShift plan.range.start (changeDeltas base current) = (byteLen (target before) : Int) - byteLen a := by
  obtain ⟨ps, hsr, ht, hd⟩ := exists_alignment base current
  have hap : ∀ ch ∈ changes Char.utf8Size 0 ps, ch.stop Char.utf8Size ≤ 0 + byteLen a ∨
      0 + byteLen a + byteLen plan.oldText ≤ ch.start := by
    intro ch hch
    have hdelta : deltaOf ch ∈ changeDeltas base current := by
      rw [← hd]
      exact mem_map_of_mem hch
    have hnot := apart_of_not_conflict (hcf _ hdelta)
    rw [hr] at hnot
    rwa [Nat.zero_add]
  obtain ⟨before, after, hb, ha, hcu, hc, hl, hrt⟩ :=
    exists_split Char.utf8Size_pos (hsr.trans hba) hap
  rw [Nat.zero_add] at hc hl hrt
  refine ⟨before, after, hb, ha, by simp [target, ← ht, hcu], ?_, ?_⟩
  · rw [← hd, hc, changes_append, changes, hb, Nat.zero_add]
  · rw [← hd, hc, hr, totalShift_eq hl hrt, hb]

theorem applyPlan_rebased {a : Text} (hr : plan.range = ⟨byteLen a, byteLen a + byteLen plan.oldText⟩)
    (hsh : shiftRange plan.range.start (changeDeltas base current) plan.range.start plan.range.stop = .ok rebased.range)
    (ho : rebased.oldText = plan.oldText) (hn : rebased.newText = plan.newText)
    (ht : target (before ++ .kept plan.oldText :: after) = current)
    (htot : totalShift plan.range.start (changeDeltas base current) = (byteLen (target before) : Int) - byteLen a) :
    applyPlan current rebased = .ok (target (before ++ .changed plan.oldText plan.newText :: after)) := by
  have hreba := rebased_range hr hsh htot
  rw [← ho] at hreba
  rw [← ht, target_append, target, ← ho, applyPlan_of_validOn hreba, hn]
  simp [target]

/-- A rebased plan applies.  Base, current text and result are the readings of one list of pieces: the pieces between
base and current text are the line changes, and the result also has the plan's old text replaced by its new one.  The
lines that neither side touches stand in the result in their order. -/
theorem rebasePlan_sound (hvalid : plan.ValidOn base) (h : rebasePlan base current plan = .ok rebased) :
    ∃ before after : List (Piece Char),
      source (before ++ .kept plan.oldText :: after) = base ∧
      target (before ++ .kept plan.oldText :: after) = current ∧
      (changes Char.utf8Size 0 (before ++ .kept plan.oldText :: after)).map deltaOf = changeDeltas base current ∧
      byteLen (source before) = plan.range.start ∧
      applyPlan current rebased = .ok (target (before ++ .changed plan.oldText plan.newText :: after)) ∧
      InOrder ((untouchedLines base current plan).map LineSpan.text)
        (target (before ++ .changed plan.oldText plan.newText :: after)) := by
  obtain ⟨a, c, hba, hr⟩ := hvalid
  obtain ⟨hcf, hs, ho, hn⟩ := rebasePlan_eq h
  obtain ⟨before, after, hb, ha, ht, hkept, htot⟩ := exists_kept hba hr hcf
  have hst : byteLen (source before) = plan.range.start := by rw [hb, hr]
  refine ⟨before, after, by simp [source, hb, ha, hba], ht, hkept, hst, applyPlan_rebased hr hs ho hn ht htot, ?_⟩
  refine untouchedLines_inOrder (by simp [source, hb, ha, hba]) hst ?_ hkept
  rw [hr]

/-- A line is inserted before the line that the plan edits. -/
theorem rebasePlan_sound_lineInserted :
    rebasePlan ['a', '\n', 'b', '\n'] ['x', '\n', 'a', '\n', 'b', '\n'] ⟨⟨2, 3⟩, ['b'], ['c']⟩ =
        .ok ⟨⟨4, 5⟩, ['b'], ['c']⟩ ∧
      ∃ before after : List (Piece Char),
        target (before ++ .kept ['b'] :: after) = ['x', '\n', 'a', '\n', 'b', '\n'] ∧
        applyPlan ['x', '\n', 'a', '\n', 'b', '\n'] ⟨⟨4, 5⟩, ['b'], ['c']⟩ =
          .ok (target (before ++ .changed ['b'] ['c'] :: after)) := by
  have hrebase : rebasePlan ['a', '\n', 'b', '\n'] ['x', '\n', 'a', '\n', 'b', '\n'] ⟨⟨2, 3⟩, ['b'], ['c']⟩ =
      .ok ⟨⟨4, 5⟩, ['b'], ['c']⟩ := by decide
  refine ⟨hrebase, ?_⟩
  obtain ⟨before, after, -, hc, -, -, ha, -⟩ :=
    rebasePlan_sound ⟨['a', '\n'], ['\n'], by decide, by decide⟩ hrebase
  exact ⟨before, after, hc, ha⟩

end Sound

end Chariox.TextDocument
