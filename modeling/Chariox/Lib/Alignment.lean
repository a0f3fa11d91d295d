import Mathlib

/-!
# Texts, positions and alignments

A text is a list whose elements have positive sizes, and a position in it is the size of what stands before.  An
alignment of a source and a target text is a list of pieces: a piece is kept, or its old text is changed to a new one.

The main fact (`exists_split`) cuts an alignment at a region of the source that no change touches: the region is then
kept in the target, behind the changes that end before it and ahead of the others.
-/

namespace Chariox.Alignment

open List

variable {α : Type} (w : α → Nat)

/-! ### Positions -/

def size (t : List α) : Nat := (t.map w).sum

@[simp] theorem size_nil : size w [] = 0 := rfl

@[simp] theorem size_cons (a : α) (t : List α) : size w (a :: t) = w a + size w t := by simp [size]

@[simp] theorem size_append (s t : List α) : size w (s ++ t) = size w s + size w t := by simp [size]

/-- Cut a text at a position, if the position does not lie inside an element. -/
def splitAtSize : List α → Nat → Option (List α × List α)
  | t, 0 => some ([], t)
  | [], _ + 1 => none
  | a :: t, n + 1 =>
    if w a ≤ n + 1 then (splitAtSize t (n + 1 - w a)).map (fun parts => (a :: parts.1, parts.2)) else none

variable {t : List α}

theorem splitAtSize_eq_some {a b : List α} {n : Nat} (h : splitAtSize w t n = some (a, b)) :
    t = a ++ b ∧ size w a = n := by
  induction t generalizing n a b with
  | nil =>
    cases n with
    | zero =>
      cases h
      exact ⟨rfl, rfl⟩
    | succ => cases h
  | cons x t ih =>
    cases n with
    | zero =>
      cases h
      exact ⟨rfl, rfl⟩
    | succ =>
      unfold splitAtSize at h
      split at h
      · obtain ⟨pts, hp, heq⟩ := Option.map_eq_some_iff.1 h
        cases heq
        obtain ⟨ht, hs⟩ := ih hp
        refine ⟨congrArg (x :: ·) ht, ?_⟩
        rw [size_cons]
        omega
      · cases h

section Positive

variable (hw : ∀ a, 0 < w a)
include hw

theorem splitAtSize_append (a b : List α) : splitAtSize w (a ++ b) (size w a) = some (a, b) := by
  induction a with
  | nil => cases b <;> rfl
  | cons x a ih =>
    have hpos := hw x
    obtain ⟨n, hn⟩ : ∃ n, size w (x :: a) = n + 1 := ⟨size w (x :: a) - 1, by rw [size_cons]; omega⟩
    have hrest : n + 1 - w x = size w a := by
      rw [size_cons] at hn
      omega
    rw [size_cons] at hn
    rw [cons_append, size_cons, hn, splitAtSize, if_pos (by omega), hrest, ih]
    rfl

theorem eq_nil_of_size {t : List α} (h : size w t = 0) : t = [] := by
  cases t with
  | nil => rfl
  | cons a =>
    have hpos := hw a
    rw [size_cons] at h
    omega

/-- The shorter of two beginnings of a text begins the other. -/
theorem exists_of_size_le {a b c d : List α} (h : a ++ b = c ++ d) (hle : size w a ≤ size w c) :
    ∃ e, c = a ++ e ∧ b = e ++ d := by
  rcases append_eq_append_iff.1 h with ⟨e, hc, hb⟩ | ⟨e, ha, hd⟩
  · exact ⟨e, hc, hb⟩
  have hnil : e = [] := by
    apply eq_nil_of_size w hw
    rw [ha, size_append] at hle
    omega
  subst hnil
  exact ⟨[], by simpa using ha.symm, by simpa using hd.symm⟩

end Positive

/-! ### Pieces -/

inductive Piece (α : Type)
  | kept (text : List α)
  | changed (old new : List α)
  deriving DecidableEq, Repr

def source : List (Piece α) → List α
  | [] => []
  | .kept t :: pieces => t ++ source pieces
  | .changed old _ :: pieces => old ++ source pieces

def target : List (Piece α) → List α
  | [] => []
  | .kept t :: pieces => t ++ target pieces
  | .changed _ new :: pieces => new ++ target pieces

/-- A change at a position of the source. -/
structure Change (α : Type) where
  start : Nat
  old : List α
  new : List α
  deriving DecidableEq, Repr

/-- Where the old text of a change ends. -/
def Change.stop (change : Change α) : Nat := change.start + size w change.old

/-- The changes of an alignment whose source begins at position `p`. -/
def changes (p : Nat) : List (Piece α) → List (Change α)
  | [] => []
  | .kept t :: pieces => changes (p + size w t) pieces
  | .changed old new :: pieces => ⟨p, old, new⟩ :: changes (p + size w old) pieces

@[simp] theorem source_append (xs ys : List (Piece α)) : source (xs ++ ys) = source xs ++ source ys := by
  induction xs with
  | nil => rfl
  | cons x xs ih => cases x <;> simp [source, ih]

@[simp] theorem target_append (xs ys : List (Piece α)) : target (xs ++ ys) = target xs ++ target ys := by
  induction xs with
  | nil => rfl
  | cons x xs ih => cases x <;> simp [target, ih]

theorem changes_append (p : Nat) (xs ys : List (Piece α)) :
    changes w p (xs ++ ys) = changes w p xs ++ changes w (p + size w (source xs)) ys := by
  induction xs generalizing p with
  | nil => rfl
  | cons x xs ih => cases x <;> simp [changes, source, ih, Nat.add_assoc]

/-- What the changes of an alignment add to its source. -/
theorem size_target (p : Nat) (ps : List (Piece α)) : (size w (target ps) : Int) = size w (source ps) +
    ((changes w p ps).map (fun c => (size w c.new : Int) - size w c.old)).sum := by
  induction ps generalizing p with
  | nil => rfl
  | cons piece ps ih =>
    cases piece with
    | kept t =>
      have := ih (p + size w t)
      simp only [target, source, changes, size_append]
      omega
    | changed old =>
      have := ih (p + size w old)
      simp only [target, source, changes, size_append, map_cons, sum_cons]
      omega

variable {p : Nat}

variable {ps : List (Piece α)}

theorem start_le_of_mem_changes {c : Change α} (h : c ∈ changes w p ps) : p ≤ c.start := by
  induction ps generalizing p with
  | nil => cases h
  | cons piece ps ih =>
    cases piece with
    | kept =>
      have := ih h
      omega
    | changed =>
      rcases mem_cons.1 h with rfl | h
      · exact Nat.le_refl p
      · have := ih h
        omega

theorem stop_le_of_mem_changes {c : Change α} (h : c ∈ changes w p ps) : c.stop w ≤ p + size w (source ps) := by
  induction ps generalizing p with
  | nil => cases h
  | cons piece ps ih =>
    cases piece with
    | kept t =>
      rw [source, size_append, ← Nat.add_assoc]
      exact ih h
    | changed old =>
      rw [source, size_append, ← Nat.add_assoc]
      rcases mem_cons.1 h with rfl | h
      · exact Nat.le_add_right ..
      · exact ih h

/-! ### Cutting an alignment -/

section Cutting

variable {w} (hw : ∀ a, 0 < w a)
include hw

variable {ps : List (Piece α)}

/-- A beginning of the source that ends before every change is kept. -/
theorem exists_rest {p : Nat} {m c : List α} (hs : source ps = m ++ c)
    (hl : ∀ ch ∈ changes w p ps, p + size w m ≤ ch.start) :
    ∃ after, source after = c ∧ target ps = m ++ target after ∧ changes w p ps = changes w (p + size w m) after := by
  induction ps generalizing p m with
  | nil =>
    obtain ⟨rfl, rfl⟩ := append_eq_nil_iff.1 hs.symm
    exact ⟨[], rfl, rfl, rfl⟩
  | cons piece ps ih =>
    cases piece with
    | kept t =>
      by_cases hle : size w t ≤ size w m
      · obtain ⟨m', rfl, hr⟩ := exists_of_size_le w hw hs hle
        have hlat' : ∀ ch ∈ changes w (p + size w t) ps, p + size w t + size w m' ≤ ch.start := by
          intro ch hch
          have := hl ch hch
          rw [size_append] at this
          omega
        obtain ⟨after, ha, ht, hc⟩ := ih hr hlat'
        refine ⟨after, ha, by simp [target, ht], ?_⟩
        rw [changes, hc, size_append, Nat.add_assoc]
      · obtain ⟨t', rfl, rfl⟩ := exists_of_size_le w hw hs.symm (by omega)
        refine ⟨.kept t' :: ps, rfl, by simp [target], ?_⟩
        rw [changes, changes, size_append, Nat.add_assoc]
    | changed old new =>
      have hzero : p + size w m ≤ p := hl ⟨p, old, new⟩ mem_cons_self
      have hnil : m = [] := eq_nil_of_size w hw (by omega)
      subst hnil
      exact ⟨.changed old new :: ps, hs, rfl, rfl⟩

/-- An alignment is cut at a position that lies in no change: the changes that end before the position come before the
cut. -/
theorem exists_cut {p : Nat} {a r : List α} (hs : source ps = a ++ r)
    (hap : ∀ c ∈ changes w p ps, c.stop w ≤ p + size w a ∨ p + size w a ≤ c.start) :
    ∃ b aft, source b = a ∧ source aft = r ∧ target ps = target b ++ target aft ∧
      changes w p ps = changes w p b ++ changes w (p + size w a) aft ∧
      (∀ c ∈ changes w p b, c.stop w ≤ p + size w a) ∧
      ∀ c ∈ changes w (p + size w a) aft, p + size w a < c.stop w := by
  induction ps generalizing p a with
  | nil =>
    obtain ⟨rfl, rfl⟩ := append_eq_nil_iff.1 hs.symm
    exact ⟨[], [], rfl, rfl, rfl, rfl, by simp [changes], by simp [changes]⟩
  | cons piece ps ih =>
    cases piece with
    | kept t =>
      by_cases hle : size w t ≤ size w a
      · obtain ⟨a', rfl, hr⟩ := exists_of_size_le w hw hs hle
        rw [size_append, ← Nat.add_assoc] at hap ⊢
        obtain ⟨b, aft, hb, ha, ht, hch, hl, hrt⟩ := ih hr hap
        refine ⟨.kept t :: b, aft, by simp [source, hb], ha, by simp [target, ht], ?_, hl, hrt⟩
        rw [changes, hch, changes]
      · obtain ⟨t', rfl, hr⟩ := exists_of_size_le w hw hs.symm (by omega)
        refine ⟨[.kept a], .kept t' :: ps, by simp [source], hr.symm, by simp [target], ?_, by simp [changes], ?_⟩
        · rw [changes, size_append, ← Nat.add_assoc]
          rfl
        · intro c hc
          have hst := start_le_of_mem_changes w (show c ∈ changes w (p + size w a + size w t') ps from hc)
          rw [size_append] at hle
          unfold Change.stop
          omega
    | changed old new =>
      have hfst := hap ⟨p, old, new⟩ mem_cons_self
      simp only [Change.stop] at hfst
      by_cases hle : size w old ≤ size w a
      · obtain ⟨a', rfl, hr⟩ := exists_of_size_le w hw hs hle
        rw [size_append, ← Nat.add_assoc] at hap ⊢
        obtain ⟨b, aft, hb, ha, ht, hch, hl, hrt⟩ :=
          ih hr fun c hc => hap c (mem_cons_of_mem _ hc)
        refine ⟨.changed old new :: b, aft, by simp [source, hb], ha, by simp [target, ht], ?_,
          forall_mem_cons.2 ⟨Nat.le_add_right .., hl⟩, hrt⟩
        rw [changes, hch, changes, cons_append]
      · -- the change begins at the cut
        obtain rfl : a = [] := eq_nil_of_size w hw (by omega)
        refine ⟨[], .changed old new :: ps, rfl, hs, rfl, rfl, by simp [changes], ?_⟩
        intro c hc
        rcases mem_cons.1 hc with rfl | hc
        · simp only [Change.stop]
          omega
        have hst := start_le_of_mem_changes w hc
        simp only [Change.stop]
        omega

/-- A region of the source that no change touches is kept in the target, behind the changes that end before it and
ahead of the others. -/
theorem exists_split {p : Nat} {a m c : List α} (hsr : source ps = a ++ (m ++ c))
    (hap : ∀ ch ∈ changes w p ps, ch.stop w ≤ p + size w a ∨ p + size w a + size w m ≤ ch.start) :
    ∃ b aft, source b = a ∧ source aft = c ∧ target ps = target b ++ (m ++ target aft) ∧
      changes w p ps = changes w p b ++ changes w (p + size w a + size w m) aft ∧
      (∀ ch ∈ changes w p b, ch.stop w ≤ p + size w a) ∧
      ∀ ch ∈ changes w (p + size w a + size w m) aft, p + size w a < ch.stop w := by
  obtain ⟨b, rest, hb, hr, ht, hch, hl, hrt⟩ := exists_cut hw hsr fun ch hc =>
    (hap ch hc).imp_right (Nat.le_trans (Nat.le_add_right ..))
  have hlat : ∀ ch ∈ changes w (p + size w a) rest, p + size w a + size w m ≤ ch.start := fun ch hc =>
    (hap ch (hch ▸ mem_append_right _ hc)).resolve_left (Nat.not_le_of_lt (hrt ch hc))
  obtain ⟨aft, ha, hk, hs⟩ := exists_rest hw hr hlat
  exact ⟨b, aft, hb, ha, by rw [ht, hk], by rw [hch, hs], hl, hs ▸ hrt⟩

end Cutting

/-! ### Texts in order -/

/-- The texts stand in `t` one after the other. -/
def InOrder : List (List α) → List α → Prop
  | [], _ => True
  | text :: texts, t => ∃ gap rest, t = gap ++ (text ++ rest) ∧ InOrder texts rest

/-- A text at a position. -/
structure Span (α : Type) where
  start : Nat
  text : List α
  deriving DecidableEq, Repr

/-- The spans stand one after the other in `t`, which begins at position `p`. -/
def Spans (p : Nat) : List (Span α) → List α → Prop
  | [], _ => True
  | span :: spans, t => ∃ gap rest, t = gap ++ (span.text ++ rest) ∧ p + size w gap = span.start ∧
      Spans (span.start + size w span.text) spans rest

variable {w}

variable {spans : List (Span α)}

theorem Spans.prepend (x : List α) (h : Spans w (p + size w x) spans t) : Spans w p spans (x ++ t) := by
  cases spans with
  | nil => trivial
  | cons =>
    obtain ⟨gap, rest, rfl, hst, hr⟩ := h
    refine ⟨x ++ gap, rest, by simp, ?_, hr⟩
    rw [size_append]
    omega

theorem Spans.sublist {spans' : List (Span α)} (h : Spans w p spans t)
    (hs : spans'.Sublist spans) : Spans w p spans' t := by
  induction hs generalizing p t with
  | slnil => trivial
  | cons span hs ih =>
    obtain ⟨gap, rest, rfl, hst, hr⟩ := h
    apply Spans.prepend
    apply Spans.prepend
    rw [hst]
    exact ih hr
  | cons_cons span hs ih =>
    obtain ⟨gap, rest, rfl, hst, hr⟩ := h
    exact ⟨gap, rest, rfl, hst, ih hr⟩

/-- Spans of the source that no change touches stand in the target in the same order. -/
theorem Spans.inOrder (hw : ∀ a, 0 < w a) (h : Spans w p spans (source ps))
    (hap : ∀ span ∈ spans, ∀ c ∈ changes w p ps, c.stop w ≤ span.start ∨ span.start + size w span.text ≤ c.start) :
    InOrder (spans.map Span.text) (target ps) := by
  induction spans generalizing p ps with
  | nil => trivial
  | cons span spans ih =>
    obtain ⟨gap, rest, hs, hst, hr⟩ := h
    have hfst := hap span mem_cons_self
    rw [← hst] at hfst
    obtain ⟨b, aft, -, ha, ht, hc, -⟩ := exists_split hw hs hfst
    refine ⟨target b, target aft, ht, ?_⟩
    rw [← ha] at hr
    refine ih hr ?_
    intro o ho c hch
    refine hap o (mem_cons_of_mem _ ho) c ?_
    rw [hc, hst]
    exact mem_append_right _ hch

end Chariox.Alignment
