import Mathlib

/-!
# What becomes of one request of the worker

The tally of a request counts where it is and what was sent for it.  A request waits, is active (and owes its answer
until the handler or a cancellation gives it), or is being published; its answers are on their way, written or
withdrawn.  Each move of a request changes the counts in one way, and the tally stays sound: the request is in one
place, and the answers that were queued and not withdrawn together with those still owed make exactly one.
-/

namespace Chariox.WorkerPeer

@[ext]
structure Tally where
  waiting : Nat
  active : Nat
  /-- Active without an answer. -/
  owing : Nat
  publishing : Nat
  /-- Answers under publication that are on their way. -/
  guarded : Nat
  /-- Answers on their way. -/
  flying : Nat
  /-- Answers that were ever queued. -/
  responses : Nat
  withdrawn : Nat
  written : Nat
  /-- Publications that are over. -/
  finished : Nat

namespace Tally

/-- `closed` is one when the actor has left its loop, `taken` when the request has arrived, and `hand` when its answer
is about to be queued.  The answers due are those that were queued and those still owed: by a request that waits, by a
handler, or for an answer that was withdrawn while it was being published. -/
@[mk_iff]
structure Sound (closed taken hand : Nat) (t : Tally) : Prop where
  taken_le : taken ≤ 1
  once : t.waiting + t.active + t.publishing ≤ taken
  unfinished : t.waiting + t.active + t.guarded + t.finished ≤ taken
  guarded : t.guarded ≤ t.publishing
  owing : t.owing ≤ t.active
  withdrawn : t.withdrawn ≤ t.finished
  flying : t.guarded ≤ t.flying
  written : t.flying + t.written + t.withdrawn ≤ t.responses
  due_le : t.responses + t.waiting + t.owing + min t.publishing t.withdrawn + hand ≤ t.withdrawn + taken
  le_due : t.withdrawn + taken ≤ t.responses + t.waiting + t.owing + min t.publishing t.withdrawn + hand + closed

namespace Sound

variable {closed taken hand : Nat} {t : Tally}

theorem take (h : t.Sound closed 0 0) : t.Sound closed 1 1 := by
  rw [sound_iff] at h ⊢
  omega

theorem wait (h : t.Sound closed 0 0) : { t with waiting := t.waiting + 1 }.Sound closed 1 0 := by
  simp only [sound_iff] at h ⊢
  omega

theorem answer (h : t.Sound closed taken 1) :
    { t with flying := t.flying + 1, responses := t.responses + 1 }.Sound closed taken 0 := by
  simp only [sound_iff] at h ⊢
  omega

section

variable (h : t.Sound closed taken 0)

include h

theorem unqueue (hw : 1 ≤ t.waiting) : { t with waiting := t.waiting - 1 }.Sound closed taken 1 := by
  simp only [sound_iff] at h ⊢
  omega

theorem start (hw : 1 ≤ t.waiting) :
    { t with waiting := t.waiting - 1, active := t.active + 1, owing := t.owing + 1 }.Sound closed taken 0 := by
  simp only [sound_iff] at h ⊢
  omega

theorem reply (ho : 1 ≤ t.owing) : { t with owing := t.owing - 1 }.Sound closed taken 1 := by
  simp only [sound_iff] at h ⊢
  omega

theorem leave (ho : t.owing + 1 ≤ t.active) : { t with active := t.active - 1 }.Sound closed taken 0 := by
  simp only [sound_iff] at h ⊢
  omega

theorem finish (ho : 1 ≤ t.owing) : { t with active := t.active - 1, owing := t.owing - 1 }.Sound closed taken 1 := by
  simp only [sound_iff] at h ⊢
  omega

theorem publish (ho : 1 ≤ t.owing) : { t with
      active := t.active - 1, owing := t.owing - 1, publishing := t.publishing + 1, guarded := t.guarded + 1,
      flying := t.flying + 1, responses := t.responses + 1 }.Sound closed taken 0 := by
  simp only [sound_iff] at h ⊢
  omega

theorem forget (hf : 1 ≤ t.finished) (hw : t.withdrawn = 0) {p : Nat}
    (hp : p ≤ t.publishing) : { t with publishing := p }.Sound closed taken 0 := by
  simp only [sound_iff] at h ⊢
  omega

/-- A withdrawn answer is no longer publishing; the request gets another one. -/
theorem replace (hp : 1 ≤ t.publishing) (hw : 1 ≤ t.withdrawn) :
    { t with publishing := t.publishing - 1 }.Sound closed taken 1 := by
  simp only [sound_iff] at h ⊢
  omega

end

section

variable (h : t.Sound closed taken hand)

include h

theorem withdraw (hg : 1 ≤ t.guarded) : { t with
      guarded := t.guarded - 1, flying := t.flying - 1, withdrawn := t.withdrawn + 1,
      finished := t.finished + 1 }.Sound closed taken hand := by
  simp only [sound_iff] at h ⊢
  omega

theorem writeGuarded (hg : 1 ≤ t.guarded) : { t with
      guarded := t.guarded - 1, flying := t.flying - 1, written := t.written + 1,
      finished := t.finished + 1 }.Sound closed taken hand := by
  simp only [sound_iff] at h ⊢
  omega

theorem write (hf : t.guarded + 1 ≤ t.flying) :
    { t with flying := t.flying - 1, written := t.written + 1 }.Sound closed taken hand := by
  simp only [sound_iff] at h ⊢
  omega

theorem lose {g f : Nat} (hg : g ≤ t.guarded) (hf : f ≤ t.flying) (hgf : g ≤ f) :
    { t with guarded := g, flying := f }.Sound closed taken hand := by
  simp only [sound_iff] at h ⊢
  omega

/-- The actor leaves its loop: what waits and the answer in hand are dropped. -/
theorem close : { t with waiting := 0 }.Sound 1 taken 0 := by
  simp only [sound_iff] at h ⊢
  omega

/-- At most one answer is not withdrawn, and at most one is written. -/
theorem at_most_one : t.responses ≤ t.withdrawn + 1 ∧ t.withdrawn ≤ 1 ∧ t.written ≤ 1 := by
  rw [sound_iff] at h
  omega

end

theorem exactly_one (h : t.Sound 0 1 0) (hw : t.waiting = 0) (ha : t.active = 0) (hp : t.publishing = 0) :
    t.responses = t.withdrawn + 1 := by
  rw [sound_iff] at h
  omega

end Sound

end Tally

end Chariox.WorkerPeer
