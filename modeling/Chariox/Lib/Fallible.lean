import Mathlib

/-!
# Operations that change a state and may fail

An operation returns the state it leaves behind together with the error it ended with, if any.  A failed operation
keeps what it changed before it failed, so an invariant has to survive every part of it.
-/

namespace Chariox

variable {S E A : Type}

/-- Continue unless the first operation failed. -/
def andThen (r : S × Option E) (f : S → S × Option E) : S × Option E :=
  match r.2 with
  | none => f r.1
  | some error => (r.1, some error)

/-- Do one operation for each element; the first failure ends the loop. -/
def forEach (f : A → S → S × Option E) : List A → S → S × Option E
  | [], s => (s, none)
  | a :: rest, s => andThen (f a s) (forEach f rest)

/-- What holds after the operation: `P` if it succeeded, `Q` if it failed. -/
def Ends (P Q : S → Prop) (r : S × Option E) : Prop :=
  match r.2 with
  | none => P r.1
  | some _ => Q r.1

theorem Ends.imp {P P' Q Q' : S → Prop} {r : S × Option E} (h : Ends P Q r) (hP : ∀ s, P s → P' s)
    (hQ : ∀ s, Q s → Q' s) : Ends P' Q' r := by
  unfold Ends at h ⊢
  split at h
  · exact hP _ h
  · exact hQ _ h

theorem Ends.andThen {P P' Q : S → Prop} {r : S × Option E} {f : S → S × Option E} (h : Ends P Q r)
    (hf : ∀ s, P s → Ends P' Q (f s)) : Ends P' Q (andThen r f) := by
  obtain ⟨s, er⟩ := r
  cases er with
  | none => exact hf s h
  | some => exact h

theorem Ends.forEach {P Q : S → Prop} {f : A → S → S × Option E} {l : List A}
    (hf : ∀ a ∈ l, ∀ s, P s → Ends P Q (f a s)) {s : S} (hs : P s) : Ends P Q (forEach f l s) := by
  induction l generalizing s with
  | nil => exact hs
  | cons a rest ih =>
    refine (hf a List.mem_cons_self s hs).andThen ?_
    intro s' hs'
    exact ih (fun b hb => hf b (List.mem_cons_of_mem a hb)) hs'

end Chariox
