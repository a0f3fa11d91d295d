import Mathlib

/-!
# Programs that fail and crash

A program over a state `σ` is a sequence of steps.  What becomes of a step is not up to the program: it succeeds, it
fails with part of its effect done, or the process dies there.  A script lists these fates, so that a run is a function
of the script and a statement about every script is a statement about every failure and every crash point.  Once the
script is used up, all steps succeed.
-/

namespace Chariox

/-- What becomes of a step.  The number says how much of its effect a failing or last step still has. -/
inductive Fate
  | ok
  | fail (done : Nat)
  | crash (done : Nat)
  deriving DecidableEq, Repr

/-- How a program ends: with a value, with an error, or because the process died. -/
inductive Ending (ε α : Type)
  | value (a : α)
  | error (e : ε)
  | crashed
  deriving DecidableEq, Repr

/-- A program with errors `ε` over states `σ`. -/
def Prog (ε σ α : Type) : Type := List Fate → σ → Ending ε α × List Fate × σ

namespace Prog

variable {ε σ α β : Type}

def pure (a : α) : Prog ε σ α := fun script s => (.value a, script, s)

def bind (p : Prog ε σ α) (f : α → Prog ε σ β) : Prog ε σ β := fun script s =>
  match p script s with
  | (.value a, script, s) => f a script s
  | (.error e, script, s) => (.error e, script, s)
  | (.crashed, script, s) => (.crashed, script, s)

instance : Monad (Prog ε σ) where
  pure := Prog.pure
  bind := Prog.bind

def throw (e : ε) : Prog ε σ α := fun script s => (.error e, script, s)

def get : Prog ε σ σ := fun script s => (.value s, script, s)

/-- Change the state of the process.  No step: it can neither fail nor crash. -/
def modify (f : σ → σ) : Prog ε σ Unit := fun script s => (.value (), script, f s)

/-- One step, with its effect under each fate and the error of its failure. -/
def step (effect : Fate → σ → σ) (e : ε) : Prog ε σ Unit := fun script s =>
  match script with
  | [] => (.value (), [], effect .ok s)
  | .ok :: script => (.value (), script, effect .ok s)
  | .fail n :: script => (.error e, script, effect (.fail n) s)
  | .crash n :: script => (.crashed, script, effect (.crash n) s)

/-- Run a program and keep its error as a value.  A crash stays a crash. -/
def attempt (p : Prog ε σ α) : Prog ε σ (Except ε α) := fun script s =>
  match p script s with
  | (.value a, script, s) => (.value (.ok a), script, s)
  | (.error e, script, s) => (.value (.error e), script, s)
  | (.crashed, script, s) => (.crashed, script, s)

/-- From a state of `P` the program ends with a value in `Q`, with an error in `E`, or crashes in a state of `C`. -/
def Ensures (P : σ → Prop) (p : Prog ε σ α) (Q : α → σ → Prop) (E : ε → σ → Prop) (C : σ → Prop) : Prop :=
  ∀ script s, P s → match p script s with
    | (.value a, _, s') => Q a s'
    | (.error e, _, s') => E e s'
    | (.crashed, _, s') => C s'

variable {P P' : σ → Prop} {Q Q' : α → σ → Prop} {R : β → σ → Prop} {E E' : ε → σ → Prop} {C : σ → Prop}

/-! ### Rules -/

theorem ensures_pure {a : α} (h : ∀ s, P s → Q a s) : Ensures P (Pure.pure a) Q E C := fun _ s hs => h s hs

theorem ensures_throw {e : ε} (h : ∀ s, P s → E e s) : Ensures P (throw e) Q E C := fun _ s hs => h s hs

theorem ensures_modify {f : σ → σ} {Q : Unit → σ → Prop} (h : ∀ s, P s → Q () (f s)) : Ensures P (modify f) Q E C :=
  fun _ s hs => h s hs

theorem ensures_step {ef : Fate → σ → σ} {e : ε} {Q : Unit → σ → Prop} (hok : ∀ s, P s → Q () (ef .ok s))
    (hf : ∀ s n, P s → E e (ef (.fail n) s)) (hc : ∀ s n, P s → C (ef (.crash n) s)) : Ensures P (step ef e) Q E C := by
  intro sc s hs
  match sc with
  | [] | .ok :: _ => exact hok s hs
  | .fail n :: sc => exact hf s n hs
  | .crash n :: sc => exact hc s n hs

variable {p : Prog ε σ α}

theorem ensures_bind {f : α → Prog ε σ β} (hp : Ensures P p Q E C)
    (hf : ∀ a, Ensures (Q a) (f a) R E C) : Ensures P (p >>= f) R E C := by
  intro sc s hs
  have h := hp sc s hs
  show match Prog.bind p f sc s with
    | (.value a, _, s') => R a s'
    | (.error e, _, s') => E e s'
    | (.crashed, _, s') => C s'
  unfold Prog.bind
  cases hrun : p sc s with
  | mk en rest =>
    obtain ⟨sc', s'⟩ := rest
    rw [hrun] at h
    cases en with
    | value a => exact hf a sc' s' h
    | _ => exact h

/-- Reading the state first: the rest is run from a known state. -/
theorem ensures_get_bind {f : σ → Prog ε σ α} (h : ∀ s, P s → Ensures (fun s' => s' = s) (f s) Q E C) :
    Ensures P (get >>= f) Q E C := fun sc s hs => h s hs sc s rfl

theorem ensures_attempt {Q : Except ε α → σ → Prop}
    (hp : Ensures P p (fun a => Q (.ok a)) (fun e => Q (.error e)) C) : Ensures P p.attempt Q E C := by
  intro sc s hs
  have h := hp sc s hs
  unfold attempt
  cases hrun : p sc s with
  | mk en rest =>
    rw [hrun] at h
    cases en with
    | _ => exact h

/-- Weakening all three endings. -/
theorem Ensures.imp {C' : σ → Prop} (h : Ensures P p Q E C) (hP : ∀ s, P' s → P s)
    (hQ : ∀ a s, Q a s → Q' a s) (hE : ∀ e s, E e s → E' e s) (hC : ∀ s, C s → C' s) : Ensures P' p Q' E' C' := by
  intro sc s hs
  have hr := h sc s (hP s hs)
  cases hrun : p sc s with
  | mk en rest =>
    obtain ⟨sc', s'⟩ := rest
    rw [hrun] at hr
    cases en with
    | value a => exact hQ a s' hr
    | error e => exact hE e s' hr
    | crashed => exact hC s' hr

theorem Ensures.requires (h : Ensures P p Q E C) (hP : ∀ s, P' s → P s) : Ensures P' p Q E C :=
  fun sc s hs => h sc s (hP s hs)

/-! ### Rules from a known state -/

section

variable {s : σ}

theorem Ensures.from_state (h : Ensures P p Q E C) (hs : P s) : Ensures (fun s' => s' = s) p Q E C :=
  h.requires fun _ heq => heq ▸ hs

theorem ensures_pure_from {a : α} (h : Q a s) : Ensures (fun s' => s' = s) (Pure.pure a) Q E C :=
  ensures_pure fun _ heq => heq ▸ h

theorem ensures_throw_from {e : ε} (h : E e s) : Ensures (fun s' => s' = s) (throw e) Q E C :=
  ensures_throw fun _ heq => heq ▸ h

theorem ensures_modify_from {f : σ → σ} {Q : Unit → σ → Prop} (h : Q () (f s)) :
    Ensures (fun s' => s' = s) (modify f) Q E C :=
  ensures_modify fun _ heq => heq ▸ h

theorem ensures_modify_bind {f : σ → σ} (h : Ensures (fun s' => s' = f s) p Q E C) :
    Ensures (fun s' => s' = s) (modify f >>= fun _ => p) Q E C :=
  ensures_bind (ensures_modify_from rfl) fun _ => h

end

theorem Ensures.weaken (h : Ensures P p Q E C) (hP : ∀ s, P' s → P s) (hQ : ∀ a s, Q a s → Q' a s)
    (hE : ∀ e s, E e s → E' e s) : Ensures P' p Q' E' C :=
  h.imp hP hQ hE fun _ hs => hs

theorem Ensures.and {C' : σ → Prop} (h : Ensures P p Q E C) (h' : Ensures P' p Q' E' C') :
    Ensures (fun s => P s ∧ P' s) p (fun a s => Q a s ∧ Q' a s) (fun e s => E e s ∧ E' e s) (fun s => C s ∧ C' s) := by
  intro sc s hs
  have hleft := h sc s hs.1
  have hrt := h' sc s hs.2
  cases hrun : p sc s with
  | mk en rest =>
    rw [hrun] at hleft hrt
    cases en with
    | _ => exact ⟨hleft, hrt⟩

/-- Splitting off a fact about the state that does not depend on it. -/
theorem ensures_of_imp {φ : Prop} (h : φ → Ensures P p Q E C) :
    Ensures (fun s => φ ∧ P s) p Q E C := fun sc s hs => h hs.1 sc s hs.2

end Prog

end Chariox
