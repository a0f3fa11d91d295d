import Mathlib

/-!
# Fallible computations

What follows from the success of a computation in `Except`: each of its steps succeeded, and no check failed; and the
integers of a machine and of a database, which natural numbers may exceed.
-/

namespace Chariox

variable {ε α β : Type}

def failIf (c : Prop) [Decidable c] (e : ε) : Except ε Unit := if c then .error e else .ok ()

theorem not_of_failIf {c : Prop} [Decidable c] {e : ε} {u : Unit} (h : failIf c e = .ok u) : ¬ c := by
  unfold failIf at h
  split at h
  · cases h
  · assumption

variable {x : Except ε α} {a : α}

theorem isOk_iff : x.isOk = true ↔ ∃ a, x = .ok a := by
  cases x with
  | error e => exact ⟨nofun, nofun⟩
  | ok a => exact ⟨fun _ => ⟨a, rfl⟩, fun _ => rfl⟩

theorem of_bind_ok {f : α → Except ε β} {b : β} (h : (x >>= f) = .ok b) : ∃ a, x = .ok a ∧ f a = .ok b := by
  cases x with
  | error => cases h
  | ok a => exact ⟨a, rfl, h⟩

/-- A check passed. -/
theorem of_check {x : Except ε Unit} {f : Unit → Except ε β} {b : β} (h : (x >>= f) = .ok b) : f () = .ok b := by
  obtain ⟨_, -, h⟩ := of_bind_ok h
  exact h

theorem exists_of_map_fst {x : Except ε (α × β)} (h : x.map Prod.fst = .ok a) : ∃ b, x = .ok (a, b) := by
  cases x with
  | error => cases h
  | ok ab =>
    cases h
    exact ⟨ab.2, rfl⟩

theorem ok_of_toOption (h : x.toOption = some a) : x = .ok a := by
  cases x with
  | error => cases h
  | ok =>
    cases h
    rfl

theorem exists_of_toOption_map {f : α → β} {b : β} (h : x.toOption.map f = some b) : ∃ a, x = .ok a ∧ f a = b := by
  obtain ⟨a, ha, hf⟩ := Option.map_eq_some_iff.1 h
  exact ⟨a, ok_of_toOption ha, hf⟩

theorem ok_of_mapError {ε' : Type} {f : ε → ε'} (h : x.mapError f = .ok a) : x = .ok a := by
  cases x with
  | error => cases h
  | ok =>
    cases h
    rfl

/-! ### Failed operations -/

section

variable {σ : Type} {s s' : σ} {r : σ × Except ε α} {e : ε}

/-- The error of an operation that returns its state and a result. -/
def failure (r : σ × Except ε α) : Option ε :=
  match r.2 with
  | .error e => some e
  | .ok _ => none

/-- If the operation on the state `s` failed, it left the state as it was. -/
def Atomic (s : σ) (r : σ × Except ε α) : Prop := ∀ e, r.2 = .error e → r.1 = s

namespace Atomic

@[simp] theorem refused : Atomic s (s, (.error e : Except ε α)) := fun _ _ => rfl

@[simp] theorem done : Atomic s (s', (.ok a : Except ε α)) := nofun

theorem eq (h : Atomic s r) (he : failure r = some e) : r.1 = s := by
  unfold failure at he
  split at he
  · exact h _ ‹_›
  · cases he

end Atomic

end

/-! ### Integers of fixed width -/

def u64Max : Nat := 2 ^ 64 - 1

def saturatingAdd (a b : Nat) : Nat := min (a + b) u64Max

def saturatingMul (a b : Nat) : Nat := min (a * b) u64Max

def i64Max : Nat := 2 ^ 63 - 1

/-- `i64::try_from` of a natural number. -/
def toI64 (value : Nat) (e : ε) : Except ε Nat := if value ≤ i64Max then .ok value else .error e

end Chariox
