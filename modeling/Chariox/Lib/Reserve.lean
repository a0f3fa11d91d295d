import Mathlib

/-!
# Reservations against declared amounts

An account keeps a total of reservations and what each owner has used of it.  Every owner's declared amount is in the
total from the start, so a reservation adds only what goes beyond the part of it that is still unused.
-/

namespace Chariox

variable {K : Type} [DecidableEq K]

structure Account (K : Type) where
  total : Nat
  used : K → Nat

namespace Account

variable (declared : K → Nat) (cap : Nat) (a : Account K)

/-- What is left of the owner's declared amount. -/
def credit (k : K) : Nat := declared k - a.used k

/-- Reserve an amount for an owner; the sums stop at the cap. -/
def reserve (r : K × Nat) : Account K :=
  ⟨min (a.total + (r.2 - a.credit declared r.1)) cap,
    Function.update a.used r.1 (min (a.used r.1 + r.2) cap)⟩

/-- The sum of the amounts for an owner. -/
def amount (rs : List (K × Nat)) (k : K) : Nat := (rs.map (fun r => if r.1 = k then r.2 else 0)).sum

/-- The declared amounts, each raised to what its owner uses if that is more. -/
def claimed (owners : Finset K) (used : K → Nat) : Nat := ∑ k ∈ owners, max (declared k) (used k)

variable {declared cap a}

/-- A reservation that fits into the room left for its owner keeps the total within the room. -/
theorem reserve_total_le {r : K × Nat} {room : Nat} (h : r.2 ≤ room - (a.total - a.credit declared r.1)) :
    (a.reserve declared cap r).total ≤ max a.total room := by
  refine Nat.le_trans (Nat.min_le_left _ _) ?_
  omega

variable {ows : Finset K}

theorem claimed_update {used : K → Nat} {k : K} (hk : k ∈ ows) (n : Nat) :
    claimed declared ows (Function.update used k (used k + n)) =
      claimed declared ows used + (n - (declared k - used k)) := by
  unfold claimed
  rw [← Finset.add_sum_erase _ _ hk, ← Finset.add_sum_erase ows (fun k => max (declared k) (used k)) hk]
  have hrest : ∑ x ∈ ows.erase k, max (declared x) (Function.update used k (used k + n) x) =
      ∑ x ∈ ows.erase k, max (declared x) (used x) :=
    Finset.sum_congr rfl fun x hx => by rw [Function.update_of_ne (Finset.ne_of_mem_erase hx)]
  rw [hrest, Function.update_self]
  omega

omit [DecidableEq K] in
theorem claimed_mono {used used' : K → Nat} (h : ∀ k, used k ≤ used' k) :
    claimed declared ows used ≤ claimed declared ows used' :=
  Finset.sum_le_sum fun k _ => max_le_max_left _ (h k)

omit [DecidableEq K] in
theorem le_claimed {k : K} (hk : k ∈ ows) (used : K → Nat) : used k ≤ claimed declared ows used :=
  (le_max_right _ _).trans (Finset.single_le_sum (f := fun k => max (declared k) (used k)) (fun _ _ => Nat.zero_le _) hk)

/-- The total after any reservations: the larger of what each owner declared and used. -/
theorem foldl_reserve {rs : List (K × Nat)} (ho : ∀ r ∈ rs, r.1 ∈ ows)
    (ha : a.total = claimed declared ows a.used) (hc : claimed declared ows (fun k => a.used k + amount rs k) ≤ cap) :
    (rs.foldl (reserve declared cap) a).total = claimed declared ows (fun k => a.used k + amount rs k) := by
  induction rs generalizing a with
  | nil => simpa [amount] using ha
  | cons r rs ih =>
    obtain ⟨hr, hrs⟩ := List.forall_mem_cons.1 ho
    have hused : ∀ k, Function.update a.used r.1 (a.used r.1 + r.2) k + amount rs k = a.used k + amount (r :: rs) k := by
      intro k
      by_cases heq : k = r.1
      · subst heq
        simp [amount, Nat.add_assoc]
      · simp [amount, Function.update_of_ne heq, Ne.symm heq]
    have hle : claimed declared ows (Function.update a.used r.1 (a.used r.1 + r.2)) ≤ cap :=
      (claimed_mono fun k => hused k ▸ Nat.le_add_right _ _).trans hc
    have hstep : a.reserve declared cap r = ⟨claimed declared ows (Function.update a.used r.1 (a.used r.1 + r.2)),
        Function.update a.used r.1 (a.used r.1 + r.2)⟩ := by
      have hmem := (le_claimed hr (Function.update a.used r.1 (a.used r.1 + r.2))).trans hle
      rw [Function.update_self] at hmem
      rw [claimed_update hr] at hle ⊢
      rw [reserve, credit, ha, Nat.min_eq_left hle, Nat.min_eq_left hmem]
    rw [List.foldl_cons, hstep]
    simp only [← hused] at hc ⊢
    exact ih hrs rfl hc

end Account

end Chariox
