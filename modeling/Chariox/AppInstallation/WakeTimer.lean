import Chariox.AppInstallation.Model

/-!
# The wake timer

The timer asks when the next wake of an App is due, the poll selects the wakes that are.  Both take the deadline of a
waiting retry back to its due time when the clock was set back, so they agree at the current time; for later times the
timer answers for the tables as the poll of the current time leaves them (`nextWakeAtMs_agrees`).
-/

namespace Chariox.AppWakes

open OrdMap List

def clockRollbackToleranceMs : Nat := 1000

structure Wake where
  id : String
  dueAtMs : Nat
  revision : String
  deriving DecidableEq, Repr

structure DueWake where
  ownerId : String
  installationId : String
  wake : Wake
  attempts : Nat
  countsAsUse : Bool
  deriving DecidableEq, Repr

/-- A row of `app_wakes` under its key; the checks of the table keep the numbers from being negative. -/
structure WakeRow where
  ownerId : String
  dueAtMs : Nat
  revision : String
  attempts : Nat
  nextAttemptAtMs : Nat
  countsAsUse : Bool
  deriving DecidableEq, Repr

/-- Installation and wake id. -/
abbrev WakeKey := String ×ₗ String

/-- `app_wakes` and the row of `app_wake_clock`. -/
structure WakeTables where
  wakes : OrdMap WakeKey WakeRow
  lastPollAtMs : Nat

/-- `as i64` of a `u64`. -/
def asI64 (n : Nat) : Int := if n < 2 ^ 63 then n else n - 2 ^ 64

namespace WakeTables

variable (t : WakeTables) (now : Int) (nowMs limit : Nat)

/-- The clock was set back since the last poll. -/
def corrected : Bool := clockRollbackToleranceMs ≤ t.lastPollAtMs - now

def nextWakeAtMs : Option Nat :=
  let next := (t.wakes.values.map WakeRow.nextAttemptAtMs).min?
  if t.corrected (min nowMs maxRevision : Nat) then
    let retry := ((t.wakes.values.filter (fun row => row.dueAtMs < row.nextAttemptAtMs)).map WakeRow.dueAtMs).min?
    (next.toList ++ retry.toList).min?
  else next

def dueWake (e : WakeKey × WakeRow) : DueWake :=
  ⟨e.2.ownerId, (ofLex e.1).1, ⟨(ofLex e.1).2, e.2.dueAtMs, e.2.revision⟩, e.2.attempts, e.2.countsAsUse⟩

/-- The order of the poll: next attempt, due time, installation and wake id. -/
def pollKey (e : WakeKey × WakeRow) : Nat ×ₗ Nat ×ₗ WakeKey := toLex (e.2.nextAttemptAtMs, toLex (e.2.dueAtMs, e.1))

/-- A waiting retry whose deadline the poll resets. -/
def late (row : WakeRow) : Bool := row.dueAtMs < row.nextAttemptAtMs && t.corrected now

def reset (row : WakeRow) : WakeRow := if t.late now row then { row with nextAttemptAtMs := row.dueAtMs } else row

/-- The clock row refuses a negative reading; the deadlines are reset by then. -/
def dueWakes : WakeTables × Except StateError (List DueWake) :=
  let now := asI64 nowMs
  if !t.wakes.values.any (fun row => row.dueAtMs < row.nextAttemptAtMs || row.nextAttemptAtMs ≤ now) then (t, .ok [])
  else
    let wakes := t.wakes.mapValues (fun _ row => t.reset now row)
    let selected := (wakes.entries.filter (fun e => (e.2.nextAttemptAtMs : Int) ≤ now)).insertionSort
      (fun e e' => pollKey e ≤ pollKey e')
    let due := (selected.take limit).map dueWake
    if due.isEmpty && !t.wakes.values.any (t.late now) then ({ t with wakes }, .ok due)
    else if now < 0 then ({ t with wakes }, .error .database)
    else (⟨wakes, nowMs⟩, .ok due)

def HasDue : Prop := ∃ due rest, (t.dueWakes nowMs limit).2 = .ok (due :: rest)

variable {t now nowMs limit}

/-! ### The poll -/

theorem reset_of_not_late {row : WakeRow} (h : t.late now row = false) : t.reset now row = row := by
  simp [reset, h]

theorem map_reset (h : ∀ row ∈ t.wakes.values, t.late now row = false) :
    t.wakes.values.map (t.reset now) = t.wakes.values := by
  conv => rhs; rw [← map_id t.wakes.values]
  exact map_congr_left fun row hr => reset_of_not_late (h row hr)

theorem values_reset : (t.wakes.mapValues (fun _ row => t.reset now row)).values = t.wakes.values.map (t.reset now) := by
  simp [values, mapValues]

theorem exists_selected (now : Int) (hl : 1 ≤ limit) (wakes : OrdMap WakeKey WakeRow) :
    (((wakes.entries.filter (fun e => (e.2.nextAttemptAtMs : Int) ≤ now)).insertionSort
        (fun e e' => pollKey e ≤ pollKey e')).take limit).map dueWake ≠ [] ↔
      ∃ row ∈ wakes.values, (row.nextAttemptAtMs : Int) ≤ now := by
  rw [ne_eq, map_eq_nil_iff, take_eq_nil_iff, or_iff_right (by omega), ← length_eq_zero_iff,
    length_insertionSort, length_eq_zero_iff, filter_eq_nil_iff]
  simp only [values, mem_map, not_forall, decide_eq_true_eq, not_not, exists_prop]
  constructor
  · rintro ⟨e, he, hle⟩
    exact ⟨e.2, ⟨e, he, rfl⟩, hle⟩
  · rintro ⟨_, ⟨e, he, rfl⟩, hle⟩
    exact ⟨e, he, hle⟩

theorem dueWakes_spec (hno : nowMs < 2 ^ 63) (hl : 1 ≤ limit) :
    (t.HasDue nowMs limit ↔ ∃ row ∈ t.wakes.values, (t.reset nowMs row).nextAttemptAtMs ≤ nowMs) ∧
      (t.dueWakes nowMs limit).1.wakes.values = t.wakes.values.map (t.reset nowMs) ∧
      ((t.dueWakes nowMs limit).1.lastPollAtMs = nowMs ∨
        (t.dueWakes nowMs limit).1.lastPollAtMs = t.lastPollAtMs ∧
          ∀ row ∈ t.wakes.values, t.late nowMs row = false) := by
  have hi64 : asI64 nowMs = nowMs := if_pos hno
  unfold HasDue dueWakes
  rw [hi64]
  dsimp only
  split
  · rename_i hn
    simp only [Bool.not_eq_true', any_eq_false, Bool.or_eq_true, decide_eq_true_eq, not_or] at hn
    have hlate : ∀ row ∈ t.wakes.values, t.late nowMs row = false := fun row hr => by
      simp [late, (hn row hr).1]
    refine ⟨⟨nofun, ?_⟩, (map_reset hlate).symm, .inr ⟨rfl, hlate⟩⟩
    rintro ⟨row, hr, hle⟩
    rw [reset_of_not_late (hlate row hr)] at hle
    exact absurd (Int.ofNat_le.2 hle) (hn row hr).2
  · have hdue := exists_selected nowMs hl (t.wakes.mapValues (fun _ row => t.reset nowMs row))
    generalize map dueWake _ = due at hdue ⊢
    rw [values_reset] at hdue
    have hiff : (∃ d rest, (.ok due : Except StateError (List DueWake)) = .ok (d :: rest)) ↔
        ∃ row ∈ t.wakes.values, (t.reset nowMs row).nextAttemptAtMs ≤ nowMs := by
      simpa [ne_nil_iff_exists_cons] using hdue
    split
    · rename_i hn
      simp only [Bool.and_eq_true, Bool.not_eq_true', any_eq_false, Bool.not_eq_true] at hn
      exact ⟨hiff, values_reset, .inr ⟨rfl, hn.2⟩⟩
    split
    · omega
    · exact ⟨hiff, values_reset, .inl rfl⟩

/-! ### The timer -/

theorem exists_min?_le {l : List Nat} {x : Nat} : (∃ a, l.min? = some a ∧ a ≤ x) ↔ ∃ a ∈ l, a ≤ x := by
  cases h : l.min? with
  | none => simp [min?_eq_none_iff.1 h]
  | some a =>
    obtain ⟨hm, hle⟩ := min?_eq_some_iff.1 h
    simp only [Option.some.injEq, exists_eq_left']
    exact ⟨fun hx => ⟨a, hm, hx⟩, fun ⟨b, hb, hx⟩ => Nat.le_trans (hle b hb) hx⟩

/-- The timer answers the least deadline that the poll of the current time leaves. -/
theorem nextWakeAtMs_le (hn : nowMs ≤ maxRevision) (x : Nat) :
    (∃ a, t.nextWakeAtMs nowMs = some a ∧ a ≤ x) ↔ ∃ row ∈ t.wakes.values, (t.reset nowMs row).nextAttemptAtMs ≤ x := by
  unfold nextWakeAtMs
  rw [Nat.min_eq_left hn]
  dsimp only
  split
  · rename_i hc
    simp only [exists_min?_le, mem_append, Option.mem_toList, or_and_right, exists_or, mem_map,
      exists_exists_and_eq_and, mem_filter, decide_eq_true_eq]
    constructor
    · rintro (⟨row, hrow, hle⟩ | ⟨row, ⟨hrow, hlt⟩, hle⟩)
      · refine ⟨row, hrow, ?_⟩
        unfold reset
        split
        · exact Nat.le_trans (Nat.le_of_lt (by simp_all [late])) hle
        · exact hle
      · exact ⟨row, hrow, by simpa [reset, late, hc, hlt] using hle⟩
    · rintro ⟨row, hrow, hle⟩
      by_cases hlt : row.dueAtMs < row.nextAttemptAtMs
      · exact .inr ⟨row, ⟨hrow, hlt⟩, by simpa [reset, late, hc, hlt] using hle⟩
      · exact .inl ⟨row, hrow, by simpa [reset, late, hlt] using hle⟩
  · rename_i hc
    rw [exists_min?_le]
    simp [reset, late, hc]

/-- The timer and the poll agree at the current time.  Otherwise the timer answers the least later time at which the poll
returns a wake, once the poll of the current time has made its correction. -/
theorem nextWakeAtMs_agrees (t : WakeTables) (nowMs limit : Nat) (hnow : nowMs ≤ maxRevision) (hlimit : 1 ≤ limit) :
    ((∃ a, t.nextWakeAtMs nowMs = some a ∧ a ≤ nowMs) ↔ t.HasDue nowMs limit) ∧
      ∀ later, nowMs < later → later < 2 ^ 63 →
        ((∃ a, t.nextWakeAtMs nowMs = some a ∧ a ≤ later) ↔ (t.dueWakes nowMs limit).1.HasDue later limit) := by
  have hsmall : nowMs < 2 ^ 63 := Nat.lt_of_le_of_lt hnow (by decide)
  obtain ⟨hd, hv, hl⟩ := dueWakes_spec (t := t) hsmall hlimit
  refine ⟨(nextWakeAtMs_le hnow nowMs).trans hd.symm, fun later hlt hla => ?_⟩
  rw [nextWakeAtMs_le hnow, (dueWakes_spec hla hlimit).1, hv]
  -- A later poll resets nothing more.
  have hres : ∀ row ∈ t.wakes.values,
      (t.dueWakes nowMs limit).1.reset later (t.reset nowMs row) = t.reset nowMs row := by
    intro row hrow
    refine if_neg ?_
    rcases hl with hl | ⟨hl, hlate⟩
    · simp only [late, corrected, hl, clockRollbackToleranceMs, Bool.and_eq_true, decide_eq_true_eq]
      omega
    · have hrow := hlate row hrow
      rw [reset_of_not_late hrow]
      simp only [late, corrected, hl, Bool.and_eq_true, Bool.and_eq_false_iff, decide_eq_true_eq,
        decide_eq_false_iff_not] at hrow ⊢
      omega
  simp only [mem_map, exists_exists_and_eq_and]
  exact exists_congr fun row => and_congr_right fun hrow => by rw [hres row hrow]

/-- A retry waits for time 100 and was due at 50; the last poll was at 1010, and the clock is at 10. -/
def retryTables : WakeTables := ⟨OrdMap.empty.insert (toLex ("app", "wake")) ⟨"owner", 50, "1", 1, 100, false⟩, 1010⟩

theorem nextWakeAtMs_agrees_retry : 10 ≤ maxRevision ∧ 1 ≤ 1 ∧
    ((∃ a, retryTables.nextWakeAtMs 10 = some a ∧ a ≤ 50) ↔ (retryTables.dueWakes 10 1).1.HasDue 50 1) :=
  ⟨by decide, by decide, (nextWakeAtMs_agrees retryTables 10 1 (by decide) (by decide)).2 50 (by decide) (by decide)⟩

/-- The timer names a time at which the stored wakes are not due: the poll no longer sees that the clock was set back. -/
theorem timer_early_for_stored_wakes :
    retryTables.nextWakeAtMs 10 = some 50 ∧ (retryTables.dueWakes 50 1).2.toOption = some [] := by
  decide +kernel

end WakeTables

end Chariox.AppWakes
