import Chariox.Lib.OrdMap

/-!
# Logs with sequence numbers, and the replay of a log

An entry of the log is about a key and gets the next sequence number when it is appended; entries may be discarded
later, but a number is never given twice.  A replay starts at stored values and lets each entry overwrite the value of
its key, so that afterwards a key has the value of its latest entry, or its stored value when no entry is about it.
-/

structure LogEntry (K E : Type) where
  sequence : Nat
  key : K
  payload : E

/-- The entries in the order of their sequence numbers, and the last number that was given. -/
structure SequencedLog (K E : Type) where
  entries : List (LogEntry K E)
  lastSequence : Nat
  sorted : entries.Pairwise (fun a b => a.sequence < b.sequence)
  bounded : ∀ e ∈ entries, e.sequence ≤ lastSequence

namespace SequencedLog

variable {K E V : Type}

def empty : SequencedLog K E := ⟨[], 0, List.Pairwise.nil, by simp⟩

def append (log : SequencedLog K E) (key : K) (payload : E) : SequencedLog K E where
  entries := log.entries ++ [⟨log.lastSequence + 1, key, payload⟩]
  lastSequence := log.lastSequence + 1
  sorted := by
    rw [List.pairwise_append]
    refine ⟨log.sorted, List.pairwise_singleton .., ?_⟩
    intro a ha b hb
    rw [List.mem_singleton] at hb
    subst hb
    exact Nat.lt_succ_of_le (log.bounded a ha)
  bounded := List.forall_mem_append.2
    ⟨fun e he => Nat.le_succ_of_le (log.bounded e he), List.forall_mem_singleton.2 le_rfl⟩

def discard (log : SequencedLog K E) (p : LogEntry K E → Bool) : SequencedLog K E where
  entries := log.entries.filter (fun e => !p e)
  lastSequence := log.lastSequence
  sorted := log.sorted.filter _
  bounded := fun e he => log.bounded e (List.mem_of_mem_filter he)

def after (log : SequencedLog K E) (sequence : Nat) : List (LogEntry K E) :=
  log.entries.filter (fun e => decide (sequence < e.sequence))

variable {log : SequencedLog K E} {e : LogEntry K E}

theorem mem_append {key : K} {pay : E} :
    e ∈ (log.append key pay).entries ↔ e ∈ log.entries ∨ e = ⟨log.lastSequence + 1, key, pay⟩ := by
  simp [append]

theorem mem_discard {p : LogEntry K E → Bool} : e ∈ (log.discard p).entries ↔ e ∈ log.entries ∧ p e = false := by
  simp [discard]

theorem mem_after {seq : Nat} : e ∈ log.after seq ↔ e ∈ log.entries ∧ seq < e.sequence := by
  simp [after]

/-! ### The latest entry of a key -/

/-- No entry of the same key has a higher sequence number. -/
def Latest (log : SequencedLog K E) (e : LogEntry K E) : Prop :=
  e ∈ log.entries ∧ ∀ e' ∈ log.entries, e'.key = e.key → e'.sequence ≤ e.sequence

/-- The latest entry after an append is the new one, or that of another key. -/
theorem Latest.of_append {key : K} {pay : E} (h : (log.append key pay).Latest e) :
    e = ⟨log.lastSequence + 1, key, pay⟩ ∨ (e.key ≠ key ∧ log.Latest e) := by
  obtain ⟨hme, hm⟩ := h
  rcases mem_append.1 hme with ho | hn
  · right
    refine ⟨?_, ho, fun e' he' => hm e' (mem_append.2 (.inl he'))⟩
    intro hk
    have hle := hm _ (mem_append.2 (.inr rfl)) hk.symm
    have hbd := log.bounded e ho
    simp only at hle
    omega
  · exact .inl hn

/-- The latest entry stays the latest one when only entries below it were discarded. -/
theorem Latest.of_discard {p : LogEntry K E → Bool} (h : (log.discard p).Latest e)
    (hp : ∀ e' ∈ log.entries, e'.key = e.key → p e' = true → e'.sequence ≤ e.sequence) : log.Latest e := by
  obtain ⟨hme, hm⟩ := h
  refine ⟨(mem_discard.1 hme).1, ?_⟩
  intro e' he' hk
  cases hdrop : p e' with
  | false => exact hm e' (mem_discard.2 ⟨he', hdrop⟩) hk
  | true => exact hp e' he' hk hdrop

/-! ### Replay -/

section Replay

variable [LinearOrder K] (apply : Option V → E → V)

/-- Let each entry overwrite the value of its key. -/
def replay (values : OrdMap K V) (entries : List (LogEntry K E)) : OrdMap K V :=
  entries.foldl (fun values e => values.insert e.key (apply (values.get e.key) e.payload)) values

/-- After the replay a key has the value that the last entry about it gave, or the value from before. -/
theorem get_replay (vs : OrdMap K V) (entries : List (LogEntry K E)) (k : K) :
    ((∀ e ∈ entries, e.key ≠ k) ∧ (replay apply vs entries).get k = vs.get k) ∨
      ∃ b e rest old, entries = b ++ e :: rest ∧ e.key = k ∧ (∀ e' ∈ rest, e'.key ≠ k) ∧
        (replay apply vs entries).get k = some (apply old e.payload) := by
  induction entries generalizing vs with
  | nil => exact .inl ⟨by simp, rfl⟩
  | cons e entries ih =>
    have hrec : replay apply vs (e :: entries) =
        replay apply (vs.insert e.key (apply (vs.get e.key) e.payload)) entries := rfl
    rw [hrec]
    rcases ih (vs.insert e.key (apply (vs.get e.key) e.payload)) with ⟨hn, hg⟩ | ⟨b, x, rest, old, h⟩
    · rw [hg, OrdMap.get_insert]
      by_cases hk : k = e.key
      · exact .inr ⟨[], e, entries, vs.get e.key, rfl, hk.symm, hn, if_pos hk⟩
      left
      refine ⟨?_, if_neg hk⟩
      exact List.forall_mem_cons.2 ⟨Ne.symm hk, hn⟩
    · obtain ⟨hs, hke, hr, hg⟩ := h
      exact .inr ⟨e :: b, x, rest, old, by rw [hs, List.cons_append], hke, hr, hg⟩

/-- After the replay of the entries after a sequence number, a key has the value of its latest entry when that is
after the number, and its stored value otherwise. -/
theorem get_replay_after (log : SequencedLog K E) (vs : OrdMap K V) (sequence : Nat) (k : K) :
    ((∀ e ∈ log.entries, e.key = k → e.sequence ≤ sequence) ∧
        (replay apply vs (log.after sequence)).get k = vs.get k) ∨
      ∃ e old, log.Latest e ∧ e.key = k ∧ (replay apply vs (log.after sequence)).get k =
        some (apply old e.payload) := by
  rcases get_replay apply vs (log.after sequence) k with ⟨hn, hg⟩ | ⟨pre, e, rest, old, h⟩
  · left
    refine ⟨?_, hg⟩
    intro e he hk
    by_contra hlt
    exact hn e (mem_after.2 ⟨he, by omega⟩) hk
  · obtain ⟨hs, hk, hr, hg⟩ := h
    have hsrt : (log.after sequence).Pairwise fun a b => a.sequence < b.sequence := log.sorted.filter _
    rw [hs, List.pairwise_append] at hsrt
    have he : e ∈ log.after sequence := by simp [hs]
    refine .inr ⟨e, old, ⟨(mem_after.1 he).1, ?_⟩, hk, hg⟩
    intro e' he' hk'
    by_cases haft : sequence < e'.sequence
    · -- an entry of the same key that is replayed stands before `e`
      have hmem : e' ∈ pre ++ e :: rest := hs ▸ mem_after.2 ⟨he', haft⟩
      rcases List.mem_append.1 hmem with hb | hc
      · exact Nat.le_of_lt (hsrt.2.2 e' hb e List.mem_cons_self)
      rcases List.mem_cons.1 hc with rfl | hl
      · exact le_rfl
      · exact absurd (hk'.trans hk) (hr e' hl)
    · have hlt := (mem_after.1 he).2
      omega

end Replay

end SequencedLog
