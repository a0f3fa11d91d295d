import Chariox.Lib.Runs
import Chariox.RoomEnvironment.Events

/-!
# Replaying the events of a room

A reader asks the log for what came after its cursor.  Here the log is compared with everything that was ever
pushed: unless the log says that a snapshot is needed, the reader gets what was pushed after its cursor, where a run
of pointer changes of one environment and one runtime generation stands for its newest event.
-/

namespace Chariox.EnvironmentEventLog

open List

/-- A log with one reader.  The reader has a cursor, the events it was given and the cursor of its last snapshot; what
was pushed is history. -/
structure Followed where
  log : EnvironmentEventLog
  pushed : List EnvironmentEvent
  cursor : Nat
  given : List EnvironmentEvent
  snapshot : Nat

inductive FollowStep
  | push (environmentId : String) (runtimeGeneration : Nat) (kind : EnvironmentEventKind)
  | poll

/-- The reader goes on from the cursor it is given, or from the cursor of the snapshot it was told to take. -/
def Followed.step (f : Followed) : FollowStep → Followed
  | .push environmentId runtimeGeneration kind =>
    { f with
      log := f.log.push environmentId runtimeGeneration kind
      pushed := f.pushed ++ [⟨f.log.nextEventId, environmentId, runtimeGeneration, kind⟩] }
  | .poll =>
    match f.log.replay f.cursor with
    | .events events nextCursor => { f with cursor := nextCursor, given := f.given ++ events }
    | .snapshotRequired => { f with cursor := f.log.cursor, snapshot := f.log.cursor }

/-- The next event is a pointer change of the same environment and runtime generation. -/
def sameRun (event next : EnvironmentEvent) : Bool :=
  decide (next.kind = .pointersChanged) && (decide (event.environmentId = next.environmentId) &&
    decide (event.runtimeGeneration = next.runtimeGeneration) && decide (event.kind = .pointersChanged))

/-- The event pushed right after this one goes on with its run of pointer changes. -/
def Replaced (pushed : List EnvironmentEvent) (event : EnvironmentEvent) : Prop :=
  ∃ next ∈ pushed, next.eventId = event.eventId + 1 ∧ sameRun event next = true

/-- The id of the event that was pushed last; zero before the first. -/
def newestId (pushed : List EnvironmentEvent) : Nat := (pushed.getLast?.map EnvironmentEvent.eventId).getD 0

/-- What the log holds of everything that was pushed, and what the reader was given of it. -/
structure Keeps (capacity : Nat) (f : Followed) : Prop where
  size : f.log.capacity = capacity
  positive : 0 < capacity
  room : f.log.events.length ≤ capacity
  next : f.log.nextEventId = f.pushed.length + 1
  newest : newestId f.pushed = f.pushed.length
  numbered : ∀ event ∈ f.pushed, event.eventId ≤ f.pushed.length
  sorted : f.log.events.Pairwise (·.eventId < ·.eventId)
  last : ∀ event, f.log.events.getLast? = some event → event.eventId = f.pushed.length
  mem : ∀ event, event ∈ f.log.events ↔
    event ∈ f.pushed ∧ f.log.oldestUnrecoverableCursor < event.eventId ∧ ¬ Replaced f.pushed event
  oldest : f.log.oldestUnrecoverableCursor ≤ f.pushed.length
  cursor : f.cursor ≤ f.pushed.length
  given : ∀ event ∈ f.pushed, event.eventId ≤ f.cursor → event.kind ≠ .pointersChanged →
    event ∈ f.given ∨ event.eventId ≤ f.snapshot

/-- What trimming leaves: an end of the events, with the dropped ones up to the new cursor. -/
theorem trim_spec {cap : Nat} (hp : 0 < cap) :
    ∀ {es : List EnvironmentEvent} {od : Nat}, es.Pairwise (·.eventId < ·.eventId) →
      (∀ event ∈ es, od < event.eventId) →
        (trim cap es od).1 <:+ es ∧ od ≤ (trim cap es od).2 ∧
        (trim cap es od).1.length ≤ cap ∧
        (trim cap es od).1.getLast? = es.getLast? ∧
        ∀ event ∈ es, event ∈ (trim cap es od).1 ↔ (trim cap es od).2 < event.eventId
  | [], od, _, _ => by simp [trim]
  | event :: rest, od, hsr, hl => by
    obtain ⟨hf, hr⟩ := pairwise_cons.mp hsr
    have hev := hl event mem_cons_self
    unfold trim
    split
    case isFalse hroom =>
      exact ⟨suffix_rfl, le_rfl, Nat.le_of_not_lt hroom, rfl, fun _ hm => iff_of_true hm (hl _ hm)⟩
    case isTrue hfull =>
      obtain ⟨hs, hle, hlen, hla, hm⟩ := trim_spec hp hr hf
      have hne : rest ≠ [] := by
        rintro rfl
        simp at hfull
        omega
      refine ⟨hs.trans (suffix_cons _ _), by omega, hlen, by rw [hla, getLast?_cons_of_ne_nil hne], fun o ho => ?_⟩
      rcases mem_cons.mp ho with rfl | ho
      · refine iff_of_false (fun hin => ?_) (Nat.not_lt.mpr hle)
        exact Nat.lt_irrefl _ (hf _ (hs.mem hin))
      · exact hm o ho

variable {capacity : Nat} {f : Followed}

/-- The new event pushes out the newest one exactly when that one is of its run. -/
theorem Keeps.mem_coalesced (hk : Keeps capacity f) (new e : EnvironmentEvent) :
    (e ∈ if f.log.coalesces new.environmentId new.runtimeGeneration new.kind then f.log.events.dropLast
        else f.log.events) ↔
      e ∈ f.log.events ∧ ¬ (f.pushed.length = e.eventId ∧ sameRun e new = true) := by
  cases hlast : f.log.events.getLast? with
  | none => simp [getLast?_eq_none_iff.mp hlast]
  | some last =>
    have hid := hk.last last hlast
    have hsrt := hk.sorted
    have hcoal : f.log.coalesces new.environmentId new.runtimeGeneration new.kind = sameRun last new := by
      rw [coalesces, hlast]
      rfl
    obtain ⟨init, he⟩ := getLast?_eq_some_iff.mp hlast
    rw [he, pairwise_append] at hsrt
    have hbel : ∀ o ∈ init, f.pushed.length ≠ o.eventId := fun o ho =>
      Nat.ne_of_gt (hid ▸ hsrt.2.2 o ho last (mem_singleton_self last))
    rw [hcoal, he, dropLast_concat, mem_append, mem_singleton]
    by_cases hrun : sameRun last new = true
    · rw [if_pos hrun]
      constructor
      · exact fun hm => ⟨.inl hm, fun h => hbel e hm h.1⟩
      rintro ⟨hm | rfl, hnot⟩
      · exact hm
      · exact absurd ⟨hid.symm, hrun⟩ hnot
    · rw [if_neg hrun, mem_append, mem_singleton]
      refine ⟨fun hm => ⟨hm, fun h => ?_⟩, And.left⟩
      rcases hm with hm | rfl
      · exact hbel e hm h.1
      · exact hrun h.2

theorem replaced_concat {psh : List EnvironmentEvent} {e new : EnvironmentEvent} (hn : new.eventId = psh.length + 1) :
    Replaced (psh ++ [new]) e ↔ Replaced psh e ∨ psh.length = e.eventId ∧ sameRun e new = true := by
  unfold Replaced
  simp only [mem_append, mem_singleton, or_and_right, exists_or, exists_eq_left, hn, Nat.add_right_cancel_iff]

theorem Keeps.push (hk : Keeps capacity f) (eid : String) (gen : Nat)
    (kind : EnvironmentEventKind) : Keeps capacity (f.step (.push eid gen kind)) := by
  let new : EnvironmentEvent := ⟨f.log.nextEventId, eid, gen, kind⟩
  let left := if f.log.coalesces eid gen kind then f.log.events.dropLast else f.log.events
  have hnew : new.eventId = f.pushed.length + 1 := hk.next
  have hleft : ∀ event, event ∈ left ↔ _ := hk.mem_coalesced new
  have hsrt : (left ++ [new]).Pairwise (·.eventId < ·.eventId) := by
    refine pairwise_append.mpr ⟨?_, pairwise_singleton _ _, fun event hev o ho => ?_⟩
    · unfold left
      split
      · exact hk.sorted.sublist (dropLast_sublist _)
      · exact hk.sorted
    · have hpushed := hk.numbered event ((hk.mem event).mp ((hleft event).mp hev).1).1
      rw [mem_singleton.mp ho, hnew]
      exact Nat.lt_succ_of_le hpushed
  have hcands : ∀ event, event ∈ left ++ [new] ↔ event ∈ f.pushed ++ [new] ∧
      f.log.oldestUnrecoverableCursor < event.eventId ∧ ¬ Replaced (f.pushed ++ [new]) event := by
    intro event
    rw [replaced_concat hnew, not_or, mem_append, mem_append, mem_singleton, hleft, hk.mem]
    by_cases hev : event = new
    · subst hev
      refine iff_of_true (.inr rfl) ⟨.inr rfl, hnew ▸ Nat.lt_succ_of_le hk.oldest, ?_, by omega⟩
      rintro ⟨next, hnext, hid, -⟩
      have := hk.numbered next hnext
      omega
    · simp only [hev, or_false, and_assoc]
  obtain ⟨hs, hle, hlen, hl, hm⟩ :=
    trim_spec (hk.size ▸ hk.positive) hsrt fun event hev => ((hcands event).mp hev).2.1
  rw [getLast?_concat] at hl
  have hlength : (f.step (.push eid gen kind)).pushed.length = f.pushed.length + 1 :=
    length_append
  exact
    { hk with
      room := hk.size ▸ hlen
      next := by rw [hlength, ← hk.next]; rfl
      newest := by
        rw [hlength, ← hnew, newestId]
        show ((f.pushed ++ [new]).getLast?.map EnvironmentEvent.eventId).getD 0 = _
        rw [getLast?_concat]
        rfl
      numbered := by
        intro event hev
        rw [hlength]
        rcases mem_append.mp hev with hev | hev
        · exact Nat.le_succ_of_le (hk.numbered event hev)
        · rw [mem_singleton.mp hev]
          exact Nat.le_of_eq hnew
      sorted := hsrt.sublist hs.sublist
      last := by
        intro event hev
        cases hl.symm.trans hev
        exact hnew.trans hlength.symm
      mem := by
        intro event
        constructor
        · intro hev
          have hin := hs.mem hev
          have hcand := (hcands event).mp hin
          exact ⟨hcand.1, (hm event hin).mp hev, hcand.2.2⟩
        · rintro ⟨hin, habv, hnot⟩
          exact (hm event ((hcands event).mpr ⟨hin, Nat.lt_of_le_of_lt hle habv, hnot⟩)).mpr habv
      oldest := by
        have habv := (hm new (mem_append_right _ (mem_singleton_self new))).mp (mem_of_getLast? hl)
        rw [hlength, ← hnew]
        exact Nat.le_of_lt habv
      cursor := by
        rw [hlength]
        exact Nat.le_succ_of_le hk.cursor
      given := by
        intro event hev hc hki
        rcases mem_append.mp hev with hev | hev
        · exact hk.given event hev hc hki
        · rw [mem_singleton.mp hev, hnew] at hc
          exact absurd (Nat.le_trans hc hk.cursor) (Nat.not_succ_le_self _) }

theorem Keeps.log_cursor (hk : Keeps capacity f) : f.log.cursor = newestId f.pushed := by
  rw [EnvironmentEventLog.cursor, hk.next, hk.newest, Nat.add_sub_cancel]

/-- The answer for a cursor that was the latest id: what was pushed after it, without the events that the next one
replaces, and the newest id as the next cursor. -/
def Answers (f : Followed) (cursor : Nat) (events : List EnvironmentEvent) : Prop :=
  f.log.replay cursor = .events events (newestId f.pushed) ∧ events.Pairwise (·.eventId < ·.eventId) ∧
    ∀ event, event ∈ events ↔ event ∈ f.pushed ∧ cursor < event.eventId ∧ ¬ Replaced f.pushed event

theorem Keeps.replay (hk : Keeps capacity f) (cursor : Nat) :
    f.log.replay cursor = .snapshotRequired ∨ ∃ events, Answers f cursor events := by
  unfold Answers EnvironmentEventLog.replay
  split
  case isTrue => exact .inl rfl
  case isFalse hold =>
    rw [Bool.or_eq_true, decide_eq_true_iff, decide_eq_true_iff, not_or] at hold
    rw [hk.log_cursor]
    refine .inr ⟨_, rfl, hk.sorted.filter _, fun e => ?_⟩
    rw [mem_filter, hk.mem, decide_eq_true_iff]
    constructor
    · rintro ⟨⟨hin, -, hnot⟩, haft⟩
      exact ⟨hin, haft, hnot⟩
    · rintro ⟨hin, haft, hnot⟩
      exact ⟨⟨hin, Nat.lt_of_le_of_lt (Nat.le_of_not_lt hold.2) haft, hnot⟩, haft⟩

theorem not_replaced {psh : List EnvironmentEvent} {event : EnvironmentEvent}
    (hk : event.kind ≠ .pointersChanged) : ¬ Replaced psh event := by
  rintro ⟨next, -, -, hrun⟩
  simp [sameRun, hk] at hrun

theorem Keeps.poll (hk : Keeps capacity f) : Keeps capacity (f.step .poll) := by
  unfold Followed.step
  rcases hk.replay f.cursor with hp | ⟨es, hp, -, hm⟩
  · rw [hp]
    exact { hk with
      cursor := Nat.le_of_eq (hk.log_cursor.trans hk.newest)
      given := fun e _ hc _ => .inr hc }
  · rw [hp]
    refine { hk with cursor := Nat.le_of_eq hk.newest, given := fun e hev _ hki => ?_ }
    by_cases hbef : e.eventId ≤ f.cursor
    · exact (hk.given e hev hbef hki).imp_left (mem_append_left _)
    · exact .inl (mem_append_right _
        ((hm e).mpr ⟨hev, Nat.lt_of_not_le hbef, not_replaced hki⟩))

/-- In every run the log is within its capacity.  For a cursor that was the latest id it asks for a snapshot or gives
what was pushed since, in order: everything but the pointer changes, and of each run of pointer changes of one
environment and runtime generation the newest.  The reader misses nothing but pointer changes and what is older than a
snapshot it was told to take. -/
theorem replay_gives_newest_of_runs {capacity : Nat} {log : EnvironmentEventLog} (hnew : new capacity = .ok log)
    (steps : List FollowStep) :
    let f := steps.foldl Followed.step ⟨log, [], 0, [], 0⟩
    f.log.events.length ≤ capacity ∧
      (∀ cursor ≤ f.log.cursor, f.log.replay cursor = .snapshotRequired ∨ ∃ events, Answers f cursor events) ∧
      ∀ event ∈ f.pushed, event.eventId ≤ f.cursor → event.kind ≠ .pointersChanged →
        event ∈ f.given ∨ event.eventId ≤ f.snapshot := by
  have hst : Keeps capacity ⟨log, [], 0, [], 0⟩ := by
    unfold new at hnew
    split at hnew
    case isTrue => cases hnew
    case isFalse hpos =>
      cases hnew
      exact ⟨rfl, Nat.pos_of_ne_zero hpos, Nat.zero_le _, rfl, rfl, nofun, .nil, nofun, by simp, Nat.le_refl 0,
        Nat.le_refl 0, nofun⟩
  have hk : Keeps capacity (steps.foldl Followed.step ⟨log, [], 0, [], 0⟩) := by
    refine foldl_invariant (P := Keeps capacity) (fun f step hk => ?_) hst steps
    cases step with
    | push eid gen kind => exact hk.push eid gen kind
    | poll => exact hk.poll
  exact ⟨hk.room, fun cursor _ => hk.replay cursor, hk.given⟩

theorem replay_of_one_place : new 1 = .ok ⟨[], 1, 1, 0⟩ ∧
      ([FollowStep.push "env" 1 .tabsChanged, .poll, .push "env" 1 .pointersChanged].foldl Followed.step
        ⟨⟨[], 1, 1, 0⟩, [], 0, [], 0⟩).log.events.length ≤ 1 :=
  ⟨rfl, (@replay_gives_newest_of_runs 1 _ rfl _).1⟩

/-- Pointer changes on both sides of a restart of the runtime follow each other and are both returned. -/
theorem replay_keeps_pointers_of_generations :
    ([FollowStep.push "env" 1 .pointersChanged, .push "env" 2 .pointersChanged].foldl Followed.step
        ⟨⟨[], 4, 1, 0⟩, [], 0, [], 0⟩).log.replay 0 =
      .events [⟨1, "env", 1, .pointersChanged⟩, ⟨2, "env", 2, .pointersChanged⟩] 2 := by
  decide

end Chariox.EnvironmentEventLog
