import Chariox.EventLog.Streams

/-!
# The invariant of the event log

Event ids are taken, events retained and writes confirmed under the append order, one append at a time.  So the writer
holds the newest event while its write is pending, and at all other times every stream can be settled.
-/

namespace Chariox.EventLog

open List

variable {E : Type}

/-! ### The invariant -/

/-- The ids of the events that were written or refused. -/
def LogCore.knownIds (log : LogCore E) : List Nat := log.durable.map LoggedEvent.eventId ++ log.failed

variable (jsonlBytes : LoggedEvent E → Option Nat)

/-- The writer still has `event`: it is provisional, and the newest of all events. -/
structure Unconfirmed (log : LogCore E) (event : LoggedEvent E) : Prop where
  pending : ∃ pending, log.pending = some pending ∧ pending.outcome = .pending ∧ pending.Matches jsonlBytes event
  awaits : Awaits jsonlBytes log.durable event log.streams
  newest : ∀ id ∈ log.knownIds, id < event.eventId
  bounded : event.eventId ≤ log.lastEventId

/-- No write is pending: the next operation settles what is left. -/
inductive Confirmed (log : LogCore E) : Prop
  | settled (hpending : log.pending = none) (h : Holds jsonlBytes log.durable log.streams)
  | succeeded {pending : PendingPersistentEvent} {events : List (LoggedEvent E)} {event : LoggedEvent E}
      (hpending : log.pending = some pending) (houtcome : pending.outcome = .succeeded)
      (hm : pending.Matches jsonlBytes event) (hdurable : log.durable = events ++ [event])
      (h : Awaits jsonlBytes events event log.streams)
  | failed {pending : PendingPersistentEvent} {event : LoggedEvent E} (hpending : log.pending = some pending)
      (houtcome : pending.outcome = .failed) (hm : pending.Matches jsonlBytes event)
      (hfailed : event.eventId ∈ log.failed) (h : Awaits jsonlBytes log.durable event log.streams)

/-- What the holder of the append order can rely on. -/
def OrderSafe (log : LogCore E) : AppendOrder E → Prop
  | .writing _ event _ .queued => Unconfirmed jsonlBytes log event
  | .writing _ event _ (.written _) => Unconfirmed jsonlBytes log event
  | .preparing _ eventId => Confirmed jsonlBytes log ∧ (∀ id ∈ log.knownIds, id < eventId) ∧ eventId ≤ log.lastEventId
  | _ => Confirmed jsonlBytes log

structure CoreSafe (log : LogCore E) : Prop where
  increasing : log.durable.Pairwise (fun a b => a.eventId < b.eventId)
  consecutive : ∀ streamId, (ofStream streamId log.durable).IsChain (fun a b => b.streamSeq = a.streamSeq + 1)
  bounded : ∀ id ∈ log.knownIds, id ≤ log.lastEventId
  disjoint : ∀ event ∈ log.durable, event.eventId ∉ log.failed

structure LogSafe (log : LogState E) : Prop where
  core : CoreSafe log.toLogCore
  order : OrderSafe jsonlBytes log.toLogCore log.order

section Invariant

variable {jb : LoggedEvent E → Option Nat} {log : LogCore E} {e : LoggedEvent E}

abbrev Increasing (events : List (LoggedEvent E)) : Prop := events.Pairwise (fun a b => a.eventId < b.eventId)

theorem lt_of_increasing {es : List (LoggedEvent E)} (h : Increasing (es ++ [e])) :
    ∀ old ∈ es, old.eventId < e.eventId := by
  intro old hm
  exact (pairwise_append.1 h).2.2 old hm e (mem_singleton.2 rfl)

theorem CoreSafe.reconcile (h : CoreSafe log) (hc : Confirmed jb log) :
    (reconcileCompletedEvents log.pending log.streams).1 = none ∧
      Holds jb log.durable (reconcileCompletedEvents log.pending log.streams).2 := by
  cases hc with
  | settled hp hh =>
    rw [hp]
    exact ⟨rfl, hh⟩
  | succeeded hp ho hm hd ha =>
    have hinc := h.increasing
    rw [hd] at hinc
    simp only [hp, reconcileCompletedEvents, ho, reduceCtorEq, if_false, true_and]
    rw [hd]
    exact ha.confirmed (lt_of_increasing hinc) hm ho
  | failed hp ho hm hf ha =>
    simp only [hp, reconcileCompletedEvents, ho, reduceCtorEq, if_false, true_and]
    refine ha.withdrawn ?_ hm ho
    intro old hme heq
    exact h.disjoint old hme (heq ▸ hf)

theorem Unconfirmed.reconcile (h : Unconfirmed jb log e) :
    reconcileCompletedEvents log.pending log.streams = (log.pending, log.streams) := by
  obtain ⟨pend, hp, ho, -⟩ := h.pending
  rw [hp]
  simp [reconcileCompletedEvents, ho]

/-- The pending event was written: it is durable, behind all others. -/
theorem CoreSafe.confirm (h : CoreSafe log) (hu : Unconfirmed jb log e) : CoreSafe { log with
      pending := LogState.setOutcome log.pending e.eventId true
      durable := log.durable ++ [e] } ∧
    Confirmed jb { log with
      pending := LogState.setOutcome log.pending e.eventId true
      durable := log.durable ++ [e] } := by
  obtain ⟨pend, hp, hou, hm⟩ := hu.pending
  have hnewer : ∀ old ∈ log.durable, old.eventId < e.eventId := by
    intro old hme
    exact hu.newest _ (mem_append_left _ (mem_map_of_mem hme))
  refine ⟨⟨?_, ?_, ?_, ?_⟩, ?_⟩
  · refine pairwise_append.2 ⟨h.increasing, pairwise_singleton .., ?_⟩
    intro old hme last hl
    rw [mem_singleton.1 hl]
    exact hnewer old hme
  · intro sid
    by_cases hsame : sid = e.streamId
    · subst hsame
      obtain ⟨-, sm, -, hs⟩ := hu.awaits
      rw [ofStream_append, isChain_append]
      refine ⟨h.consecutive _, isChain_singleton _, ?_⟩
      intro last hl first hfs
      cases hfs
      have hseq := hs.seq
      rw [nextSeq, Option.mem_def.1 hl] at hseq
      exact hseq
    · rw [ofStream_append_of_ne _ hsame]
      exact h.consecutive sid
  · intro id hid
    simp only [LogCore.knownIds, map_append, map_cons, map_nil, mem_append, mem_singleton]
      at hid
    rcases hid with (hid | rfl) | hid
    · exact h.bounded id (mem_append_left _ hid)
    · exact hu.bounded
    · exact h.bounded id (mem_append_right _ hid)
  · intro o ho hf
    rcases mem_append.1 ho with ho | ho
    · exact h.disjoint o ho hf
    rw [mem_singleton.1 ho] at hf
    have hlt := hu.newest _ (mem_append_right _ hf)
    omega
  · have hset : LogState.setOutcome log.pending e.eventId true = some { pend with outcome := .succeeded } := by
      simp [LogState.setOutcome, hp, hm.eventId]
    exact .succeeded hset rfl { hm with } rfl hu.awaits

/-- The write of the pending event failed: its id is given up. -/
theorem CoreSafe.refuse (h : CoreSafe log) (hu : Unconfirmed jb log e) : CoreSafe { log with
      pending := LogState.setOutcome log.pending e.eventId false
      failed := e.eventId :: log.failed } ∧
    Confirmed jb { log with
      pending := LogState.setOutcome log.pending e.eventId false
      failed := e.eventId :: log.failed } := by
  obtain ⟨pend, hp, hou, hm⟩ := hu.pending
  refine ⟨⟨h.increasing, h.consecutive, ?_, ?_⟩, ?_⟩
  · intro id hid
    simp only [LogCore.knownIds, mem_append, mem_cons] at hid
    rcases hid with hid | rfl | hid
    · exact h.bounded id (mem_append_left _ hid)
    · exact hu.bounded
    · exact h.bounded id (mem_append_right _ hid)
  · intro o ho hf
    rcases mem_cons.1 hf with heq | hf
    · have hlt := hu.newest _ (mem_append_left _ (mem_map_of_mem ho))
      omega
    · exact h.disjoint o ho hf
  · have hset : LogState.setOutcome log.pending e.eventId false = some { pend with outcome := .failed } := by
      simp [LogState.setOutcome, hp, hm.eventId]
    exact .failed hset rfl { hm with } mem_cons_self hu.awaits

/-- Streams that hold all durable events, with no provisional one. -/
theorem CoreSafe.settle (h : CoreSafe log) {streams : Streams E} (hh : Holds jb log.durable streams) :
    CoreSafe { log with pending := none, streams } ∧ Confirmed jb { log with pending := none, streams } :=
  ⟨{ h with }, .settled rfl hh⟩

theorem Holds.enlist {es : List (LoggedEvent E)} {strs : Streams E} (h : Holds jb es strs)
    (hs : e.streamSeq = (streamOf strs e.streamId).nextStreamSeq) {bs : Nat} (hb : jb e = some bs) :
    Awaits jb es e (strs.insert e.streamId ((streamOf strs e.streamId).enlist e bs)) := by
  have hstr := h e.streamId
  obtain ⟨k, hk⟩ := hstr.retained
  refine ⟨fun sid hne => (h sid).insert_of_ne hne, (streamOf strs e.streamId).enlist e bs,
    OrdMap.get_insert_self .., ⟨.retain ?_ hb, ⟨k, ?_⟩, hstr.latest, hs.trans hstr.next, ?_⟩⟩
  · exact ⟨hstr.sizes, hstr.bytes⟩
  · rw [EventStream.enlist, EventStream.retain, hk]
  · rw [hs]
    rfl

end Invariant

/-! ### Steps -/

namespace LogSafe

variable {jb : LoggedEvent E → Option Nat} {log : LogState E}

section

variable (h : LogSafe jb log)

include h

theorem withOrder {order : AppendOrder E} (ho : OrderSafe jb log.toLogCore order) :
    LogSafe jb { log with order } := ⟨h.core, ho⟩

theorem orderAt {order : AppendOrder E} (ho : log.order = order) : OrderSafe jb log.toLogCore order :=
  ho ▸ h.order

theorem acquireOrder (cal : Nat) : LogSafe jb (log.acquireOrder cal) := by
  unfold LogState.acquireOrder
  split
  · rename_i hor hf
    exact ⟨h.core, (h.orderAt hor :)⟩
  · exact h

theorem reserve (eventId : Option Nat) : LogSafe jb (log.reserve eventId) := by
  unfold LogState.reserve
  split
  · rename_i hor
    have ho : Confirmed jb log.toLogCore := h.orderAt hor
    split
    · split
      · exact h.withOrder ho
      rename_i eventId
      split
      · have hbel : ∀ id ∈ log.knownIds, id < eventId := by
          intro id hid
          have hle := h.core.bounded id hid
          omega
        refine ⟨⟨h.core.increasing, h.core.consecutive, ?_, h.core.disjoint⟩, ?_, hbel, le_rfl⟩
        · intro id hid
          exact Nat.le_of_lt (hbel id hid)
        cases ho with
        | settled hp hh => exact .settled hp hh
        | succeeded hp hou hm hd ha =>
          exact .succeeded hp hou hm hd ha
        | failed hp hou hm hf ha => exact .failed hp hou hm hf ha
      · exact h
    · exact h.withOrder ho
  · exact h

/-- The new event awaits its write in the stream of the call. -/
theorem prepare (now : Nat) : LogSafe jb (log.prepare jb now) := by
  unfold LogState.prepare
  split
  · rename_i call eid ho
    obtain ⟨hc, hne, hb⟩ := h.orderAt ho
    obtain ⟨hn, hh⟩ := h.core.reconcile hc
    cases hr : reconcileCompletedEvents log.pending log.streams with
    | mk p sms =>
      rw [hr] at hn hh
      dsimp only
      subst hn
      -- a stream entry is made before the event is serialized
      have hent : Holds jb log.durable (sms.insert call.streamId (streamOf sms call.streamId)) := by
        intro sid
        by_cases hsame : sid = call.streamId
        · subst hsame
          exact holdsAt_insert (hh _)
        · exact (hh sid).insert_of_ne hsame
      split
      · obtain ⟨hco, hs⟩ := h.core.settle hent
        exact ⟨hco, hs⟩
      · rename_i hp
        cases hp
      · rename_i bs hby hn
        exact ⟨⟨h.core.increasing, h.core.consecutive, h.core.bounded, h.core.disjoint⟩,
          ⟨_, rfl, rfl, hby, rfl, rfl, rfl⟩, hh.enlist rfl hby, hne, hb⟩
  · exact h

theorem write (ok : Bool) : LogSafe jb (log.write ok) := by
  unfold LogState.write
  split
  · rename_i hor
    exact ⟨h.core, (h.orderAt hor :)⟩
  · exact h

theorem complete : LogSafe jb log.complete := by
  unfold LogState.complete
  split
  · rename_i ok hor
    have ho := h.orderAt hor
    cases ok with
    | true =>
      obtain ⟨hco, hc⟩ := h.core.confirm ho
      exact ⟨hco, hc⟩
    | false =>
      obtain ⟨hco, hc⟩ := h.core.refuse ho
      exact ⟨hco, hc⟩
  · exact h

theorem reply : LogSafe jb log.reply := by
  unfold LogState.reply
  split
  · rename_i hor
    exact h.withOrder (h.orderAt hor :)
  · rename_i hor
    exact h.withOrder (h.orderAt hor :)
  · exact h

theorem compactAfter (ret : EventRetentionPolicy) (drp : List (LoggedEvent E)) :
    LogSafe jb (LogState.compactAfter ret log drp) := by
  unfold LogState.compactAfter
  split
  · exact h
  split <;> exact ⟨h.core, h.order⟩

/-- The streams are settled, perhaps trimmed, and the order is released. -/
theorem settle {streams : Streams E} (hh : Holds jb log.durable streams) :
    LogSafe jb { log with pending := none, streams, order := .free } := by
  obtain ⟨hco, hc⟩ := h.core.settle hh
  exact ⟨hco, hc⟩

theorem finish (retention : EventRetentionPolicy) (now : Nat) : LogSafe jb (log.finish retention now) := by
  unfold LogState.finish
  split
  · rename_i ho
    obtain ⟨hn, hh⟩ := h.core.reconcile (h.orderAt ho)
    cases hr : reconcileCompletedEvents log.pending log.streams with
    | mk p sms =>
      rw [hr] at hn hh
      dsimp only
      subst hn
      split
      · exact (h.settle (hh.trimmedAll (trimmedAll_applyRetention sms retention now))).compactAfter retention _
      · exact h.settle hh
  · exact h

/-- A call may be cancelled in every phase of its append. -/
theorem cancel (cal : Nat) : LogSafe jb (log.cancel cal) := by
  unfold LogState.cancel
  dsimp only
  split
  · rename_i hor
    split
    · exact ⟨h.core, (h.orderAt hor :)⟩
    · exact ⟨h.core, h.order⟩
  · rename_i hor
    split
    · exact ⟨h.core, (h.orderAt hor).1⟩
    · exact ⟨h.core, h.order⟩
  · rename_i phase hor
    have ho := h.orderAt hor
    split
    · refine ⟨h.core, ?_⟩
      cases phase <;> exact ho
    · exact ⟨h.core, h.order⟩
  · rename_i hor
    split
    · exact ⟨h.core, (h.orderAt hor :)⟩
    · exact ⟨h.core, h.order⟩
  · rename_i hor
    split
    · exact ⟨h.core, (h.orderAt hor :)⟩
    · exact ⟨h.core, h.order⟩
  · exact ⟨h.core, h.order⟩

theorem stopWriter : LogSafe jb log.stopWriter := by
  unfold LogState.stopWriter
  dsimp only
  split
  · rename_i hor
    exact ⟨h.core, (h.orderAt hor :)⟩
  · rename_i logged bs phase hph hor
    have hunco : Unconfirmed jb log.toLogCore logged := by
      have ho := h.orderAt hor
      cases phase with
      | queued | written => exact ho
      | completed ok => exact absurd rfl (hph ok)
    obtain ⟨hco, hc⟩ := h.core.refuse hunco
    exact ⟨hco, hc⟩
  · exact ⟨h.core, h.order⟩

theorem reacquireOrder (cal : Nat) : LogSafe jb (log.reacquireOrder cal) := by
  unfold LogState.reacquireOrder
  split
  · rename_i hor
    split
    · exact ⟨h.core, (h.orderAt hor :)⟩
    · exact h
  · exact h

/-- A recovery settles the append that was completed without its call. -/
theorem recover : LogSafe jb log.recover := by
  unfold LogState.recover
  split
  · rename_i ho
    obtain ⟨hn, hh⟩ := h.core.reconcile (h.orderAt ho)
    cases hr : reconcileCompletedEvents log.pending log.streams with
    | mk =>
      rw [hr] at hn hh
      subst hn
      exact h.settle hh
  · exact h

theorem swapCompacted (ok : Bool) : LogSafe jb (log.swapCompacted ok) := by
  unfold LogState.swapCompacted
  split
  · split
    · exact ⟨h.core, h.order⟩
    · exact h
  · exact h

end

end LogSafe

end Chariox.EventLog
