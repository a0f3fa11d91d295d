import Chariox.EventLog.Retention

/-!
# Streams and their durable events

Every stream holds the latest of its durable events, and on top of them at most the one provisional event.  Retention
only takes events from the front; settling a provisional event adds it to the durable ones or takes it back.
-/

namespace Chariox.EventLog

open List

variable {E : Type} (jsonlBytes : LoggedEvent E → Option Nat) (events : List (LoggedEvent E))

def nextSeq : Nat :=
  match events.getLast? with
  | none => 1
  | some event => event.streamSeq + 1

/-- The stream holds the latest of `events`. -/
structure StreamHolds (stream : EventStream E) : Prop extends stream.Counted jsonlBytes where
  retained : ∃ k, stream.retained = events.drop k
  latest : stream.latestEventId = events.getLast?.map LoggedEvent.eventId
  next : stream.nextStreamSeq = nextSeq events

/-- The stream holds the latest of `events`, and `event` provisionally. -/
structure StreamAwaits (event : LoggedEvent E) (stream : EventStream E) : Prop extends stream.Counted jsonlBytes where
  retained : ∃ k, stream.retained = events.drop k ++ [event]
  latest : stream.latestEventId = events.getLast?.map LoggedEvent.eventId
  seq : event.streamSeq = nextSeq events
  next : stream.nextStreamSeq = event.streamSeq + 1

/-- A stream that is not there has no events. -/
def HoldsAt (streams : Streams E) (streamId : String) : Prop :=
  StreamHolds jsonlBytes (ofStream streamId events) (streamOf streams streamId)

def Holds (streams : Streams E) : Prop := ∀ streamId, HoldsAt jsonlBytes events streams streamId

def Awaits (event : LoggedEvent E) (streams : Streams E) : Prop :=
  (∀ streamId, streamId ≠ event.streamId → HoldsAt jsonlBytes events streams streamId) ∧
    ∃ stream, streams.get event.streamId = some stream ∧
      StreamAwaits jsonlBytes (ofStream event.streamId events) event stream

section Streams

variable {jb : LoggedEvent E → Option Nat} {events : List (LoggedEvent E)} {ev : LoggedEvent E} {streams : Streams E}
  {streamId : String}

variable {stream : EventStream E}

theorem EventStream.Counted.retain (h : stream.Counted jb) {bytes : Nat} (hb : jb ev = some bytes) :
    (stream.retain ev bytes).Counted jb := by
  constructor
  · simp only [EventStream.retain, map_append, h.sizes, map_cons, map_nil, hb]
  · simp only [EventStream.retain, h.bytes, sum_append, sum_singleton]

theorem StreamHolds.trimmed {rest : EventStream E} (h : StreamHolds jb events stream) (ht : Trimmed stream rest) :
    StreamHolds jb events rest := by
  obtain ⟨k, hk⟩ := h.retained
  obtain ⟨l, hl⟩ := ht.retained
  refine ⟨ht.counted h.toCounted, ⟨k + l, ?_⟩, ht.latest.trans h.latest, ht.next.trans h.next⟩
  rw [hl, hk, drop_drop]

/-- Streams that hold the log still hold it when events are dropped at their fronts. -/
theorem Holds.trimmedAll (h : Holds jb events streams) {trimmed : Streams E} (ht : TrimmedAll streams trimmed) :
    Holds jb events trimmed := fun id => (h id).trimmed (ht id).2

theorem HoldsAt.insert_of_ne {o : String} (h : HoldsAt jb events streams streamId)
    (hne : streamId ≠ o) : HoldsAt jb events (streams.insert o stream) streamId := by
  unfold HoldsAt
  rw [streamOf_insert, if_neg hne]
  exact h

theorem holdsAt_insert (h : StreamHolds jb (ofStream streamId events) stream) :
    HoldsAt jb events (streams.insert streamId stream) streamId := by
  unfold HoldsAt
  rw [streamOf_insert, if_pos rfl]
  exact h

theorem ofStream_append_of_ne (events : List (LoggedEvent E)) (hne : streamId ≠ ev.streamId) :
    ofStream streamId (events ++ [ev]) = ofStream streamId events := by
  simp [ofStream, Ne.symm hne]

theorem ofStream_append (es : List (LoggedEvent E)) (e : LoggedEvent E) :
    ofStream e.streamId (es ++ [e]) = ofStream e.streamId es ++ [e] := by
  simp [ofStream]

theorem HoldsAt.append_of_ne (h : HoldsAt jb events streams streamId) (hne : streamId ≠ ev.streamId) :
    HoldsAt jb (events ++ [ev]) streams streamId := by
  unfold HoldsAt
  rw [ofStream_append_of_ne events hne]
  exact h

theorem drop_append_singleton (es : List (LoggedEvent E)) (e : LoggedEvent E) (k : Nat) :
    ∃ l, es.drop k ++ [e] = (es ++ [e]).drop l := by
  refine ⟨min k es.length, ?_⟩
  rw [drop_append_of_le_length (Nat.min_le_right ..)]
  by_cases hk : k ≤ es.length
  · rw [Nat.min_eq_left hk]
  · rw [Nat.min_eq_right (by omega), drop_eq_nil_of_le (by omega), drop_length]

/-- The registration of a provisional event. -/
structure PendingPersistentEvent.Matches (jsonlBytes : LoggedEvent E → Option Nat) (pending : PendingPersistentEvent)
    (event : LoggedEvent E) : Prop where
  size : jsonlBytes event = some pending.jsonlBytes
  eventId : pending.eventId = event.eventId
  streamId : pending.streamId = event.streamId
  streamSeq : pending.streamSeq = event.streamSeq

variable {p : PendingPersistentEvent}

theorem max_latest (hl : ∀ old ∈ events, old.eventId < ev.eventId) :
    max ((events.getLast?.map LoggedEvent.eventId).getD 0) ev.eventId = ev.eventId := by
  cases hlst : events.getLast? with
  | none => simp
  | some lt =>
    have hlt := hl lt (mem_of_getLast? hlst)
    simp only [Option.map_some, Option.getD_some]
    omega

theorem StreamAwaits.confirm (h : StreamAwaits jb events ev stream) (hla : ∀ old ∈ events, old.eventId < ev.eventId) :
    StreamHolds jb (events ++ [ev]) (stream.confirm ev.eventId) := by
  obtain ⟨k, hk⟩ := h.retained
  obtain ⟨l, hl⟩ := drop_append_singleton events ev k
  refine ⟨⟨h.sizes, h.bytes⟩, ⟨l, hk.trans hl⟩, ?_, ?_⟩
  · simp only [EventStream.confirm, h.latest, max_latest hla, getLast?_append, getLast?_singleton, Option.some_or,
      Option.map_some]
  · simp only [EventStream.confirm, h.next, nextSeq, getLast?_append, getLast?_singleton, Option.some_or]

/-- A successful write makes the provisional event one of the stream. -/
theorem Awaits.confirmed (h : Awaits jb events ev streams) (hl : ∀ old ∈ events, old.eventId < ev.eventId)
    (hm : p.Matches jb ev) (hok : p.outcome = .succeeded) : Holds jb (events ++ [ev]) (settleCompleted streams p) := by
  obtain ⟨ho, sm, hg, hs⟩ := h
  have hsettle : settleCompleted streams p = streams.insert ev.streamId (sm.confirm ev.eventId) := by
    unfold settleCompleted
    rw [hm.streamId, hg, hm.eventId]
    simp [hok]
  rw [hsettle]
  intro sid
  by_cases hsame : sid = ev.streamId
  · subst hsame
    apply holdsAt_insert
    rw [ofStream_append]
    exact hs.confirm fun old hme => hl old (mem_of_mem_filter hme)
  · exact ((ho sid hsame).append_of_ne hsame).insert_of_ne hsame

/-- The position of the event that awaits its write is the end of the queue. -/
theorem StreamAwaits.position (h : StreamAwaits jb events ev stream) (hne : ∀ old ∈ events, old.eventId ≠ ev.eventId) :
    ∃ k, stream.retained = events.drop k ++ [ev] ∧
      stream.retained.findIdx? (fun o => o.eventId = ev.eventId) = some (events.drop k).length := by
  obtain ⟨k, hk⟩ := h.retained
  refine ⟨k, hk, ?_⟩
  have hnone : (events.drop k).findIdx? (fun o => decide (o.eventId = ev.eventId)) = none := by
    rw [findIdx?_eq_none_iff]
    intro old hm
    exact decide_eq_false (hne old (mem_of_mem_drop hm))
  rw [hk, findIdx?_append, hnone]
  simp

/-- A failed event takes its size out of the counter. -/
theorem EventStream.Counted.withdraw {es : List (LoggedEvent E)} (h : stream.Counted jb)
    (hr : stream.retained = es ++ [ev]) (hm : p.Matches jb ev) : (stream.withdraw p es.length).Counted jb := by
  have hs := h.sizes
  rw [hr, map_append, append_eq_map_iff] at hs
  obtain ⟨sizes, last, hsz, hes, hev⟩ := hs
  obtain rfl : last = [p.jsonlBytes] := by
    simpa [hm.size, map_eq_singleton_iff] using hev
  have hlen : sizes.length = es.length := by simpa using congrArg length hes
  constructor
  · simp only [EventStream.withdraw, hr, hsz]
    rw [eraseIdx_append_of_length_le le_rfl, ← hlen, eraseIdx_append_of_length_le le_rfl]
    simp [hes]
  · simp only [EventStream.withdraw, h.bytes, hsz]
    rw [← hlen, eraseIdx_append_of_length_le le_rfl]
    simp

theorem Awaits.withdrawn (h : Awaits jb events ev streams) (hne : ∀ old ∈ events, old.eventId ≠ ev.eventId)
    (hm : p.Matches jb ev) (hf : p.outcome = .failed) : Holds jb events (settleCompleted streams p) := by
  obtain ⟨ho, sm, hg, hs⟩ := h
  obtain ⟨k, hr, hp⟩ :=
    hs.position fun old hme => hne old (mem_of_mem_filter hme)
  have hholds : StreamHolds jb (ofStream ev.streamId events)
      (sm.withdraw p ((ofStream ev.streamId events).drop k).length) := by
    refine ⟨hs.toCounted.withdraw hr hm, ⟨k, ?_⟩, hs.latest, ?_⟩
    · show sm.retained.eraseIdx _ = _
      rw [hr, eraseIdx_append_of_length_le le_rfl]
      simp
    · simp only [EventStream.withdraw]
      rw [hm.streamSeq, if_pos hs.next, hs.seq]
  have hsettle : settleCompleted streams p =
      if (sm.withdraw p ((ofStream ev.streamId events).drop k).length).retained.isEmpty &&
          (sm.withdraw p ((ofStream ev.streamId events).drop k).length).latestEventId.isNone
      then streams.remove ev.streamId
      else streams.insert ev.streamId
        (sm.withdraw p ((ofStream ev.streamId events).drop k).length) := by
    unfold settleCompleted
    rw [hm.streamId, hg, hm.eventId]
    simp only [hf, hp, reduceCtorEq, if_false]
  rw [hsettle]
  split
  · rename_i he
    -- a stream without a latest event has no durable event at all
    have hlst : ofStream ev.streamId events = [] := by
      have hnone := (Bool.and_eq_true _ _ ▸ he : _ ∧ _).2
      rw [Option.isNone_iff_eq_none, hholds.latest, Option.map_eq_none_iff] at hnone
      exact getLast?_eq_none_iff.1 hnone
    intro sid
    unfold HoldsAt streamOf
    by_cases hsame : sid = ev.streamId
    · rw [hsame, OrdMap.get_remove_self, hlst]
      exact ⟨⟨rfl, rfl⟩, ⟨0, rfl⟩, rfl, rfl⟩
    · rw [OrdMap.get_remove_of_ne _ hsame]
      exact ho sid hsame
  · intro sid
    by_cases hsame : sid = ev.streamId
    · subst hsame
      exact holdsAt_insert hholds
    · exact (ho sid hsame).insert_of_ne hsame

end Streams

end Chariox.EventLog
