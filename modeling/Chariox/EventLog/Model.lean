import Chariox.Lib.OrdMap

/-!
# The event log: streams, retention and replay

Each stream keeps the latest of its events.  An event is retained before its write is confirmed; while the write is
pending the event is provisional, and the next operation that takes the streams lock settles it.
-/

namespace Chariox.EventLog

structure LoggedEvent (E : Type) where
  eventId : Nat
  streamId : String
  streamSeq : Nat
  recordedAtMs : Nat
  event : E
  deriving DecidableEq, Repr

structure ReplayGap where
  streamId : String
  requestedFromEventId : Nat
  firstRetainedEventId : Option Nat
  latestEventId : Option Nat
  deriving DecidableEq, Repr

inductive ReplayOutcome (E : Type)
  | replayed (events : List (LoggedEvent E))
  | gap (gap : ReplayGap)
  deriving DecidableEq, Repr

structure EventRetentionPolicy where
  maxStreamEvents : Nat
  maxTotalBytes : Option Nat
  maxAgeMs : Option Nat
  deriving DecidableEq, Repr

structure EventStream (E : Type) where
  nextStreamSeq : Nat
  retained : List (LoggedEvent E)
  retainedSizes : List Nat
  retainedJsonlBytes : Nat
  latestEventId : Option Nat

variable {E : Type}

def EventStream.new : EventStream E where
  nextStreamSeq := 1
  retained := []
  retainedSizes := []
  retainedJsonlBytes := 0
  latestEventId := none

abbrev Streams (E : Type) := OrdMap String (EventStream E)

def EventStream.retain (stream : EventStream E) (event : LoggedEvent E) (jsonlBytes : Nat) : EventStream E :=
  { stream with
    retained := stream.retained ++ [event]
    retainedSizes := stream.retainedSizes ++ [jsonlBytes]
    retainedJsonlBytes := stream.retainedJsonlBytes + jsonlBytes }

/-- Retain a new event; it takes the next sequence number. -/
def EventStream.enlist (stream : EventStream E) (event : LoggedEvent E) (jsonlBytes : Nat) : EventStream E :=
  { stream with nextStreamSeq := stream.nextStreamSeq + 1 }.retain event jsonlBytes

def EventStream.dropOldest (stream : EventStream E) : Option (LoggedEvent E × EventStream E) :=
  match stream.retained with
  | [] => none
  | event :: retained => some (event, { stream with
      retained
      retainedSizes := stream.retainedSizes.tail
      retainedJsonlBytes := stream.retainedJsonlBytes - stream.retainedSizes.headD 0 })

variable (streams : Streams E)

/-- `streams.entry(id).or_default()`. -/
def streamOf (streamId : String) : EventStream E := (streams.get streamId).getD .new

/-! ### Retention -/

/-- Drop the oldest events while `exceeds` holds; with the dropped events. -/
def EventStream.dropWhile (exceeds : EventStream E → Bool) : Nat → EventStream E → List (LoggedEvent E) × EventStream E
  | 0, stream => ([], stream)
  | fuel + 1, stream =>
    if exceeds stream then
      match stream.dropOldest with
      | none => ([], stream)
      | some (event, rest) =>
        let (dropped, last) := EventStream.dropWhile exceeds fuel rest
        (event :: dropped, last)
    else ([], stream)

/-- The front event left the age window. -/
def EventStream.frontExpired (maxAgeMs nowMs : Nat) (stream : EventStream E) : Bool :=
  match stream.retained.head? with
  | none => false
  | some event => event.recordedAtMs ≠ 0 && nowMs - event.recordedAtMs > maxAgeMs

/-- The count and age limits of one stream. -/
def EventStream.trim (retention : EventRetentionPolicy) (nowMs : Nat) (stream : EventStream E) :
    List (LoggedEvent E) × EventStream E :=
  let (overCount, counted) := stream.dropWhile (fun s => s.retained.length > retention.maxStreamEvents)
    stream.retained.length
  match retention.maxAgeMs with
  | none => (overCount, counted)
  | some maxAgeMs =>
    let (overAge, aged) := counted.dropWhile (EventStream.frontExpired maxAgeMs nowMs) counted.retained.length
    (overCount ++ overAge, aged)

/-- The heap of the streams' oldest events. -/
abbrev OldestHeap := List (Nat × String)

def oldestLe (a b : Nat × String) : Bool := a.1 < b.1 || (a.1 = b.1 && a.2 ≤ b.2)

def OldestHeap.peek : OldestHeap → Option (Nat × String)
  | [] => none
  | entry :: heap =>
    match OldestHeap.peek heap with
    | none => some entry
    | some least => if oldestLe entry least then some entry else some least

/-- Drop the globally oldest events while there are too many bytes. -/
def evictOldest (targetTotalBytes : Nat) : Nat → Nat → OldestHeap → Streams E → List (LoggedEvent E) × Streams E
  | 0, _, _, streams => ([], streams)
  | fuel + 1, totalBytes, oldest, streams =>
    if totalBytes > targetTotalBytes then
      match OldestHeap.peek oldest with
      | none => ([], streams)
      | some entry =>
        match (streams.get entry.2).bind (fun stream => stream.dropOldest.map (fun dropped => (stream, dropped))) with
        | none => ([], streams)
        | some (stream, event, rest) =>
          let heap := oldest.erase entry
          let heap := match rest.retained.head? with
            | none => heap
            | some next => (next.eventId, entry.2) :: heap
          let (dropped, last) := evictOldest targetTotalBytes fuel
            (totalBytes - (stream.retainedJsonlBytes - rest.retainedJsonlBytes)) heap (streams.insert entry.2 rest)
          (event :: dropped, last)
    else ([], streams)

def persistentCompactionTargetBytes (maxTotalBytes : Nat) : Nat := max (min (maxTotalBytes * 3) (2 ^ 64 - 1) / 4) 1

def retainedEventsJsonlBytes : Nat :=
  (streams.values.map EventStream.retainedJsonlBytes).foldl (· + ·) 0

def retainedEventIds : List Nat :=
  streams.values.flatMap (fun stream => stream.retained.map LoggedEvent.eventId)

def retainedCount : Nat := (retainedEventIds streams).length

/-- With the events that were dropped. -/
def applyRetention (retention : EventRetentionPolicy) (nowMs : Nat) : List (LoggedEvent E) × Streams E :=
  let dropped := streams.values.flatMap (fun stream => (stream.trim retention nowMs).1)
  let trimmed := streams.mapValues (fun _ stream => (stream.trim retention nowMs).2)
  match retention.maxTotalBytes with
  | none => (dropped, trimmed)
  | some maxTotalBytes =>
    let totalBytes := retainedEventsJsonlBytes trimmed
    if totalBytes > maxTotalBytes then
      let oldest := trimmed.entries.filterMap (fun entry =>
        entry.2.retained.head?.map (fun event => (event.eventId, entry.1)))
      let (evicted, last) := evictOldest (persistentCompactionTargetBytes maxTotalBytes) (retainedCount trimmed)
        totalBytes oldest trimmed
      (dropped ++ evicted, last)
    else (dropped, trimmed)

/-! ### Provisional events -/

inductive PersistenceOutcome
  | pending | succeeded | failed
  deriving DecidableEq, Repr

structure PendingPersistentEvent where
  eventId : Nat
  streamId : String
  streamSeq : Nat
  jsonlBytes : Nat
  outcome : PersistenceOutcome
  deriving DecidableEq, Repr

def registerPendingEvent (logged : LoggedEvent E) (jsonlBytes : Nat) : PendingPersistentEvent where
  eventId := logged.eventId
  streamId := logged.streamId
  streamSeq := logged.streamSeq
  jsonlBytes
  outcome := .pending

/-- A written event counts as the latest of its stream. -/
def EventStream.confirm (stream : EventStream E) (eventId : Nat) : EventStream E :=
  { stream with latestEventId := some (max (stream.latestEventId.getD 0) eventId) }

/-- A failed event is taken back, with its sequence number. -/
def EventStream.withdraw (stream : EventStream E) (pending : PendingPersistentEvent) (position : Nat) : EventStream E :=
  { stream with
    retained := stream.retained.eraseIdx position
    retainedSizes := stream.retainedSizes.eraseIdx position
    retainedJsonlBytes := stream.retainedJsonlBytes - pending.jsonlBytes
    nextStreamSeq :=
      if stream.nextStreamSeq = pending.streamSeq + 1 then pending.streamSeq else stream.nextStreamSeq }

/-- Settle an event whose write succeeded or failed. -/
def settleCompleted (pending : PendingPersistentEvent) : Streams E :=
  match streams.get pending.streamId with
  | none => streams
  | some stream =>
    if pending.outcome = .succeeded then streams.insert pending.streamId (stream.confirm pending.eventId)
    else
      match stream.retained.findIdx? (fun event => event.eventId = pending.eventId) with
      | none => streams
      | some position =>
        let stream := stream.withdraw pending position
        if stream.retained.isEmpty && stream.latestEventId.isNone then streams.remove pending.streamId
        else streams.insert pending.streamId stream

def reconcileCompletedEvents (pending : Option PendingPersistentEvent) (streams : Streams E) :
    Option PendingPersistentEvent × Streams E :=
  match pending with
  | none => (none, streams)
  | some event => if event.outcome = .pending then (some event, streams) else (none, settleCompleted streams event)

/-! ### Replay -/

/-- The answer of a replay, once the streams are settled. -/
def replayStream (pendingEventId : Option Nat) (streamId : String) (cursorEventId : Nat) : ReplayOutcome E :=
  match streams.get streamId with
  | none => .gap {
      streamId
      requestedFromEventId := cursorEventId
      firstRetainedEventId := none
      latestEventId := none }
  | some stream =>
    match stream.retained.find? (fun event => some event.eventId ≠ pendingEventId) with
    | none =>
      if stream.latestEventId.any (fun latest => cursorEventId < latest) then .gap {
        streamId
        requestedFromEventId := cursorEventId
        firstRetainedEventId := none
        latestEventId := stream.latestEventId }
      else .replayed (stream.retained.filter
        (fun event => event.eventId > cursorEventId && some event.eventId ≠ pendingEventId))
    | some firstRetained =>
      if cursorEventId < firstRetained.eventId then .gap {
        streamId
        requestedFromEventId := cursorEventId
        firstRetainedEventId := some firstRetained.eventId
        latestEventId := stream.latestEventId }
      else .replayed (stream.retained.filter
        (fun event => event.eventId > cursorEventId && some event.eventId ≠ pendingEventId))

end Chariox.EventLog
