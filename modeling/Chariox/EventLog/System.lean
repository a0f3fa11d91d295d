import Chariox.EventLog.Model

/-!
# The running event log

Appends are serialized by the append order, a lock that travels with the append: from its caller to the writer thread
and back.  The state of the append that holds the order is therefore part of the order (`AppendOrder`).  Callers wait
for the order, and may be cancelled wherever they wait.  The streams lock is held through each of the steps that use the
streams; of what these steps read, only the outcome of a write changes without that lock, and they read it once.
-/

namespace Chariox.EventLog

variable {E : Type}

structure AppendCall (E : Type) where
  caller : Nat
  streamId : String
  event : E
  deriving DecidableEq, Repr

inductive WritePhase
  | queued
  | written (ok : Bool)
  | completed (ok : Bool)
  deriving DecidableEq, Repr

/-- Who holds the append order. -/
inductive AppendOrder (E : Type)
  | free
  /-- The caller waits for a place in the writer's queue. -/
  | reserving (call : AppendCall E)
  /-- The caller has its event id and waits for the streams lock. -/
  | preparing (call : AppendCall E) (eventId : Nat)
  /-- The writer has the append; the caller, unless cancelled, waits for the reply. -/
  | writing (caller : Option Nat) (logged : LoggedEvent E) (jsonlBytes : Nat) (phase : WritePhase)
  /-- The caller has the reply and waits for the streams lock. -/
  | replied (caller : Nat) (logged : LoggedEvent E) (ok : Bool)
  /-- The writer stopped; the caller waits for the streams lock. -/
  | recovering (caller : Nat)
  deriving DecidableEq, Repr

/-- A complete record of the event file. -/
structure FileRecord (E : Type) where
  logged : LoggedEvent E
  jsonlBytes : Nat
  deriving DecidableEq, Repr

/-- A running compaction: the ids that it keeps of the first records of the file. -/
structure Compaction where
  retainedEventIds : List Nat
  compactedPrefix : Nat
  deriving DecidableEq, Repr

/-- The streams and the provisional event.  `durable` and `failed` are the history of the writer: the events whose write
it confirmed, and the ids of those it refused. -/
structure LogCore (E : Type) where
  lastEventId : Nat
  streams : Streams E
  pending : Option PendingPersistentEvent
  durable : List (LoggedEvent E)
  failed : List Nat

/-- The whole log: also the holder of the append order, the callers that wait for it, the callers that a stopped writer
left behind, and the event file. -/
structure LogState (E : Type) extends LogCore E where
  order : AppendOrder E
  waiting : List (AppendCall E)
  stopped : List Nat
  writerRunning : Bool
  file : List (FileRecord E)
  skippedCompactions : Nat
  compaction : Option Compaction

inductive LogStep (E : Type)
  | call (call : AppendCall E)
  | acquireOrder (caller : Nat)
  | reserve (eventId : Option Nat)
  | prepare (nowMs : Nat)
  | write (ok : Bool)
  | complete
  | reply
  | finish (nowMs : Nat)
  | cancel (caller : Nat)
  | stopWriter
  | reacquireOrder (caller : Nat)
  | recover
  | swapCompacted (ok : Bool)
  | replay (streamId : String) (cursorEventId nowMs : Nat)
  deriving DecidableEq, Repr

def persistentCompactionSkipLimit : Nat := 1024

namespace LogState

section Steps

variable (jsonlBytes : LoggedEvent E → Option Nat) (retention : EventRetentionPolicy) (log : LogState E)

def acquireOrder (caller : Nat) : LogState E :=
  match log.order, log.waiting.find? (fun call => call.caller = caller) with
  | .free, some call =>
    { log with
      order := .reserving call
      waiting := log.waiting.filter (fun other => other.caller ≠ caller) }
  | _, _ => log

/-- A place in the queue and the next event id.  The ids of the allocator grow; it fails with `none`. -/
def reserve (eventId : Option Nat) : LogState E :=
  match log.order with
  | .reserving call =>
    if log.writerRunning then
      match eventId with
      | none => { log with order := .free }
      | some eventId =>
        if log.lastEventId < eventId then { log with lastEventId := eventId, order := .preparing call eventId }
        else log
    else { log with order := .free }
  | _ => log

/-- Retain the event provisionally and hand it to the writer. -/
def prepare (nowMs : Nat) : LogState E :=
  match log.order with
  | .preparing call eventId =>
    let (pending, streams) := reconcileCompletedEvents log.pending log.streams
    let stream := streamOf streams call.streamId
    let logged : LoggedEvent E := {
      eventId
      streamId := call.streamId
      streamSeq := stream.nextStreamSeq
      recordedAtMs := nowMs
      event := call.event }
    match jsonlBytes logged, pending with
    -- the event cannot be serialized
    | none, _ => { log with pending, streams := streams.insert call.streamId stream, order := .free }
    -- `register_pending_event` asserts that there is no other provisional event
    | some _, some _ => { log with pending, streams := streams.insert call.streamId stream, order := .free }
    | some bytes, none =>
      { log with
        streams := streams.insert call.streamId (stream.enlist logged bytes)
        pending := some (registerPendingEvent logged bytes)
        order := .writing (some call.caller) logged bytes .queued }
  | _ => log

/-- The writer appends the record, with its retries, or gives up and rolls the file back. -/
def write (ok : Bool) : LogState E :=
  match log.order with
  | .writing caller logged bytes .queued =>
    { log with
      order := .writing caller logged bytes (.written ok)
      file := if ok then log.file ++ [{ logged, jsonlBytes := bytes }] else log.file }
  | _ => log

def setOutcome (pending : Option PendingPersistentEvent) (eventId : Nat) (ok : Bool) : Option PendingPersistentEvent :=
  pending.map (fun event =>
    if event.eventId = eventId then { event with outcome := if ok then .succeeded else .failed } else event)

def complete : LogState E :=
  match log.order with
  | .writing caller logged bytes (.written ok) =>
    { log with
      order := .writing caller logged bytes (.completed ok)
      pending := setOutcome log.pending logged.eventId ok
      durable := if ok then log.durable ++ [logged] else log.durable
      failed := if ok then log.failed else logged.eventId :: log.failed }
  | _ => log

/-- The reply gives the order back; nobody takes it where the caller was cancelled. -/
def reply : LogState E :=
  match log.order with
  | .writing (some caller) logged _ (.completed ok) => { log with order := .replied caller logged ok }
  | .writing none _ _ (.completed _) => { log with order := .free }
  | _ => log

def shouldCompactNow : Bool :=
  if log.skippedCompactions + 1 ≥ persistentCompactionSkipLimit then true
  else
    match retention.maxTotalBytes with
    | some maxFileBytes => (log.file.map FileRecord.jsonlBytes).sum > maxFileBytes
    | none => false

/-- Start a compaction after an append that dropped events. -/
def compactAfter (dropped : List (LoggedEvent E)) : LogState E :=
  if dropped.isEmpty then log
  else if log.shouldCompactNow retention && log.compaction.isNone then
    { log with
      skippedCompactions := 0
      compaction := some { retainedEventIds := retainedEventIds log.streams, compactedPrefix := log.file.length } }
  else { log with skippedCompactions := log.skippedCompactions + 1 }

/-- The end of an append: settle it, apply retention, release the order. -/
def finish (nowMs : Nat) : LogState E :=
  match log.order with
  | .replied _ _ ok =>
    let (pending, streams) := reconcileCompletedEvents log.pending log.streams
    if ok then
      let (dropped, streams) := applyRetention streams retention nowMs
      compactAfter retention { log with pending, streams, order := .free } dropped
    else { log with pending, streams, order := .free }
  | _ => log

/-- A future is dropped where it waits; a guard that it holds is released. -/
def cancel (caller : Nat) : LogState E :=
  let log := { log with
    waiting := log.waiting.filter (fun call => call.caller ≠ caller)
    stopped := log.stopped.filter (fun other => other ≠ caller) }
  match log.order with
  | .reserving call => if call.caller = caller then { log with order := .free } else log
  | .preparing call _ => if call.caller = caller then { log with order := .free } else log
  | .writing (some other) logged bytes phase =>
    if other = caller then { log with order := .writing none logged bytes phase } else log
  | .replied other _ _ => if other = caller then { log with order := .free } else log
  | .recovering other => if other = caller then { log with order := .free } else log
  | _ => log

/-- The writer stops: it drops its queue, which fails an append whose outcome is still pending and releases the order. -/
def stopWriter : LogState E :=
  let log := { log with writerRunning := false }
  match log.order with
  | .writing caller _ _ (.completed _) => { log with order := .free, stopped := caller.toList ++ log.stopped }
  | .writing caller logged _ _ =>
    { log with
      order := .free
      stopped := caller.toList ++ log.stopped
      pending := setOutcome log.pending logged.eventId false
      failed := logged.eventId :: log.failed }
  | _ => log

def reacquireOrder (caller : Nat) : LogState E :=
  match log.order with
  | .free =>
    if caller ∈ log.stopped then
      { log with order := .recovering caller, stopped := log.stopped.filter (fun other => other ≠ caller) }
    else log
  | _ => log

def recover : LogState E :=
  match log.order with
  | .recovering _ =>
    let (pending, streams) := reconcileCompletedEvents log.pending log.streams
    { log with pending, streams, order := .free }
  | _ => log

def writerIdle : Bool :=
  match log.order with
  | .writing _ _ _ .queued => true
  | .writing .. => false
  | _ => true

/-- The compacted file replaces the event file, with the records that were appended meanwhile. -/
def swapCompacted (ok : Bool) : LogState E :=
  match log.compaction with
  | some compaction =>
    if log.writerRunning && log.writerIdle then
      let kept := (log.file.take compaction.compactedPrefix).filter
        (fun record => compaction.retainedEventIds.contains record.logged.eventId)
      { log with
        compaction := none
        file := if ok then kept ++ log.file.drop compaction.compactedPrefix else log.file }
    else log
  | none => log

/-- `replay_after`: retention waits until there is no provisional event. -/
def replayAfter (streamId : String) (cursorEventId nowMs : Nat) : LogState E × ReplayOutcome E :=
  let (pending, streams) := reconcileCompletedEvents log.pending log.streams
  let streams := if pending.isNone then (applyRetention streams retention nowMs).2 else streams
  ({ log with pending, streams },
    replayStream streams (pending.map PendingPersistentEvent.eventId) streamId cursorEventId)

def apply : LogStep E → LogState E
  | .call call => { log with waiting := log.waiting ++ [call] }
  | .acquireOrder caller => log.acquireOrder caller
  | .reserve eventId => log.reserve eventId
  | .prepare nowMs => log.prepare jsonlBytes nowMs
  | .write ok => log.write ok
  | .complete => log.complete
  | .reply => log.reply
  | .finish nowMs => log.finish retention nowMs
  | .cancel caller => log.cancel caller
  | .stopWriter => log.stopWriter
  | .reacquireOrder caller => log.reacquireOrder caller
  | .recover => log.recover
  | .swapCompacted ok => log.swapCompacted ok
  | .replay streamId cursorEventId nowMs => (log.replayAfter retention streamId cursorEventId nowMs).1

def run (steps : List (LogStep E)) : LogState E := steps.foldl (apply jsonlBytes retention) log

end Steps

end LogState

/-! ### Opening -/

/-- The records of an event file that an earlier process left, and the last id that it may have used. -/
structure StoredLog (E : Type) where
  records : List (LoggedEvent E)
  lastEventId : Nat
  increasing : records.Pairwise (fun a b => a.eventId < b.eventId)
  bounded : ∀ event ∈ records, event.eventId ≤ lastEventId
  consecutive : ∀ streamId, (records.filter (fun event => event.streamId = streamId)).IsChain
    (fun a b => b.streamSeq = a.streamSeq + 1)

def StoredLog.empty : StoredLog E where
  records := []
  lastEventId := 0
  increasing := .nil
  bounded := fun _ hmem => absurd hmem List.not_mem_nil
  consecutive := fun _ => .nil

section Opening

variable (jsonlBytes : LoggedEvent E → Option Nat) (retention : EventRetentionPolicy)

def loadRecord (streams : Streams E) (logged : LoggedEvent E) : Option (Streams E) :=
  (jsonlBytes logged).map (fun bytes =>
    let stream := streamOf streams logged.streamId
    let stream := { stream with
      nextStreamSeq := max stream.nextStreamSeq (logged.streamSeq + 1)
      latestEventId := some (max (stream.latestEventId.getD 0) logged.eventId) }
    streams.insert logged.streamId (stream.retain logged bytes))

def loadRetainedStreams (records : List (LoggedEvent E)) : Option (Streams E) :=
  records.foldlM (loadRecord jsonlBytes) .empty

/-- `new_with_persistent_event_store_and_retention`: the file is rewritten if retention drops some of its records. -/
def LogState.open (stored : StoredLog E) (nowMs : Nat) : Option (LogState E) :=
  (loadRetainedStreams jsonlBytes stored.records).map (fun loaded =>
    let (dropped, streams) := applyRetention loaded retention nowMs
    let records := stored.records.map (fun logged => { logged, jsonlBytes := (jsonlBytes logged).getD 0 : FileRecord E })
    { lastEventId := stored.lastEventId
      streams
      pending := none
      order := .free
      waiting := []
      stopped := []
      writerRunning := true
      file := if dropped.isEmpty then records
        else records.filter (fun record => (retainedEventIds streams).contains record.logged.eventId)
      skippedCompactions := 0
      compaction := none
      durable := stored.records
      failed := [] })

end Opening

end Chariox.EventLog
