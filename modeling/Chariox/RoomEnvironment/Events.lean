import Chariox.RoomEnvironment.Model

/-!
# The event log of a room

A bounded log of numbered events.  Consecutive pointer events of one environment and generation are coalesced, and
the log remembers the last event it dropped, so that a reader whose cursor is older is told to take a snapshot.
-/

namespace Chariox

inductive EnvironmentEventKind
  | lifecycleChanged (lifecycle : EnvironmentLifecycle)
  | runtimeInvalidated
  | healthChanged
  | tabsChanged
  | viewportChanged (revision : Nat)
  | actorsChanged
  | pointersChanged
  | inputOwnershipChanged
  | actionChanged (actionId : String) (state : EnvironmentActionState) (cancellationRequested : Bool)
      (submittedAtMs : Nat) (startedAtMs finishedAtMs : Option Nat) (outcome : Option EnvironmentActionOutcome)
  deriving DecidableEq, Repr

structure EnvironmentEvent where
  eventId : Nat
  environmentId : String
  runtimeGeneration : Nat
  kind : EnvironmentEventKind
  deriving DecidableEq, Repr

structure EnvironmentEventLog where
  events : List EnvironmentEvent
  capacity : Nat
  nextEventId : Nat
  oldestUnrecoverableCursor : Nat
  deriving DecidableEq, Repr

namespace EnvironmentEventLog

def new (capacity : Nat) : Except EnvironmentError EnvironmentEventLog :=
  if capacity = 0 then .error .invalidEventCapacity
  else .ok { events := [], capacity, nextEventId := 1, oldestUnrecoverableCursor := 0 }

def cursor (log : EnvironmentEventLog) : Nat := log.nextEventId - 1

/-- Drop the oldest events while there are more than `capacity`, remembering the last one dropped. -/
def trim (capacity : Nat) : List EnvironmentEvent → Nat → List EnvironmentEvent × Nat
  | [], oldest => ([], oldest)
  | event :: events, oldest =>
    if capacity < (event :: events).length then trim capacity events event.eventId else (event :: events, oldest)

/-- Whether a new pointer event replaces the last event of the log. -/
def coalesces (log : EnvironmentEventLog) (environmentId : String) (runtimeGeneration : Nat)
    (kind : EnvironmentEventKind) : Bool :=
  decide (kind = .pointersChanged) && log.events.getLast?.any (fun event =>
    decide (event.environmentId = environmentId) && decide (event.runtimeGeneration = runtimeGeneration) &&
      decide (event.kind = .pointersChanged))

def push (log : EnvironmentEventLog) (environmentId : String) (runtimeGeneration : Nat) (kind : EnvironmentEventKind) :
    EnvironmentEventLog :=
  let kept := if log.coalesces environmentId runtimeGeneration kind then log.events.dropLast else log.events
  let trimmed := trim log.capacity
    (kept ++ [{ eventId := log.nextEventId, environmentId, runtimeGeneration, kind }]) log.oldestUnrecoverableCursor
  { log with
    events := trimmed.1
    oldestUnrecoverableCursor := trimmed.2
    nextEventId := log.nextEventId + 1 }

inductive EnvironmentReplayPlan
  | events (events : List EnvironmentEvent) (nextCursor : Nat)
  | snapshotRequired
  deriving DecidableEq, Repr

def replay (log : EnvironmentEventLog) (cursor : Nat) : EnvironmentReplayPlan :=
  if log.cursor < cursor || cursor < log.oldestUnrecoverableCursor then .snapshotRequired
  else .events (log.events.filter (fun event => cursor < event.eventId)) log.cursor

end EnvironmentEventLog

end Chariox
