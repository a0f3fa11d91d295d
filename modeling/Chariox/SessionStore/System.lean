import Chariox.Lib.Runs
import Chariox.Lib.SequencedLog
import Chariox.SessionStore.Sessions

/-!
# Concurrent session operations, checkpoints, and what a restart restores

A call changes the session store, takes a snapshot of its session later, appends the snapshot as an event later still,
and then returns; the calls of different threads take their steps in any order.  A checkpoint is made by a tick of the
scheduler in steps as well: it reads the latest sequence, captures the store, and saves the captured sessions under that
sequence.  A restart starts at the latest checkpoint and replays the events after its sequence.

The list of the changes in the order in which they were made, the calls that have returned, and for each session how
many changes had been made when the newest of its appended snapshots was taken, are history that the kernel itself does
not keep.
-/

namespace Chariox.SessionStore

/-! ### The durable state -/

/-- The payload of a `session.updated` event. -/
structure SessionUpdated where
  session : RuntimeSession
  reason : String
  deriving DecidableEq

/-- A checkpoint: the sequence it is valid for, the captured sessions, and whether it holds slices of this kernel. -/
structure Checkpoint where
  sequence : Nat
  sessions : OrdMap String RuntimeSession
  hasSlices : Bool
  deriving DecidableEq

/-- The durable state; events are deleted by a checkpoint only once the workflow history was migrated. -/
structure DurableStateStore where
  events : SequencedLog String SessionUpdated
  checkpoint : Option Checkpoint
  migrationVerified : Bool

/-- Prompts that were active or queued before a session was replaced are put back into it. -/
def RuntimeSession.keepPrompts (session : RuntimeSession) (preserved : OrdMap String AgentPromptState) :
    RuntimeSession :=
  { session with
    promptStates := preserved.entries.foldl
      (fun states entry =>
        if entry.2.activePrompt.isNone && entry.2.queuedPrompts.isEmpty then states
        else states.insert entry.1 entry.2)
      session.promptStates }

/-- `restore_durable_state_event` of a `session.updated` event, over the session that was restored so far. -/
def restoreSessionUpdated (current : Option RuntimeSession) (event : SessionUpdated) : RuntimeSession :=
  match current with
  | none => event.session
  | some current => (event.session.noteActivityAt current.lastActivityAtMs).keepPrompts current.promptStates

namespace DurableStateStore

variable (d : DurableStateStore)

def appendEvent (sessionId : String) (session : RuntimeSession) (reason : String) : DurableStateStore :=
  { d with events := d.events.append sessionId ⟨session, reason⟩ }

/-- `event_tail_statistics`: the latest sequence of the events after a sequence. -/
def latestSequence (afterSequence : Nat) : Nat :=
  (d.events.after afterSequence).foldl (fun latest e => max latest e.sequence) afterSequence

def checkpointMarker : Nat := (d.checkpoint.map Checkpoint.sequence).getD 0

/-- The events of checkpointed sessions up to the sequence are deleted in the transaction of the checkpoint. -/
def saveEntityCheckpoint (checkpoint : Checkpoint) : DurableStateStore :=
  { d with
    checkpoint := some checkpoint
    events := d.events.discard (fun e =>
      d.migrationVerified && decide (e.sequence ≤ checkpoint.sequence) && checkpoint.sessions.contains e.key) }

/-- The sessions a restart starts with and the sequence after which it replays; a checkpoint that holds nothing of this
kernel is ignored. -/
def base : OrdMap String RuntimeSession × Nat :=
  match d.checkpoint with
  | none => (.empty, 0)
  | some checkpoint =>
    if checkpoint.sessions.isEmpty && !checkpoint.hasSlices then (.empty, 0)
    else (checkpoint.sessions, checkpoint.sequence)

def restoreDurableState : OrdMap String RuntimeSession :=
  SequencedLog.replay restoreSessionUpdated d.base.1 (d.events.after d.base.2)

end DurableStateStore

/-- A durable state as kernels leave it: the checkpoint is not ahead of the events. -/
structure StoredState extends DurableStateStore where
  sequenced : toDurableStateStore.checkpointMarker ≤ events.lastSequence

/-! ### Calls -/

/-- Where a call is after its change of the store. -/
inductive Stage
  | subscribing
  | snapshotting
  | appending (snapshot : RuntimeSession) (taken : Nat)
  | starting
  deriving DecidableEq

/-- What the call does around the append: an HTTP trigger starts its gateway after it, a notification trigger
subscribes before it; a trigger whose gateway did not start is withdrawn. -/
inductive Origin
  | plain
  | http (triggerId : TriggerId)
  | notification (triggerId : TriggerId)
  | withdrawn
  deriving DecidableEq, Repr

structure Call where
  sessionId : String
  reason : String
  origin : Origin
  stage : Stage
  deriving DecidableEq

/-- The reason under which the operation's event is appended. -/
def Operation.reason : Operation → String
  | .setRoomPinned _ => "room_pin_changed"
  | .createAgentTrigger .. => "agent_trigger_created"
  | .updateAgentTrigger .. => "agent_trigger_updated"
  | .deleteAgentTrigger _ => "agent_trigger_deleted"

def Operation.origin (operation : Operation) (trigger : Option AgentTrigger) : Origin :=
  match operation, trigger with
  | .createAgentTrigger _ (.http _) _ _, some trigger => .http trigger.id
  | .createAgentTrigger _ (.notification ..) _ _, some trigger => .notification trigger.id
  | _, _ => .plain

def Operation.firstStage : Operation → Stage
  | .createAgentTrigger _ (.notification ..) _ _ => .subscribing
  | _ => .snapshotting

/-! ### The kernel -/

/-- A step of a tick of the checkpoint scheduler; the second write follows a first one that left too long a tail. -/
inductive Tick
  | idle
  | capturing (sequence : Nat) (second : Bool)
  | saving (checkpoint : Checkpoint) (second : Bool)
  | measuring (sequence : Nat) (second : Bool)
  deriving DecidableEq

/-- A change of the store: the session, the fields that were written and the session right after the change. -/
structure Change where
  sessionId : String
  fields : List Field
  after : RuntimeSession
  deriving DecidableEq

/-- The kernel.  A call is known by the number of its change. -/
structure KernelState where
  service : SessionService
  durable : DurableStateStore
  calls : OrdMap Nat Call
  checkpointMarker : Option Nat
  tick : Tick
  changes : List Change
  returned : List Nat
  published : OrdMap String Nat

inductive Action
  | start (sessionId : String) (operation : Operation) (callerUserId : String) (nowMs : Nat)
  | subscribed (call : Nat) (ok : Bool)
  | snapshot (call : Nat) (projected : Option (OrdMap String AgentPromptState))
  | append (call : Nat) (ok : Bool)
  | gateway (call : Nat) (ok : Bool)
  | tickRead (due : Bool)
  | tickCapture (hasSlices : Bool)
  | tickSave (ok : Bool)
  | tickMeasure (aboveLimit : Bool)

namespace KernelState

/-- A kernel that has just restored its durable state. -/
def start (d : StoredState) (scheduleContinuation : String) : KernelState where
  service := ⟨d.restoreDurableState, 0, scheduleContinuation⟩
  durable := d.toDurableStateStore
  calls := .empty
  checkpointMarker := none
  tick := .idle
  changes := []
  returned := []
  published := .empty

variable (s : KernelState)

/-- How many changes had been made when the newest appended snapshot of the session was taken. -/
def publishedAt (sessionId : String) : Nat := (s.published.get sessionId).getD 0

/-- The store after a change of the session. -/
def record (service : SessionService) (sessionId : String) (fields : List Field) : KernelState :=
  match service.sessions.get sessionId with
  | some after => { s with service := service, changes := s.changes ++ [⟨sessionId, fields, after⟩] }
  | none => s

def putCall (n : Nat) (call : Call) : KernelState := { s with calls := s.calls.insert n call }

/-- The call ends with an error. -/
def fail (n : Nat) : KernelState := { s with calls := s.calls.remove n }

/-- The call returns. -/
def acknowledge (n : Nat) : KernelState :=
  { s with calls := s.calls.remove n, returned := s.returned ++ [n] }

/-- The change of the store that begins an operation; an operation that is refused changes nothing. -/
def begin (sessionId : String) (operation : Operation) (callerUserId : String) (nowMs : Nat) : KernelState :=
  match s.service.perform sessionId operation callerUserId nowMs with
  | .error _ => s
  | .ok (service, trigger) =>
    (s.record service sessionId (operation.fields trigger)).putCall s.changes.length
      ⟨sessionId, operation.reason, operation.origin trigger, operation.firstStage⟩

/-- Take a trigger back out of the store. -/
def withdraw (sessionId : String) (triggerId : TriggerId) : Option KernelState :=
  match s.service.deleteAgentTrigger sessionId triggerId with
  | .error _ => none
  | .ok (service, _) => some (s.record service sessionId (Field.ofTrigger triggerId))

/-- The end of a call whose snapshot or event could not be written: only a notification trigger is taken back. -/
def persistFailed (n : Nat) (call : Call) : KernelState :=
  match call.origin with
  | .notification triggerId => ((s.withdraw call.sessionId triggerId).getD s).fail n
  | .plain | .http _ | .withdrawn => s.fail n

def takeSnapshot (n : Nat) (call : Call) (projected : Option (OrdMap String AgentPromptState)) : KernelState :=
  match projected, s.service.sessions.get call.sessionId with
  | some projected, some session =>
    s.putCall n { call with
      stage := .appending ({ session with promptStates := projected }.durableRuntimeSnapshot) s.changes.length }
  | _, _ => s.persistFailed n call

/-- The event of the call is durable. -/
def publish (call : Call) (session : RuntimeSession) (taken : Nat) : KernelState :=
  { s with
    durable := s.durable.appendEvent call.sessionId session call.reason
    published := s.published.insert call.sessionId taken }

/-- What follows the append of the event. -/
def appended (n : Nat) (call : Call) : KernelState :=
  match call.origin with
  | .plain | .notification _ => s.acknowledge n
  | .http _ => s.putCall n { call with stage := .starting }
  | .withdrawn => s.fail n

def gatewayFailed (n : Nat) (call : Call) : KernelState :=
  match call.origin with
  | .http triggerId =>
    match s.withdraw call.sessionId triggerId with
    | some s' =>
      s'.putCall n { call with reason := "agent_trigger_gateway_failed", origin := .withdrawn, stage := .snapshotting }
    | none => s.fail n
  | .plain | .notification _ | .withdrawn => s

/-- The next step of a call. -/
def advance (n : Nat) (call : Call) : Action → KernelState
  | .subscribed _ ok =>
    match call.stage, call.origin with
    | .subscribing, .notification triggerId =>
      if ok then s.putCall n { call with stage := .snapshotting }
      else ((s.withdraw call.sessionId triggerId).getD s).fail n
    | _, _ => s
  | .snapshot _ projected =>
    match call.stage with
    | .snapshotting => s.takeSnapshot n call projected
    | _ => s
  | .append _ ok =>
    match call.stage with
    | .appending session taken =>
      if ok then (s.publish call session taken).appended n call else s.persistFailed n call
    | _ => s
  | .gateway _ ok =>
    match call.stage with
    | .starting => if ok then s.acknowledge n else s.gatewayFailed n call
    | _ => s
  | _ => s

/-- A step of the checkpoint scheduler.  Whether a checkpoint is due and whether the tail is above its hard limit
depend on sizes and times. -/
def advanceTick : Action → KernelState
  | .tickRead due =>
    match s.tick with
    | .idle =>
      let marker := s.checkpointMarker.getD s.durable.checkpointMarker
      { s with
        checkpointMarker := some marker
        tick := if due then .capturing (s.durable.latestSequence marker) false else .idle }
    | _ => s
  | .tickCapture hasSlices =>
    match s.tick with
    | .capturing sequence second =>
      let sessions := s.service.sessions.mapValues (fun _ session => session.durableRuntimeSnapshot)
      { s with tick := .saving ⟨sequence, sessions, hasSlices⟩ second }
    | _ => s
  | .tickSave ok =>
    match s.tick with
    | .saving checkpoint second =>
      if ok then
        { s with
          durable := s.durable.saveEntityCheckpoint checkpoint
          tick := .measuring checkpoint.sequence second }
      else { s with tick := .idle }
    | _ => s
  | .tickMeasure aboveLimit =>
    match s.tick with
    | .measuring sequence second =>
      if aboveLimit then
        { s with tick := if second then .idle else .capturing (s.durable.latestSequence sequence) true }
      else { s with checkpointMarker := some sequence, tick := .idle }
    | _ => s
  | _ => s

def callOf : Action → Option Nat
  | .subscribed n _ | .snapshot n _ | .append n _ | .gateway n _ => some n
  | _ => none

def step (action : Action) : KernelState :=
  match action with
  | .start sessionId operation callerUserId nowMs => s.begin sessionId operation callerUserId nowMs
  | _ =>
    match callOf action with
    | some n =>
      match s.calls.get n with
      | some call => s.advance n call action
      | none => s
    | none => s.advanceTick action

def run (actions : List Action) : KernelState := actions.foldl step s

/-- The event that the action appends carries a snapshot no older than those of its session appended before. -/
def appendsInOrder (action : Action) : Bool :=
  match action with
  | .append n true =>
    match s.calls.get n with
    | some ⟨sessionId, _, _, .appending _ taken⟩ => decide (s.publishedAt sessionId ≤ taken)
    | _ => true
  | _ => true

end KernelState

end Chariox.SessionStore
