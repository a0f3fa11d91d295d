import Chariox.Lib.OrdMap
import Chariox.Lib.Fallible
import Chariox.Lib.Runs

/-!
# The peer on a worker's channel

An actor shares one channel with a worker.  It sends the host's calls and takes the worker's answers to them; it takes
the worker's requests, has the broker handle them and sends the answers.  A task of its own writes the frames.  It
shares with the actor the state of a call's frame, which either the writer starts or the actor retires, and the outcome
of a guarded answer, which the writer either publishes or withdraws.

The actor handles one input at a time and then dispatches calls and requests.  What it still has to do for the input is
its agenda; the steps of the host and of the writer come between any two of its tasks.  An expiry is split at every
call, since the writer can start the frame of one call while another is retired.  Each reading of a clock is an input.
Fields marked as history are read by no step.
-/

namespace Chariox.WorkerPeer

inductive PeerError
  | busy | invalid | protocol | io | broker | unresponsive
  deriving DecidableEq

/-- Times are in milliseconds. -/
structure PeerLimits where
  pendingCalls : Nat
  brokerHandlers : Nat
  queuedCalls : Nat
  queuedBrokerRequests : Nat
  queuedFrames : Nat
  frameTimeout : Nat
  maxDeadline : Nat
  deriving DecidableEq

namespace PeerLimits

def default : PeerLimits := ⟨64, 64, 16, 16, 4, 5000, 30000⟩

def validate (l : PeerLimits) : Bool :=
  decide (1 ≤ l.pendingCalls ∧ l.pendingCalls ≤ 64 ∧ 1 ≤ l.brokerHandlers ∧ l.brokerHandlers ≤ 64 ∧
    l.queuedCalls ≤ 16 ∧ l.queuedBrokerRequests ≤ 16 ∧ 1 ≤ l.queuedFrames ∧ l.queuedFrames ≤ 16 ∧
    0 < l.frameTimeout ∧ l.frameTimeout ≤ 30000 ∧ 1 ≤ l.maxDeadline ∧ l.maxDeadline ≤ 30000)

/-- The bound on the frames that wait for the writer. -/
def queueBound (l : PeerLimits) : Nat := l.pendingCalls + 2 * l.brokerHandlers + l.queuedFrames

end PeerLimits

structure RemoteError where
  code : String
  message : String
  retryable : Option Bool
  deriving DecidableEq

inductive Outcome
  | success (result : String)
  | failure (error : RemoteError)
  deriving DecidableEq

/-- A frame for the worker: a call, the cancellation of a call, or the answer to a request.  The serial of the request
stands for the cells that an answer under publication shares with the actor; such an answer carries its
deadline. -/
inductive Outgoing
  | call (id : String)
  | cancelCall (id : String)
  | response (serial : Nat) (id : String) (outcome : Outcome) (publication : Option Nat)
  deriving DecidableEq

/-- The serial of the request that the frame answers. -/
def Outgoing.answers : Outgoing → Option Nat
  | .response serial _ _ _ => some serial
  | _ => none

inductive FrameState
  | queued | sent | retired
  deriving DecidableEq

/-- A call of the host; `closed` says that the caller has dropped the response. -/
structure HostCall where
  id : String
  deadline : Nat
  closed : Bool
  deriving DecidableEq

/-- The caller of the call `id` drops the response. -/
def HostCall.drop (id : String) (call : HostCall) : HostCall :=
  if call.id = id then { call with closed := true } else call

/-- A request of the worker that waits for a handler. -/
structure BrokerWaiting where
  serial : Nat
  id : String
  deadline : Nat
  deriving DecidableEq

structure Active where
  serial : Nat
  deadline : Nat
  replied : Bool
  deriving DecidableEq

/-- An answer whose publication the actor awaits. -/
structure Publishing where
  serial : Nat
  deadline : Nat
  failure : Option RemoteError
  deriving DecidableEq

structure Ack where
  serial : Nat
  id : String
  published : Bool
  deriving DecidableEq

inductive WriterState
  | idle
  | checking (item : Outgoing)
  | writing (item : Outgoing)
  | acking (ack : Ack)
  | stopped
  deriving DecidableEq

/-- What the actor still has to do for the input it took. -/
inductive ActorTask
  | expireCall (id : String) (now : Nat)
  | expireHandlers (now : Nat)
  | dispatch
  deriving DecidableEq

structure PeerConfig where
  limits : PeerLimits
  /-- `validation::message`. -/
  valid : Outgoing → Bool

structure Peer where
  config : PeerConfig
  /-- The reserved identities that are not submitted yet, with their deadlines. -/
  slots : OrdMap String Nat
  sequence : Nat
  commands : List HostCall
  queued : List Outgoing
  pending : OrdMap String HostCall
  waiting : List HostCall
  /-- Until when the worker has to answer each call it was told to cancel. -/
  cancelled : OrdMap String Nat
  brokerWaiting : List BrokerWaiting
  active : OrdMap String Active
  publishing : OrdMap String Publishing
  /-- The requests whose handlers run. -/
  handlers : List String
  agenda : List ActorTask
  /-- The result, once the actor has left its loop. -/
  closed : Option (Option PeerError)
  frames : OrdMap String FrameState
  /-- The requests whose cancellation was signalled. -/
  cancels : OrdMap Nat Unit
  /-- Whether the answer was written, for each publication that is over. -/
  finished : OrdMap Nat Bool
  outgoing : List Outgoing
  writer : WriterState
  acks : List Ack
  /-- The ids of all requests of the worker so far; the place of a request is its serial (history). -/
  requests : List String
  /-- The requests whose answers were queued, withdrawn and written, one entry for each frame (history). -/
  responses : List Nat
  withdrawn : List Nat
  written : List Nat
  /-- A frame was refused because too many wait (history). -/
  sendRefused : Bool

/-- The peer behind a call, and the error that ends it. -/
abbrev PeerResult := Peer × Option PeerError

def unresponsiveGrace : Nat := 5000

namespace Peer

/-- The state in which `run` enters its loop. -/
def new (config : PeerConfig) : Peer where
  config := config
  slots := .empty
  sequence := 0
  commands := []
  queued := []
  pending := .empty
  waiting := []
  cancelled := .empty
  brokerWaiting := []
  active := .empty
  publishing := .empty
  handlers := []
  agenda := []
  closed := none
  frames := .empty
  cancels := .empty
  finished := .empty
  outgoing := []
  writer := .idle
  acks := []
  requests := []
  responses := []
  withdrawn := []
  written := []
  sendRefused := false

abbrev limits (s : Peer) : PeerLimits := s.config.limits

/-! ### Sending -/

variable (s : Peer)

def send (frame : Outgoing) : PeerResult :=
  if !s.config.valid frame then (s, some .invalid)
  else if s.limits.queueBound ≤ s.queued.length then ({ s with sendRefused := true }, some .busy)
  else
    ({ s with
        queued := s.queued ++ [frame]
        responses := s.responses ++ frame.answers.toList }, none)

def response (s : Peer) (serial : Nat) (id : String) (outcome : Outcome) : PeerResult :=
  s.send (.response serial id outcome none)

def failureOutcome (code message : String) : Outcome := .failure ⟨code, message, some (code == "BUSY")⟩

def failure (serial : Nat) (id code message : String) : PeerResult :=
  s.response serial id (failureOutcome code message)

def signalCancel (serial : Nat) : Peer := { s with cancels := s.cancels.insert serial () }

/-- Retire the frame of a call; also says whether the worker already had it. -/
def retire (id : String) : Peer × Bool :=
  ({ s with frames := s.frames.insert id .retired }, s.frames.get id == some .sent)

/-! ### Requests of the worker -/

/-- Forget the publications that were seen to be over and written. -/
def forgetPublished (seen : List String) : Peer :=
  { s with publishing := s.publishing.retain (fun id pending =>
      !(seen.contains id && s.finished.get pending.serial == some true)) }

/-- The id is waiting, active or publishing. -/
def inProgress (id : String) : Bool :=
  s.active.contains id || s.publishing.contains id || s.brokerWaiting.any (fun entry => entry.id == id)

def brokerRequest (id : String) (deadlineMs now : Nat) (wall : Option Nat) (seen : List String) : PeerResult :=
  let s := s.forgetPublished seen
  if s.inProgress id then (s, some .protocol)
  else
    match wall with
    | none => (s, some .invalid)
    | some wallMs =>
      let serial := s.requests.length
      let s := { s with requests := s.requests ++ [id] }
      let remaining := deadlineMs - wallMs
      if remaining = 0 then s.failure serial id "DEADLINE_EXCEEDED" "App broker deadline exceeded"
      else if s.limits.brokerHandlers ≤ s.active.len + s.publishing.len &&
          s.limits.queuedBrokerRequests ≤ s.brokerWaiting.length then
        s.failure serial id "BUSY" "Kernel App broker queue is full"
      else
        ({ s with brokerWaiting := s.brokerWaiting ++ [⟨serial, id, now + min remaining s.limits.maxDeadline⟩] },
          none)

/-- Take the request out of the queue. -/
def unqueue (entry : BrokerWaiting) : Peer :=
  { s with brokerWaiting := s.brokerWaiting.erase entry }

def dispatchBroker (entry : BrokerWaiting) (now : Nat) : PeerResult :=
  let s := s.unqueue entry
  if entry.deadline ≤ now then
    (s.signalCancel entry.serial).failure entry.serial entry.id "DEADLINE_EXCEEDED"
      "App broker queue deadline exceeded"
  else
    ({ s with
        active := s.active.insert entry.id ⟨entry.serial, entry.deadline, false⟩
        handlers := s.handlers ++ [entry.id] }, none)

/-- The loop of `dispatch_brokers`, which takes one request off the queue in each round. -/
def dispatchBrokers (clock : String → Nat) : Nat → Peer → PeerResult
  | 0, s => (s, none)
  | rounds + 1, s =>
    match s.brokerWaiting with
    | [] => (s, none)
    | entry :: _ =>
      if s.active.len + s.publishing.len < s.limits.brokerHandlers then
        andThen (s.dispatchBroker entry (clock entry.id)) (dispatchBrokers clock rounds)
      else (s, none)

/-- End a request that waits; also says whether there was one. -/
def cancelWaitingBroker (id code : String) : PeerResult × Bool :=
  match s.brokerWaiting.find? (fun entry => entry.id == id) with
  | none => ((s, none), false)
  | some entry =>
    (((s.unqueue entry).signalCancel entry.serial).failure entry.serial id code
      "App broker call stopped before dispatch", true)

/-- The writer chooses the outcome of an answer under publication. -/
def cancelPublishing (id code message : String) (pending : Publishing) : Peer :=
  if pending.failure.isSome || s.finished.contains pending.serial then s
  else
    { s with publishing := s.publishing.insert id { pending with failure := some ⟨code, message, some false⟩ }
    }.signalCancel pending.serial

def cancelActive (id code message : String) (running : Active) : PeerResult :=
  let s := s.signalCancel running.serial
  if running.replied then (s, none)
  else
    { s with active := s.active.insert id { running with replied := true } }.failure running.serial id code message

def cancelHandler (id code message : String) : PeerResult :=
  let stopped := s.cancelWaitingBroker id code
  if stopped.2 then stopped.1
  else
    match s.publishing.get id with
    | some pending => (s.cancelPublishing id code message pending, none)
    | none =>
      match s.active.get id with
      | none => (s, none)
      | some running => s.cancelActive id code message running

/-- A handler returned; `guarded` says whether the broker guards the publication of its answer. -/
def complete (id : String) (outcome : Outcome) (guarded : Bool) (now : Nat) : PeerResult :=
  match s.active.get id with
  | none => (s, some .protocol)
  | some running =>
    let s := { s with active := s.active.remove id }
    if running.replied then (s, none)
    else if running.deadline ≤ now then
      s.failure running.serial id "DEADLINE_EXCEEDED" "App broker deadline exceeded"
    else if guarded then
      andThen (s.send (.response running.serial id outcome (some running.deadline))) (fun s =>
        ({ s with publishing := s.publishing.insert id ⟨running.serial, running.deadline, none⟩ }, none))
    else s.response running.serial id outcome

def unpublishedError : RemoteError :=
  ⟨"DEADLINE_EXCEEDED", "App broker reply was not published within its budget", some false⟩

def published (s : Peer) (ack : Ack) : PeerResult :=
  match s.publishing.get ack.id with
  | none => (s, none)
  | some pending =>
    if pending.serial ≠ ack.serial then (s, none)
    else
      let s := { s with publishing := s.publishing.remove ack.id }
      if ack.published then (s, none)
      else s.response ack.serial ack.id (.failure (pending.failure.getD unpublishedError))

/-! ### Calls of the host -/

def startCall (call : HostCall) (now : Nat) : PeerResult :=
  if call.closed then (s, none)
  else if call.deadline ≤ now then (s, none)
  else if s.pending.contains call.id || decide (s.limits.pendingCalls ≤ s.pending.len) then (s, some .protocol)
  else
    andThen ({ s with frames := s.frames.insert call.id .queued }.send (.call call.id)) (fun s =>
      ({ s with pending := s.pending.insert call.id call }, none))

/-- The loop of `dispatch_calls`, which takes one call off the queue in each round. -/
def startCalls (clock : String → Nat) : Nat → Peer → PeerResult
  | 0, s => (s, none)
  | rounds + 1, s =>
    match s.waiting with
    | [] => (s, none)
    | call :: rest =>
      if s.pending.len + s.cancelled.len < s.limits.pendingCalls then
        andThen ({ s with waiting := rest }.startCall call (clock call.id)) (startCalls clock rounds)
      else (s, none)

def dispatchCalls (now : Nat) (clock : String → Nat) : PeerResult :=
  let live := s.waiting.filter (fun call => !call.closed && decide (now < call.deadline))
  startCalls clock live.length { s with waiting := live }

/-- One call of `expire`, which collected it from the pending ones. -/
def expireCall (id : String) (now : Nat) : PeerResult :=
  match s.pending.get id with
  | none => (s, none)
  | some _ =>
    let retired := { s with pending := s.pending.remove id }.retire id
    if retired.2 then
      { retired.1 with cancelled := retired.1.cancelled.insert id (now + unresponsiveGrace) }.send (.cancelCall id)
    else (retired.1, none)

/-! ### Inputs of the actor -/

/-- A message of the worker; an event also says whether the host's queue for events takes it. -/
inductive WorkerMessage
  | response (id : String)
  | request (id : String) (deadlineMs : Nat)
  | cancel (id : String)
  | event (name : String) (taken : Bool)
  | malformed
  deriving DecidableEq

def receive (message : WorkerMessage) (now : Nat) (wall : Option Nat) (seen : List String) : PeerResult :=
  match message with
  | .malformed => (s, some .protocol)
  | .response id =>
    if s.pending.contains id then (({ s with pending := s.pending.remove id }.retire id).1, none)
    else ({ s with cancelled := s.cancelled.remove id }, none)
  | .request id deadlineMs => s.brokerRequest id deadlineMs now wall seen
  | .cancel id => s.cancelHandler id "CANCELLED" "App broker call cancelled"
  | .event name taken =>
    if !"worker.".isPrefixOf name then (s, some .protocol)
    else if taken then (s, none) else (s, some .busy)

/-- The first part of `expire`; the calls follow one by one. -/
def tick (now : Nat) : PeerResult :=
  let expired := (s.brokerWaiting.filter (fun entry => decide (entry.deadline ≤ now))).map BrokerWaiting.id
  andThen (forEach (fun id s => (s.cancelWaitingBroker id "DEADLINE_EXCEEDED").1) expired s) (fun s =>
    let calls := (s.pending.values.filter (fun call => call.closed || decide (call.deadline ≤ now))).map HostCall.id
    ({ s with agenda := calls.map (fun id => .expireCall id now) ++ [.expireHandlers now] }, none))

/-- The last part of `expire`. -/
def expireHandlers (now : Nat) : PeerResult :=
  let running := (s.active.entries.filter (fun e => !e.2.replied && decide (e.2.deadline ≤ now))).map Prod.fst
  andThen (forEach (fun id s => s.cancelHandler id "DEADLINE_EXCEEDED" "App broker deadline exceeded") running s)
    (fun s =>
      let publishing := (s.publishing.entries.filter (fun e =>
        e.2.failure.isNone && !s.finished.contains e.2.serial && decide (e.2.deadline ≤ now))).map Prod.fst
      andThen (forEach (fun id s => s.cancelHandler id "DEADLINE_EXCEEDED" "App broker reply deadline exceeded")
        publishing s) (fun s =>
          if s.cancelled.values.any (fun deadline => decide (deadline ≤ now)) then (s, some .unresponsive)
          else (s, none)))

/-! ### Closing -/

/-- What follows the loop: the calls and the queues are dropped, and what runs is told to stop. -/
def shutdown (result : Option PeerError) : Peer :=
  { s with
    closed := some result
    agenda := []
    commands := []
    frames := s.pending.keys.foldl (fun frames id => frames.insert id .retired) s.frames
    pending := .empty
    waiting := []
    brokerWaiting := []
    queued := []
    cancels := (s.active.values.map Active.serial ++ s.publishing.values.map Publishing.serial).foldl
      (fun cancels serial => cancels.insert serial ()) s.cancels }

/-- A failure ends the actor. -/
def settle (r : PeerResult) : Peer :=
  match r.2 with
  | none => r.1
  | some error => r.1.shutdown (some error)

/-- An input of the actor is handled, then calls and requests are dispatched. -/
def input (f : Peer → PeerResult) : Peer :=
  if s.closed.isSome || !s.agenda.isEmpty then s
  else settle (andThen (f s) (fun s => ({ s with agenda := s.agenda ++ [.dispatch] }, none)))

def performTask (task : ActorTask) (now : Nat) (clock : String → Nat) : PeerResult :=
  match task with
  | .expireCall id time => s.expireCall id time
  | .expireHandlers time => s.expireHandlers time
  | .dispatch => andThen (s.dispatchCalls now clock) (fun s => dispatchBrokers clock s.brokerWaiting.length s)

/-- The next task of the agenda. -/
def perform (now : Nat) (clock : String → Nat) : Peer :=
  match s.agenda with
  | [] => s
  | task :: rest => settle ({ s with agenda := rest }.performTask task now clock)

/-! ### The host -/

def hostId (sequence : Nat) : String := "host-" ++ toString sequence

/-- The admission permits in use. -/
def permits : Nat :=
  s.slots.len + s.commands.length + s.waiting.length + s.pending.len + s.cancelled.len

def reserve (timeout now : Nat) : Peer :=
  if s.closed.isSome || decide (timeout < 1) || decide (s.limits.maxDeadline < timeout) ||
      decide (s.limits.pendingCalls + s.limits.queuedCalls ≤ s.permits) then s
  else
    { s with
      sequence := s.sequence + 1
      slots := s.slots.insert (hostId (s.sequence + 1)) (now + timeout) }

/-- Submit a reserved call; a refused one gives its slot back. -/
def submit (id : String) (now : Nat) : Peer :=
  match s.slots.get id with
  | none => s
  | some deadline =>
    let s := { s with slots := s.slots.remove id }
    if s.closed.isSome || decide (deadline ≤ now) ||
        decide (s.limits.pendingCalls + s.limits.queuedCalls ≤ s.commands.length) then s
    else { s with commands := s.commands ++ [⟨id, deadline, false⟩] }

def dropSlot (id : String) : Peer := { s with slots := s.slots.remove id }

def dropReply (id : String) : Peer :=
  { s with
    commands := s.commands.map (HostCall.drop id)
    waiting := s.waiting.map (HostCall.drop id)
    pending := s.pending.mapValues (fun _ => HostCall.drop id) }

def takeCommand : PeerResult :=
  match s.commands with
  | [] => (s, none)
  | call :: rest => ({ s with commands := rest, waiting := s.waiting ++ [call] }, none)

/-! ### The writer -/

/-- Pass a frame on to the writer, as long as its channel takes one. -/
def flush : PeerResult :=
  match s.queued with
  | [] => (s, none)
  | frame :: rest =>
    if s.outgoing.length < s.limits.queuedFrames then
      ({ s with queued := rest, outgoing := s.outgoing ++ [frame] }, none)
    else (s, none)

def takeAck : PeerResult :=
  match s.acks with
  | [] => (s, none)
  | ack :: rest => { s with acks := rest }.published ack

def finishHandler (id : String) (outcome : Outcome) (guarded : Bool) (now : Nat) : PeerResult :=
  if s.handlers.contains id then { s with handlers := s.handlers.erase id }.complete id outcome guarded now
  else (s, none)

/-- The publication was stopped before its frame was begun. -/
def stopped (serial deadline now : Nat) : Bool :=
  s.cancels.contains serial || !s.publishing.values.any (fun pending => pending.serial == serial) ||
    decide (deadline ≤ now)

def writerTake : Peer :=
  match s.writer, s.outgoing with
  | .idle, item :: rest => { s with outgoing := rest, writer := .checking item }
  | _, _ => s

def writerCheck (now : Nat) : Peer :=
  match s.writer with
  | .checking (.call id) =>
    if s.frames.get id = some .queued then
      { s with frames := s.frames.insert id .sent, writer := .writing (.call id) }
    else { s with writer := .idle }
  | .checking (.response serial id outcome (some deadline)) =>
    if s.stopped serial deadline now then
      { s with
        finished := s.finished.insert serial false
        withdrawn := s.withdrawn ++ [serial]
        writer := .acking ⟨serial, id, false⟩ }
    else { s with writer := .writing (.response serial id outcome (some deadline)) }
  | .checking item => { s with writer := .writing item }
  | _ => s

def writerDone : Peer :=
  match s.writer with
  | .writing (.response serial id _ (some _)) =>
    { s with
      finished := s.finished.insert serial true
      written := s.written ++ [serial]
      writer := .acking ⟨serial, id, true⟩ }
  | .writing item => { s with written := s.written ++ item.answers.toList, writer := .idle }
  | _ => s

/-- A frame cannot be written, or its publication is stopped on the way: the channel is given up. -/
def writerFail : Peer :=
  match s.writer with
  | .writing _ => { s with writer := .stopped }
  | _ => s

def writerAck : Peer :=
  match s.writer with
  | .acking ack =>
    if s.acks.length < s.limits.brokerHandlers then { s with acks := s.acks ++ [ack], writer := .idle } else s
  | _ => s

end Peer

/-! ### Runs -/

inductive PeerAction
  | reserve (timeout now : Nat)
  | submit (id : String) (now : Nat)
  | dropSlot (id : String)
  | dropReply (id : String)
  | takeCommand
  | receive (message : Peer.WorkerMessage) (now : Nat) (wall : Option Nat) (seen : List String)
  | incomingFails
  | finishHandler (id : String) (outcome : Outcome) (guarded : Bool) (now : Nat)
  | handlerPanics
  | flush
  | takeAck
  | tick (now : Nat)
  | perform (now : Nat) (clock : String → Nat)
  | close
  | writerTake
  | writerCheck (now : Nat)
  | writerDone
  | writerFail
  | writerAck

namespace Peer

def step (s : Peer) : PeerAction → Peer
  | .reserve timeout now => s.reserve timeout now
  | .submit id now => s.submit id now
  | .dropSlot id => s.dropSlot id
  | .dropReply id => s.dropReply id
  | .takeCommand => s.input takeCommand
  | .receive message now wall seen => s.input (fun s => s.receive message now wall seen)
  | .incomingFails => s.input (fun s => (s, some .io))
  | .finishHandler id outcome guarded now => s.input (fun s => s.finishHandler id outcome guarded now)
  | .handlerPanics => s.input (fun s => (s, some .broker))
  | .flush => s.input flush
  | .takeAck => s.input takeAck
  | .tick now => s.input (fun s => s.tick now)
  | .perform now clock => s.perform now clock
  | .close => if s.closed.isSome || !s.agenda.isEmpty then s else s.shutdown none
  | .writerTake => s.writerTake
  | .writerCheck now => s.writerCheck now
  | .writerDone => s.writerDone
  | .writerFail => s.writerFail
  | .writerAck => s.writerAck

def run (config : PeerConfig) (actions : List PeerAction) : Peer := actions.foldl step (new config)

end Peer

end Chariox.WorkerPeer
