import Chariox.Lib.CrashProg
import Chariox.RelayTransport.Writer

/-!
# The writer loop and its peer

`run_writer` writes to a socket; its peer feeds every data frame it reads, in order, to one frame receiver and returns
the receipts.  A schedule is a list of events: a pass of the writer's loop, with all that it finds in its channels and
the fate of every write, or the peer reading the next message from the socket.  The receipts that the peer has produced
reach the writer in order, as many in each pass as the schedule says.

`enqueued` and `delivered` are histories that the code does not have: the messages that were queued, and those whose
last frame was written.
-/

namespace Chariox.RelayTransport

variable (codecs : Codecs)

/-! ### The peer -/

structure Peer where
  receiver : FrameReceiver
  handedOut : List Message
  receipts : List (Nat × Nat)
  error : Option String

def Peer.init : Peer := ⟨.default, [], [], none⟩

/-- How the relay reads a receipt that comes back. -/
def readReceipt (text : Text) : Option (Nat × Nat) := do
  let value ← codecs.fromStr text
  if value.kind = some "transport_ack".toList then
    match TransportFrame.ofValue value with
    | some (.transportAck transferId offset) => some (transferId, offset)
    | _ => none
  else none

/-- What the receiver returned for a frame: it keeps its state, hands out a message and sends a receipt. -/
def Peer.after (self : Peer) (receiver : FrameReceiver) : Except String (Option Message × Option Text) → Peer
  | .error error => { self with receiver, error := some error }
  | .ok (message, receipt) => { self with
    receiver
    handedOut := self.handedOut ++ message.toList
    receipts := self.receipts ++ (receipt.bind (readReceipt codecs)).toList }

/-- The peer reads a message from the socket.  After an error it reads no more. -/
def Peer.read (self : Peer) (message : Message) : Peer :=
  if self.error.isSome then self
  else
    match message with
    | .text text =>
      let (result, receiver) := self.receiver.receive codecs text
      self.after codecs receiver (result.map (fun (text, receipt) => (text.map Message.text, receipt)))
    | .binary bytes =>
      let (result, receiver) := self.receiver.receiveBinary codecs bytes
      self.after codecs receiver (result.map (fun (bytes, receipt) => (bytes.map Message.binary, receipt)))
    | .control _ => self

/-! ### The state of the writer, the socket and the peer -/

/-- Why `run_writer` returned. -/
inductive Stop
  | controlWrite
  | badReceipt
  | badOutgoingMessage
  | unchunkedOversize
  | writeFailed
  | messageTooLarge
  | transferIdExhausted
  | drained
  | receiptsClosed
  deriving DecidableEq, Repr

/-- A message whose last frame was written, with its number if it came from the queue. -/
structure Delivery where
  seq : Option Nat
  message : Message
  deriving DecidableEq, Repr

/-- What was written to the socket, what was queued and what was delivered. -/
structure History where
  wire : List Message
  enqueued : List Queued
  delivered : List Delivery

structure Link extends History where
  writer : Writer
  /-- How much of the wire the peer has read. -/
  read : Nat
  /-- How many of the peer's receipts the writer has taken. -/
  taken : Nat

def Link.init : Link := ⟨⟨[], [], []⟩, .init, 0, 0⟩

/-- The peer, after what it has read. -/
def Link.peer (self : Link) : Peer := (self.wire.take self.read).foldl (Peer.read codecs) .init

/-! ### The loop -/

/-- The parameters of `run_writer`; the capacity is that of the channel of outgoing messages. -/
structure Config where
  chunks : Bool
  binaryEvents : Bool
  capacity : Nat

/-- An outgoing message, with the scopes of the socket's subscriptions when it is taken from the channel. -/
structure Arrival where
  message : Message
  scopeOf : Text → Option Text

/-- What ends the wait at the bottom of the loop; `none` says that the channel is closed. -/
inductive Wake
  | control (message : Option Control)
  | receipt (closed : Bool)
  | outgoing (arrival : Option Arrival)

/-- What one pass of the loop finds. -/
structure Round where
  controls : List Control
  receipts : Nat
  arrivals : List Arrival
  disconnected : Bool
  wake : Wake
  script : List Fate

inductive Event
  | round (round : Round)
  | peerReads

/-- The message of a write reaches the peer, which it may even when the write fails. -/
def Fate.reaches : Fate → Bool
  | .ok => true
  | .fail done => decide (done ≠ 0)
  | .crash done => decide (done ≠ 0)

def Control.isClose : Control → Bool
  | .close _ => true
  | _ => false

/-- A message is on the wire, the last frame of a delivery if there is one. -/
def Link.put (self : Link) (message : Message) (delivery : Option Delivery) : Link :=
  { self with wire := self.wire ++ [message], delivered := self.delivered ++ delivery.toList }

def write (message : Message) (delivery : Option Delivery) (failed : Stop) : Prog Stop Link Unit :=
  Prog.step (fun fate link => if Fate.reaches fate then link.put message delivery else link) failed

def writeControl (control : Control) : Prog Stop Link Unit := do
  write (.control control) none .controlWrite
  if control.isClose then Prog.throw .controlWrite else pure ()

def drainControls : List Control → Prog Stop Link Unit
  | [] => pure ()
  | control :: controls => do
    writeControl control
    drainControls controls

/-- Ask the peer for an update and close; failed writes are ignored. -/
def upgrade : Prog Stop Link Unit := do
  let _ ← (write (.text upgradeText) (some ⟨none, .text upgradeText⟩) .writeFailed).attempt
  let _ ← (write (.control (.close (some (1008, "relay bounded transport requires an updated client".toList)))) none
    .writeFailed).attempt
  pure ()

/-- Take the next receipt, if it has come. -/
def takeReceipt : Prog Stop Link Unit := do
  let link ← Prog.get
  match (link.peer codecs).receipts[link.taken]? with
  | none => pure ()
  | some (id, offset) =>
    match link.writer.credit.receipt id offset link.writer.active with
    | none => Prog.throw .badReceipt
    | some (credit, active) => Prog.modify (fun link => { link with
      writer := { link.writer with credit, active }, taken := link.taken + 1 })

def drainReceipts : Nat → Prog Stop Link Unit
  | 0 => pure ()
  | n + 1 => do
    takeReceipt codecs
    drainReceipts n

/-- `active.retain(|t| !t.finished())`. -/
def Link.retain (self : Link) : Link :=
  { self with writer := { self.writer with active := self.writer.active.filter (fun t => !t.finished) } }

/-- `pending.push_back(Queued::new(..))`. -/
def Link.enqueue (self : Link) (message : Message) (scopeOf : Text → Option Text) : Link :=
  let (lane, key) := lane codecs message scopeOf
  let queued : Queued := ⟨message, lane, key, self.enqueued.length⟩
  { self with
    writer := { self.writer with pending := self.writer.pending ++ [queued] }
    enqueued := self.enqueued ++ [queued] }

variable (config : Config)

def takeOutgoing (arrival : Arrival) : Prog Stop Link Unit :=
  match receiverMessage codecs arrival.message config.binaryEvents with
  | none => Prog.throw .badOutgoingMessage
  | some message => Prog.modify (fun link => link.enqueue codecs message arrival.scopeOf)

/-- Take outgoing messages while the queue has room. -/
def fill (config : Config) (disconnected : Bool) : List Arrival → Prog Stop Link Unit
  | [] => Prog.modify (fun link => if disconnected && decide (link.writer.pending.length < config.capacity) then
      { link with writer := { link.writer with isOpen := false } } else link)
  | arrival :: arrivals => do
    let link ← Prog.get
    if link.writer.pending.length < config.capacity then do
      takeOutgoing codecs config arrival
      fill config disconnected arrivals
    else pure ()

def Link.removePending (self : Link) (index : Nat) : Link :=
  { self with writer := { self.writer with pending := self.writer.pending.eraseIdx index } }

/-- Write a control message from the queue. -/
def sendControl (index : Nat) (queued : Queued) : Prog Stop Link Unit := do
  Prog.modify (fun link => link.removePending index)
  write queued.message (some ⟨some queued.seq, queued.message⟩) .controlWrite
  match queued.message with
  | .control (.close _) => Prog.throw .controlWrite
  | _ => pure ()

/-- Without chunks: write the next message as it is.  Returns whether the loop goes on from the top. -/
def writeUnchunked : Prog Stop Link Bool := do
  let link ← Prog.get
  match link.writer.pending with
  | [] => pure false
  | queued :: _ => do
    Prog.modify (fun link => link.removePending 0)
    if chunkBytes < queued.message.len then do
      upgrade
      Prog.throw .unchunkedOversize
    else do
      write queued.message (some ⟨some queued.seq, queued.message⟩) .writeFailed
      pure true

/-- The transfer of a queued text or binary message. -/
def Queued.transfer (self : Queued) (text : Text) (binary : Option Bytes) : Transfer :=
  ⟨0, self.key, self.small, text, binary, 0, self.lane, 0, self.seq⟩

def Link.push (self : Link) (transfer : Transfer) : Link :=
  { self with writer := { self.writer with
    active := if transfer.small then transfer :: self.writer.active else self.writer.active ++ [transfer] } }

/-- Start a queued message as a transfer.  Returns whether the loop goes on from the top. -/
def startTransfer : Prog Stop Link Bool := do
  let link ← Prog.get
  if link.writer.active.length < maxTransfers then
    match (chooseStart link.writer.pending link.writer.active).bind (fun index =>
        link.writer.pending[index]?.map (fun queued => (index, queued))) with
    | none => pure false
    | some (index, queued) => do
      Prog.modify (fun link => link.removePending index)
      if maxMessageBytes < queued.message.len then do
        upgrade
        Prog.throw .messageTooLarge
      else
        match queued.message with
        | .text text => do
          Prog.modify (fun link => link.push (queued.transfer text none))
          pure false
        | .binary bytes => do
          Prog.modify (fun link => link.push (queued.transfer [] (some bytes)))
          pure false
        | .control control => do
          write (.control control) (some ⟨some queued.seq, .control control⟩) .writeFailed
          pure true
  else pure false

/-- The transfer after its chunk; a small binary message leaves it. -/
def Transfer.afterChunk (self : Transfer) (stop : Nat) : Transfer :=
  { self with
    offset := stop, waiting := self.waiting + 1,
    binary := if self.smallBinary.isSome then none else self.binary }

/-- The writer's books after a chunk, which is written next. -/
def Writer.afterChunk (self : Writer) (others : List Transfer) (transfer : Transfer) (starting : Bool)
    (stop bytes : Nat) : Writer :=
  { self with
    nextId := if starting then transfer.id else self.nextId
    credit := ⟨self.credit.pending ++ [⟨transfer.id, asU32 stop, bytes, transfer.small⟩], self.credit.bytes + bytes,
      if transfer.small then self.credit.small + bytes else self.credit.small⟩
    smallStreak := if transfer.small then self.smallStreak + 1 else 0
    active := others ++ [transfer.afterChunk stop] }

/-- The message that a transfer carries. -/
def Transfer.message (self : Transfer) : Message :=
  match self.binary with
  | some binary => .binary binary
  | none => .text self.text

/-- Send a chunk of an active transfer, if one fits.  Returns whether one was sent. -/
def sendChunk : Prog Stop Link Bool := do
  let link ← Prog.get
  match link.writer.turn codecs with
  | .idle active => do
    Prog.modify (fun link => { link with writer := { link.writer with active } })
    pure false
  | .exhausted => Prog.throw .transferIdExhausted
  | .chunk others transfer starting message stop bytes => do
    Prog.modify (fun link => { link with writer := link.writer.afterChunk others transfer starting stop bytes })
    match transfer.smallBinary with
    | some binary => do
      write (.binary binary) (some ⟨some transfer.seq, .binary binary⟩) .writeFailed
      write message none .writeFailed
      pure true
    | none => do
      write message (if (transfer.afterChunk stop).finished then some ⟨some transfer.seq, transfer.message⟩ else none)
        .writeFailed
      pure true

/-- The bottom of the loop: return, or wait for a channel. -/
def wait (wake : Wake) : Prog Stop Link Unit := do
  let link ← Prog.get
  let writer := link.writer
  if !writer.isOpen && writer.pending.isEmpty && writer.active.isEmpty && writer.credit.pending.isEmpty then
    Prog.throw .drained
  else if config.chunks && !writer.receiptsOpen && !writer.active.isEmpty then Prog.throw .receiptsClosed
  else
    match wake with
    | .control message =>
      if writer.controlsOpen then
        match message with
        | some control => writeControl control
        | none => Prog.modify (fun link => { link with writer := { link.writer with controlsOpen := false } })
      else pure ()
    | .receipt closed =>
      if writer.receiptsOpen then
        if closed then Prog.modify (fun link => { link with writer := { link.writer with receiptsOpen := false } })
        else takeReceipt codecs
      else pure ()
    | .outgoing arrival =>
      if writer.isOpen && decide (writer.pending.length < config.capacity) then
        match arrival with
        | some arrival => takeOutgoing codecs config arrival
        | none => Prog.modify (fun link => { link with writer := { link.writer with isOpen := false } })
      else pure ()

/-- A pass of the loop up to its wait.  Returns whether the loop goes on from the top without waiting. -/
def loopBody (round : Round) : Prog Stop Link Bool := do
  drainControls round.controls
  drainReceipts codecs round.receipts
  Prog.modify Link.retain
  fill codecs config round.disconnected round.arrivals
  let link ← Prog.get
  match (link.writer.pending.findIdx? (fun queued => control codecs queued.message)).bind (fun index =>
      link.writer.pending[index]?.map (fun queued => (index, queued))) with
  | some (index, queued) => do
    sendControl index queued
    pure true
  | none => do
    let again ← if config.chunks then startTransfer else writeUnchunked
    if again then pure true else sendChunk codecs

def loopPass (round : Round) : Prog Stop Link Unit := do
  let sent ← loopBody codecs config round
  if sent then pure () else wait codecs config round.wake

/-- A link, and how the loop ended if it did. -/
structure Session where
  link : Link
  ended : Option (Ending Stop Unit)

def Session.step (self : Session) : Event → Session
  | .peerReads => { self with link := { self.link with read := min (self.link.read + 1) self.link.wire.length } }
  | .round input =>
    if self.ended.isSome then self
    else
      match loopPass codecs config input input.script self.link with
      | (.value (), _, link) => ⟨link, none⟩
      | (ending, _, link) => ⟨link, some ending⟩

def run (events : List Event) : Session := events.foldl (Session.step codecs config) ⟨.init, none⟩

end Chariox.RelayTransport
