import Chariox.RelayTransport.Receiver

/-!
# The writer's queues and transfers

The pure part of `server/connection/writer.rs`: how a transfer cuts its next chunk, how receipts give back credit, which
queued message may start and which transfer sends next.

Queued messages and transfers carry the number of the message in the order of queueing (`seq`), which the code does not
have; it only names messages in the results.
-/

namespace Chariox.RelayTransport

open Chariox.Alignment

structure Queued where
  message : Message
  lane : Lane
  key : Option Text
  seq : Nat
  deriving DecidableEq, Repr

def Queued.small (queued : Queued) : Bool := decide (queued.message.len ≤ chunkBytes)

structure Transfer where
  id : Nat
  key : Option Text
  small : Bool
  text : Text
  binary : Option Bytes
  offset : Nat
  lane : Lane
  waiting : Nat
  seq : Nat
  deriving DecidableEq, Repr

/-! ### Chunks -/

def Text.isCharBoundary (text : Text) (n : Nat) : Bool := (splitAtSize Char.utf8Size text n).isSome

/-- `while !text.is_char_boundary(end) { end -= 1 }`. -/
def Text.floorCharBoundary (text : Text) : Nat → Nat
  | 0 => 0
  | n + 1 => if isCharBoundary text (n + 1) then n + 1 else floorCharBoundary text n

/-- `text[start..stop]`; `none` where the code would panic. -/
def Text.slice (text : Text) (start stop : Nat) : Option Text := do
  let (head, _) ← splitAtSize Char.utf8Size text stop
  let (_, part) ← splitAtSize Char.utf8Size head start
  return part

/-- A text of `chunkBytes` bytes is halved to nothing in fewer steps. -/
def halvings : Nat := 16

namespace Transfer

variable (codecs : Codecs)

/-- The loop of `next_chunk` on a text: halve the payload until its frame fits. -/
def textChunk (self : Transfer) : Nat → Nat → Option (Message × Nat)
  | 0, _ => none
  | fuel + 1, stop => do
    let stop := Text.floorCharBoundary self.text stop
    let payload ← Text.slice self.text self.offset stop
    let text := codecs.frameText
      (.transportChunk self.id (asU32 self.offset) (asU32 (Text.len self.text)) payload)
    if Text.len text ≤ chunkBytes then return (.text text, stop)
    else self.textChunk fuel (self.offset + (stop - self.offset) / 2)

def nextChunk (self : Transfer) : Option (Message × Nat) :=
  match self.binary with
  | some binary =>
    if chunkBytes < binary.length then
      if self.offset = binary.length then none
      else
        let stop := min (self.offset + binaryChunkPayloadBytes) binary.length
        some (.binary (binaryChunk self.id self.offset binary.length ((binary.take stop).drop self.offset)), stop)
    else some (.text (codecs.frameText (.transportChunk self.id 0 0 [])), 0)
  | none =>
    if self.offset = Text.len self.text then none
    else self.textChunk codecs halvings (min (self.offset + chunkBytes) (Text.len self.text))

def finished (self : Transfer) : Bool :=
  match self.binary with
  | some binary => decide (chunkBytes < binary.length) && decide (self.offset = binary.length)
  | none => decide (self.offset = Text.len self.text)

/-- The bytes that the transfer may take at the receiver. -/
def total (self : Transfer) : Nat := (self.binary.map List.length).getD (Text.len self.text)

/-- A binary message that is written in one piece, with a checkpoint after it. -/
def smallBinary (self : Transfer) : Option Bytes := self.binary.filter (fun binary => decide (binary.length ≤ chunkBytes))

end Transfer

/-! ### Credit -/

/-- A chunk that was written and not yet acknowledged. -/
structure Unacked where
  id : Nat
  offset : Nat
  bytes : Nat
  small : Bool
  deriving DecidableEq, Repr

structure WireCredit where
  pending : List Unacked
  bytes : Nat
  small : Nat
  deriving DecidableEq, Repr

/-- Count a receipt for a transfer that is still active; `none` when it waits for none. -/
def releaseWaiting (id : Nat) : List Transfer → Option (List Transfer)
  | [] => some []
  | transfer :: rest =>
    if transfer.id = id then
      if transfer.waiting = 0 then none else some ({ transfer with waiting := transfer.waiting - 1 } :: rest)
    else (releaseWaiting id rest).map (transfer :: ·)

/-- Take a receipt; `none` when it is not the one for the oldest chunk. -/
def WireCredit.receipt (self : WireCredit) (id offset : Nat) (active : List Transfer) :
    Option (WireCredit × List Transfer) :=
  match self.pending with
  | [] => none
  | expected :: rest =>
    if (id, offset) ≠ (expected.id, expected.offset) then none
    else do
      let active ← releaseWaiting id active
      return (⟨rest, self.bytes - expected.bytes, if expected.small then self.small - expected.bytes else self.small⟩,
        active)

/-! ### Choosing what to send -/

def eligible (pending : List Queued) (index : Nat) (active : List Transfer) : Bool :=
  match pending[index]? with
  | none => false
  | some current =>
    if current.lane = .reply then decide ((active.filter (fun t => t.lane = .reply)).length < 2)
    else if current.lane = .ordered then decide (index = 0) && active.isEmpty
    else
      !active.any (fun t => decide (t.lane = current.lane ∧ t.key = current.key) || decide (t.lane = .ordered)) &&
        !(pending.take index).any (fun m =>
          decide (m.lane = .ordered) || decide (m.lane = current.lane ∧ m.key = current.key))

/-- Bulk transfers leave a slot for each of the lanes of requests and replies that has none. -/
def leavesControlSlots (lane : Lane) (active : List Transfer) : Bool :=
  let idle := ([Lane.reply, Lane.request].filter (fun l => decide (l ≠ lane) && !active.any (fun t => t.lane = l))).length
  decide (idle < maxTransfers - active.length)

/-- What the transfers may already take at the receiver. -/
def reservedBytes (active : List Transfer) : Nat := (active.map Transfer.total).sum

def startable (pending : List Queued) (active : List Transfer) (index : Nat) : Bool :=
  eligible pending index active && pending[index]?.any (fun queued =>
    (queued.small || leavesControlSlots queued.lane active) &&
      decide (queued.message.len ≤ maxAssemblyBytes - reservedBytes active))

/-- The message to start: a small one up to the first ordered one, or else the first that may start. -/
def chooseStart (pending : List Queued) (active : List Transfer) : Option Nat :=
  let barrier := (pending.findIdx? (fun m => m.lane = .ordered)).elim pending.length (· + 1)
  ((List.range barrier).find? (fun i => pending[i]?.any Queued.small && startable pending active i)).or
    ((List.range pending.length).find? (fun i => startable pending active i))

/-- Consecutive small chunks allowed while a bulk transfer waits. -/
def smallStreakLimit : Nat := 4

/-- The variables of `run_writer`. -/
structure Writer where
  pending : List Queued
  active : List Transfer
  credit : WireCredit
  nextId : Nat
  smallStreak : Nat
  isOpen : Bool
  receiptsOpen : Bool
  controlsOpen : Bool
  deriving DecidableEq, Repr

def Writer.init : Writer := ⟨[], [], ⟨[], 0, 0⟩, 0, 0, true, true, true⟩

/-- The window has room for a chunk of a transfer beside the other active ones. -/
def WireCredit.fits (credit : WireCredit) (others : List Transfer) (transfer : Transfer) (bytes : Nat) : Bool :=
  decide (credit.pending.length < peerReceiptFrames) &&
    if transfer.small then
      decide (credit.bytes + bytes ≤ windowBytes + smallReserveBytes) &&
        (others.all Transfer.small || decide (credit.small + bytes ≤ smallReserveBytes))
    else decide (credit.bytes + bytes ≤ windowBytes)

/-- What a pass over the active transfers comes to: no chunk can be sent, the ids are used up, or a transfer sends a
chunk, with the other transfers as the pass left them. -/
inductive Turn
  | idle (active : List Transfer)
  | exhausted
  | chunk (others : List Transfer) (transfer : Transfer) (starting : Bool) (message : Message) (stop bytes : Nat)
  deriving DecidableEq, Repr

/-- One pass: transfers that cannot send go to the back. -/
def Writer.pass (codecs : Codecs) (self : Writer) (skipSmall : Bool) : Nat → List Transfer → Turn
  | 0, active => .idle active
  | _ + 1, [] => .idle []
  | n + 1, transfer :: others =>
    if skipSmall && transfer.small then self.pass codecs skipSmall n (others ++ [transfer])
    else
      let starting := decide (transfer.id = 0)
      if starting && decide (2 ^ 32 ≤ self.nextId + 1) then .exhausted
      else
        let named := if starting then { transfer with id := self.nextId + 1 } else transfer
        match named.nextChunk codecs with
        | some (message, stop) =>
          let bytes := message.len + (named.smallBinary.map List.length).getD 0
          if self.credit.fits others named bytes then .chunk others named starting message stop bytes
          else self.pass codecs skipSmall n (others ++ [transfer])
        | none => self.pass codecs skipSmall n (others ++ [transfer])

/-- The two passes: after a streak of small chunks, the first one leaves the turn to the bulk transfers. -/
def Writer.turn (codecs : Codecs) (self : Writer) : Turn :=
  let bulkTurn := decide (smallStreakLimit ≤ self.smallStreak) && self.active.any (fun t => !t.small)
  match self.pass codecs bulkTurn self.active.length self.active with
  | .idle active => if bulkTurn then self.pass codecs false active.length active else .idle active
  | turn => turn

end Chariox.RelayTransport
