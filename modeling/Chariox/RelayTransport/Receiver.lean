import Chariox.RelayTransport.Envelopes

/-!
# The frame receiver

The model of `FrameReceiver`.  The receiver assembles the chunks of up to four transfers at a time, hands out each
complete message and answers every chunk with a receipt.  Transfers begin with increasing ids, their chunks are
contiguous, and the declared totals of the transfers under way stay within a budget.

An operation returns its result together with the receiver after it, also when the result is an error.
-/

namespace Chariox.RelayTransport

structure FrameReceiver where
  active : OrdMap Nat (Nat × Text)
  binaryActive : OrdMap Nat (Nat × Bytes)
  lastId : Nat
  reserved : Nat

namespace FrameReceiver

variable (codecs : Codecs)

def default : FrameReceiver := ⟨.empty, .empty, 0, 0⟩

variable (self : FrameReceiver)

def slots : Nat := self.active.len + self.binaryActive.len

/-- The checks on the first chunk of a transfer. -/
def refusesStart (transferId offset total : Nat) : Bool :=
  decide (offset ≠ 0) || decide (transferId ≤ self.lastId) || decide (maxTransfers ≤ self.slots) ||
    decide (maxAssemblyBytes - self.reserved < total)

/-- The part of `receive_binary` after the checks of the header. -/
def assembleBinary (transferId offset total : Nat) (payload : Bytes) :
    Except String (Option Bytes × Option Text) × FrameReceiver :=
  match self.binaryActive.get transferId with
  | none => (.error "unreachable", self)
  | some (expectedTotal, assembled) =>
    if expectedTotal ≠ total ∨ assembled.length ≠ offset then (.error "non-contiguous transport chunk", self)
    else
      let assembled := assembled ++ payload
      let ack := codecs.frameText (.transportAck transferId (asU32 assembled.length))
      if assembled.length = total then
        let self := { self with
          binaryActive := self.binaryActive.remove transferId, reserved := self.reserved - total }
        if binaryChunkMagic.isPrefixOf assembled then (.error "nested transport frame", self)
        else (.ok (some assembled, some ack), self)
      else (.ok (none, some ack), { self with
        binaryActive := self.binaryActive.insert transferId (expectedTotal, assembled) })

def receiveBinary (bytes : Bytes) : Except String (Option Bytes × Option Text) × FrameReceiver :=
  if ¬ binaryChunkMagic.isPrefixOf bytes then (.ok (some bytes, none), self)
  else if bytes.length ≤ binaryChunkHeaderBytes ∨ chunkBytes < bytes.length then
    (.error "invalid binary transport chunk bounds", self)
  else
    let transferId := fromBeBytes ((bytes.drop 4).take 4)
    let offset := fromBeBytes ((bytes.drop 8).take 4)
    let total := fromBeBytes ((bytes.drop 12).take 4)
    let payload := bytes.drop binaryChunkHeaderBytes
    if transferId = 0 ∨ total = 0 ∨ maxMessageBytes < total ∨ total < offset ∨
        payload.length ≠ min binaryChunkPayloadBytes (total - offset) then
      (.error "invalid binary transport chunk bounds", self)
    else if self.active.contains transferId then (.error "transport payload type changed", self)
    else if self.binaryActive.contains transferId then self.assembleBinary codecs transferId offset total payload
    else if self.refusesStart transferId offset total then (.error "invalid transport transfer start", self)
    else
      { self with
        lastId := transferId, reserved := self.reserved + total,
        binaryActive := self.binaryActive.insert transferId (total, []) }.assembleBinary codecs transferId offset total
        payload

/-- The part of `receive` after the checks of a chunk. -/
def assemble (transferId offset total : Nat) (payload : Text) :
    Except String (Option Text × Option Text) × FrameReceiver :=
  match self.active.get transferId with
  | none => (.error "unreachable", self)
  | some (expectedTotal, assembled) =>
    if expectedTotal ≠ total ∨ Text.len assembled ≠ offset ∨ total - Text.len assembled < Text.len payload then
      (.error "non-contiguous transport chunk", self)
    else
      let assembled := assembled ++ payload
      let ack := codecs.frameText (.transportAck transferId (asU32 (Text.len assembled)))
      if Text.len assembled = total then
        let self := { self with active := self.active.remove transferId, reserved := self.reserved - total }
        match codecs.fromStr assembled with
        | none => (.error "invalid assembled relay JSON", self)
        | some value =>
          if value.isTransport then (.error "nested transport frame", self)
          else (.ok (some assembled, some ack), self)
      else (.ok (none, some ack), { self with active := self.active.insert transferId (expectedTotal, assembled) })

def receiveChunk (transferId offset total : Nat) (payload : Text) :
    Except String (Option Text × Option Text) × FrameReceiver :=
  if transferId = 0 ∨ maxMessageBytes < total ∨ chunkBytes < Text.len payload then
    (.error "invalid transport chunk bounds", self)
  -- A transfer of no bytes only asks for the receipt of the binary message before it.
  else if total = 0 then
    if offset ≠ 0 ∨ payload ≠ [] ∨ transferId ≤ self.lastId then (.error "invalid transport checkpoint", self)
    else (.ok (none, some (codecs.frameText (.transportAck transferId 0))), { self with lastId := transferId })
  else if payload = [] then (.error "invalid transport chunk bounds", self)
  else if self.binaryActive.contains transferId then (.error "transport payload type changed", self)
  else if self.active.contains transferId then self.assemble codecs transferId offset total payload
  else if self.refusesStart transferId offset total then (.error "invalid transport transfer start", self)
  else
    { self with
      lastId := transferId, reserved := self.reserved + total,
      active := self.active.insert transferId (total, []) }.assemble codecs transferId offset total payload

def receive (text : Text) : Except String (Option Text × Option Text) × FrameReceiver :=
  match codecs.fromStr text with
  | none => (.error "invalid relay JSON", self)
  | some value =>
    if value.kind = some "transport_chunk".toList then
      match TransportFrame.ofValue value with
      | some (.transportChunk transferId offset totalBytes payload) =>
        self.receiveChunk codecs transferId offset totalBytes payload
      | _ => (.error "invalid transport chunk", self)
    else if value.kind = some "transport_ack".toList then (.error "unexpected transport receipt", self)
    else (.ok (some text, none), self)

end FrameReceiver

end Chariox.RelayTransport
