import Chariox.Lib.OrdMap
import Chariox.Lib.Alignment

/-!
# Transport frames

The constants and frames of `frame_transport.rs`.  A relay socket carries large messages in chunks: a text message as
JSON frames of kind `transport_chunk`, a binary message as binary frames that begin with `CXB1`.

A text is a list of characters and its length counts UTF-8 bytes.
-/

namespace Chariox.RelayTransport

open Chariox.Alignment List

abbrev Text := List Char

abbrev Bytes := List UInt8

def Text.len (text : Text) : Nat := size Char.utf8Size text

def chunkBytes : Nat := 16 * 1024

/-- The four bytes that begin a binary chunk. -/
def binaryChunkMagic : Bytes := "CXB1".toUTF8.data.toList

def binaryChunkHeaderBytes : Nat := 16

def binaryChunkPayloadBytes : Nat := chunkBytes - binaryChunkHeaderBytes

def windowBytes : Nat := 256 * 1024

def smallReserveBytes : Nat := 2 * chunkBytes

def minFrameBytes : Nat := 64

def peerReceiptFrames : Nat := (64 * 1024 + smallReserveBytes) / minFrameBytes

def maxMessageBytes : Nat := 64 * 1024 * 1024

def maxTransfers : Nat := 4

def maxAssemblyBytes : Nat := 128 * 1024 * 1024

/-- The conversion `as u32`. -/
def asU32 (n : Nat) : Nat := n % 2 ^ 32

def toBeBytes (n : Nat) : Bytes :=
  [UInt8.ofNat (n / 2 ^ 24), UInt8.ofNat (n / 2 ^ 16), UInt8.ofNat (n / 2 ^ 8), UInt8.ofNat n]

def fromBeBytes (bytes : Bytes) : Nat := bytes.foldl (fun n byte => n * 2 ^ 8 + byte.toNat) 0

def binaryChunk (transferId offset total : Nat) (payload : Bytes) : Bytes :=
  binaryChunkMagic ++ toBeBytes transferId ++ toBeBytes (asU32 offset) ++ toBeBytes (asU32 total) ++ payload

/-! ### JSON -/

/-- A JSON value.  A number is kept apart when it is a natural number. -/
inductive Value
  | null
  | bool (b : Bool)
  | natural (n : Nat)
  | number (digits : Text)
  | string (text : Text)
  | array (items : List Value)
  | object (fields : List (Text × Value))

/-- `value.get(name)`. -/
def Value.get : Value → Text → Option Value
  | .object fields, name => fields.lookup name
  | _, _ => none

def Value.asStr : Value → Option Text
  | .string text => some text
  | _ => none

/-- `value.get(name).and_then(|v| v.as_str())`. -/
def Value.getStr (value : Value) (name : Text) : Option Text := (value.get name).bind Value.asStr

def Value.kind (value : Value) : Option Text := value.getStr "kind".toList

/-- A number that a `u32` field accepts. -/
def Value.asU32 : Value → Option Nat
  | .natural n => if n < 2 ^ 32 then some n else none
  | _ => none

inductive TransportFrame
  | transportChunk (transferId offset totalBytes : Nat) (payload : Text)
  | transportAck (transferId offset : Nat)
  deriving DecidableEq, Repr

namespace TransportFrame

/-- The numbers of a frame are `u32`. -/
def InRange : TransportFrame → Prop
  | transportChunk transferId offset totalBytes _ => transferId < 2 ^ 32 ∧ offset < 2 ^ 32 ∧ totalBytes < 2 ^ 32
  | transportAck transferId offset => transferId < 2 ^ 32 ∧ offset < 2 ^ 32

/-- The derived `Serialize`: an object whose first field is the tag. -/
def toValue : TransportFrame → Value
  | transportChunk transferId offset totalBytes payload => .object
    [("kind".toList, .string "transport_chunk".toList), ("transfer_id".toList, .natural transferId),
     ("offset".toList, .natural offset), ("total_bytes".toList, .natural totalBytes),
     ("payload".toList, .string payload)]
  | transportAck transferId offset => .object
    [("kind".toList, .string "transport_ack".toList), ("transfer_id".toList, .natural transferId),
     ("offset".toList, .natural offset)]

/-- The derived `Deserialize`: the tag chooses the variant, whose fields must all be there and be the only ones. -/
def ofValue (value : Value) : Option TransportFrame :=
  match value with
  | .object fields =>
    if value.kind = some "transport_chunk".toList then
      if fields.all (fun field => ["kind".toList, "transfer_id".toList, "offset".toList, "total_bytes".toList,
          "payload".toList].contains field.1) then do
        let transferId ← (value.get "transfer_id".toList).bind Value.asU32
        let offset ← (value.get "offset".toList).bind Value.asU32
        let totalBytes ← (value.get "total_bytes".toList).bind Value.asU32
        let payload ← value.getStr "payload".toList
        return transportChunk transferId offset totalBytes payload
      else none
    else if value.kind = some "transport_ack".toList then
      if fields.all (fun field => ["kind".toList, "transfer_id".toList, "offset".toList].contains field.1) then do
        let transferId ← (value.get "transfer_id".toList).bind Value.asU32
        let offset ← (value.get "offset".toList).bind Value.asU32
        return transportAck transferId offset
      else none
    else none
  | _ => none

end TransportFrame

/-! ### Reading back what was written -/

variable {n : Nat}

theorem fromBeBytes_toBeBytes (h : n < 2 ^ 32) : fromBeBytes (toBeBytes n) = n := by
  simp only [toBeBytes, fromBeBytes, foldl_cons, foldl_nil, UInt8.toNat_ofNat']
  omega

theorem asU32_of_lt (h : n < 2 ^ 32) : asU32 n = n := Nat.mod_eq_of_lt h

theorem Value.asU32_natural (h : n < 2 ^ 32) : (natural n).asU32 = some n := if_pos h

theorem TransportFrame.ofValue_toValue {frame : TransportFrame} (h : frame.InRange) :
    ofValue frame.toValue = some frame := by
  cases frame with
  | transportChunk =>
    obtain ⟨hid, ho, ht⟩ := h
    simp [ofValue, toValue, Value.kind, Value.getStr, Value.get, Value.asStr, lookup, Value.asU32_natural hid,
      Value.asU32_natural ho, Value.asU32_natural ht]
  | transportAck =>
    obtain ⟨hid, ho⟩ := h
    simp [ofValue, toValue, Value.kind, Value.getStr, Value.get, Value.asStr, lookup, Value.asU32_natural hid,
      Value.asU32_natural ho]

theorem TransportFrame.kind_toValue_chunk (tid off totalBytes : Nat) (pay : Text) :
    (toValue (transportChunk tid off totalBytes pay)).kind = some "transport_chunk".toList := rfl

theorem TransportFrame.kind_toValue_ack (tid off : Nat) :
    (toValue (transportAck tid off)).kind = some "transport_ack".toList := rfl

end Chariox.RelayTransport
