import Chariox.RelayTransport.Frames

/-!
# Messages and envelopes

What the relay's writer is given to send, and how it reads it: the binary forms of responses (`binary_response.rs`) and
events (`binary_event.rs`), the conversion to what the receiver negotiated (`receiver_message`), and the lane on which a
message is sent (`lane`).

The JSON and base64 libraries are a parameter (`Codecs`) with the laws that the transport relies on.
-/

namespace Chariox.RelayTransport

/-- A message of the socket's own protocol. -/
inductive Control
  | ping (payload : Bytes)
  | pong (payload : Bytes)
  | close (frame : Option (Nat × Text))
  deriving DecidableEq, Repr

inductive Message
  | text (text : Text)
  | binary (bytes : Bytes)
  | control (control : Control)
  deriving DecidableEq, Repr

def Message.len : Message → Nat
  | .text t => Text.len t
  | .binary bytes => bytes.length
  | .control (.ping payload) => payload.length
  | .control (.pong payload) => payload.length
  | .control (.close frame) => frame.elim 0 (fun frame => 2 + Text.len frame.2)

structure EncryptedRelayPayload where
  senderPublicKey : Text
  nonce : Text
  ciphertext : Text
  deriving DecidableEq, Repr

structure RelayError where
  code : String
  message : String
  retryable : Bool
  deriving DecidableEq, Repr

/-- The envelopes that have a binary form; the other variants are not told apart here. -/
inductive RelayEnvelope
  | daemonResponse (relayRequestId : Text) (encryptedResponse : Option EncryptedRelayPayload) (error : Option RelayError)
  | clientResponse (requestId : Text) (encryptedResponse : Option EncryptedRelayPayload) (error : Option RelayError)
  | clientEvent (subscriptionId : Text) (eventId : Nat) (encryptedEvent : EncryptedRelayPayload)
  | other
  deriving DecidableEq, Repr

/-- The tag under which an envelope is serialised. -/
def RelayEnvelope.kind : RelayEnvelope → Option Text
  | daemonResponse .. => some "daemon_response".toList
  | clientResponse .. => some "client_response".toList
  | clientEvent .. => some "client_event".toList
  | other => none

inductive ResponseHeader
  | daemonResponse (relayRequestId senderPublicKey nonce : Text)
  | clientResponse (requestId senderPublicKey nonce : Text)
  deriving DecidableEq, Repr

structure EventHeader where
  kind : Text
  subscriptionId : Text
  eventId : Nat
  senderPublicKey : Text
  nonce : Text
  deriving DecidableEq, Repr

/-- The text that `upgrade` sends before it closes the socket. -/
def upgradeText : Text :=
  "\x7b\"kind\":\"close\",\"reason\":\"relay bounded transport requires an updated client\"\x7d".toList

/-- The JSON and base64 libraries. -/
structure Codecs where
  fromStr : Text → Option Value
  frameText : TransportFrame → Text
  envelope : Text → Option RelayEnvelope
  envelopeText : RelayEnvelope → Text
  responseHeader : Bytes → Option ResponseHeader
  responseHeaderBytes : ResponseHeader → Bytes
  eventHeader : Bytes → Option EventHeader
  base64Encode : Bytes → Text
  base64Decode : Text → Option Bytes
  /-- A serialised frame is read back. -/
  fromStr_frameText : ∀ frame, frame.InRange → fromStr (frameText frame) = some frame.toValue
  /-- A byte of a JSON string takes at most six bytes, and the rest of a chunk frame at most 109. -/
  frameText_len : ∀ transferId offset totalBytes payload,
    (TransportFrame.transportChunk transferId offset totalBytes payload).InRange →
      Text.len (frameText (.transportChunk transferId offset totalBytes payload)) ≤ 109 + 6 * Text.len payload
  /-- A serialised envelope is a JSON object with the envelope's tag. -/
  fromStr_envelopeText : ∀ envelope kind, RelayEnvelope.kind envelope = some kind →
    ∃ value, fromStr (envelopeText envelope) = some value ∧ value.kind = some kind
  fromStr_upgradeText : ∃ value, fromStr upgradeText = some value ∧ value.kind = some "close".toList
  /-- The empty text is no JSON. -/
  fromStr_nil : fromStr [] = none

variable (codecs : Codecs)

/-! ### Binary responses -/

namespace BinaryResponse

def headerLimit : Nat := 4096

def magic : Bytes := "CXR2".toUTF8.data.toList

end BinaryResponse

def ResponseHeader.fields : ResponseHeader → Text × Text × Text
  | daemonResponse relayRequestId senderPublicKey nonce => (relayRequestId, senderPublicKey, nonce)
  | clientResponse requestId senderPublicKey nonce => (requestId, senderPublicKey, nonce)

def ResponseHeader.valid (header : ResponseHeader) : Bool :=
  let (id, key, nonce) := header.fields
  !id.isEmpty && decide (Text.len id ≤ 1024) && !key.isEmpty && decide (Text.len key ≤ 256) &&
    decide (Text.len nonce = 16)

namespace BinaryResponse

def decode (bytes : Bytes) : Option (ResponseHeader × Bytes) :=
  if bytes.length < 8 ∨ ¬ magic.isPrefixOf bytes ∨ maxMessageBytes < bytes.length then none
  else
    let headerSize := fromBeBytes ((bytes.drop 4).take 4)
    if headerSize < 2 ∨ headerLimit < headerSize ∨ bytes.length < 8 + headerSize + 16 then none
    else do
      let header ← codecs.responseHeader ((bytes.drop 8).take headerSize)
      if header.valid then some (header, bytes.drop (8 + headerSize)) else none

def encode (header : ResponseHeader) (ciphertext : Bytes) : Option Bytes :=
  let metadata := codecs.responseHeaderBytes header
  if !header.valid ∨ headerLimit < metadata.length ∨ ciphertext.length < 16 ∨
      maxMessageBytes < metadata.length + 8 + ciphertext.length then none
  else some (magic ++ toBeBytes (asU32 metadata.length) ++ metadata ++ ciphertext)

/-- The binary form of an envelope; `none` when there is none, also because of an error. -/
def fromEnvelope : RelayEnvelope → Option Bytes
  | .daemonResponse relayRequestId (some payload) none => do
    let ciphertext ← codecs.base64Decode payload.ciphertext
    encode codecs (.daemonResponse relayRequestId payload.senderPublicKey payload.nonce) ciphertext
  | .clientResponse requestId (some payload) none => do
    let ciphertext ← codecs.base64Decode payload.ciphertext
    encode codecs (.clientResponse requestId payload.senderPublicKey payload.nonce) ciphertext
  | _ => none

def intoEnvelope (bytes : Bytes) : Option RelayEnvelope := do
  let (header, ciphertext) ← decode codecs bytes
  let (_, key, nonce) := header.fields
  let payload := some ⟨key, nonce, codecs.base64Encode ciphertext⟩
  match header with
  | .daemonResponse relayRequestId _ _ => return .daemonResponse relayRequestId payload none
  | .clientResponse requestId _ _ => return .clientResponse requestId payload none

end BinaryResponse

/-! ### Binary events -/

def EventHeader.valid (header : EventHeader) : Bool :=
  ["daemon_event".toList, "client_event".toList].contains header.kind && !header.subscriptionId.isEmpty &&
    decide (Text.len header.subscriptionId ≤ 1024) && decide (Text.len header.senderPublicKey ≤ 256) &&
    !header.senderPublicKey.isEmpty && decide (Text.len header.nonce = 16)

namespace BinaryEvent

def headerLimit : Nat := 4096

def payloadLimit : Nat := 1024 * 1024

def magic : Bytes := "CXR1".toUTF8.data.toList

def decode (bytes : Bytes) : Option (EventHeader × Bytes) :=
  if bytes.length < 8 ∨ bytes.take 4 ≠ magic then none
  else
    let headerSize := fromBeBytes ((bytes.drop 4).take 4)
    if headerSize < 2 ∨ headerLimit < headerSize ∨ bytes.length < 8 + headerSize + 16 then none
    else do
      let header ← codecs.eventHeader ((bytes.drop 8).take headerSize)
      let payload := bytes.drop (8 + headerSize)
      if !header.valid ∨ payloadLimit < payload.length then none else some (header, payload)

def legacyClientEnvelope (bytes : Bytes) : Option RelayEnvelope := do
  let (header, ciphertext) ← decode codecs bytes
  if header.kind ≠ "client_event".toList then none
  else some (.clientEvent header.subscriptionId header.eventId
    ⟨header.senderPublicKey, header.nonce, codecs.base64Encode ciphertext⟩)

end BinaryEvent

/-! ### What the writer makes of a message -/

/-- The message in the form that the receiver negotiated. -/
def receiverMessage (message : Message) (binaryEvents : Bool) : Option Message :=
  match message with
  | .text text =>
    if binaryEvents ∧ "\x7b\"kind\":\"client_response\"".toList.isPrefixOf text then
      match (codecs.envelope text).bind (BinaryResponse.fromEnvelope codecs) with
      | some bytes => some (.binary bytes)
      | none => some message
    else some message
  | .binary bytes =>
    if binaryEvents then some message
    else do
      let envelope ← if BinaryResponse.magic.isPrefixOf bytes then BinaryResponse.intoEnvelope codecs bytes
        else BinaryEvent.legacyClientEnvelope codecs bytes
      return .text (codecs.envelopeText envelope)
  | .control _ => some message

inductive Lane
  | reply
  | request
  | event
  | ordered
  deriving DecidableEq, Repr

def displayEventScope : Text := "kernel_browser_display".toList

def displayResumeScope : Text := "kernel_browser_display_resume".toList

/-- `WriterUsage::is_display`, for the scopes that the socket's subscriptions have at the moment. -/
def isDisplay (scopeOf : Text → Option Text) (subscriptionId : Text) : Bool :=
  match scopeOf subscriptionId with
  | some scope => scope == displayEventScope || scope == displayResumeScope
  | none => false

def isDisplayTunnelDataKind (kind : Text) : Bool :=
  ["daemon_display_tunnel_open".toList, "daemon_display_tunnel_response_start".toList,
   "daemon_display_tunnel_chunk".toList, "daemon_display_tunnel_client_chunk".toList,
   "daemon_display_tunnel_client_close".toList, "daemon_display_tunnel_close".toList].contains kind

/-- The lane of a message and, for a display event, the subscription whose queue it joins. -/
def lane (message : Message) (scopeOf : Text → Option Text) : Lane × Option Text :=
  match message with
  | .binary bytes =>
    match BinaryResponse.decode codecs bytes with
    | some (.clientResponse .., _) => (.reply, none)
    | _ =>
      match BinaryEvent.decode codecs bytes with
      | some (header, _) =>
        if header.kind = "client_event".toList ∧ isDisplay scopeOf header.subscriptionId then
          (.event, some header.subscriptionId)
        else (.ordered, none)
      | none => (.ordered, none)
  | .control _ => (.ordered, none)
  | .text text =>
    match codecs.fromStr text with
    | none => (.ordered, none)
    | some value =>
      let kind := value.kind.getD []
      if ["client_response".toList, "client_metadata_response".toList, "daemon_peer_response".toList,
          "client_connected".toList].contains kind then (.reply, none)
      else if kind = "client_event".toList then
        match value.getStr "subscription_id".toList with
        | some id => if isDisplay scopeOf id then (.event, some id) else (.ordered, none)
        | none => (.ordered, none)
      else if isDisplayTunnelDataKind kind then (.ordered, none)
      else if "request".toList.isSuffixOf kind then (.request, none)
      else (.ordered, none)

/-- Messages that are written at once, ahead of all others. -/
def control : Message → Bool
  | .control _ => true
  | .text text =>
    decide (Text.len text ≤ chunkBytes) &&
      (codecs.fromStr text).any (fun value => value.kind == some "close".toList)
  | .binary _ => false

/-! ### Messages that are no transport frames -/

/-- The receiver takes such a value for a frame of the transport itself. -/
def Value.isTransport (value : Value) : Bool := value.kind.any (fun kind => "transport_".toList.isPrefixOf kind)

/-- A message that the transport can carry: a text is JSON, and neither a text nor a binary is a transport frame. -/
def Message.IsEnvelope : Message → Prop
  | .text t => ∃ value, codecs.fromStr t = some value ∧ value.isTransport = false
  | .binary bytes => binaryChunkMagic.isPrefixOf bytes = false
  | .control _ => True

variable {codecs}

theorem Message.IsEnvelope.ne_nil {t : Text} (h : Message.IsEnvelope codecs (.text t)) : t ≠ [] := by
  rintro rfl
  obtain ⟨v, hvl, -⟩ := h
  rw [codecs.fromStr_nil] at hvl
  cases hvl

variable {envelope : RelayEnvelope} {bytes : Bytes}

theorem BinaryResponse.encode_isEnvelope {hd : ResponseHeader} {ciphertext : Bytes}
    (h : encode codecs hd ciphertext = some bytes) : Message.IsEnvelope codecs (.binary bytes) := by
  unfold encode at h
  dsimp only at h
  split at h <;> cases h
  rfl

theorem BinaryResponse.fromEnvelope_isEnvelope
    (h : fromEnvelope codecs envelope = some bytes) : Message.IsEnvelope codecs (.binary bytes) := by
  unfold fromEnvelope at h
  split at h
  · obtain ⟨_, -, h⟩ := Option.bind_eq_some_iff.1 h
    exact encode_isEnvelope h
  · obtain ⟨_, -, h⟩ := Option.bind_eq_some_iff.1 h
    exact encode_isEnvelope h
  · cases h

theorem envelopeText_isEnvelope {kind : Text} (hk : envelope.kind = some kind)
    (hpl : "transport_".toList.isPrefixOf kind = false) :
    Message.IsEnvelope codecs (.text (codecs.envelopeText envelope)) := by
  obtain ⟨v, hvl, ht⟩ := codecs.fromStr_envelopeText envelope kind hk
  exact ⟨v, hvl, by rw [Value.isTransport, ht]; exact hpl⟩

theorem BinaryResponse.intoEnvelope_isEnvelope (h : intoEnvelope codecs bytes = some envelope) :
    Message.IsEnvelope codecs (.text (codecs.envelopeText envelope)) := by
  obtain ⟨⟨hd, ciphertext⟩, -, h⟩ := Option.bind_eq_some_iff.1 h
  cases hd with
  | daemonResponse =>
    cases h
    exact envelopeText_isEnvelope rfl rfl
  | clientResponse =>
    cases h
    exact envelopeText_isEnvelope rfl rfl

theorem BinaryEvent.legacyClientEnvelope_isEnvelope (h : legacyClientEnvelope codecs bytes = some envelope) :
    Message.IsEnvelope codecs (.text (codecs.envelopeText envelope)) := by
  obtain ⟨⟨hd, ciphertext⟩, -, h⟩ := Option.bind_eq_some_iff.1 h
  dsimp only at h
  split at h <;> cases h
  exact envelopeText_isEnvelope rfl rfl

/-- The conversion for the receiver makes no transport frame of an envelope. -/
theorem receiverMessage_isEnvelope {msg converted : Message} {binaryEvents : Bool}
    (hm : msg.IsEnvelope codecs) (h : receiverMessage codecs msg binaryEvents = some converted) :
    converted.IsEnvelope codecs := by
  cases msg with
  | control =>
    cases h
    exact hm
  | text =>
    unfold receiverMessage at h
    dsimp only at h
    split at h
    · split at h
      · rename_i hb
        cases h
        obtain ⟨env, -, he⟩ := Option.bind_eq_some_iff.1 hb
        exact BinaryResponse.fromEnvelope_isEnvelope he
      · cases h
        exact hm
    · cases h
      exact hm
  | binary =>
    unfold receiverMessage at h
    dsimp only at h
    split at h
    · cases h
      exact hm
    split at h
    · obtain ⟨env, he, h⟩ := Option.bind_eq_some_iff.1 h
      cases h
      exact BinaryResponse.intoEnvelope_isEnvelope he
    obtain ⟨env, he, h⟩ := Option.bind_eq_some_iff.1 h
    cases h
    exact BinaryEvent.legacyClientEnvelope_isEnvelope he

end Chariox.RelayTransport
