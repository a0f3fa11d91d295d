import Chariox.Lib.Except
import Chariox.Lib.OrdMap
import Chariox.Lib.Text

/-!
# The App outbox

An App emits occurrences of its events; the kernel keeps a receipt for each in the table `app_outbox`, and for each
installation a replay floor in `app_outbox_replay_floors`.  The model has both tables and every operation that writes
them.  An operation runs in a transaction or a savepoint: it takes effect as a whole or fails without effect.  What an
operation reads from the tables of installations and automations is an argument (`OtherTables`).

JSON values are a type parameter; their canonical text and the SHA-256 digests are functions of `OutboxCodec`.
-/

namespace Chariox

def maxReceipts : Nat := 4096
def maxPending : Nat := 1024
def maxRetainedPayloadBytes : Nat := 16 * 1024 * 1024
def maxBatch : Nat := 16
def maxBatchBytes : Nat := 512 * 1024
def maxAttempts : Nat := 8
def pendingLifetimeMs : Nat := 7 * 24 * 60 * 60 * 1000
def maxOccurrenceAgeMs : Nat := 30 * 24 * 60 * 60 * 1000
def maxFutureSkewMs : Nat := 5 * 60 * 1000
def maxSafeTimestamp : Nat := 9007199254740991
def maxPromptBytes : Nat := 64 * 1024
def maxInvocationBytes : Nat := 256 * 1024
def maxArtifacts : Nat := 32

inductive OutboxError
  | database
  | catalog
  | invalid
  | notFound
  | conflict
  | inactive
  | schema
  | limit
  | full
  | corrupt
  | tooOld
  deriving DecidableEq, Repr

/-! ### Occurrences -/

structure Artifact where
  name : String
  mediaType : String
  reference : String
  sizeBytes : Option Nat
  digest : Option String
  deriving DecidableEq, Repr

structure Invocation where
  prompt : String
  artifacts : List Artifact
  deriving DecidableEq, Repr

structure Occurrence (V : Type) where
  automationId : String
  occurrenceId : String
  eventVersion : Nat
  occurredAtMs : Nat
  scheduleRevision : Option String
  payload : V
  invocation : Invocation

/-- What the content digest of an occurrence covers. -/
structure OccurrenceContent where
  event : String
  eventVersion : Nat
  schema : String
  occurredAtMs : Nat
  scheduleRevision : Option String
  payload : String
  invocation : String
  deriving DecidableEq, Repr

/-- The canonical texts of JSON values and the digest of a content, as the libraries give them. -/
structure OutboxCodec (V : Type) where
  encodeBoundedPayload : V → Except OutboxError String
  encodeInvocation : Invocation → Option String
  contentDigest : OccurrenceContent → Except OutboxError String

def identifier (value : String) : Except OutboxError Unit :=
  if value = "" || 128 < value.utf8ByteSize ||
      value.toList.any (fun c => isControl c || isWhiteSpace c || c = '\uFEFF') then
    .error .invalid
  else .ok ()

def Occurrence.checkScheduleRevision {V : Type} (occurrence : Occurrence V) : Except OutboxError Unit :=
  match occurrence.scheduleRevision with
  | some revision => identifier revision
  | none => .ok ()

def time (value : Nat) : Except OutboxError Nat := toI64 value .invalid

/-- `identity::validate`: an occurrence id is `evt1`, the time of the occurrence and a digest, with dots between. -/
def validate (id : String) (occurredAtMs : Nat) : Except OutboxError Unit :=
  if maxSafeTimestamp < occurredAtMs || 87 < id.utf8ByteSize then .error .invalid
  else
    match splitChar '.' id.toList with
    | [first, timestamp, hash] =>
      if first ≠ "evt1".toList || timestamp ≠ (toString occurredAtMs).toList || hash.length ≠ 64 ||
          !hash.all isLowerHex then
        .error .invalid
      else .ok ()
    | _ => .error .invalid

def Artifact.valid (artifact : Artifact) : Bool :=
  [artifact.name, artifact.mediaType, artifact.reference].all
      (fun value => trimText value.toList ≠ [] && value.utf8ByteSize ≤ 2048) &&
    artifact.sizeBytes.all (· ≤ maxSafeTimestamp) && artifact.digest.all isDigest

def Invocation.encode {V : Type} (C : OutboxCodec V) (invocation : Invocation) : Except OutboxError String :=
  if maxPromptBytes < invocation.prompt.utf8ByteSize || maxArtifacts < invocation.artifacts.length then .error .limit
  else if trimText invocation.prompt.toList = [] then .error .invalid
  else if !invocation.artifacts.all Artifact.valid then .error .invalid
  else
    match C.encodeInvocation invocation with
    | none => .error .invalid
    | some encoded => if maxInvocationBytes < encoded.utf8ByteSize then .error .limit else .ok encoded

/-! ### Automations -/

structure AppEvent (V : Type) where
  version : Nat
  schemaDigest : String
  validator : V → Bool

structure EventCatalog (V : Type) where
  installationId : String
  generation : Nat
  events : OrdMap String (AppEvent V)

namespace EventCatalog

variable {V : Type} (catalog : EventCatalog V)

def schemaDigest (name : String) : Option String := (catalog.events.get name).map AppEvent.schemaDigest

def eventVersion (name : String) : Option Nat := (catalog.events.get name).map AppEvent.version

end EventCatalog

inductive AutomationStatus
  | active
  | paused
  | broken
  | disabled
  deriving DecidableEq, Repr

structure Binding where
  targetKind : String
  id : String
  revision : Nat
  eventName : String
  eventVersion : Nat
  schemaDigest : String
  sessionId : String
  publicationId : String
  endpointId : String
  queueId : String
  status : AutomationStatus
  scheduled : Bool
  deriving DecidableEq, Repr

/-- What the other tables of the database answer: whether a catalog is that of the active generation, the row of an
automation, and whether an owner has an installation. -/
structure OtherTables (V : Type) where
  requireCurrent : EventCatalog V → String → Except OutboxError Unit
  automation : String → String → String → Option Binding
  owns : String → String → Bool

def loadBinding {V : Type} (tables : OtherTables V) (owner installation id : String) : Except OutboxError Binding :=
  match tables.automation owner installation id with
  | none => .error .notFound
  | some binding =>
    if binding.revision = 0 || binding.eventVersion = 0 then .error .corrupt
    else if [binding.id, binding.eventName, binding.sessionId, binding.publicationId, binding.endpointId,
        binding.queueId].any (fun id => (identifier id).toOption = none) then .error .corrupt
    else .ok binding

structure VerifiedAutomation (V : Type) where
  catalog : EventCatalog V
  owner : String
  binding : Binding

namespace VerifiedAutomation

variable {V : Type} (automation : VerifiedAutomation V)

def installationId : String := automation.catalog.installationId

def checkSchema : Except OutboxError Unit :=
  if automation.binding.status ≠ .active then .error .inactive
  else if automation.catalog.schemaDigest automation.binding.eventName ≠ some automation.binding.schemaDigest ||
      automation.catalog.eventVersion automation.binding.eventName ≠ some automation.binding.eventVersion then
    .error .schema
  else .ok ()

def loadIn (tables : OtherTables V) (catalog : EventCatalog V) (trustedOwner automationId : String)
    (expectedRevision : Nat) : Except OutboxError (VerifiedAutomation V) := do
  identifier automationId
  identifier trustedOwner
  failIf (expectedRevision = 0 ∨ i64Max < expectedRevision) .invalid
  tables.requireCurrent catalog trustedOwner
  let binding ← loadBinding tables trustedOwner catalog.installationId automationId
  failIf (binding.revision ≠ expectedRevision) .conflict
  let result : VerifiedAutomation V := { catalog, owner := trustedOwner, binding }
  result.checkSchema
  return result

def requireCurrent (tables : OtherTables V) : Except OutboxError Unit := do
  tables.requireCurrent automation.catalog automation.owner
  let binding ← loadBinding tables automation.owner automation.installationId automation.binding.id
  failIf (binding ≠ automation.binding) .conflict
  automation.checkSchema

def encodePayload (C : OutboxCodec V) (value : V) : Except OutboxError String := do
  let encoded ← C.encodeBoundedPayload value
  match automation.catalog.events.get automation.binding.eventName with
  | none => throw .schema
  | some event => if event.validator value then return encoded else throw .schema

end VerifiedAutomation

/-! ### The tables -/

inductive ReceiptState
  | accepted
  | queued
  | delivered
  | retryable
  | failed
  | expired
  deriving DecidableEq, Repr

namespace ReceiptState

/-- The states of a receipt that waits for delivery. -/
def isPending (state : ReceiptState) : Bool := state = accepted || state = retryable

def isTerminal (state : ReceiptState) : Bool := state = delivered || state = failed || state = expired

end ReceiptState

/-- The columns under which a receipt is unique. -/
structure OccurrenceIdentity where
  ownerId : String
  installationId : String
  automationId : String
  eventVersion : Nat
  occurrenceId : String
  scheduleRevision : String
  deriving DecidableEq, Repr

structure OutboxRow where
  sequence : Nat
  identity : OccurrenceIdentity
  receiptId : String
  occurredAtMs : Nat
  eventName : String
  schemaDigest : String
  contentDigest : String
  automationRevision : Nat
  acceptedGeneration : Nat
  payload : Option String
  invocation : Option String
  acceptedAtMs : Nat
  expiresAtMs : Nat
  state : ReceiptState
  revision : Nat
  attempts : Nat
  nextAttemptAtMs : Nat
  queuedPromptId : Option String
  queuedSessionId : Option String
  deriving DecidableEq, Repr

structure Receipt where
  receiptId : String
  automationId : String
  occurrenceId : String
  eventVersion : Nat
  occurredAtMs : Nat
  scheduleRevision : Option String
  state : ReceiptState
  revision : Nat
  attempts : Nat
  acceptedAtMs : Nat
  expiresAtMs : Nat
  nextAttemptAtMs : Nat
  queuedPromptId : Option String
  queuedSessionId : Option String
  payload : Option String
  invocation : Option String
  contentDigest : String
  automationRevision : Nat
  deriving DecidableEq, Repr

def OutboxRow.decode (row : OutboxRow) : Receipt where
  receiptId := row.receiptId
  automationId := row.identity.automationId
  occurrenceId := row.identity.occurrenceId
  eventVersion := row.identity.eventVersion
  occurredAtMs := row.occurredAtMs
  scheduleRevision := if row.identity.scheduleRevision = "" then none else some row.identity.scheduleRevision
  state := row.state
  revision := row.revision
  attempts := row.attempts
  acceptedAtMs := row.acceptedAtMs
  expiresAtMs := row.expiresAtMs
  nextAttemptAtMs := row.nextAttemptAtMs
  queuedPromptId := row.queuedPromptId
  queuedSessionId := row.queuedSessionId
  payload := row.payload
  invocation := row.invocation
  contentDigest := row.contentDigest
  automationRevision := row.automationRevision

def OutboxRow.isOf (row : OutboxRow) (owner installation : String) : Bool :=
  row.identity.ownerId = owner && row.identity.installationId = installation

/-- The table of receipts in the order of their sequence numbers, the last number given out, and the replay floors. -/
structure AppOutbox where
  rows : List OutboxRow
  lastSequence : Nat
  floors : OrdMap (String ×ₗ String) Nat
  deriving DecidableEq

namespace AppOutbox

abbrev Result := Except OutboxError

variable {V : Type}

def new : AppOutbox where
  rows := []
  lastSequence := 0
  floors := .empty

variable (t : AppOutbox)

def floor (owner installation : String) : Option Nat := t.floors.get (toLex (owner, installation))

def receipt (owner installation id : String) : Result Receipt :=
  match t.rows.find? (fun row => row.isOf owner installation && row.receiptId = id) with
  | none => .error .notFound
  | some row => .ok row.decode

def updateRows (p : OutboxRow → Bool) (f : OutboxRow → OutboxRow) : AppOutbox :=
  { t with rows := t.rows.map (fun row => if p row then f row else row) }

/-- An UPDATE statement that is to change one row. -/
def updateOne (p : OutboxRow → Bool) (f : OutboxRow → OutboxRow) : Result AppOutbox :=
  if t.rows.countP p ≠ 1 then .error .conflict else .ok (t.updateRows p f)

/-- An INSERT into the table of receipts, under its unique columns and the next sequence number. -/
def insertRow (row : OutboxRow) : Result AppOutbox :=
  if i64Max ≤ t.lastSequence then .error .database
  else if t.rows.any (fun other => other.receiptId = row.receiptId || other.identity = row.identity) then
    .error .database
  else .ok { t with
    rows := t.rows ++ [{ row with sequence := t.lastSequence + 1 }]
    lastSequence := t.lastSequence + 1 }

/-- Free what a receipt holds of its occurrence. -/
def release (row : OutboxRow) : OutboxRow := { row with payload := none, invocation := none }

/-- The revision after a change that must not fail at the last number. -/
def boundedNext (revision : Nat) : Nat := if revision < i64Max then revision + 1 else revision

/-! ### Accepting -/

def advanceFloor (owner installation : String) (now : Nat) : Result (AppOutbox × Nat) := do
  let now ← time now
  let proposed := now - maxOccurrenceAgeMs
  let floor := match t.floor owner installation with
    | none => proposed
    | some minimum => max minimum proposed
  return ({ t with floors := t.floors.insert (toLex (owner, installation)) floor }, floor)

def identityOf (automation : VerifiedAutomation V) (occurrence : Occurrence V) : OccurrenceIdentity where
  ownerId := automation.owner
  installationId := automation.installationId
  automationId := automation.binding.id
  eventVersion := occurrence.eventVersion
  occurrenceId := occurrence.occurrenceId
  scheduleRevision := occurrence.scheduleRevision.getD ""

def byteSize (text : Option String) : Nat := (text.map String.utf8ByteSize).getD 0

/-- The bounds on the receipts of an installation. -/
def checkCapacity (owner installation payload invocation : String) : Result Unit :=
  let rows := t.rows.filter (fun row => row.isOf owner installation)
  if maxPending ≤ rows.countP (fun row => row.state.isPending) then .error .full
  else if maxReceipts ≤ rows.length || maxRetainedPayloadBytes <
      (rows.map (fun row => byteSize row.payload + byteSize row.invocation)).sum +
        (payload.utf8ByteSize + invocation.utf8ByteSize) then
    .error .limit
  else .ok ()

/-- The receipt of a new occurrence; `drawn` is the random part of its id. -/
def newRow (automation : VerifiedAutomation V) (occurrence : Occurrence V) (payload invocation contentDigest : String)
    (now : Nat) (drawn : String) : OutboxRow where
  sequence := 0
  identity := identityOf automation occurrence
  receiptId := "app_receipt_" ++ drawn
  occurredAtMs := occurrence.occurredAtMs
  eventName := automation.binding.eventName
  schemaDigest := automation.binding.schemaDigest
  contentDigest
  automationRevision := automation.binding.revision
  acceptedGeneration := automation.catalog.generation
  payload := some payload
  invocation := some invocation
  acceptedAtMs := now
  expiresAtMs := now + pendingLifetimeMs
  state := .accepted
  revision := 1
  attempts := 0
  nextAttemptAtMs := now
  queuedPromptId := none
  queuedSessionId := none

/-- `accept` for an occurrence whose identity has no receipt. -/
def acceptNew (automation : VerifiedAutomation V) (occurrence : Occurrence V)
    (payload invocation contentDigest : String) (now : Nat) (drawn : String) : Result (AppOutbox × Receipt) := do
  let (t, floor) ← t.advanceFloor automation.owner automation.installationId now
  failIf (min (now + maxFutureSkewMs) (2 ^ 64 - 1) < occurrence.occurredAtMs) .invalid
  failIf (occurrence.occurredAtMs < floor) .tooOld
  t.checkCapacity automation.owner automation.installationId payload invocation
  let _ ← time automation.binding.revision
  let _ ← time automation.catalog.generation
  let _ ← time (now + pendingLifetimeMs)
  let row := newRow automation occurrence payload invocation contentDigest now drawn
  let t ← t.insertRow row
  let receipt ← t.receipt automation.owner automation.installationId row.receiptId
  return (t, receipt)

def accept (C : OutboxCodec V) (t : AppOutbox) (automation : VerifiedAutomation V) (occurrence : Occurrence V)
    (payload invocation : String) (now : Nat) (drawn : String) : Result (AppOutbox × Receipt) := do
  let contentDigest ← C.contentDigest {
    event := automation.binding.eventName
    eventVersion := occurrence.eventVersion
    schema := automation.binding.schemaDigest
    occurredAtMs := occurrence.occurredAtMs
    scheduleRevision := occurrence.scheduleRevision
    payload
    invocation }
  match t.rows.find? (fun row => row.identity = identityOf automation occurrence) with
  | some row =>
    failIf (row.contentDigest ≠ contentDigest) .conflict
    let receipt ← t.receipt automation.owner automation.installationId row.receiptId
    return (t, receipt)
  | none => t.acceptNew automation occurrence payload invocation contentDigest now drawn

/-- An occurrence that was checked, with its automation and its encoded payload and invocation. -/
structure Prepared (V : Type) where
  automation : VerifiedAutomation V
  occurrence : Occurrence V
  payload : String
  invocation : String

/-- The checks that `prepare` makes on one occurrence. -/
def prepareOne (C : OutboxCodec V) (automation : VerifiedAutomation V) (occurrence : Occurrence V)
    (seen : List (String × Option String)) (total : Nat) : Result (Prepared V × Nat) := do
  validate occurrence.occurrenceId occurrence.occurredAtMs
  failIf (maxSafeTimestamp < occurrence.occurredAtMs ∨
        occurrence.scheduleRevision.isSome ≠ automation.binding.scheduled) .invalid
  occurrence.checkScheduleRevision
  failIf (occurrence.automationId ≠ automation.binding.id ∨
        occurrence.eventVersion ≠ automation.binding.eventVersion ∨
        seen.contains (occurrence.occurrenceId, occurrence.scheduleRevision)) .invalid
  let payload ← automation.encodePayload C occurrence.payload
  let invocation ← occurrence.invocation.encode C
  let total := total + payload.utf8ByteSize + invocation.utf8ByteSize
  failIf (maxBatchBytes < total) .limit
  return ({ automation, occurrence, payload, invocation }, total)

def prepareAll (C : OutboxCodec V) (automation : VerifiedAutomation V) :
    List (Occurrence V) → List (String × Option String) → Nat → Result (List (Prepared V))
  | [], _, _ => .ok []
  | occurrence :: rest, seen, total => do
    let (prepared, total) ← prepareOne C automation occurrence seen total
    let more ← prepareAll C automation rest ((occurrence.occurrenceId, occurrence.scheduleRevision) :: seen) total
    return prepared :: more

def prepare (C : OutboxCodec V) (automation : VerifiedAutomation V) (occurrences : List (Occurrence V)) (now : Nat) :
    Result (List (Prepared V)) := do
  let _ ← time now
  failIf (occurrences.isEmpty ∨ maxBatch < occurrences.length) .limit
  prepareAll C automation occurrences [] 0

/-- Accept the occurrences of a batch one after the other; the n-th one draws the n-th id. -/
def acceptAll (C : OutboxCodec V) (now : Nat) :
    List (Prepared V) → (Nat → String) → AppOutbox → Result (AppOutbox × List Receipt)
  | [], _, t => .ok (t, [])
  | p :: rest, drawn, t => do
    let (t, receipt) ← t.accept C p.automation p.occurrence p.payload p.invocation now (drawn 0)
    let (t, receipts) ← acceptAll C now rest (fun n => drawn (n + 1)) t
    return (t, receipt :: receipts)

def applyIn (C : OutboxCodec V) (t : AppOutbox) (tables : OtherTables V) (automation : VerifiedAutomation V)
    (occurrences : List (Occurrence V)) (now : Nat) (drawn : Nat → String) : Result (AppOutbox × List Receipt) := do
  let prepared ← prepare C automation occurrences now
  automation.requireCurrent tables
  acceptAll C now prepared drawn t

/-- The checks that `validate_occurrences` makes before the writer sees a batch. -/
def validateOccurrences (C : OutboxCodec V) :
    List (Occurrence V) → List (String × String × Option String) → Nat → Result Unit
  | [], _, _ => .ok ()
  | occurrence :: rest, seen, bytes => do
    identifier occurrence.automationId
    validate occurrence.occurrenceId occurrence.occurredAtMs
    failIf (occurrence.eventVersion = 0 ∨ maxSafeTimestamp < occurrence.occurredAtMs) .invalid
    occurrence.checkScheduleRevision
    failIf (seen.contains (occurrence.automationId, occurrence.occurrenceId, occurrence.scheduleRevision)) .invalid
    let payload ← C.encodeBoundedPayload occurrence.payload
    let invocation ← occurrence.invocation.encode C
    let bytes := bytes + payload.utf8ByteSize + invocation.utf8ByteSize
    failIf (maxBatchBytes < bytes) .limit
    validateOccurrences C rest ((occurrence.automationId, occurrence.occurrenceId, occurrence.scheduleRevision) :: seen)
      bytes

/-- The current automation of an occurrence, as the writer's connection has it. -/
def currentAutomation (tables : OtherTables V) (catalog : EventCatalog V) (trustedOwner : String)
    (occurrence : Occurrence V) : Result (VerifiedAutomation V) := do
  let current ← loadBinding tables trustedOwner catalog.installationId occurrence.automationId
  VerifiedAutomation.loadIn tables catalog trustedOwner occurrence.automationId current.revision

/-- Prepare each occurrence of a batch as a batch of its own. -/
def prepareCurrent (C : OutboxCodec V) (now : Nat) :
    List (VerifiedAutomation V × Occurrence V) → Result (List (Prepared V))
  | [] => .ok []
  | (automation, occurrence) :: rest => do
    let prepared ← prepare C automation [occurrence] now
    let more ← prepareCurrent C now rest
    return prepared ++ more

def applyCurrentIn (C : OutboxCodec V) (t : AppOutbox) (tables : OtherTables V) (catalog : EventCatalog V)
    (trustedOwner : String) (occurrences : List (Occurrence V)) (now : Nat) (drawn : Nat → String) :
    Result (AppOutbox × List Receipt) := do
  failIf (occurrences.isEmpty ∨ maxBatch < occurrences.length) .limit
  validateOccurrences C occurrences [] 0
  let _ ← time now
  tables.requireCurrent catalog trustedOwner
  let automations ← occurrences.mapM (currentAutomation tables catalog trustedOwner)
  let prepared ← prepareCurrent C now (automations.zip occurrences)
  acceptAll C now prepared drawn t

/-! ### Delivering -/

def transitionInput (automation : VerifiedAutomation V) (id : String) (revision now : Nat) : Result Receipt := do
  identifier id
  let _ ← time now
  let previous ← t.receipt automation.owner automation.installationId id
  failIf (previous.revision ≠ revision ∨ i64Max ≤ revision ∨ previous.automationId ≠ automation.binding.id ∨
        previous.automationRevision ≠ automation.binding.revision ∨ maxAttempts ≤ previous.attempts ∨
        previous.payload.isNone ∨ previous.invocation.isNone ∨ !previous.state.isPending ∨
        now < previous.acceptedAtMs ∨ previous.expiresAtMs ≤ now ∨ now < previous.nextAttemptAtMs) .conflict
  return previous

def names (owner installation id : String) (revision : Nat) (row : OutboxRow) : Bool :=
  row.isOf owner installation && row.receiptId = id && row.revision = revision

def markQueuedIn (tables : OtherTables V) (automation : VerifiedAutomation V) (id : String)
    (expectedRevision : Nat) (queuedPromptId : String) (now : Nat) : Result (AppOutbox × Receipt) := do
  identifier queuedPromptId
  automation.requireCurrent tables
  let previous ← t.transitionInput automation id expectedRevision now
  failIf (now < previous.acceptedAtMs ∨ previous.expiresAtMs ≤ now ∨ now < previous.nextAttemptAtMs) .conflict
  let t ← t.updateOne (names automation.owner automation.installationId id expectedRevision) (fun row => release {
    row with
    state := .queued
    revision := row.revision + 1
    attempts := row.attempts + 1
    queuedPromptId := some queuedPromptId
    queuedSessionId := some automation.binding.sessionId })
  let receipt ← t.receipt automation.owner automation.installationId id
  return (t, receipt)

def markRetryableIn (tables : OtherTables V) (automation : VerifiedAutomation V) (id : String)
    (expectedRevision retryAtMs now : Nat) : Result (AppOutbox × Receipt) := do
  automation.requireCurrent tables
  let previous ← t.transitionInput automation id expectedRevision now
  failIf (retryAtMs ≤ now ∨ previous.expiresAtMs ≤ retryAtMs ∨ maxAttempts ≤ previous.attempts + 1) .limit
  let retryAt ← time retryAtMs
  let t ← t.updateOne (names automation.owner automation.installationId id expectedRevision) (fun row => {
    row with
    state := .retryable
    revision := row.revision + 1
    attempts := row.attempts + 1
    nextAttemptAtMs := retryAt })
  let receipt ← t.receipt automation.owner automation.installationId id
  return (t, receipt)

def markFailedAttemptIn (tables : OtherTables V) (automation : VerifiedAutomation V) (id : String)
    (expectedRevision now : Nat) : Result (AppOutbox × Receipt) := do
  automation.requireCurrent tables
  let _ ← t.transitionInput automation id expectedRevision now
  let t ← t.updateOne (names automation.owner automation.installationId id expectedRevision) (fun row => release {
    row with
    state := .failed
    revision := row.revision + 1
    attempts := row.attempts + 1 })
  let receipt ← t.receipt automation.owner automation.installationId id
  return (t, receipt)

/-- The state that a receipt may be settled in. -/
def settledState (previous : Receipt) (state : ReceiptState) (now : Nat) : Result ReceiptState :=
  match previous.state, state with
  | .queued, .delivered => .ok .delivered
  | .accepted, .failed => .ok .failed
  | .retryable, .failed => .ok .failed
  | .accepted, .expired => if previous.expiresAtMs ≤ now then .ok .expired else .error .conflict
  | .retryable, .expired => if previous.expiresAtMs ≤ now then .ok .expired else .error .conflict
  | _, _ => .error .conflict

def settleIn (tables : OtherTables V) (catalog : EventCatalog V) (owner id : String)
    (expectedRevision : Nat) (state : ReceiptState) (now : Nat) : Result (AppOutbox × Receipt) := do
  tables.requireCurrent catalog owner
  let _ ← time now
  identifier id
  let previous ← t.receipt owner catalog.installationId id
  failIf (previous.revision ≠ expectedRevision ∨ i64Max ≤ expectedRevision ∨ now < previous.acceptedAtMs) .conflict
  let target ← settledState previous state now
  let t ← t.updateOne (names owner catalog.installationId id expectedRevision) (fun row => release {
    row with
    state := target
    revision := row.revision + 1 })
  let receipt ← t.receipt owner catalog.installationId id
  return (t, receipt)

/-! ### Housekeeping -/

structure Maintenance where
  minimumOccurredAtMs : Nat
  expired : Nat
  failed : Nat
  pruned : Nat
  deriving DecidableEq, Repr

/-- The pending receipts that `maintain_in` looks at, 256 at most. -/
def candidates (owner installation : String) (now : Nat) : List OutboxRow :=
  (t.rows.filter (fun row => row.isOf owner installation && row.state.isPending &&
    (row.expiresAtMs ≤ now || row.payload.isNone || row.invocation.isNone ||
      !"evt1.".toList.isPrefixOf row.identity.occurrenceId.toList))).take 256

/-- End a candidate that is expired or that this version cannot deliver. -/
def classify (owner installation : String) (now : Nat) (s : AppOutbox × Maintenance) (candidate : OutboxRow) :
    AppOutbox × Maintenance :=
  let isExpired := decide (candidate.expiresAtMs ≤ now)
  let valid := candidate.payload.isSome && candidate.invocation.isSome &&
    (validate candidate.identity.occurrenceId candidate.occurredAtMs).toOption.isSome
  if !isExpired && valid then s
  else
    (s.1.updateRows
      (fun row => row.isOf owner installation && row.receiptId = candidate.receiptId && row.state.isPending)
      (fun row => release { row with
        state := if isExpired then .expired else .failed
        revision := boundedNext row.revision }),
    if isExpired then { s.2 with expired := s.2.expired + 1 } else { s.2 with failed := s.2.failed + 1 })

/-- The receipts that may be deleted, 256 at most. -/
def prunable (owner installation : String) (floor now : Nat) : List OutboxRow :=
  (t.rows.filter (fun row => row.isOf owner installation && row.state.isTerminal && row.occurredAtMs < floor &&
    row.acceptedAtMs ≤ now - maxOccurrenceAgeMs)).take 256

def prune (owner installation : String) (floor now : Nat) : AppOutbox :=
  let sequences := (t.prunable owner installation floor now).map OutboxRow.sequence
  { t with rows := t.rows.filter (fun row => !sequences.contains row.sequence) }

def maintainIn (tables : OtherTables V) (trustedOwner installationId : String) (now : Nat) :
    Result (AppOutbox × Maintenance) := do
  identifier trustedOwner
  identifier installationId
  let _ ← time now
  failIf (!tables.owns trustedOwner installationId) .notFound
  let (t, floor) ← t.advanceFloor trustedOwner installationId now
  let (t, result) := (t.candidates trustedOwner installationId now).foldl (classify trustedOwner installationId now)
    (t, { minimumOccurredAtMs := floor, expired := 0, failed := 0, pruned := 0 })
  if maxOccurrenceAgeMs ≤ now then
    let pruned := t.prune trustedOwner installationId floor now
    return (pruned, { result with pruned := t.rows.length - pruned.rows.length })
  else return (t, result)

/-- What `break_one_in` does to the receipts of the automation. -/
def failUndelivered (owner installation automationId : String) : AppOutbox :=
  t.updateRows
    (fun row => row.isOf owner installation && row.identity.automationId = automationId && row.state.isPending)
    (fun row => release { row with state := .failed, revision := boundedNext row.revision })

/-- `initialize` on a database that has its tables: receipts without an invocation fail. -/
def initializeTables : AppOutbox :=
  t.updateRows (fun row => row.state.isPending && row.invocation.isNone)
    (fun row => release { row with state := .failed, revision := boundedNext row.revision })

end AppOutbox

end Chariox
