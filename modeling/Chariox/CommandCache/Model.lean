import Chariox.Lib.CrashProg
import Chariox.Lib.Durable
import Chariox.Lib.OrdMap

/-!
# The at-most-once command journal

A command is reserved before it runs and settled after it.  Reservations and replies are lines of a receipt file; the
identities of evicted receipts are lines of a marker file.  The journal holds one lock through each reservation and each
settlement, so these are programs that run one after the other; each of their file operations may fail or be the last
one before a crash.

The text of a record is not modelled: `ReceiptCodec` states what the journal relies on.  The file under a temporary
name, which nothing reads, appears only with its rename.
-/

namespace Chariox.CommandCache

inductive KernelCallerKind
  | localClient | remoteClient | remoteKernel | hostedService | metaagent
  deriving DecidableEq, Repr

inductive KernelConnectionClass
  | terminal | externalAgent | kernelAgent | host | relayPeer | unauthenticated
  deriving DecidableEq, Repr

structure KernelCaller where
  callerId : String
  callerKind : KernelCallerKind
  userId : Option String
  clientId : Option String
  machineId : Option String
  realmId : Option String
  publicKeyThumbprint : Option String
  metaagentId : Option String
  connectionClass : Option KernelConnectionClass
  deriving DecidableEq, Repr

structure CommandFingerprint where
  commandType : String
  source : String
  sessionId : Option String
  attachmentId : Option String
  requestHash : UInt64
  browserCaller : Option KernelCaller
  browserProtectionRevision : Option Nat
  deriving DecidableEq, Repr

structure KernelTransportError where
  code : String
  message : String
  retryable : Bool
  deriving DecidableEq, Repr

/-- A reply as it is kept; the response is its JSON text. -/
structure CachedCommandResult where
  response : Option String
  error : Option KernelTransportError
  completedAtMs : Nat
  fingerprint : CommandFingerprint
  deriving DecidableEq, Repr

structure PersistentCommandResult where
  commandId : String
  completedAtMs : Nat
  result : CachedCommandResult
  deriving DecidableEq, Repr

abbrev Receipt := PersistentCommandResult

def newline : UInt8 := 10

def carriageReturn : UInt8 := 13

def openBrace : UInt8 := 123

/-- The texts of records: each is one line that starts an object, reads back as a record of the same command, and is no
longer a record once the beginnings of other records stand before it on the line. -/
structure ReceiptCodec where
  encode : Receipt → Bytes
  decode : Bytes → Option Receipt
  decode_encode : ∀ r, ∃ r', decode (encode r) = some r' ∧ r'.commandId = r.commandId
  one_line : ∀ r, newline ∉ encode r ∧ carriageReturn ∉ encode r
  object : ∀ r, ∃ rest, encode r = openBrace :: rest
  glued : ∀ (torn : List Bytes) r, torn ≠ [] → (∀ t ∈ torn, t ≠ [] ∧ ∃ r', t <+: encode r') →
    decode (torn.flatten ++ encode r) = none

abbrev Digest := Vector UInt8 32

inductive CommandResultEntry
  | pending (fingerprint : CommandFingerprint) (acceptedAtMs : Nat) (waiters : Nat)
  | completed (result : CachedCommandResult)
  deriving DecidableEq, Repr

/-- The answer to a reservation.  A wait already has its reply when the command is completed. -/
inductive CommandReservation
  | dispatch
  | wait (reply : Option CachedCommandResult)
  | conflict
  deriving DecidableEq, Repr

inductive CacheError
  | io
  | other (message : String)
  | capacity
  | expired
  deriving DecidableEq, Repr

structure CommandResultRetentionPolicy where
  maxEntries : Nat
  receiptWindowMs : Nat
  deriving DecidableEq, Repr

/-- What the process holds: the results and their order, the identities that must not run again, whether the marker file
may be appended to, and the number of appends since the last compaction. -/
structure CommandResultCache where
  results : OrdMap String CommandResultEntry
  order : List String
  expired : Finset Digest
  appendUnavailable : Bool
  skippedCompactions : Nat

structure CacheDisk where
  receipts : DirEntry
  markers : DirEntry
  deriving DecidableEq

structure CacheState where
  disk : CacheDisk
  cache : CommandResultCache

abbrev CacheProg := Prog CacheError CacheState

def commandResultCacheMaxBytes : Nat := 50 * 1024 * 1024

def commandResultCompactionSkipLimit : Nat := 1024

def commandResultCompactionFileGrowthMultiplier : Nat := 2

def commandResultCacheMaxPersistedRecordBytes : Nat := 256 * 1024

def receiptExpiryFence : Bytes := "chariox.app-receipts.requires-protocol-416".toUTF8.data.toList

/-! ### Lines -/

/-- The complete lines of a text, without their ends, and what stands after the last line end. -/
def splitLines : Bytes → List Bytes × Bytes
  | [] => ([], [])
  | b :: bs =>
    if b = newline then ([] :: (splitLines bs).1, (splitLines bs).2)
    else
      match (splitLines bs).1 with
      | [] => ([], b :: (splitLines bs).2)
      | line :: lines => ((b :: line) :: lines, (splitLines bs).2)

/-- A line without the carriage return before its line end. -/
def stripCarriageReturn (line : Bytes) : Bytes :=
  if line.getLast? = some carriageReturn then line.dropLast else line

/-- `BufRead::lines`: the complete lines, then the last one if it is not empty. -/
def readLines (text : Bytes) : List Bytes :=
  (splitLines text).1.map stripCarriageReturn ++ if (splitLines text).2 = [] then [] else [(splitLines text).2]

/-- Whether trimming leaves nothing: only white space, in UTF-8. -/
def isBlank : Bytes → Bool
  | [] => true
  | 0xC2 :: c :: bs => (c == 0x85 || c == 0xA0) && isBlank bs
  | 0xE1 :: 0x9A :: 0x80 :: bs => isBlank bs
  | 0xE2 :: 0x80 :: c :: bs => ((0x80 ≤ c && c ≤ 0x8A) || c == 0xA8 || c == 0xA9 || c == 0xAF) && isBlank bs
  | 0xE2 :: 0x81 :: 0x9F :: bs => isBlank bs
  | 0xE3 :: 0x80 :: 0x80 :: bs => isBlank bs
  | b :: bs => ((9 ≤ b && b ≤ 13) || b == 32) && isBlank bs

/-! ### Reading the receipts -/

structure LoadedPersistentCommandResults where
  entries : List Receipt
  compactAfterLoad : Bool
  deriving DecidableEq, Repr

/-- The results read so far, with the order of their last lines. -/
structure ReceiptScan where
  results : OrdMap String Receipt
  order : List String
  compactAfterLoad : Bool

def persistentResultCompletedAtMs (entry : Receipt) : Nat :=
  if entry.completedAtMs ≠ 0 then entry.completedAtMs else entry.result.completedAtMs

/-- The completion time of a record that follows another of its command: unknown if one of them is, else the later. -/
def mergedCompletedAtMs (previous : Option Receipt) (entry : Receipt) : Nat :=
  match previous with
  | none => persistentResultCompletedAtMs entry
  | some previous =>
    let prior := persistentResultCompletedAtMs previous
    let completedAtMs := persistentResultCompletedAtMs entry
    if prior = 0 || completedAtMs = 0 then 0 else max prior completedAtMs

section Programs

variable (codec : ReceiptCodec) (sha256 : String → Digest) (policy : CommandResultRetentionPolicy)

def persistentResultJsonlBytes (entry : Receipt) : Nat := (codec.encode entry).length + 1

/-- Take up one record: its command moves to the end of the order. -/
def ReceiptScan.insert (scan : ReceiptScan) (entry : Receipt) : ReceiptScan :=
  let completedAtMs := mergedCompletedAtMs (scan.results.get entry.commandId) entry
  let entry := { entry with completedAtMs, result := { entry.result with completedAtMs } }
  { results := scan.results.insert entry.commandId entry
    order := scan.order.filter (fun id => id ≠ entry.commandId) ++ [entry.commandId]
    compactAfterLoad := scan.compactAfterLoad || scan.order.contains entry.commandId ||
      scan.results.contains entry.commandId }

def ReceiptScan.line (scan : ReceiptScan) (line : Bytes) : Except CacheError ReceiptScan :=
  if isBlank line then .ok scan
  else if line = receiptExpiryFence then .ok scan
  else if line.length + 1 > commandResultCacheMaxPersistedRecordBytes then
    .error (.other "oversized at-most-once receipt")
  else
    match codec.decode line with
    | none => .error (.other "corrupt at-most-once receipt")
    | some entry => .ok (scan.insert entry)

def scanReceipts (text : Bytes) : Except CacheError ReceiptScan :=
  (readLines text).foldlM (ReceiptScan.line codec) { results := .empty, order := [], compactAfterLoad := false }

/-- A file operation that changes nothing the journal reads. -/
def fileOperation : CacheProg Unit := .step (fun _ s => s) .io

def readPersistentResults : CacheProg LoadedPersistentCommandResults := do
  fileOperation
  let s ← Prog.get
  match s.disk.receipts.current with
  | none => pure { entries := [], compactAfterLoad := false }
  | some file =>
    if file.visible.length > commandResultCacheMaxBytes * commandResultCompactionFileGrowthMultiplier then
      Prog.throw (.other "at-most-once receipts exceed the load limit")
    else do
      fileOperation
      fileOperation
      match scanReceipts codec file.visible with
      | .error e => Prog.throw e
      | .ok scan => pure {
          entries := scan.order.filterMap scan.results.get
          compactAfterLoad := scan.compactAfterLoad }

/-! ### Writing the receipts -/

/-- How many bytes of a write happen. -/
def writtenBytes (bytes : Bytes) : Fate → Bytes
  | .ok => bytes
  | .fail n => bytes.take n
  | .crash n => bytes.take n

def CacheState.setReceipts (s : CacheState) (receipts : DirEntry) : CacheState :=
  { s with disk := { s.disk with receipts := receipts } }

def CacheState.setMarkers (s : CacheState) (markers : DirEntry) : CacheState :=
  { s with disk := { s.disk with markers := markers } }

def syncReceipts : CacheProg Unit :=
  .step (fun fate s => if fate = .ok then s.setReceipts s.disk.receipts.sync else s) .io

def syncDirectory : CacheProg Unit :=
  .step (fun fate s => if fate = .ok then
    { s with disk := { receipts := s.disk.receipts.syncDir, markers := s.disk.markers.syncDir } } else s) .io

def appendPersistentResult (entry : Receipt) : CacheProg Unit := do
  fileOperation
  .step (fun fate s =>
    s.setReceipts (s.disk.receipts.append (writtenBytes (codec.encode entry ++ [newline]) fate))) .io

def rewrittenText (fence : Bool) (entries : List Receipt) : Bytes :=
  (if fence then receiptExpiryFence ++ [newline] else []) ++
    (entries.map (fun entry => codec.encode entry ++ [newline])).flatten

/-- Whether a rename that was the last step before a crash took place. -/
def renamed : Fate → Bool
  | .ok => true
  | .fail _ => false
  | .crash n => n ≠ 0

def rewritePersistentResults (entries : List Receipt) : CacheProg Unit := do
  fileOperation
  fileOperation
  fileOperation
  let s ← Prog.get
  let text := rewrittenText codec (s.disk.markers.visible ≠ []) entries
  fileOperation
  fileOperation
  .step (fun fate s => if renamed fate then s.setReceipts (s.disk.receipts.replace (.synced text)) else s) .io
  fileOperation
  syncDirectory

/-- `should_compact_now`: after enough appends, or when the file has grown too much. -/
def shouldCompactNow (nextAppendBytes : Nat) : CacheProg Bool := do
  Prog.modify (fun s => { s with cache := { s.cache with skippedCompactions := s.cache.skippedCompactions + 1 } })
  let s ← Prog.get
  if s.cache.skippedCompactions ≥ commandResultCompactionSkipLimit then pure true
  else do
    fileOperation
    pure (decide (s.disk.receipts.visible.length + nextAppendBytes >
      commandResultCacheMaxBytes * commandResultCompactionFileGrowthMultiplier))

/-- The compaction before an append: the file is read back and rewritten with one line for each command. -/
def compactReceipts (nextAppendBytes : Nat) : CacheProg Unit := do
  let compact ← shouldCompactNow nextAppendBytes
  if compact then do
    let loaded ← readPersistentResults codec
    rewritePersistentResults codec loaded.entries
    Prog.modify (fun s => { s with cache := { s.cache with skippedCompactions := 0 } })
  else pure ()

variable (commandId : String)

def persistCompletedResult (cached : CachedCommandResult) : CacheProg Unit :=
  let persisted : Receipt := { commandId, completedAtMs := cached.completedAtMs, result := cached }
  let bytes := persistentResultJsonlBytes codec persisted
  if bytes > commandResultCacheMaxPersistedRecordBytes then pure ()
  else do
    fileOperation
    compactReceipts codec bytes
    appendPersistentResult codec persisted
    fileOperation
    syncReceipts

/-! ### Expired receipts -/

def hexDigit (n : Nat) : UInt8 := if n < 10 then .ofNat (48 + n) else .ofNat (87 + n)

def hexValue (b : UInt8) : Nat := if b.toNat < 58 then b.toNat - 48 else b.toNat - 87

def isHexDigit (b : UInt8) : Bool := (48 ≤ b && b ≤ 57) || (97 ≤ b && b ≤ 102)

/-- The text of a digest. -/
def identity (digest : Digest) : Bytes :=
  digest.toList.flatMap (fun byte => [hexDigit (byte.toNat / 16), hexDigit (byte.toNat % 16)])

/-- The digest that a text of 64 hexadecimal digits stands for. -/
def digestOfText (text : Bytes) : Digest :=
  .ofFn (fun i => .ofNat (16 * hexValue (text.getD (2 * i) 0) + hexValue (text.getD (2 * i + 1) 0)))

def markerLine (expired : Finset Digest) (line : Bytes) : Except CacheError (Finset Digest) :=
  if line.length ≠ 64 || !line.all isHexDigit then .error (.other "corrupt expired receipt marker")
  else .ok (insert (digestOfText line) expired)

/-- Read the complete lines of the marker file. -/
def parseMarkers (lines : List Bytes) : Except CacheError (Finset Digest) := lines.foldlM markerLine ∅

def syncMarkers : CacheProg Unit :=
  .step (fun fate s => if fate = .ok then s.setMarkers s.disk.markers.sync else s) .io

def truncateMarkers (length : Nat) : CacheProg Unit :=
  .step (fun fate s => if renamed fate then s.setMarkers (s.disk.markers.truncate length) else s) .io

def dropTornMarker (text : Bytes) : CacheProg Unit :=
  if (splitLines text).2 = [] then pure () else truncateMarkers (text.length - (splitLines text).2.length)

/-- `ReceiptRetention::load`: a torn last line is cut off, and what was read is made durable. -/
def loadReceiptRetention : CacheProg (Finset Digest) := do
  fileOperation
  let s ← Prog.get
  match s.disk.markers.current with
  | none => pure ∅
  | some file => do
    fileOperation
    if file.visible.length > commandResultCacheMaxBytes then
      Prog.throw (.other "expired receipt markers exceed the load limit")
    else do
      fileOperation
      match parseMarkers (splitLines file.visible).1 with
      | .error e => Prog.throw e
      | .ok expired => do
        dropTornMarker file.visible
        syncMarkers
        fileOperation
        syncDirectory
        pure expired

/-- Take a failed marker back: truncate to the length before it, and give up appending where that fails too. -/
def restoreMarkers (digest : Digest) (inserted : Bool) (before : Nat) : CacheProg Unit := do
  let restored ← Prog.attempt (do
    truncateMarkers before
    syncMarkers)
  match restored with
  | .error _ => Prog.modify (fun s => { s with cache := { s.cache with appendUnavailable := true } })
  | .ok () =>
    if inserted then
      Prog.modify (fun s => { s with cache := { s.cache with expired := s.cache.expired.erase digest } })
    else pure ()

/-- Write a marker for a digest that the process already refuses. -/
def writeMarker (digest : Digest) (inserted : Bool) (before : Nat) : CacheProg Unit := do
  let written ← Prog.attempt (.step (fun fate s =>
    s.setMarkers (s.disk.markers.append (writtenBytes (identity digest ++ [newline]) fate))) .io)
  match written with
  | .error e => do
    restoreMarkers digest inserted before
    Prog.throw e
  | .ok () => do
    syncMarkers
    fileOperation
    syncDirectory

def expire : CacheProg Unit := do
  let s ← Prog.get
  if s.cache.appendUnavailable then Prog.throw .capacity
  else do
    fileOperation
    -- opening for an append creates the file
    .step (fun fate s => if renamed fate then s.setMarkers (s.disk.markers.append []) else s) .io
    fileOperation
    let s ← Prog.get
    if s.disk.markers.visible.length + 65 > commandResultCacheMaxBytes then Prog.throw .capacity
    else do
      let digest := sha256 commandId
      Prog.modify (fun s => { s with cache := { s.cache with expired := insert digest s.cache.expired } })
      writeMarker digest (decide (digest ∉ s.cache.expired)) s.disk.markers.visible.length

/-- A completed receipt of known age that left the retention window. -/
def evictable (now : Nat) : Option CommandResultEntry → Bool
  | some (.completed result) =>
    decide (result.completedAtMs ≠ 0) && decide (now - result.completedAtMs > policy.receiptWindowMs)
  | _ => false

def evictExpiredReceipt (now : Nat) : CacheProg Unit := do
  let s ← Prog.get
  match s.cache.order.find? (fun id => evictable policy now (s.cache.results.get id)) with
  | none => Prog.throw .capacity
  | some id => do
    expire sha256 id
    let loaded ← readPersistentResults codec
    let s ← Prog.get
    rewritePersistentResults codec
      (loaded.entries.filter (fun entry => decide (sha256 entry.commandId ∉ s.cache.expired)))
    Prog.modify (fun s => { s with cache := { s.cache with
      results := s.cache.results.remove id
      order := s.cache.order.filter (fun entry => entry ≠ id) } })

/-! ### Operations -/

def CommandResultCache.touch (cache : CommandResultCache) (commandId : String) : CommandResultCache :=
  { cache with order := cache.order.filter (fun id => id ≠ commandId) ++ [commandId] }

def reserveNew (fingerprint : CommandFingerprint) (interruptedResponse : String) (now : Nat) :
    CacheProg CommandReservation := do
  let cached : CachedCommandResult :=
    { response := some interruptedResponse, error := none, completedAtMs := now, fingerprint }
  -- even an ambiguous write failure must block a second dispatch in this process
  Prog.modify (fun s => { s with cache :=
    ({ s.cache with results := s.cache.results.insert commandId (.completed cached) }).touch commandId })
  fileOperation
  appendPersistentResult codec { commandId, completedAtMs := cached.completedAtMs, result := cached }
  fileOperation
  syncReceipts
  fileOperation
  syncDirectory
  Prog.modify (fun s => { s with cache := { s.cache with
    results := s.cache.results.insert commandId (.pending fingerprint cached.completedAtMs 0) } })
  pure .dispatch

def makeRoom (evictNow : Nat) : CacheProg Unit := do
  let s ← Prog.get
  if s.cache.results.len ≥ policy.maxEntries then evictExpiredReceipt codec sha256 policy evictNow else pure ()

def reserveAtMostOnce (fingerprint : CommandFingerprint) (interruptedResponse : String)
    (evictNow now : Nat) : CacheProg CommandReservation := do
  let s ← Prog.get
  if sha256 commandId ∈ s.cache.expired then Prog.throw .expired
  else
    match s.cache.results.get commandId with
    | some (.completed cached) =>
      if cached.fingerprint ≠ fingerprint then pure .conflict
      else do
        persistCompletedResult codec commandId cached
        Prog.modify (fun s => { s with cache := s.cache.touch commandId })
        pure (.wait (some cached))
    | some (.pending prior acceptedAtMs waiters) =>
      if prior ≠ fingerprint then pure .conflict
      else do
        Prog.modify (fun s => { s with cache := { s.cache with
          results := s.cache.results.insert commandId (.pending prior acceptedAtMs (waiters + 1)) } })
        pure (.wait none)
    | none => do
      makeRoom codec sha256 policy evictNow
      reserveNew codec commandId fingerprint interruptedResponse now

/-- The time of a settlement: not before the acceptance. -/
def settledAtMs (now : Nat) : Option CommandResultEntry → Nat
  | some (.pending _ acceptedAtMs _) => max now acceptedAtMs
  | some (.completed result) => max now result.completedAtMs
  | none => now

/-- Append the receipt of a settlement, unless it is too large for a record. -/
def settle (cached : CachedCommandResult) : CacheProg Unit :=
  if persistentResultJsonlBytes codec { commandId, completedAtMs := cached.completedAtMs, result := cached } >
      commandResultCacheMaxPersistedRecordBytes then Prog.throw (.other "oversized at-most-once settlement")
  else persistCompletedResult codec commandId cached

def completeAtMostOnce (fingerprint : CommandFingerprint)
    (response interruptedResponse : String) (now : Nat) : CacheProg Unit := do
  let s ← Prog.get
  let cached : CachedCommandResult := {
    response := some response
    error := none
    completedAtMs := settledAtMs now (s.cache.results.get commandId)
    fingerprint }
  let settled ← Prog.attempt (settle codec commandId cached)
  let published := match settled with
    | .ok () => cached
    | .error _ => { cached with response := some interruptedResponse }
  Prog.modify (fun s => { s with cache :=
    ({ s.cache with results := s.cache.results.insert commandId (.completed published) }).touch commandId })
  match settled with
  | .ok () => pure ()
  | .error e => Prog.throw e

/-- Only the kernel's user may read the receipts; there may be none yet. -/
def restrictToOwner : CacheProg Unit := do
  let s ← Prog.get
  if s.disk.receipts.current.isNone then pure () else fileOperation

def compactAfterLoad (compact : Bool) (entries : List Receipt) : CacheProg Unit :=
  if compact then rewritePersistentResults codec entries else pure ()

def CommandResultCache.ofEntries (expired : Finset Digest) (entries : List Receipt) : CommandResultCache where
  results := entries.foldl (fun results entry => results.insert entry.commandId (.completed entry.result)) .empty
  order := entries.map PersistentCommandResult.commandId
  expired
  appendUnavailable := false
  skippedCompactions := 0

/-- `new_with_retention_loader`: read both files, drop the receipts of expired identities, and compact. -/
def openAtMostOnce : CacheProg Unit := do
  let expired ← loadReceiptRetention
  let loaded ← readPersistentResults codec
  restrictToOwner
  let live := loaded.entries.filter (fun entry => decide (sha256 entry.commandId ∉ expired))
  compactAfterLoad codec (loaded.compactAfterLoad || decide (live.length ≠ loaded.entries.length)) live
  Prog.modify (fun s => { s with cache := .ofEntries expired live })

end Programs

end Chariox.CommandCache
