import Chariox.Lib.Except
import Chariox.Lib.OrdMap
import Chariox.Lib.Text

/-!
# Installations of Apps and their data

The tables that the kernel keeps for one installation of an App: its row in `app_installations`, the journal of its
updates, the signers of its stages, and its structured data with the snapshot of an open migration.
-/

namespace Chariox

open List

/-! ### Releases and updates -/

inductive InstallationError
  | database
  | encoding
  | notFound
  | conflict
  | inactive
  | admissionPaused
  | invalid (what : String)
  | invalidTransition
  | approvalRequired
  deriving DecidableEq, Repr

structure ReleaseMetadata where
  appId : String
  version : String
  publisherId : String
  packageDigest : String
  schemaVersion : Nat
  capabilitiesDigest : String
  catalogDigest : String
  viewDigest : String
  deriving DecidableEq, Repr

structure CapabilityApproval where
  decisionId : String
  authorityRef : String
  deriving DecidableEq, Repr

inductive CapabilityDecision
  | pending
  | approved (approval : CapabilityApproval)
  | declined (decisionId authorityRef : String)
  deriving DecidableEq, Repr

structure StageToken where
  installationId : String
  baseGeneration : Nat
  generation : Nat
  deriving DecidableEq, Repr

inductive UpdatePhase
  | staged
  | quiescing
  | prepared
  | committed
  | aborted
  deriving DecidableEq, Repr

def UpdatePhase.terminal (phase : UpdatePhase) : Bool := phase = committed || phase = aborted

structure UpdateRecord where
  token : StageToken
  release : ReleaseMetadata
  decision : CapabilityDecision
  phase : UpdatePhase
  createdAtMs : Nat
  updatedAtMs : Nat
  abortReason : Option String
  deriving DecidableEq, Repr

structure ActiveGeneration where
  generation : Nat
  release : ReleaseMetadata
  approval : CapabilityApproval
  deriving DecidableEq, Repr

inductive InstallationChannel
  | dev
  | release
  deriving DecidableEq, Repr

structure Installation where
  installationId : String
  appId : String
  ownerId : String
  channel : InstallationChannel
  devRoomId : Option String
  generation : Nat
  active : Option ActiveGeneration
  pendingGeneration : Option Nat
  admissionPaused : Bool
  retained : Option ActiveGeneration
  deriving DecidableEq, Repr

/-- The release that the data of the installation belongs to. -/
def Installation.dataRelease (installation : Installation) : Option ActiveGeneration :=
  installation.active.or installation.retained

/-- The row of the installation; the last generation number given out is in no other type. -/
structure InstallationRow extends Installation where
  allocatedGeneration : Nat
  deriving DecidableEq, Repr

/-! ### Structured data -/

def maxKeys : Nat := 4096
def maxKeyBytes : Nat := 128
def maxValueBytes : Nat := 256 * 1024
def maxChangeBytes : Nat := 512 * 1024
def maxStateBytes : Nat := 16 * 1024 * 1024
def maxChanges : Nat := 64
def maxChecks : Nat := 128
def maxRevision : Nat := 9007199254740991

inductive StateError
  | database
  | installation (error : InstallationError)
  | invalid
  | conflict
  | schemaMismatch
  | limit
  | corrupt
  deriving DecidableEq, Repr

structure StateScope where
  owner : String
  installation : String
  generation : Nat
  deriving DecidableEq, Repr

/-- JSON values as the library reads and writes them; `encode` includes the bounds on nesting and size. -/
structure StateCodec (V : Type) where
  encode : V → Except StateError String
  decode : String → Option V

structure StateCheck where
  key : String
  version : Option Nat
  deriving DecidableEq, Repr

inductive StateWrite (V : Type)
  | put (key : String) (value : V)
  | delete (key : String)

/-- Checked changes: every key is written once at most. -/
structure StateChanges where
  schemaVersion : Nat
  checks : List StateCheck
  writes : List (String × Option String)
  distinct : (writes.map Prod.fst).Nodup

namespace StateChanges

variable {V : Type}

def key (value : String) : Except StateError Unit :=
  failIf (value = "" ∨ maxKeyBytes < value.utf8ByteSize ∨ value.toList.any isControl) .invalid

/-- The loop over the checks: the bytes of their keys. -/
def checkChecks : List StateCheck → List String → Nat → Except StateError Nat
  | [], _, bytes => .ok bytes
  | check :: rest, seen, bytes => do
    key check.key
    failIf (check.key ∈ seen ∨ check.version.any (fun version => version = 0 || maxRevision < version)) .invalid
    checkChecks rest (check.key :: seen) (bytes + check.key.utf8ByteSize)

def encodeWrite (C : StateCodec V) : StateWrite V → Except StateError (String × Option String)
  | .put key value => do
    let text ← C.encode value
    failIf (maxValueBytes < text.utf8ByteSize) .limit
    return (key, some text)
  | .delete key => .ok (key, none)

def encodeWrites (C : StateCodec V) :
    List (StateWrite V) → List String → Nat → Except StateError (List (String × Option String))
  | [], _, _ => .ok []
  | write :: rest, seen, bytes => do
    let (name, value) ← encodeWrite C write
    key name
    let bytes := bytes + (name.utf8ByteSize + (value.map String.utf8ByteSize).getD 0)
    failIf (maxChangeBytes < bytes) .limit
    failIf (name ∈ seen) .invalid
    let more ← encodeWrites C rest (name :: seen) bytes
    return (name, value) :: more

theorem encodeWrites_distinct {C : StateCodec V} {ws : List (StateWrite V)} {seen : List String} {bs : Nat}
    {encoded : List (String × Option String)} (h : encodeWrites C ws seen bs = .ok encoded) :
    (encoded.map Prod.fst).Nodup ∧ (encoded.map Prod.fst).Disjoint seen := by
  induction ws generalizing seen bs encoded with
  | nil =>
    cases h
    exact ⟨nodup_nil, disjoint_nil_left _⟩
  | cons w rest ih =>
    obtain ⟨⟨name, v⟩, -, h⟩ := of_bind_ok h
    have h := of_check h
    have h := of_check h
    obtain ⟨_, hf, h⟩ := of_bind_ok h
    obtain ⟨more, hm, h⟩ := of_bind_ok h
    cases h
    obtain ⟨hnd, hd⟩ := ih hm
    obtain ⟨hn, hd⟩ := disjoint_cons_right.1 hd
    rw [map_cons, nodup_cons, disjoint_cons_left]
    exact ⟨⟨hn, hnd⟩, not_of_failIf hf, hd⟩

def new (C : StateCodec V) (schemaVersion : Nat) (checks : List StateCheck) (writes : List (StateWrite V)) :
    Except StateError StateChanges := do
  failIf (maxChecks < checks.length ∨ maxChanges < writes.length) .limit
  let bytes ← checkChecks checks [] 0
  match h : encodeWrites C writes [] bytes with
  | .error e => .error e
  | .ok encoded => .ok { schemaVersion, checks, writes := encoded, distinct := (encodeWrites_distinct h).1 }

end StateChanges

structure StateValue where
  version : Nat
  text : String
  deriving DecidableEq, Repr

structure StateHead where
  revision : Nat
  keyCount : Nat
  payloadBytes : Nat
  deriving DecidableEq, Repr

structure StateMigration where
  generation : Nat
  head : Option StateHead
  target : Nat
  migrated : Nat
  deriving DecidableEq, Repr

/-- The rows of the installation in `app_state_heads`, `app_state_values`, `app_state_migrations` and
`app_state_snapshot_values`. -/
structure ManagedState where
  head : Option StateHead
  values : OrdMap String StateValue
  migration : Option StateMigration
  snapshot : OrdMap String StateValue
  deriving DecidableEq

namespace ManagedState

variable {V : Type}

def new : ManagedState where
  head := none
  values := .empty
  migration := none
  snapshot := .empty

/-! ### Migrations -/

variable (s : ManagedState)

def discard : ManagedState := { s with migration := none, snapshot := .empty }

/-- The migration that a generation opened. -/
def migrationOf (generation : Nat) : Option StateMigration :=
  s.migration.filter (fun migration => migration.generation = generation)

def beginIn (generation source target : Nat) : Except InstallationError ManagedState :=
  if (s.migrationOf generation).isSome then .ok s
  else do
    -- the CHECK constraints of the table
    failIf (generation = 0 ∨ target < source) .database
    return { s with
      migration := some { generation, head := s.head, target, migrated := source }
      snapshot := s.values }

def nextSchema (generation : Nat) : Option Nat :=
  (s.migrationOf generation).bind (fun migration =>
    if migration.migrated < migration.target then some (migration.migrated + 1) else none)

/-- `migration::admit`: the schema that a migrating worker of the pending generation writes next. -/
def admitMigrating (installation : Except InstallationError Installation) (scope : StateScope) :
    Except StateError (Option Nat) := do
  let installation ← installation.mapError .installation
  failIf (installation.ownerId ≠ scope.owner) (.installation .notFound)
  if installation.pendingGeneration ≠ some scope.generation ∨ installation.admissionPaused = false then return none
  else return s.nextSchema scope.generation

def setMigrated (migrated : Nat) : ManagedState :=
  { s with migration := s.migration.map (fun migration => { migration with migrated }) }

def step (installation : Except InstallationError Installation) (scope : StateScope) (schema : Nat) :
    Except StateError ManagedState := do
  let next ← s.admitMigrating installation scope
  failIf (next ≠ some schema) .schemaMismatch
  return s.setMigrated schema

def finishIn (generation : Nat) : Except InstallationError ManagedState :=
  match s.migrationOf generation with
  | none => .ok s
  | some migration =>
    if migration.migrated ≠ migration.target then .error (.invalid "data migration incomplete") else .ok s.discard

/-- `put_back`: the values and the head of the snapshot, under a revision that only moves forward. -/
def putBack (generation : Nat) : Except InstallationError (Option ManagedState) :=
  match s.migrationOf generation with
  | none => .ok none
  | some migration => do
    let saved := migration.head.getD ⟨0, 0, 0⟩
    let current := (s.head.map StateHead.revision).getD 0
    let revision := if saved.revision < current then current + 1 else saved.revision
    failIf (i64Max < revision) .database
    return some { s with head := some { saved with revision }, values := s.snapshot }

def restoreIn (generation : Nat) : Except InstallationError ManagedState := do
  match ← s.putBack generation with
  | none => return s
  | some restored => return restored.discard

variable (installation : Except InstallationError Installation)

def rewind (scope : StateScope) : Except StateError (ManagedState × Option Nat) := do
  match ← s.admitMigrating installation scope with
  | none => return (s, none)
  | some _ =>
    let loaded ← installation.mapError .installation
    let source := (loaded.dataRelease.map (fun data => data.release.schemaVersion)).getD 0
    let restored ← (s.putBack scope.generation).mapError .installation
    let s := restored.getD s
    -- the CHECK constraint of the table
    failIf (s.migration.any (fun migration => migration.target < source)) .database
    return (s.setMigrated source, some source)

/-! ### Changes -/

def activeOf (scope : StateScope) : Except StateError ActiveGeneration := do
  let installation ← installation.mapError .installation
  failIf (installation.ownerId ≠ scope.owner) (.installation .notFound)
  failIf (installation.generation ≠ scope.generation) (.installation .conflict)
  failIf (installation.admissionPaused = true) (.installation .admissionPaused)
  match installation.active with
  | none => throw (.installation .inactive)
  | some active => return active

/-- `store::admit`: the schema that the state operations of a scope must carry. -/
def admitSchema (scope : StateScope) : Except StateError Nat := do
  match ← s.admitMigrating installation scope with
  | some schema => return schema
  | none => return (← activeOf installation scope).release.schemaVersion

structure StateRecord (V : Type) where
  value : V
  version : Nat

def read (C : StateCodec V) (s : ManagedState) (key : String) : Except StateError (Option (StateRecord V)) :=
  match s.values.get key with
  | none => .ok none
  | some stored =>
    if stored.version = 0 ∨ maxRevision < stored.version ∨ maxValueBytes < stored.text.utf8ByteSize then
      .error .corrupt
    else
      match C.decode stored.text with
      | none => .error .corrupt
      | some value => .ok (some { value, version := stored.version })

def checkVersions (C : StateCodec V) (s : ManagedState) : List StateCheck → Except StateError Unit
  | [] => .ok ()
  | check :: rest => do
    let record ← s.read C check.key
    failIf (record.map StateRecord.version ≠ check.version) .conflict
    checkVersions C s rest

/-- How one write changes the number of keys and bytes. -/
def footprint (total : Int × Int) (write : String × Option String) : Int × Int :=
  let size (text : String) : Int := write.1.utf8ByteSize + text.utf8ByteSize
  let total := match s.values.get write.1 with
    | none => total
    | some old => (total.1 - 1, total.2 - size old.text)
  match write.2 with
  | none => total
  | some text => (total.1 + 1, total.2 + size text)

def store (version : Nat) (values : OrdMap String StateValue) (write : String × Option String) :
    OrdMap String StateValue :=
  match write.2 with
  | none => values.remove write.1
  | some text => values.insert write.1 { version, text }

def apply (C : StateCodec V) (s : ManagedState) (installation : Except InstallationError Installation)
    (scope : StateScope) (changes : StateChanges) : Except StateError (ManagedState × Nat) := do
  let schema ← s.admitSchema installation scope
  failIf (schema ≠ changes.schemaVersion) .schemaMismatch
  let head := s.head.getD ⟨0, 0, 0⟩
  failIf (maxRevision < head.revision ∨ maxKeys < head.keyCount ∨ maxStateBytes < head.payloadBytes) .corrupt
  s.checkVersions C changes.checks
  if changes.writes = [] then return (s, head.revision)
  else
    failIf (head.revision = maxRevision) .limit
    let next := head.revision + 1
    let (keys, bytes) := changes.writes.foldl s.footprint ((head.keyCount : Int), (head.payloadBytes : Int))
    failIf (keys < 0 ∨ bytes < 0) .corrupt
    failIf (keys > maxKeys ∨ bytes > maxStateBytes) .limit
    return ({ s with
        head := some { revision := next, keyCount := keys.toNat, payloadBytes := bytes.toNat }
        values := changes.writes.foldl (store next) s.values },
      next)

end ManagedState

end Chariox
