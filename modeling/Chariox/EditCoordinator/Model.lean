import Chariox.Lib.OrdMap
import Chariox.Lib.Text
import Chariox.TextDocument.Model

/-!
# The edit coordinator

The coordinator tracks the content of artifacts under version numbers.  An edit is prepared on the tracked content, over
a snapshot that its author read, and is committed later if the artifact still has the version it was prepared on.  The
SHA-256 digest of a content is a parameter; it is taken to tell contents apart.
-/

namespace Chariox

open TextDocument

structure WorkspaceIdentity where
  vcsProvider : Option String
  repoId : Option String
  repoUrl : Option String
  branch : Option String
  headCommit : Option String
  worktreeRootFingerprint : String
  deriving DecidableEq, Repr

/-! ### Artifact ids -/

/-- Drop `.git` from the end of a reversed text as often as it occurs. -/
def dropGitReversed : List Char → List Char
  | 't' :: 'i' :: 'g' :: '.' :: rest => dropGitReversed rest
  | text => text

def normalizeRepoUrl (repoUrl : String) : String :=
  String.ofList ((dropGitReversed (trimText repoUrl.toList).reverse).reverse.map Char.toLower)

def coordinationKey (identity : WorkspaceIdentity) : String :=
  match identity.repoId.filter (fun value => value ≠ "") with
  | some repoId => "repo_id:" ++ repoId ++ ":" ++ identity.branch.getD ""
  | none =>
    match identity.repoUrl.filter (fun value => value ≠ "") with
    | some repoUrl => "repo_url:" ++ normalizeRepoUrl repoUrl ++ ":" ++ identity.branch.getD ""
    | none => identity.worktreeRootFingerprint

/-- `Path::components`: the root, a leading dot, and the parts that are neither empty nor a dot. -/
def pathComponents (path : String) : List String :=
  match splitChar '/' path.toList with
  | [] => []
  | first :: parts =>
    let rest := (parts.filter (fun part => part ≠ [] && part ≠ ['.'])).map String.ofList
    if first = [] then if parts = [] then [] else "/" :: rest else String.ofList first :: rest

def normalizePath (path : String) : String := "/".intercalate (pathComponents path)

def artifactIdFor (identity : WorkspaceIdentity) (path : String) : String :=
  coordinationKey identity ++ ":" ++ normalizePath path

/-! ### The state -/

/-- The digest of a content, SHA-256 in the source. -/
structure ContentHash where
  hashContent : ArtifactContent → String

def nextVersion (version : ArtifactVersion) : ArtifactVersion := (version + 1) % 2 ^ 64

structure ArtifactReadRequest where
  workspaceIdentity : WorkspaceIdentity
  path : String
  domain : ArtifactDomainKind
  content : ArtifactContent
  deriving DecidableEq, Repr

structure ArtifactReadResult where
  artifactId : String
  path : String
  domain : ArtifactDomainKind
  version : ArtifactVersion
  snapshotId : String
  content : ArtifactContent
  deriving DecidableEq, Repr

structure AgentEditIntent where
  path : String
  snapshotId : Option String
  operation : AgentEditOperation
  deriving DecidableEq, Repr

structure ArtifactWriteRequest where
  workspaceIdentity : WorkspaceIdentity
  intent : AgentEditIntent
  deriving DecidableEq, Repr

inductive ArtifactEditWarning
  | rebasedOverNonOverlappingChange (baseVersion appliedVersion : ArtifactVersion)
  deriving DecidableEq, Repr

inductive EditResult
  | applied (newVersion : ArtifactVersion)
  | appliedWithWarning (newVersion : ArtifactVersion) (warning : ArtifactEditWarning)
  | rejected (reason : ArtifactEditError)
  deriving DecidableEq, Repr

def EditResult.isApplied : EditResult → Bool
  | applied _ => true
  | appliedWithWarning _ _ => true
  | rejected _ => false

structure PreparedArtifactEdit where
  artifactId : String
  path : String
  domain : ArtifactDomainKind
  previousVersion : ArtifactVersion
  newVersion : ArtifactVersion
  content : ArtifactContent
  warning : Option ArtifactEditWarning
  deriving DecidableEq, Repr

structure TrackedArtifact where
  path : String
  domain : ArtifactDomainKind
  version : ArtifactVersion
  content : ArtifactContent
  contentHash : String
  deriving DecidableEq, Repr

structure SnapshotRecord where
  artifactId : String
  version : ArtifactVersion
  content : ArtifactContent
  deriving DecidableEq, Repr

structure ActiveEditReservation where
  owner : ArtifactReservationOwner
  ranges : List TextRange
  deriving DecidableEq, Repr

structure ArtifactReservationToken where
  artifactId : String
  owner : ArtifactReservationOwner
  deriving DecidableEq, Repr

structure ArtifactEditCoordinator where
  artifacts : OrdMap String TrackedArtifact
  snapshots : OrdMap String SnapshotRecord
  activeReservations : OrdMap String (List ActiveEditReservation)
  nextSnapshot : Nat
  deriving DecidableEq

def wholeArtifactRange : TextRange := ⟨0, usizeMax⟩

def rangesOverlap (left right : List TextRange) : Bool := left.any (fun l => right.any (fun r => l.overlaps r))

def contentMatchesDomain : ArtifactDomainKind → ArtifactContent → Bool
  | .textDocument, .text _ => true
  | .structuredDocument, .text _ => true
  | .opaqueBlob, .bytes _ => true
  | _, _ => false

namespace ArtifactEditCoordinator

abbrev Coordinator := ArtifactEditCoordinator

def new : Coordinator where
  artifacts := .empty
  snapshots := .empty
  activeReservations := .empty
  nextSnapshot := 0

variable (c : Coordinator)

def currentContent (artifactId : String) : Option ArtifactContent :=
  (c.artifacts.get artifactId).map TrackedArtifact.content

def snapshotIdOf (artifactId : String) (version : ArtifactVersion) (n : Nat) : String :=
  "snap:" ++ artifactId ++ ":" ++ toString version ++ ":" ++ toString n

/-! ### Reading and forgetting -/

def readVersion (H : ContentHash) (c : Coordinator) (artifactId : String) (content : ArtifactContent) :
    ArtifactVersion :=
  match c.artifacts.get artifactId with
  | some tracked =>
    if tracked.contentHash = H.hashContent content then tracked.version else nextVersion tracked.version
  | none => .initial

def readArtifact (H : ContentHash) (c : Coordinator) (request : ArtifactReadRequest) :
    Coordinator × ArtifactReadResult :=
  let artifactId := artifactIdFor request.workspaceIdentity request.path
  let version := c.readVersion H artifactId request.content
  let snapshotId := snapshotIdOf artifactId version (c.nextSnapshot + 1)
  ({ c with
      nextSnapshot := c.nextSnapshot + 1
      snapshots := c.snapshots.insert snapshotId { artifactId, version, content := request.content }
      artifacts := c.artifacts.insert artifactId {
        path := request.path
        domain := request.domain
        version
        content := request.content
        contentHash := H.hashContent request.content } },
    { artifactId, path := request.path, domain := request.domain, version, snapshotId, content := request.content })

def forgetArtifact (identity : WorkspaceIdentity) (path : String) : Coordinator :=
  let artifactId := artifactIdFor identity path
  { c with
    artifacts := c.artifacts.remove artifactId
    snapshots := c.snapshots.retain (fun _ snapshot => snapshot.artifactId ≠ artifactId)
    activeReservations := c.activeReservations.remove artifactId }

/-! ### Reservations -/

def tryReserveRanges (identity : WorkspaceIdentity) (path : String)
    (ranges : List TextRange) (owner : ArtifactReservationOwner) :
    Coordinator × Except ArtifactEditError ArtifactReservationToken :=
  let artifactId := artifactIdFor identity path
  let ranges := if ranges.isEmpty then [wholeArtifactRange] else ranges
  let active := (c.activeReservations.get artifactId).getD []
  match active.find? (fun reservation =>
      decide (reservation.owner ≠ owner) && rangesOverlap ranges reservation.ranges) with
  | some reservation =>
    (c, .error (.activeReservationConflict path reservation.owner ranges reservation.ranges
      "workspace live sync edit range is currently reserved by another writer"))
  | none =>
    ({ c with activeReservations := c.activeReservations.insert artifactId (active ++ [{ owner, ranges }]) },
      .ok { artifactId, owner })

def releaseReservation (token : ArtifactReservationToken) : Coordinator :=
  match c.activeReservations.get token.artifactId with
  | none => c
  | some reservations =>
    let rest := reservations.eraseP (fun reservation => reservation.owner = token.owner)
    { c with activeReservations :=
        if rest.isEmpty then c.activeReservations.remove token.artifactId
        else c.activeReservations.insert token.artifactId rest }

/-! ### Preparing -/

/-- The snapshot that an intent names, if it belongs to the artifact. -/
def intentSnapshot (artifactId : String) (intent : AgentEditIntent) :
    Except ArtifactEditError (Option SnapshotRecord) :=
  match intent.snapshotId with
  | none => .ok none
  | some snapshotId =>
    match c.snapshots.get snapshotId with
    | none => .error (.snapshotNotFound snapshotId)
    | some snapshot =>
      if snapshot.artifactId ≠ artifactId then
        .error (.invalidOperation "snapshot belongs to a different artifact")
      else .ok (some snapshot)

variable (tracked : TrackedArtifact)

def applyWholeArtifactEdit (artifactId : String) (tracked : TrackedArtifact)
    (request : ArtifactWriteRequest) : Except ArtifactEditError PreparedArtifactEdit := do
  let snapshot ← c.intentSnapshot artifactId request.intent
  let baseVersion := (snapshot.map SnapshotRecord.version).getD tracked.version
  if baseVersion ≠ tracked.version then
    throw (.conflict tracked.path baseVersion tracked.version [wholeArtifactRange] [wholeArtifactRange]
      "non-text artifacts are coordinated as whole-file locks; reread and retry")
  else if snapshot.any (fun snapshot => snapshot.content ≠ tracked.content) then
    throw (.conflict tracked.path baseVersion tracked.version [wholeArtifactRange] [wholeArtifactRange]
      "non-text artifact content changed since the base snapshot; reread and retry")
  else
    match request.intent.operation with
    | .writeArtifact content =>
      if !contentMatchesDomain tracked.domain content then
        throw (.invalidOperation "write content does not match the artifact domain")
      else
        pure {
          artifactId
          path := tracked.path
          domain := tracked.domain
          previousVersion := tracked.version
          newVersion := nextVersion tracked.version
          content
          warning := none }
    | _ => throw (.unsupportedDomain tracked.domain)

def textConflictError (baseVersion : ArtifactVersion) (current base : Text) (plan : TextEditPlan) : ArtifactEditError :=
  .conflict tracked.path baseVersion tracked.version [plan.range] (changedRanges base current)
    "edit overlaps changes made since the base snapshot; reread and retry"

/-- The version and the text that an edit was planned on: those of its snapshot, or the tracked ones. -/
def textBase (current : Text) : Option SnapshotRecord → Except ArtifactEditError (ArtifactVersion × Text)
  | none => .ok (tracked.version, current)
  | some snapshot =>
    match snapshot.content.asText with
    | none => .error (.unsupportedDomain tracked.domain)
    | some base => .ok (snapshot.version, base)

/-- `rebase_plan` with the error that the coordinator reports for a conflict. -/
def rebaseOver (baseVersion : ArtifactVersion) (current base : Text) (plan : TextEditPlan) :
    Except ArtifactEditError TextEditPlan :=
  match rebasePlan base current plan with
  | .ok rebased => .ok rebased
  | .error (.conflict _ _ _ _ _ _) => .error (textConflictError tracked baseVersion current base plan)
  | .error e => .error e

def applyTextEdit (artifactId : String) (tracked : TrackedArtifact)
    (request : ArtifactWriteRequest) : Except ArtifactEditError PreparedArtifactEdit :=
  match tracked.content.asText with
  | none => .error (.unsupportedDomain tracked.domain)
  | some current => do
    let snapshot ← c.intentSnapshot artifactId request.intent
    let base ← textBase tracked current snapshot
    let plan ← planOperation base.2 request.intent.operation
    let rebased ← rebaseOver tracked base.1 current base.2 plan
    let newContent ← applyPlan current rebased
    pure {
      artifactId
      path := tracked.path
      domain := tracked.domain
      previousVersion := tracked.version
      newVersion := nextVersion tracked.version
      content := .text newContent
      warning := if base.1 ≠ tracked.version then some (.rebasedOverNonOverlappingChange base.1 tracked.version)
        else none }

def prepareEdit (request : ArtifactWriteRequest) : Except ArtifactEditError PreparedArtifactEdit :=
  let artifactId := artifactIdFor request.workspaceIdentity request.intent.path
  match c.artifacts.get artifactId with
  | none => .error (.artifactNotTracked request.intent.path)
  | some tracked =>
    match tracked.domain with
    | .textDocument => c.applyTextEdit artifactId tracked request
    | .structuredDocument => c.applyWholeArtifactEdit artifactId tracked request
    | .opaqueBlob => c.applyWholeArtifactEdit artifactId tracked request

/-! ### Committing -/

def commitPreparedEdit (H : ContentHash) (c : Coordinator) (prepared : PreparedArtifactEdit) :
    Coordinator × EditResult :=
  match c.artifacts.get prepared.artifactId with
  | none => (c, .rejected (.artifactNotTracked prepared.path))
  | some tracked =>
    if tracked.version ≠ prepared.previousVersion then
      (c, .rejected (.conflict prepared.path prepared.previousVersion tracked.version [] []
        "artifact changed after edit preparation; reread and retry"))
    else
      ({ c with
          nextSnapshot := c.nextSnapshot + 1
          snapshots := c.snapshots.insert
            (snapshotIdOf prepared.artifactId prepared.newVersion (c.nextSnapshot + 1))
            { artifactId := prepared.artifactId, version := prepared.newVersion, content := prepared.content }
          artifacts := c.artifacts.insert prepared.artifactId {
            path := prepared.path
            domain := prepared.domain
            version := prepared.newVersion
            content := prepared.content
            contentHash := H.hashContent prepared.content } },
        match prepared.warning with
        | some warning => .appliedWithWarning prepared.newVersion warning
        | none => .applied prepared.newVersion)

def applyEdit (H : ContentHash) (c : Coordinator) (request : ArtifactWriteRequest) : Coordinator × EditResult :=
  match c.prepareEdit request with
  | .ok prepared => c.commitPreparedEdit H prepared
  | .error reason => (c, .rejected reason)

end ArtifactEditCoordinator

end Chariox
