import Chariox.AppInstallation.Model

/-!
# The installation registry

The operations on the tables of one installation: the plain ones of `InstallationRegistry`, those of verified packages,
and those that the supervisor composes with its own records.  Each is one transaction: it succeeds as a whole or changes
nothing.  What an operation reads of other installations and of publisher trust is an argument (`OtherRecords`).
-/

namespace Chariox

def retainedUpdateRecords : Nat := 64

inductive VerifiedStageError
  | installation (error : InstallationError)
  | trust
  | signerMismatch
  | metadata
  deriving DecidableEq, Repr

/-- An enrolled publisher key of an owner, at a revision of its enrollment. -/
structure TrustedPublisherSnapshot where
  ownerId : String
  publisherId : String
  keyId : String
  publicKeyFingerprint : String
  revision : Nat
  deriving DecidableEq, Repr

structure VerifiedInstallCandidate where
  release : ReleaseMetadata
  trust : TrustedPublisherSnapshot
  deriving DecidableEq, Repr

/-- A row of `app_installation_stage_trust`. -/
structure StageTrust where
  baseGeneration : Nat
  ownerId : String
  packageDigest : String
  publisherId : String
  keyId : String
  trustRevision : Nat
  publicKeyFingerprint : String
  deriving DecidableEq, Repr

structure StageTrustBinding where
  token : StageToken
  ownerId : String
  packageDigest : String
  publisherId : String
  keyId : String
  trustRevision : Nat
  publicKeyFingerprint : String
  deriving DecidableEq, Repr

/-- What the records outside the installation say: whether an enrollment is current for an owner, the package digest
known for a release version, and whether the owner has a development installation in a Room. -/
structure OtherRecords where
  trustCurrent : TrustedPublisherSnapshot → String → Bool
  knownDigest : String → ReleaseMetadata → Option String
  devInstalled : String → String → String → Bool

def devPublisherId : String := "local_dev"

structure InstallationTables where
  installationId : String
  row : Option InstallationRow
  updates : OrdMap Nat UpdateRecord
  stageTrust : OrdMap Nat StageTrust
  supervisedStages : List Nat
  state : ManagedState
  deriving DecidableEq

namespace InstallationTables

abbrev Tables := InstallationTables

abbrev Result := Except InstallationError

abbrev VerifiedResult := Except VerifiedStageError

def new (installationId : String) : Tables where
  installationId
  row := none
  updates := .empty
  stageTrust := .empty
  supervisedStages := []
  state := .new

/-! ### Reading -/

def sqlGeneration (generation : Nat) : Result Nat :=
  toI64 generation (.invalid "generation outside SQLite integer range")

def identifier (value : String) : Result Unit :=
  failIf (trimText value.toList = [] ∨ 128 < value.utf8ByteSize ∨ value.toList.any isControl) (.invalid "identifier")

def validateRelease (release : ReleaseMetadata) : Result Unit := do
  identifier release.appId
  identifier release.version
  identifier release.publisherId
  failIf (!([release.packageDigest, release.capabilitiesDigest, release.catalogDigest, release.viewDigest].all isDigest))
    (.invalid "digest")

variable (t : Tables)

def loadRow (id : String) : Result InstallationRow :=
  match t.row with
  | none => .error .notFound
  | some row => if id = t.installationId then .ok row else .error .notFound

def loadInstallation (id : String) : Result Installation :=
  (t.loadRow id).map InstallationRow.toInstallation

def loadUpdate (id : String) (generation : Nat) : Result UpdateRecord := do
  let _ ← sqlGeneration generation
  match t.updates.get generation with
  | none => throw .notFound
  | some record => if id = t.installationId then return record else throw .notFound

def expectedGeneration (installation : Installation) (expected : Nat) : Result Unit := do
  let _ ← sqlGeneration expected
  failIf (installation.generation ≠ expected) .conflict

def currentUpdate (token : StageToken) : Result UpdateRecord := do
  let _ ← sqlGeneration token.baseGeneration
  let _ ← sqlGeneration token.generation
  let record ← t.loadUpdate token.installationId token.generation
  failIf (record.phase.terminal) .invalidTransition
  let installation ← t.loadInstallation token.installationId
  expectedGeneration installation token.baseGeneration
  failIf (record.token ≠ token ∨ installation.pendingGeneration ≠ some token.generation) .conflict
  return record

def requireActive (id : String) (generation : Nat) : Result ActiveGeneration := do
  let installation ← t.loadInstallation id
  expectedGeneration installation generation
  failIf (installation.admissionPaused = true) .admissionPaused
  match installation.active with
  | none => throw .inactive
  | some active => return active

/-! ### Writing -/

/-- An UPDATE of the row of the installation that must meet a condition. -/
def updateRow (id : String) (condition : InstallationRow → Bool)
    (f : InstallationRow → InstallationRow) : Result Tables :=
  match t.row with
  | none => .error .conflict
  | some row =>
    if id = t.installationId ∧ condition row then .ok { t with row := some (f row) } else .error .conflict

def saveUpdate (record : UpdateRecord) : Result Tables := do
  let _ ← sqlGeneration record.token.generation
  failIf (record.token.installationId ≠ t.installationId ∨ (t.updates.get record.token.generation).isNone) .conflict
  return { t with updates := t.updates.insert record.token.generation record }

def createInstallation (id appId ownerId : String) : Result Tables := do
  identifier id
  identifier appId
  identifier ownerId
  -- a row of another installation would be in other tables
  failIf (id ≠ t.installationId ∨ t.row.isSome) .conflict
  return { t with row := some {
    installationId := id, appId, ownerId, channel := .release, devRoomId := none, generation := 0, active := none,
    pendingGeneration := none, admissionPaused := false, retained := none, allocatedGeneration := 0 } }

def allocateGeneration (id : String) : Result (Tables × Nat) := do
  let row ← t.loadRow id
  let next ← toI64 (row.allocatedGeneration + 1) (.invalid "generation exhausted")
  return ({ t with row := some { row with allocatedGeneration := next } }, next)

/-- The generations of the ended updates that the journal keeps. -/
def keptGenerations : List Nat :=
  let ended := (t.updates.entries.filter (fun entry => entry.2.phase.terminal)).map Prod.fst
  ended.drop (ended.length - retainedUpdateRecords)

def pruneJournal : Tables :=
  let kept := t.keptGenerations
  let updates := t.updates.retain (fun generation record => !record.phase.terminal || kept.contains generation)
  { t with
    updates
    stageTrust := t.stageTrust.retain (fun generation _ =>
      updates.contains generation || t.row.any (fun row => row.generation = generation)) }

def clearPending (token : StageToken) : Result Tables := do
  let state ← t.state.restoreIn token.generation
  updateRow { t with state } token.installationId
    (fun row => row.generation = token.baseGeneration && row.pendingGeneration = some token.generation)
    (fun row => { row with pendingGeneration := none, admissionPaused := false })

/-! ### Staging and deciding -/

def stageRelease (id : String) (expected : Nat) (release : ReleaseMetadata) (now : Nat) :
    Result (Tables × UpdateRecord) := do
  let installation ← t.loadInstallation id
  expectedGeneration installation expected
  failIf (installation.pendingGeneration.isSome) .conflict
  failIf (installation.appId ≠ release.appId) (.invalid "different App identity")
  failIf (installation.dataRelease.any (fun data => data.release.publisherId ≠ release.publisherId))
    (.invalid "publisher change requires separate trust migration")
  let (t, generation) ← t.allocateGeneration id
  let record : UpdateRecord := {
    token := { installationId := id, baseGeneration := expected, generation }
    release, decision := .pending, phase := .staged, createdAtMs := now, updatedAtMs := now, abortReason := none }
  failIf ((t.updates.get generation).isSome) .database
  let t ← updateRow { t with updates := t.updates.insert generation record } id
    (fun row => row.generation = expected && row.pendingGeneration.isNone)
    (fun row => { row with pendingGeneration := some generation })
  return (t, record)

def checkDecision : CapabilityDecision → Result Unit
  | .approved approval => do
    identifier approval.decisionId
    identifier approval.authorityRef
  | .declined decisionId authorityRef => do
    identifier decisionId
    identifier authorityRef
  | .pending => .error .invalidTransition

def isDeclined : CapabilityDecision → Bool
  | .declined _ _ => true
  | _ => false

def decideGeneration (token : StageToken) (decision : CapabilityDecision) (now : Nat) :
    Result (Tables × UpdateRecord) := do
  checkDecision decision
  let record ← t.currentUpdate token
  failIf (record.phase ≠ .staged ∨ record.decision ≠ .pending) .invalidTransition
  if isDeclined decision then
    let record := { record with
      decision, updatedAtMs := now, phase := .aborted, abortReason := some "capabilities declined" }
    let t ← t.clearPending token
    let t ← t.saveUpdate record
    return (t.pruneJournal, record)
  else
    let record := { record with decision, updatedAtMs := now }
    let t ← t.saveUpdate record
    return (t.pruneJournal, record)

/-! ### Plain operations -/

def create (id appId ownerId : String) : Result Tables :=
  t.createInstallation id appId ownerId

def createAndStage (id ownerId : String) (release : ReleaseMetadata) (now : Nat) : Result (Tables × UpdateRecord) := do
  validateRelease release
  let t ← t.createInstallation id release.appId ownerId
  t.stageRelease id 0 release now

def stage (id : String) (expected : Nat) (release : ReleaseMetadata) (now : Nat) : Result (Tables × UpdateRecord) := do
  validateRelease release
  t.stageRelease id expected release now

def decide (token : StageToken) (decision : CapabilityDecision) (now : Nat) : Result (Tables × UpdateRecord) :=
  t.decideGeneration token decision now

def isApproved : CapabilityDecision → Bool
  | .approved _ => true
  | _ => false

def pauseAdmission : Tables :=
  { t with row := t.row.map (fun row => { row with admissionPaused := true }) }

variable (token : StageToken)

def advance (before after : UpdatePhase) (now : Nat) : Result (Tables × UpdateRecord) := do
  let record ← t.currentUpdate token
  failIf (record.phase ≠ before) .invalidTransition
  failIf (!isApproved record.decision) .approvalRequired
  let record := { record with phase := after, updatedAtMs := now }
  let t ← t.pauseAdmission.saveUpdate record
  return (t, record)

def quiesce (now : Nat) : Result (Tables × UpdateRecord) :=
  t.advance token .staged .quiescing now

def markPrepared (now : Nat) : Result (Tables × UpdateRecord) :=
  t.advance token .quiescing .prepared now

def commitGeneration (now : Nat) : Result (Tables × ActiveGeneration) := do
  let record ← t.currentUpdate token
  failIf (record.phase ≠ .prepared) .invalidTransition
  let state ← t.state.finishIn token.generation
  match record.decision with
  | .approved approval =>
    let active : ActiveGeneration := { generation := token.generation, release := record.release, approval }
    let t ← updateRow { t with state } token.installationId
      (fun row => row.generation = token.baseGeneration && row.pendingGeneration = some token.generation)
      (fun row => { row with
        generation := token.generation, active := some active, retained := none, pendingGeneration := none,
        admissionPaused := false })
    let t ← t.saveUpdate { record with phase := .committed, updatedAtMs := now }
    return (t.pruneJournal, active)
  | _ => throw .approvalRequired

def commit (now : Nat) : Result (Tables × ActiveGeneration) := do
  let _ ← sqlGeneration token.generation
  failIf (token.installationId = t.installationId ∧ t.stageTrust.contains token.generation)
    (.invalid "verified activation required")
  t.commitGeneration token now

def abort (t : Tables) (token : StageToken) (reason : String) (now : Nat) : Result (Tables × UpdateRecord) := do
  failIf (reason = "" ∨ 512 < reason.utf8ByteSize ∨ reason.toList.any isControl) (.invalid "abort reason")
  let record ← t.currentUpdate token
  let record := { record with phase := .aborted, abortReason := some reason, updatedAtMs := now }
  let t ← t.clearPending token
  let t ← t.saveUpdate record
  return (t.pruneJournal, record)

/-- End the pending update because its installation goes. -/
def abortPending (id : String) (now : Nat) : Option Nat → Result Tables
  | none => .ok t
  | some pending => do
    let record ← t.loadUpdate id pending
    t.saveUpdate { record with
      phase := .aborted, abortReason := some "installation uninstalled", updatedAtMs := now }

def uninstall (id : String) (expected now : Nat) : Result (Tables × Installation) := do
  let installation ← t.loadInstallation id
  expectedGeneration installation expected
  let t ← t.abortPending id now installation.pendingGeneration
  let (t, generation) ← t.allocateGeneration id
  let t ← t.updateRow id (fun row => row.generation = expected)
    (fun row => { row with
      generation, retained := row.active.or row.retained, active := none, pendingGeneration := none,
      admissionPaused := false })
  let t := t.pruneJournal
  let result ← t.loadInstallation id
  return (t, result)

/-! ### Verified packages -/

def lift {α : Type} (x : Result α) : VerifiedResult α := x.mapError .installation

def requireTrust (records : OtherRecords) (trust : TrustedPublisherSnapshot) (owner : String) : VerifiedResult Unit :=
  failIf (!records.trustCurrent trust owner) .trust

def saveBinding (owner : String) (record : UpdateRecord) (trust : TrustedPublisherSnapshot) :
    VerifiedResult Tables := do
  let _ ← lift (sqlGeneration trust.revision)
  failIf (t.stageTrust.contains record.token.generation ∨ trust.revision = 0) (.installation .database)
  return { t with stageTrust := t.stageTrust.insert record.token.generation {
    baseGeneration := record.token.baseGeneration
    ownerId := owner
    packageDigest := record.release.packageDigest
    publisherId := trust.publisherId
    keyId := trust.keyId
    trustRevision := trust.revision
    publicKeyFingerprint := trust.publicKeyFingerprint } }

/-- The release that a stage is about: that of its journal record, or of the active generation. -/
def stagedRelease (token : StageToken) (installation : Installation) : Result ReleaseMetadata :=
  match t.loadUpdate token.installationId token.generation with
  | .ok record => if record.token = token then .ok record.release else .error .conflict
  | .error .notFound =>
    match installation.active.filter (fun active => active.generation = token.generation) with
    | none => .error .notFound
    | some active => .ok active.release
  | .error e => .error e

def loadBinding (owner : String) (token : StageToken) : VerifiedResult StageTrustBinding := do
  lift (identifier owner)
  let installation ← lift (t.loadInstallation token.installationId)
  failIf (installation.ownerId ≠ owner) (.installation .notFound)
  let _ ← lift (sqlGeneration token.generation)
  match (t.stageTrust.get token.generation).filter (fun stored => stored.ownerId = owner) with
  | none => throw (.installation .notFound)
  | some stored =>
    let release ← lift (t.stagedRelease token installation)
    failIf (stored.baseGeneration ≠ token.baseGeneration ∨ release.packageDigest ≠ stored.packageDigest ∨
      release.publisherId ≠ stored.publisherId ∨ !isDigest stored.publicKeyFingerprint) (.installation .conflict)
    return {
      token
      ownerId := stored.ownerId
      packageDigest := stored.packageDigest
      publisherId := stored.publisherId
      keyId := stored.keyId
      trustRevision := stored.trustRevision
      publicKeyFingerprint := stored.publicKeyFingerprint }

variable (records : OtherRecords) (binding : StageTrustBinding) (owner : String) (trust : TrustedPublisherSnapshot)

def requireBinding : VerifiedResult Unit := do
  let current ← t.loadBinding owner binding.token
  failIf (current ≠ binding) (.installation .conflict)

def requireSigner : VerifiedResult Unit := do
  requireTrust records trust owner
  failIf (binding.publisherId ≠ trust.publisherId ∨ binding.keyId ≠ trust.keyId ∨
    binding.trustRevision ≠ trust.revision ∨ binding.publicKeyFingerprint ≠ trust.publicKeyFingerprint) .trust

def requireCurrent : VerifiedResult Unit := do
  t.requireBinding binding owner
  let _ ← lift (t.currentUpdate binding.token)
  requireSigner records binding owner trust

def requireActiveBinding : VerifiedResult ActiveGeneration := do
  t.requireBinding binding owner
  requireSigner records binding owner trust
  let installation ← lift (t.loadInstallation binding.token.installationId)
  failIf (installation.generation ≠ binding.token.generation) (.installation .conflict)
  failIf (installation.admissionPaused = true) (.installation .admissionPaused)
  match installation.active with
  | none => throw (.installation .inactive)
  | some active =>
    failIf (active.generation ≠ binding.token.generation ∨ active.release.packageDigest ≠ binding.packageDigest ∨
      active.release.publisherId ≠ binding.publisherId) (.installation .conflict)
    return active

def createAndStageVerified (id owner : String) (candidate : VerifiedInstallCandidate) (now : Nat) :
    VerifiedResult (Tables × UpdateRecord) := do
  requireTrust records candidate.trust owner
  let t ← lift (t.createInstallation id candidate.release.appId owner)
  let (t, record) ← lift (t.stageRelease id 0 candidate.release now)
  let t ← t.saveBinding owner record candidate.trust
  return (t, record)

def stageVerified (id owner : String) (expected : Nat) (candidate : VerifiedInstallCandidate) (now : Nat) :
    VerifiedResult (Tables × UpdateRecord) := do
  requireTrust records candidate.trust owner
  let installation ← lift (t.loadInstallation id)
  failIf (installation.ownerId ≠ owner) (.installation .notFound)
  let (t, record) ← lift (t.stageRelease id expected candidate.release now)
  let t ← t.saveBinding owner record candidate.trust
  return (t, record)

def isSupervised (token : StageToken) : Bool :=
  token.installationId = t.installationId && t.supervisedStages.contains token.generation

def commitVerified (token : StageToken) (owner : String) (trust : TrustedPublisherSnapshot) (now : Nat) :
    VerifiedResult (Tables × ActiveGeneration) := do
  let _ ← lift (sqlGeneration token.generation)
  failIf (t.isSupervised token) (.installation (.invalid "supervised activation required"))
  let binding ← t.loadBinding owner token
  t.requireCurrent records binding owner trust
  lift (t.commitGeneration token now)

/-! ### Supervised operations -/

/-- `immutable_version`: a published version names one package. -/
def immutableVersion (release : ReleaseMetadata) : VerifiedResult Unit :=
  failIf (release.publisherId ≠ devPublisherId ∧
    (records.knownDigest owner release).any (fun known => known ≠ release.packageDigest))
    (.installation (.invalid "immutable release version"))

def stageSupervisedIn (candidate : VerifiedInstallCandidate) (owner id : String) (expected now : Nat) :
    VerifiedResult (Tables × UpdateRecord) := do
  immutableVersion records owner candidate.release
  let (t, record) ← lift (t.stageRelease id expected candidate.release now)
  let t ← t.saveBinding owner record candidate.trust
  failIf (t.supervisedStages.contains record.token.generation) (.installation .database)
  return ({ t with supervisedStages := record.token.generation :: t.supervisedStages }, record)

def stageFirstIn (candidate : VerifiedInstallCandidate) (owner id : String) (now : Nat) :
    VerifiedResult (Tables × UpdateRecord) := do
  failIf (candidate.release.publisherId = devPublisherId) .signerMismatch
  requireTrust records candidate.trust owner
  let t ← lift (t.createInstallation id candidate.release.appId owner)
  t.stageSupervisedIn records candidate owner id 0 now

def markDev (room : String) : Tables :=
  { t with row := t.row.map (fun row => { row with channel := .dev, devRoomId := some room }) }

def stageDevFirstIn (candidate : VerifiedInstallCandidate) (owner id room : String) (now : Nat) :
    VerifiedResult (Tables × UpdateRecord) := do
  lift (identifier room)
  failIf (candidate.release.publisherId ≠ devPublisherId) .signerMismatch
  requireTrust records candidate.trust owner
  failIf (records.devInstalled owner candidate.release.appId room) (.installation .conflict)
  let t ← lift (t.createInstallation id candidate.release.appId owner)
  t.markDev room |>.stageSupervisedIn records candidate owner id 0 now

def stageUpdateIn (candidate : VerifiedInstallCandidate) (owner id : String) (expected now : Nat) :
    VerifiedResult (Tables × UpdateRecord) := do
  requireTrust records candidate.trust owner
  let current ← lift (t.loadInstallation id)
  failIf (¬ (current.channel = .dev ↔ candidate.release.publisherId = devPublisherId)) .signerMismatch
  failIf (current.ownerId ≠ owner) (.installation .notFound)
  match current.dataRelease with
  | none => throw (.installation .inactive)
  | some data =>
    failIf (current.channel = .release ∧ candidate.release.version = data.release.version ∧
      data.release.packageDigest ≠ candidate.release.packageDigest)
      (.installation (.invalid "immutable release version"))
    failIf (candidate.release.schemaVersion < data.release.schemaVersion)
      (.installation (.invalid "data schema downgrade"))
    t.stageSupervisedIn records candidate owner id expected now

def requireSupervised : VerifiedResult Unit := do
  let _ ← lift (sqlGeneration binding.token.generation)
  failIf (!t.isSupervised binding.token) (.installation .invalidTransition)

def reviewIn : VerifiedResult UpdateRecord := do
  t.requireSupervised binding
  t.requireCurrent records binding owner trust
  lift (t.currentUpdate binding.token)

def decideIn (decision : CapabilityDecision) (now : Nat) : VerifiedResult (Tables × UpdateRecord) := do
  let _ ← t.reviewIn records binding owner trust
  lift (t.decideGeneration binding.token decision now)

def requireApprovedIn : VerifiedResult CapabilityApproval := do
  let record ← t.reviewIn records binding owner trust
  failIf (record.phase ≠ .staged ∧ record.phase ≠ .quiescing) (.installation .invalidTransition)
  match record.decision with
  | .approved approval => return approval
  | _ => throw (.installation .approvalRequired)

/-- The data of the installation migrates when the staged release has another schema. -/
def beginMigration (token : StageToken) (schemaVersion : Nat) : Result Tables := do
  let installation ← t.loadInstallation token.installationId
  let source := (installation.dataRelease.map (fun data => data.release.schemaVersion)).filter
    (fun source => source ≠ schemaVersion)
  match source with
  | none => return t
  | some source =>
    let state ← t.state.beginIn token.generation source schemaVersion
    return { t with state }

def quiesceIn (now : Nat) : VerifiedResult (Tables × CapabilityApproval) := do
  let approval ← t.requireApprovedIn records binding owner trust
  let record ← lift (t.currentUpdate binding.token)
  let t ← lift (t.beginMigration binding.token record.release.schemaVersion)
  let t ← lift (t.pauseAdmission.saveUpdate { record with phase := .quiescing, updatedAtMs := now })
  return (t, approval)

def commitIn (approval : CapabilityApproval) (now : Nat) : VerifiedResult (Tables × ActiveGeneration) := do
  let approved ← t.requireApprovedIn records binding owner trust
  failIf (approved ≠ approval) (.installation .approvalRequired)
  let record ← lift (t.currentUpdate binding.token)
  failIf (record.phase ≠ .quiescing) (.installation .invalidTransition)
  let t ← lift (t.saveUpdate { record with phase := .prepared, updatedAtMs := now })
  immutableVersion records owner record.release
  lift (t.commitGeneration binding.token now)

def abortIn (owner reason : String) (now : Nat) : VerifiedResult Tables := do
  failIf (reason = "" ∨ 96 < reason.utf8ByteSize ∨ !reason.toList.all (fun c => c.isAlphanum || c = '_'))
    (.installation .invalidTransition)
  t.requireSupervised binding
  t.requireBinding binding owner
  let stored ← lift (t.loadUpdate binding.token.installationId binding.token.generation)
  let installation ← lift (t.loadInstallation binding.token.installationId)
  if stored.token = binding.token ∧ stored.phase = .aborted ∧
      installation.pendingGeneration ≠ some binding.token.generation then
    -- the stage was declined or its installation removed before
    return t
  else
    let record ← lift (t.currentUpdate binding.token)
    let t ← lift (t.clearPending binding.token)
    lift (t.saveUpdate { record with phase := .aborted, abortReason := some reason, updatedAtMs := now })

/-! ### The data of the installation -/

def applyState {V : Type} (C : StateCodec V) (t : Tables) (scope : StateScope) (changes : StateChanges) :
    Except StateError (Tables × Nat) := do
  let (state, revision) ← t.state.apply C (t.loadInstallation scope.installation) scope changes
  return ({ t with state }, revision)

def stepState (scope : StateScope) (schema : Nat) : Except StateError Tables := do
  let state ← t.state.step (t.loadInstallation scope.installation) scope schema
  return { t with state }

def rewindState (scope : StateScope) : Except StateError (Tables × Option Nat) := do
  let (state, source) ← t.state.rewind (t.loadInstallation scope.installation) scope
  return ({ t with state }, source)

end InstallationTables

end Chariox
