import Chariox.AppInstallation.Registry

/-!
# Runs of installation operations

All operations on the tables of an installation, what each one reports to the history, and what each one does to the row
of the installation and to the journal of its updates.
-/

namespace Chariox

/-- What the history of an installation records. -/
inductive InstallationEvent
  | staged (token : StageToken)
  | ended (token : StageToken)
  | committed (token : StageToken)
  | uninstalled (pending : Option StageToken) (generation : Nat)
  /-- A migration of the data was opened for a generation. -/
  | opened (generation : Nat)
  /-- The active release wrote its data. -/
  | written (schema : Nat)
  deriving DecidableEq, Repr

inductive InstallationOp (V : Type)
  | create (id appId ownerId : String)
  | createAndStage (id ownerId : String) (release : ReleaseMetadata) (now : Nat)
  | stage (id : String) (expected : Nat) (release : ReleaseMetadata) (now : Nat)
  | decide (token : StageToken) (decision : CapabilityDecision) (now : Nat)
  | quiesce (token : StageToken) (now : Nat)
  | markPrepared (token : StageToken) (now : Nat)
  | commit (token : StageToken) (now : Nat)
  | abort (token : StageToken) (reason : String) (now : Nat)
  | uninstall (id : String) (expected now : Nat)
  | createAndStageVerified (records : OtherRecords) (id owner : String) (candidate : VerifiedInstallCandidate) (now : Nat)
  | stageVerified (records : OtherRecords) (id owner : String) (expected : Nat) (candidate : VerifiedInstallCandidate)
      (now : Nat)
  | commitVerified (records : OtherRecords) (token : StageToken) (owner : String) (trust : TrustedPublisherSnapshot)
      (now : Nat)
  | stageFirstIn (records : OtherRecords) (candidate : VerifiedInstallCandidate) (owner id : String) (now : Nat)
  | stageDevFirstIn (records : OtherRecords) (candidate : VerifiedInstallCandidate) (owner id room : String) (now : Nat)
  | stageUpdateIn (records : OtherRecords) (candidate : VerifiedInstallCandidate) (owner id : String)
      (expected now : Nat)
  | decideIn (records : OtherRecords) (binding : StageTrustBinding) (owner : String) (trust : TrustedPublisherSnapshot)
      (decision : CapabilityDecision) (now : Nat)
  | quiesceIn (records : OtherRecords) (binding : StageTrustBinding) (owner : String) (trust : TrustedPublisherSnapshot)
      (now : Nat)
  | commitIn (records : OtherRecords) (binding : StageTrustBinding) (owner : String) (trust : TrustedPublisherSnapshot)
      (approval : CapabilityApproval) (now : Nat)
  | abortIn (binding : StageTrustBinding) (owner reason : String) (now : Nat)
  | applyState (C : StateCodec V) (scope : StateScope) (changes : StateChanges)
  | stepState (scope : StateScope) (schema : Nat)
  | rewindState (scope : StateScope)

namespace InstallationOp

variable {V : Type}

def token : InstallationOp V → Option StageToken
  | .decide token _ _ => some token
  | .quiesce token _ => some token
  | .markPrepared token _ => some token
  | .commit token _ => some token
  | .abort token _ _ => some token
  | .commitVerified _ token _ _ _ => some token
  | .decideIn _ binding _ _ _ _ => some binding.token
  | .quiesceIn _ binding _ _ _ => some binding.token
  | .commitIn _ binding _ _ _ _ => some binding.token
  | .abortIn binding _ _ _ => some binding.token
  | _ => none

def isCommit : InstallationOp V → Bool
  | .commit _ _ => true
  | .commitVerified _ _ _ _ _ => true
  | .commitIn _ _ _ _ _ _ => true
  | _ => false

end InstallationOp

namespace InstallationTables

variable {V : Type} {t t' : Tables}

/-- What a decision reports: declining ends the update. -/
def decisionEvents (token : StageToken) (decision : CapabilityDecision) : List InstallationEvent :=
  if isDeclined decision then [.ended token] else []

def pendingToken (t : Tables) : Option StageToken :=
  (t.row.bind (fun row => row.pendingGeneration)).bind (fun generation =>
    (t.updates.get generation).map UpdateRecord.token)

/-- What the supervised abort reports: nothing when the stage had ended before. -/
def abortEvents (t : Tables) (token : StageToken) : List InstallationEvent :=
  if t.row.any (fun row => row.pendingGeneration = some token.generation) then [.ended token] else []

/-- What quiescing reports: the migration that it opens, unless it was open before. -/
def quiesceEvents (t t' : Tables) (token : StageToken) : List InstallationEvent :=
  if (t.state.migrationOf token.generation).isNone && (t'.state.migrationOf token.generation).isSome then
    [.opened token.generation]
  else []

/-- What a write reports: nothing when it is one of a migrating worker. -/
def writeEvents (t : Tables) (scope : StateScope) (changes : StateChanges) : List InstallationEvent :=
  match t.state.admitMigrating (t.loadInstallation scope.installation) scope with
  | .ok none => [.written changes.schemaVersion]
  | _ => []

/-- The tables and the events of an operation that succeeds. -/
def result (t : Tables) : InstallationOp V → Option (Tables × List InstallationEvent)
  | .create id appId ownerId => (t.create id appId ownerId).toOption.map (fun t' => (t', []))
  | .createAndStage id ownerId release now =>
    (t.createAndStage id ownerId release now).toOption.map (fun r => (r.1, [.staged r.2.token]))
  | .stage id expected release now =>
    (t.stage id expected release now).toOption.map (fun r => (r.1, [.staged r.2.token]))
  | .decide token decision now =>
    (t.decide token decision now).toOption.map (fun r => (r.1, decisionEvents token decision))
  | .quiesce token now => (t.quiesce token now).toOption.map (fun r => (r.1, []))
  | .markPrepared token now => (t.markPrepared token now).toOption.map (fun r => (r.1, []))
  | .commit token now => (t.commit token now).toOption.map (fun r => (r.1, [.committed token]))
  | .abort token reason now => (t.abort token reason now).toOption.map (fun r => (r.1, [.ended token]))
  | .uninstall id expected now =>
    (t.uninstall id expected now).toOption.map (fun r => (r.1, [.uninstalled t.pendingToken r.2.generation]))
  | .createAndStageVerified records id owner candidate now =>
    (t.createAndStageVerified records id owner candidate now).toOption.map (fun r => (r.1, [.staged r.2.token]))
  | .stageVerified records id owner expected candidate now =>
    (t.stageVerified records id owner expected candidate now).toOption.map (fun r => (r.1, [.staged r.2.token]))
  | .commitVerified records token owner trust now =>
    (t.commitVerified records token owner trust now).toOption.map (fun r => (r.1, [.committed token]))
  | .stageFirstIn records candidate owner id now =>
    (t.stageFirstIn records candidate owner id now).toOption.map (fun r => (r.1, [.staged r.2.token]))
  | .stageDevFirstIn records candidate owner id room now =>
    (t.stageDevFirstIn records candidate owner id room now).toOption.map (fun r => (r.1, [.staged r.2.token]))
  | .stageUpdateIn records candidate owner id expected now =>
    (t.stageUpdateIn records candidate owner id expected now).toOption.map (fun r => (r.1, [.staged r.2.token]))
  | .decideIn records binding owner trust decision now =>
    (t.decideIn records binding owner trust decision now).toOption.map
      (fun r => (r.1, decisionEvents binding.token decision))
  | .quiesceIn records binding owner trust now =>
    (t.quiesceIn records binding owner trust now).toOption.map (fun r => (r.1, t.quiesceEvents r.1 binding.token))
  | .commitIn records binding owner trust approval now =>
    (t.commitIn records binding owner trust approval now).toOption.map (fun r => (r.1, [.committed binding.token]))
  | .abortIn binding owner reason now =>
    (t.abortIn binding owner reason now).toOption.map (fun t' => (t', t.abortEvents binding.token))
  | .applyState C scope changes => (t.applyState C scope changes).toOption.map (fun r => (r.1, t.writeEvents scope changes))
  | .stepState scope schema => (t.stepState scope schema).toOption.map (fun t' => (t', []))
  | .rewindState scope => (t.rewindState scope).toOption.map (fun r => (r.1, []))

/-- The tables, and the events of all operations that succeeded. -/
structure History where
  tables : Tables
  events : List InstallationEvent

def History.apply (h : History) (op : InstallationOp V) : History :=
  match h.tables.result op with
  | none => h
  | some (t, events) => { tables := t, events := h.events ++ events }

def run (id : String) (ops : List (InstallationOp V)) : History :=
  ops.foldl History.apply { tables := new id, events := [] }

/-! ### What the steps do -/

/-- The columns of the installation's row that the registry decides by. -/
structure RowView where
  generation : Nat
  allocated : Nat
  pending : Option Nat
  paused : Bool
  active : Option ActiveGeneration
  retained : Option ActiveGeneration

/-- The row of an installation that has just been created. -/
def RowView.new : RowView where
  generation := 0
  allocated := 0
  pending := none
  paused := false
  active := none
  retained := none

/-- The schema of the release that the data belongs to. -/
def RowView.dataSchema (v : RowView) : Option Nat := (v.active.or v.retained).map (fun data => data.release.schemaVersion)

def viewOf (row : InstallationRow) : RowView where
  generation := row.generation
  allocated := row.allocatedGeneration
  pending := row.pendingGeneration
  paused := row.admissionPaused
  active := row.active
  retained := row.retained

def view (t : Tables) : Option RowView := t.row.map viewOf

variable {record old : UpdateRecord} {tk : StageToken} {trust : TrustedPublisherSnapshot} {row : InstallationRow}
variable {t₁ : Tables} {bd : StageTrustBinding} {id owner reason : String} {records : OtherRecords}
variable {active : ActiveGeneration} {candidate : VerifiedInstallCandidate} {scope : StateScope}
variable {approval : CapabilityApproval} {now expected generation : Nat} {s s' : ManagedState}
variable {installation : Installation}

theorem loadRow_spec (h : t.loadRow id = .ok row) : t.row = some row ∧ id = t.installationId := by
  unfold loadRow at h
  split at h
  · cases h
  rename_i hr
  split at h
  · rename_i hid
    cases h
    exact ⟨hr, hid⟩
  · cases h

theorem loadInstallation_spec (h : t.loadInstallation id = .ok installation) :
    ∃ row, t.row = some row ∧ id = t.installationId ∧ row.toInstallation = installation := by
  unfold loadInstallation at h
  cases hload : t.loadRow id with
  | error =>
    rw [hload] at h
    cases h
  | ok row =>
    rw [hload] at h
    cases h
    obtain ⟨hr, hid⟩ := loadRow_spec hload
    exact ⟨row, hr, hid, rfl⟩

theorem loadUpdate_spec (h : t.loadUpdate id generation = .ok record) :
    t.updates.get generation = some record ∧ id = t.installationId := by
  obtain ⟨-, -, h⟩ := of_bind_ok h
  split at h
  · cases h
  rename_i hg
  split at h
  · rename_i hid
    cases h
    exact ⟨hg, hid⟩
  · cases h

theorem expectedGeneration_spec {u : Unit}
    (h : expectedGeneration installation expected = .ok u) : installation.generation = expected := by
  obtain ⟨-, -, h⟩ := of_bind_ok h
  exact not_not.1 (not_of_failIf h)

/-- The update of a token is the pending one, on top of the current generation. -/
structure Current (t : Tables) (token : StageToken) (row : InstallationRow) (record : UpdateRecord) : Prop where
  hasRow : t.row = some row
  here : token.installationId = t.installationId
  stored : t.updates.get token.generation = some record
  named : record.token = token
  running : record.phase.terminal = false
  onBase : row.generation = token.baseGeneration
  isPending : row.pendingGeneration = some token.generation

theorem currentUpdate_spec (h : t.currentUpdate tk = .ok record) : ∃ row, Current t tk row record := by
  obtain ⟨-, -, h⟩ := of_bind_ok h
  obtain ⟨-, -, h⟩ := of_bind_ok h
  obtain ⟨sd, hl, h⟩ := of_bind_ok h
  obtain ⟨_, hru, h⟩ := of_bind_ok h
  obtain ⟨inst, hi, h⟩ := of_bind_ok h
  obtain ⟨_, hexpected, h⟩ := of_bind_ok h
  obtain ⟨_, hmat, h⟩ := of_bind_ok h
  cases h
  obtain ⟨hst, -⟩ := loadUpdate_spec hl
  obtain ⟨row, hr, hid, hs⟩ := loadInstallation_spec hi
  have hmat := not_of_failIf hmat
  rw [not_or, not_not, not_not] at hmat
  have hbase := expectedGeneration_spec hexpected
  subst hs
  exact ⟨row, hr, hid, hst, hmat.1, Bool.eq_false_iff.2 (not_of_failIf hru), hbase, hmat.2⟩

theorem updateRow_spec {condition : InstallationRow → Bool} {f : InstallationRow → InstallationRow}
    (h : t.updateRow id condition f = .ok t') (hr : t.row = some row) : t' = { t with row := some (f row) } := by
  unfold updateRow at h
  rw [hr] at h
  dsimp only at h
  split at h
  · cases h
    rfl
  · cases h

theorem saveUpdate_spec (h : t.saveUpdate record = .ok t') :
    t' = { t with updates := t.updates.insert record.token.generation record } := by
  obtain ⟨-, -, h⟩ := of_bind_ok h
  have h := of_check h
  cases h
  rfl

theorem allocateGeneration_spec (h : t.allocateGeneration id = .ok (t', generation)) (hr : t.row = some row) :
    generation = row.allocatedGeneration + 1 ∧
      t' = { t with row := some { row with allocatedGeneration := generation } } := by
  obtain ⟨found, hl, h⟩ := of_bind_ok h
  obtain rfl : row = found := Option.some.inj (hr.symm.trans (loadRow_spec hl).1)
  obtain ⟨next, hn, h⟩ := of_bind_ok h
  cases h
  unfold toI64 at hn
  split at hn
  · cases hn
    exact ⟨rfl, rfl⟩
  · cases hn

/-- Records are dropped from a journal, but none of an update that has not ended. -/
structure Pruned (journal kept : OrdMap Nat UpdateRecord) : Prop where
  subset : ∀ generation record, kept.get generation = some record → journal.get generation = some record
  running : ∀ generation record, journal.get generation = some record → record.phase.terminal = false →
    kept.get generation = some record

theorem Pruned.refl (journal : OrdMap Nat UpdateRecord) : Pruned journal journal :=
  ⟨fun _ _ h => h, fun _ _ h _ => h⟩

theorem pruneJournal_pruned {jr : OrdMap Nat UpdateRecord} (h : t.updates = jr) : Pruned jr t.pruneJournal.updates := by
  subst h
  refine ⟨fun gen r h => OrdMap.get_of_get_retain h, fun gen r h hr => ?_⟩
  show (OrdMap.retain _ _).get gen = some r
  rw [OrdMap.get_retain, h, Option.filter_some, hr]
  rfl

theorem clearPending_spec (h : t.clearPending tk = .ok t') (hr : t.row = some row) :
    ∃ state, t.state.restoreIn tk.generation = .ok state ∧
      t' = { t with state, row := some { row with pendingGeneration := none, admissionPaused := false } } := by
  obtain ⟨state, hs, h⟩ := of_bind_ok h
  exact ⟨state, hs, updateRow_spec h hr⟩

/-! ### Moves -/

/-- The data with a migration just opened: the values are in the snapshot. -/
def openMigration (s : ManagedState) (migration : StateMigration) : ManagedState :=
  { s with migration := some migration, snapshot := s.values }

theorem migrationOf_openMigration (s : ManagedState) (migration : StateMigration) :
    (openMigration s migration).migrationOf migration.generation = some migration := by
  simp [ManagedState.migrationOf, openMigration]

/-- What an operation does to the row, the journal and the data, with what it reports. -/
inductive Move (t t' : Tables) : List InstallationEvent → Prop
  | kept (hview : t'.view = t.view) (hupdates : t'.updates = t.updates) (hstate : t'.state = t.state) : Move t t' []
  | created (hnone : t.view = none) (hview : t'.view = some .new) (hupdates : t'.updates = t.updates)
      (hstate : t'.state = t.state) : Move t t' []
  | staged (v : RowView) (record : UpdateRecord) (hv : t.view = some v ∨ t.view = none ∧ v = .new)
      (hidle : v.pending = none) (hgeneration : record.token.generation = v.allocated + 1)
      (hbase : record.token.baseGeneration = v.generation) (hrunning : record.phase.terminal = false)
      (hview : t'.view = some { v with allocated := v.allocated + 1, pending := some (v.allocated + 1) })
      (hupdates : t'.updates = t.updates.insert (v.allocated + 1) record) (hstate : t'.state = t.state) :
      Move t t' [.staged record.token]
  | revised (row : InstallationRow) (token : StageToken) (old record : UpdateRecord) (hcurrent : Current t token row old)
      (hnamed : record.token = token) (hrelease : record.release = old.release) (hrunning : record.phase.terminal = false)
      (paused : Bool) (hview : t'.view = some { viewOf row with paused := row.admissionPaused || paused })
      (hupdates : Pruned (t.updates.insert token.generation record) t'.updates) (hstate : t'.state = t.state) :
      Move t t' []
  | opened (row : InstallationRow) (token : StageToken) (old record : UpdateRecord) (source : Nat)
      (hcurrent : Current t token row old) (hnamed : record.token = token) (hrelease : record.release = old.release)
      (hrunning : record.phase.terminal = false) (hview : t'.view = some { viewOf row with paused := true })
      (hupdates : t'.updates = t.updates.insert token.generation record)
      (hnew : t.state.migrationOf token.generation = none)
      (hstate : t'.state =
        openMigration t.state ⟨token.generation, t.state.head, record.release.schemaVersion, source⟩) :
      Move t t' [.opened token.generation]
  | ended (row : InstallationRow) (token : StageToken) (old record : UpdateRecord) (hcurrent : Current t token row old)
      (hnamed : record.token = token) (hended : record.phase.terminal = true)
      (hview : t'.view = some { viewOf row with pending := none, paused := false })
      (hupdates : Pruned (t.updates.insert token.generation record) t'.updates)
      (hstate : t.state.restoreIn token.generation = .ok t'.state) : Move t t' [.ended token]
  | committed (row : InstallationRow) (token : StageToken) (old record : UpdateRecord) (active : ActiveGeneration)
      (hcurrent : Current t token row old) (hnamed : record.token = token) (hended : record.phase.terminal = true)
      (hactive : active.generation = token.generation) (hrelease : active.release = old.release)
      (hview : t'.view = some { viewOf row with
        generation := token.generation, active := some active, pending := none, paused := false, retained := none })
      (hupdates : Pruned (t.updates.insert token.generation record) t'.updates)
      (hstate : t.state.finishIn token.generation = .ok t'.state) : Move t t' [.committed token]
  | uninstalled (v : RowView) (journal : OrdMap Nat UpdateRecord) (hv : t.view = some v)
      (hjournal : (v.pending = none ∧ journal = t.updates) ∨ ∃ pending old record, v.pending = some pending ∧
        t.updates.get pending = some old ∧ record.token = old.token ∧ record.phase.terminal = true ∧
        journal = t.updates.insert old.token.generation record)
      (hview : t'.view = some ⟨v.allocated + 1, v.allocated + 1, none, false, none, v.active.or v.retained⟩)
      (hupdates : Pruned journal t'.updates) (hstate : t'.state = t.state) :
      Move t t' [.uninstalled t.pendingToken (v.allocated + 1)]
  | written (v : RowView) (active : ActiveGeneration) (hv : t.view = some v) (hactive : v.active = some active)
      (hserving : v.paused = false) (hview : t'.view = t.view) (hupdates : t'.updates = t.updates)
      (hmigration : t'.state.migration = t.state.migration) (hsnapshot : t'.state.snapshot = t.state.snapshot) :
      Move t t' [.written active.release.schemaVersion]
  | migrated (migration : StateMigration) (migrated : Nat) (hview : t'.view = t.view) (hupdates : t'.updates = t.updates)
      (hopen : t.state.migration = some migration) (hmigration : t'.state.migration = some { migration with migrated })
      (hsnapshot : t'.state.snapshot = t.state.snapshot) : Move t t' []

variable {new : List InstallationEvent}

theorem view_of_row (h : t.row = some row) : t.view = some (viewOf row) := by
  rw [view, h, Option.map_some]

theorem Current.view (h : Current t tk row record) : t.view = some (viewOf row) :=
  view_of_row h.hasRow

theorem stageRelease_move {rel : ReleaseMetadata} (h : t.stageRelease id expected rel now = .ok (t', record)) :
    Move t t' [.staged record.token] := by
  obtain ⟨inst, hl, h⟩ := of_bind_ok h
  obtain ⟨_, hexpected, h⟩ := of_bind_ok h
  obtain ⟨_, hi, h⟩ := of_bind_ok h
  obtain ⟨_, -, h⟩ := of_bind_ok h
  obtain ⟨_, -, h⟩ := of_bind_ok h
  obtain ⟨⟨t₁, gen⟩, ha, h⟩ := of_bind_ok h
  obtain ⟨_, -, h⟩ := of_bind_ok h
  obtain ⟨t₂, hu, h⟩ := of_bind_ok h
  cases h
  obtain ⟨row, hr, -, rfl⟩ := loadInstallation_spec hl
  obtain ⟨rfl, rfl⟩ := allocateGeneration_spec ha hr
  obtain rfl := updateRow_spec hu rfl
  have hpend : row.pendingGeneration = none := Option.not_isSome_iff_eq_none.1 (not_of_failIf hi)
  exact .staged (viewOf row) _ (.inl (view_of_row hr)) hpend rfl (expectedGeneration_spec hexpected).symm rfl rfl
    rfl rfl

theorem clearPending_move {t₂ : Tables} (hc : Current t tk row old) (hcl : t.clearPending tk = .ok t₁)
    (hs : t₁.saveUpdate record = .ok t₂) (hn : record.token = tk) (he : record.phase.terminal = true) :
    Move t t₂ [.ended tk] ∧ Move t t₂.pruneJournal [.ended tk] := by
  obtain ⟨st, hr, rfl⟩ := clearPending_spec hcl hc.hasRow
  obtain rfl := saveUpdate_spec hs
  rw [hn]
  refine ⟨.ended row tk old record hc hn he rfl (.refl _) hr, ?_⟩
  exact .ended row tk old record hc hn he rfl (pruneJournal_pruned rfl) hr

theorem decideGeneration_move {decision : CapabilityDecision}
    (h : t.decideGeneration tk decision now = .ok (t', record)) : Move t t' (decisionEvents tk decision) := by
  have h := of_check h
  obtain ⟨old, ho, h⟩ := of_bind_ok h
  obtain ⟨row, hc⟩ := currentUpdate_spec ho
  obtain ⟨_, hst, h⟩ := of_bind_ok h
  unfold decisionEvents
  split at h
  · rename_i hd
    obtain ⟨t₁, hcl, h⟩ := of_bind_ok h
    obtain ⟨t₂, hs, h⟩ := of_bind_ok h
    cases h
    rw [if_pos hd]
    exact (clearPending_move hc hcl hs hc.named rfl).2
  · rename_i hd
    obtain ⟨t₁, hs, h⟩ := of_bind_ok h
    cases h
    obtain rfl := saveUpdate_spec hs
    rw [if_neg hd]
    refine .revised row tk old { old with decision, updatedAtMs := now } hc hc.named rfl
      hc.running false ?_ ?_ rfl
    · rw [Bool.or_false]
      exact view_of_row hc.hasRow
    · rw [← hc.named]
      exact pruneJournal_pruned rfl

theorem view_pauseAdmission (h : t.row = some row) :
    t.pauseAdmission.view = some { viewOf row with paused := true } := by
  simp only [pauseAdmission, h]
  rfl

theorem pauseAdmission_move (hc : Current t tk row old) (hs : t.pauseAdmission.saveUpdate record = .ok t')
    (hn : record.token = tk) (hr : record.release = old.release)
    (hru : record.phase.terminal = false) : Move t t' [] := by
  obtain rfl := saveUpdate_spec hs
  refine .revised row tk old record hc hn hr hru true ?_ ?_ rfl
  · rw [Bool.or_true]
    exact view_pauseAdmission hc.hasRow
  · rw [hn]
    exact .refl _

theorem advance_move {b aft : UpdatePhase}
    (h : t.advance tk b aft now = .ok (t', record)) (ha : aft.terminal = false) : Move t t' [] := by
  obtain ⟨old, ho, h⟩ := of_bind_ok h
  obtain ⟨row, hc⟩ := currentUpdate_spec ho
  have h := of_check h
  have h := of_check h
  obtain ⟨t₁, hs, h⟩ := of_bind_ok h
  cases h
  exact pauseAdmission_move hc hs hc.named rfl ha

/-- A commit finds the update of its token prepared and approved. -/
theorem commitGeneration_spec (h : t.commitGeneration tk now = .ok (t', active)) :
    (∃ row r, Current t tk row r ∧ r.phase = .prepared ∧ isApproved r.decision = true) ∧
      Move t t' [.committed tk] := by
  obtain ⟨r, hr, h⟩ := of_bind_ok h
  obtain ⟨row, hc⟩ := currentUpdate_spec hr
  obtain ⟨_, hp, h⟩ := of_bind_ok h
  obtain ⟨st, hf, h⟩ := of_bind_ok h
  have hph := not_not.1 (not_of_failIf hp)
  split at h
  · rename_i ha
    obtain ⟨t₁, hu, h⟩ := of_bind_ok h
    obtain ⟨t₂, hs, h⟩ := of_bind_ok h
    cases h
    refine ⟨⟨row, r, hc, hph, by rw [ha]; rfl⟩, ?_⟩
    obtain rfl := updateRow_spec hu hc.hasRow
    obtain rfl := saveUpdate_spec hs
    refine .committed row tk r { r with phase := .committed, updatedAtMs := now } _ hc hc.named
      rfl rfl rfl rfl ?_ hf
    rw [← hc.named]
    exact pruneJournal_pruned rfl
  · cases h

theorem commit_spec (h : t.commit tk now = .ok (t', active)) : t.commitGeneration tk now = .ok (t', active) := by
  obtain ⟨-, -, h⟩ := of_bind_ok h
  have h := of_check h
  exact h

theorem abort_move (h : t.abort tk reason now = .ok (t', record)) : Move t t' [.ended tk] := by
  have h := of_check h
  obtain ⟨old, ho, h⟩ := of_bind_ok h
  obtain ⟨row, hc⟩ := currentUpdate_spec ho
  obtain ⟨t₁, hcl, h⟩ := of_bind_ok h
  obtain ⟨t₂, hs, h⟩ := of_bind_ok h
  cases h
  exact (clearPending_move hc hcl hs hc.named rfl).2

theorem abortPending_spec {pend : Option Nat} (h : t.abortPending id now pend = .ok t') :
    ∃ jr, t' = { t with updates := jr } ∧
      ((pend = none ∧ jr = t.updates) ∨ ∃ gen old r, pend = some gen ∧
        t.updates.get gen = some old ∧ r.token = old.token ∧ r.phase.terminal = true ∧
        jr = t.updates.insert old.token.generation r) := by
  cases pend with
  | none =>
    cases h
    exact ⟨t.updates, rfl, .inl ⟨rfl, rfl⟩⟩
  | some gen =>
    obtain ⟨old, hl, h⟩ := of_bind_ok h
    let ended : UpdateRecord := { old with
      phase := .aborted, abortReason := some "installation uninstalled", updatedAtMs := now }
    exact ⟨_, saveUpdate_spec h, .inr ⟨gen, old, ended, rfl, (loadUpdate_spec hl).1, rfl, rfl, rfl⟩⟩

theorem uninstall_move (h : t.uninstall id expected now = .ok (t', installation)) :
    Move t t' [.uninstalled t.pendingToken installation.generation] := by
  obtain ⟨b, hl, h⟩ := of_bind_ok h
  have h := of_check h
  obtain ⟨t₁, ha, h⟩ := of_bind_ok h
  obtain ⟨⟨t₂, gen⟩, hal, h⟩ := of_bind_ok h
  obtain ⟨t₃, hu, h⟩ := of_bind_ok h
  obtain ⟨aft, haf, h⟩ := of_bind_ok h
  cases h
  obtain ⟨row, hr, -, rfl⟩ := loadInstallation_spec hl
  obtain ⟨jr, rfl, hjr⟩ := abortPending_spec ha
  obtain ⟨rfl, rfl⟩ := allocateGeneration_spec hal hr
  obtain rfl := updateRow_spec hu rfl
  obtain ⟨_, hr', -, rfl⟩ := loadInstallation_spec haf
  cases hr'
  exact .uninstalled (viewOf row) jr (view_of_row hr) hjr rfl (pruneJournal_pruned rfl) rfl

/-! ### Verified and supervised steps -/

theorem Move.staged_from (h : Move t₁ t' [.staged tk])
    (hvi : t₁.view = t.view ∨ t.view = none ∧ t₁.view = some .new) (hu : t₁.updates = t.updates)
    (hst : t₁.state = t.state) : Move t t' [.staged tk] := by
  cases h with
  | staged v r hv hi hg hb hr hv' hu' hs' =>
    rw [hu] at hu'
    refine .staged v r ?_ hi hg hb hr hv' hu' (hs'.trans hst)
    rcases hvi with hs | ⟨hn, hne⟩
    · rwa [hs] at hv
    rw [hne] at hv
    rcases hv with hv | ⟨hv, -⟩
    · exact .inr ⟨hn, Option.some.inj hv.symm⟩
    · cases hv

theorem Move.staged_to (h : Move t t₁ [.staged tk])
    (hvi : t'.view = t₁.view) (hu : t'.updates = t₁.updates) (hs : t'.state = t₁.state) : Move t t' [.staged tk] := by
  cases h with
  | staged v r hv hi hg hb hr hv' hu' hs' =>
    exact .staged v r hv hi hg hb hr (hvi.trans hv') (hu.trans hu')
      (hs.trans hs')

theorem createInstallation_spec {appId ownerId : String} (h : t.createInstallation id appId ownerId = .ok t') :
    t.view = none ∧ t'.view = some .new ∧ t'.updates = t.updates ∧ t'.state = t.state := by
  have h := of_check h
  have h := of_check h
  have h := of_check h
  obtain ⟨_, hf, h⟩ := of_bind_ok h
  cases h
  have hrow := (not_or.1 (not_of_failIf hf)).2
  refine ⟨?_, rfl, rfl, rfl⟩
  rw [view, Option.not_isSome_iff_eq_none.1 hrow, Option.map_none]

theorem Move.after_create {appId ownerId : String}
    (hc : t.createInstallation id appId ownerId = .ok t₁) (h : Move t₁ t' [.staged tk]) : Move t t' [.staged tk] := by
  obtain ⟨hn, hv, hu, hs⟩ := createInstallation_spec hc
  exact h.staged_from (.inr ⟨hn, hv⟩) hu hs

theorem saveBinding_spec (h : t.saveBinding owner record trust = .ok t') :
    t'.view = t.view ∧ t'.updates = t.updates ∧ t'.state = t.state := by
  obtain ⟨-, -, h⟩ := of_bind_ok h
  have h := of_check h
  cases h
  exact ⟨rfl, rfl, rfl⟩

/-- Staging a verified package: the release, then the signer. -/
theorem stageVerified_move {rel : ReleaseMetadata} (hst : lift (t.stageRelease id expected rel now) = .ok (t₁, record))
    (hb : t₁.saveBinding owner record trust = .ok t') : Move t t' [.staged record.token] := by
  obtain ⟨hv, hu, hs⟩ := saveBinding_spec hb
  exact (stageRelease_move (ok_of_mapError hst)).staged_to hv hu hs

theorem stageSupervisedIn_move (h : t.stageSupervisedIn records candidate owner id expected now = .ok (t', record)) :
    Move t t' [.staged record.token] := by
  have h := of_check h
  obtain ⟨⟨t₁, staged⟩, hs, h⟩ := of_bind_ok h
  obtain ⟨t₂, hb, h⟩ := of_bind_ok h
  have h := of_check h
  cases h
  exact (stageVerified_move hs hb).staged_to rfl rfl rfl

theorem view_markDev (t : Tables) (room : String) : (t.markDev room).view = t.view := by
  simp only [view, markDev, Option.map_map]
  rfl

theorem stageDevFirstIn_move {room : String}
    (h : t.stageDevFirstIn records candidate owner id room now = .ok (t', record)) :
    Move t t' [.staged record.token] := by
  have h := of_check h
  have h := of_check h
  have h := of_check h
  have h := of_check h
  obtain ⟨t₁, hc, h⟩ := of_bind_ok h
  have hstaged := (stageSupervisedIn_move h).staged_from (.inl (view_markDev t₁ room)) rfl rfl
  exact hstaged.after_create (ok_of_mapError hc)

theorem stageUpdateIn_move (h : t.stageUpdateIn records candidate owner id expected now = .ok (t', record)) :
    Move t t' [.staged record.token] := by
  have h := of_check h
  obtain ⟨cur, -, h⟩ := of_bind_ok h
  have h := of_check h
  have h := of_check h
  split at h
  · cases h
  have h := of_check h
  have h := of_check h
  exact stageSupervisedIn_move h

theorem requireApprovedIn_spec (h : t.requireApprovedIn records bd owner trust = .ok approval) :
    ∃ r, t.currentUpdate bd.token = .ok r ∧ r.decision = .approved approval := by
  obtain ⟨r, hrvw, h⟩ := of_bind_ok h
  have h := of_check h
  have hrvw := of_check hrvw
  have hrvw := of_check hrvw
  split at h
  · rename_i ha
    cases h
    exact ⟨r, ok_of_mapError hrvw, ha⟩
  · cases h

theorem beginIn_spec {src tg : Nat} (h : s.beginIn generation src tg = .ok s') :
    s' = s ∨ s.migrationOf generation = none ∧ s' = openMigration s ⟨generation, s.head, tg, src⟩ := by
  unfold ManagedState.beginIn at h
  split at h
  · cases h
    exact .inl rfl
  rename_i ho
  have h := of_check h
  cases h
  exact .inr ⟨Option.not_isSome_iff_eq_none.1 ho, rfl⟩

/-- Quiescing opens the migration of the data, unless it is open or the schema stays. -/
theorem beginMigration_spec {schemaVersion : Nat} (h : t.beginMigration tk schemaVersion = .ok t') :
    t' = t ∨ ∃ src, t.state.migrationOf tk.generation = none ∧ t' = { t with
      state := openMigration t.state ⟨tk.generation, t.state.head, schemaVersion, src⟩ } := by
  obtain ⟨inst, -, h⟩ := of_bind_ok h
  dsimp only at h
  split at h
  · cases h
    exact .inl rfl
  rename_i src _
  obtain ⟨st, hb, h⟩ := of_bind_ok h
  cases h
  rcases beginIn_spec hb with rfl | ⟨hn, rfl⟩
  · exact .inl rfl
  · exact .inr ⟨src, hn, rfl⟩

theorem quiesceIn_move (h : t.quiesceIn records bd owner trust now = .ok (t', approval)) :
    Move t t' (t.quiesceEvents t' bd.token) := by
  obtain ⟨_, -, h⟩ := of_bind_ok h
  obtain ⟨r, hr, h⟩ := of_bind_ok h
  obtain ⟨t₁, hb, h⟩ := of_bind_ok h
  obtain ⟨t₂, hsave, h⟩ := of_bind_ok h
  cases h
  obtain ⟨row, hc⟩ := currentUpdate_spec (ok_of_mapError hr)
  have hsave := ok_of_mapError hsave
  rcases beginMigration_spec (ok_of_mapError hb) with rfl | ⟨src, hn, rfl⟩
  · have hsame : t'.state = t₁.state := by
      obtain rfl := saveUpdate_spec hsave
      rfl
    have hnone : t₁.quiesceEvents t' bd.token = [] := by
      rw [quiesceEvents, hsame]
      cases t₁.state.migrationOf bd.token.generation <;> rfl
    rw [hnone]
    exact pauseAdmission_move hc hsave hc.named rfl rfl
  · have hsav := saveUpdate_spec hsave
    have hsta : t'.state = openMigration t.state
        ⟨bd.token.generation, t.state.head, r.release.schemaVersion, src⟩ := by
      rw [hsav]
      rfl
    have hevs : t.quiesceEvents t' bd.token = [.opened bd.token.generation] := by
      have hopen := migrationOf_openMigration t.state
        ⟨bd.token.generation, t.state.head, r.release.schemaVersion, src⟩
      rw [quiesceEvents, hn, hsta, hopen]
      rfl
    rw [hevs]
    refine .opened row bd.token r { r with phase := .quiescing, updatedAtMs := now } src hc
      hc.named rfl rfl ?_ ?_ hn hsta
    · rw [hsav]
      exact view_pauseAdmission hc.hasRow
    · rw [hsav, ← hc.named]
      rfl

theorem commitVerified_spec (h : t.commitVerified records tk owner trust now = .ok (t', active)) :
    t.commitGeneration tk now = .ok (t', active) := by
  obtain ⟨-, -, h⟩ := of_bind_ok h
  have h := of_check h
  obtain ⟨_, -, h⟩ := of_bind_ok h
  have h := of_check h
  exact ok_of_mapError h

theorem Move.committed_from {prep : UpdateRecord} (hc : Current t tk row old) (hr : prep.release = old.release)
    (h : Move { t with updates := t.updates.insert tk.generation prep } t' [.committed tk]) :
    Move t t' [.committed tk] := by
  cases h with
  | committed row' _ old' r a hc' hn he ha hr' hv hu hs =>
    obtain rfl : row = row' := Option.some.inj (hc.hasRow.symm.trans hc'.hasRow)
    obtain rfl : prep = old' :=
      Option.some.inj ((OrdMap.get_insert_self ..).symm.trans hc'.stored)
    refine .committed row tk old r a hc hn he ha (hr'.trans hr) hv ?_
      hs
    rwa [OrdMap.insert_insert] at hu

/-- The supervised commit marks a quiescing update prepared and commits it. -/
theorem commitIn_spec (h : t.commitIn records bd owner trust approval now = .ok (t', active)) :
    (∃ row record, Current t bd.token row record ∧ record.phase = .quiescing ∧
      record.decision = .approved approval) ∧ Move t t' [.committed bd.token] := by
  obtain ⟨ap, ha, h⟩ := of_bind_ok h
  obtain ⟨_, hs, h⟩ := of_bind_ok h
  obtain ⟨record, hr, h⟩ := of_bind_ok h
  obtain ⟨_, hq, h⟩ := of_bind_ok h
  obtain ⟨t₁, hsa, h⟩ := of_bind_ok h
  obtain ⟨_, -, hco⟩ := of_bind_ok h
  have hph := not_not.1 (not_of_failIf hq)
  obtain rfl := not_not.1 (not_of_failIf hs)
  have hload := ok_of_mapError hr
  obtain ⟨r', hrv, hd⟩ := requireApprovedIn_spec ha
  obtain rfl : r' = record := Except.ok.inj (hrv.symm.trans hload)
  obtain ⟨row, hc⟩ := currentUpdate_spec hload
  refine ⟨⟨row, r', hc, hph, hd⟩, ?_⟩
  have hcmtd := (commitGeneration_spec (ok_of_mapError hco)).2
  obtain rfl := saveUpdate_spec (ok_of_mapError hsa)
  have hgen : r'.token.generation = bd.token.generation := by
    rw [hc.named]
  rw [hgen] at hcmtd
  refine Move.committed_from hc ?_ hcmtd
  rfl

/-- The supervised abort ends the pending update, or finds the update aborted before and does nothing. -/
theorem abortIn_spec (h : t.abortIn bd owner reason now = .ok t') :
    (∃ row r, Current t bd.token row r ∧ Move t t' [.ended bd.token]) ∨
      ∃ row, t.row = some row ∧ row.pendingGeneration ≠ some bd.token.generation ∧ t' = t := by
  have h := of_check h
  have h := of_check h
  have h := of_check h
  obtain ⟨sd, -, h⟩ := of_bind_ok h
  obtain ⟨inst, hl, h⟩ := of_bind_ok h
  split at h
  · rename_i hb
    cases h
    obtain ⟨row, hro, -, rfl⟩ := loadInstallation_spec (ok_of_mapError hl)
    exact .inr ⟨row, hro, hb.2.2, rfl⟩
  · obtain ⟨r, hr, h⟩ := of_bind_ok h
    obtain ⟨t₁, hcl, h⟩ := of_bind_ok h
    obtain ⟨row, hc⟩ := currentUpdate_spec (ok_of_mapError hr)
    have hend := clearPending_move hc (ok_of_mapError hcl) (ok_of_mapError h) hc.named rfl
    exact .inl ⟨row, r, hc, hend.1⟩

theorem abortIn_move (h : t.abortIn bd owner reason now = .ok t') : Move t t' (t.abortEvents bd.token) := by
  unfold abortEvents
  rcases abortIn_spec h with ⟨row, r, hc, he⟩ | ⟨row, hr, hn, rfl⟩
  · rw [hc.hasRow, if_pos (by simpa using hc.isPending)]
    exact he
  · rw [hr, if_neg (by simpa using hn)]
    exact .kept rfl rfl rfl

/-! ### Steps on the data -/

/-- A worker is admitted as migrating only for the open migration of its generation. -/
theorem admitMigrating_spec {inst : Except InstallationError Installation}
    {sch : Nat} (h : s.admitMigrating inst scope = .ok (some sch)) :
    ∃ mig, s.migration = some mig ∧ mig.generation = scope.generation := by
  obtain ⟨ld, -, h⟩ := of_bind_ok h
  have h := of_check h
  split at h
  · cases h
  obtain ⟨mig, hm, -⟩ := Option.bind_eq_some_iff.1 (Except.ok.inj h)
  obtain ⟨ho, hg⟩ := Option.filter_eq_some_iff.1 hm
  exact ⟨mig, ho, of_decide_eq_true hg⟩

theorem activeOf_spec (h : ManagedState.activeOf (t.loadInstallation scope.installation) scope = .ok active) :
    ∃ row, t.row = some row ∧ row.active = some active ∧ row.admissionPaused = false := by
  obtain ⟨inst, hl, h⟩ := of_bind_ok h
  have h := of_check h
  have h := of_check h
  obtain ⟨_, hp, h⟩ := of_bind_ok h
  obtain ⟨row, hr, -, rfl⟩ := loadInstallation_spec (ok_of_mapError hl)
  split at h
  · cases h
  rename_i hf
  cases h
  exact ⟨row, hr, hf, Bool.eq_false_iff.2 (not_of_failIf hp)⟩

theorem apply_frame {C : StateCodec V} {inst : Except InstallationError Installation} {chs : StateChanges} {rev : Nat}
    (h : s.apply C inst scope chs = .ok (s', rev)) :
    s.admitSchema inst scope = .ok chs.schemaVersion ∧ s'.migration = s.migration ∧ s'.snapshot = s.snapshot := by
  obtain ⟨sch, hsc, h⟩ := of_bind_ok h
  obtain ⟨_, hs, h⟩ := of_bind_ok h
  have h := of_check h
  have h := of_check h
  refine ⟨?_, ?_⟩
  · rw [← not_not.1 (not_of_failIf hs)]
    exact hsc
  split at h
  · cases h
    exact ⟨rfl, rfl⟩
  have h := of_check h
  have h := of_check h
  have h := of_check h
  cases h
  exact ⟨rfl, rfl⟩

theorem applyState_move {C : StateCodec V} {chs : StateChanges} {rev : Nat}
    (h : applyState C t scope chs = .ok (t', rev)) : Move t t' (t.writeEvents scope chs) := by
  obtain ⟨⟨st, _⟩, hap, h⟩ := of_bind_ok h
  cases h
  obtain ⟨ha, hmi, hs⟩ := apply_frame hap
  obtain ⟨migrating, hm, ha⟩ := of_bind_ok ha
  rw [writeEvents, hm]
  cases migrating with
  | some =>
    obtain ⟨mig, ho, -⟩ := admitMigrating_spec hm
    exact .migrated mig mig.migrated rfl rfl ho (hmi.trans ho) hs
  | none =>
    obtain ⟨a, hac, hsc⟩ := of_bind_ok ha
    obtain ⟨row, hro, hr, hsr⟩ := activeOf_spec hac
    rw [← Except.ok.inj hsc]
    exact .written (viewOf row) a (view_of_row hro) hr hsr rfl rfl hmi hs

theorem stepState_move {sch : Nat} (h : t.stepState scope sch = .ok t') : Move t t' [] := by
  obtain ⟨st, hs, h⟩ := of_bind_ok h
  cases h
  obtain ⟨next, hn, hs⟩ := of_bind_ok hs
  obtain ⟨_, hsa, hs⟩ := of_bind_ok hs
  cases hs
  rw [not_not.1 (not_of_failIf hsa)] at hn
  obtain ⟨mig, ho, -⟩ := admitMigrating_spec hn
  exact .migrated mig sch rfl rfl ho (by simp [ManagedState.setMigrated, ho]) rfl

theorem putBack_spec (h : s.putBack generation = .ok (some s')) :
    ∃ mig head, s.migrationOf generation = some mig ∧ s' = { s with head, values := s.snapshot } := by
  unfold ManagedState.putBack at h
  split at h
  · cases h
  rename_i mig hm
  have h := of_check h
  cases h
  exact ⟨mig, _, hm, rfl⟩

theorem rewindState_move {src : Option Nat} (h : t.rewindState scope = .ok (t', src)) : Move t t' [] := by
  obtain ⟨⟨st, _⟩, hrew, h⟩ := of_bind_ok h
  cases h
  obtain ⟨next, hn, hrew⟩ := of_bind_ok hrew
  cases next with
  | none =>
    cases hrew
    exact .kept rfl rfl rfl
  | some =>
    obtain ⟨ld, -, hrew⟩ := of_bind_ok hrew
    obtain ⟨rst, hre, hrew⟩ := of_bind_ok hrew
    have hrew := of_check hrew
    cases hrew
    obtain ⟨mig, ho, -⟩ := admitMigrating_spec hn
    have hfr : (rst.getD t.state).migration = t.state.migration ∧ (rst.getD t.state).snapshot = t.state.snapshot := by
      cases rst with
      | none => exact ⟨rfl, rfl⟩
      | some =>
        obtain ⟨_, head, -, rfl⟩ := putBack_spec (ok_of_mapError hre)
        exact ⟨rfl, rfl⟩
    refine .migrated mig ((ld.dataRelease.map fun data => data.release.schemaVersion).getD 0) rfl rfl ho
      ?_ hfr.2
    simp only [ManagedState.setMigrated, hfr.1, ho, Option.map_some]

theorem result_move {op : InstallationOp V} (h : t.result op = some (t', new)) : Move t t' new := by
  cases op <;> obtain ⟨a, ha, hf⟩ := exists_of_toOption_map h <;> cases hf
  case create =>
    obtain ⟨hn, hv, hu, hst⟩ := createInstallation_spec ha
    exact .created hn hv hu hst
  case createAndStage =>
    have ha := of_check ha
    obtain ⟨t₁, hc, ha⟩ := of_bind_ok ha
    exact (stageRelease_move ha).after_create hc
  case stage =>
    have ha := of_check ha
    exact stageRelease_move ha
  case decide => exact decideGeneration_move ha
  case quiesce => exact advance_move ha rfl
  case markPrepared => exact advance_move ha rfl
  case commit => exact (commitGeneration_spec (commit_spec ha)).2
  case abort => exact abort_move ha
  case uninstall => exact uninstall_move ha
  case createAndStageVerified =>
    have ha := of_check ha
    obtain ⟨t₁, hc, ha⟩ := of_bind_ok ha
    obtain ⟨⟨t₂, staged⟩, hs, ha⟩ := of_bind_ok ha
    obtain ⟨t₃, hb, ha⟩ := of_bind_ok ha
    cases ha
    exact (stageVerified_move hs hb).after_create (ok_of_mapError hc)
  case stageVerified =>
    have ha := of_check ha
    obtain ⟨_, -, ha⟩ := of_bind_ok ha
    have ha := of_check ha
    obtain ⟨⟨t₁, staged⟩, hs, ha⟩ := of_bind_ok ha
    obtain ⟨t₂, hb, ha⟩ := of_bind_ok ha
    cases ha
    exact stageVerified_move hs hb
  case commitVerified => exact (commitGeneration_spec (commitVerified_spec ha)).2
  case stageFirstIn =>
    have ha := of_check ha
    have ha := of_check ha
    obtain ⟨t₁, hc, ha⟩ := of_bind_ok ha
    exact (stageSupervisedIn_move ha).after_create (ok_of_mapError hc)
  case stageDevFirstIn => exact stageDevFirstIn_move ha
  case stageUpdateIn => exact stageUpdateIn_move ha
  case decideIn =>
    obtain ⟨-, -, ha⟩ := of_bind_ok ha
    exact decideGeneration_move (ok_of_mapError ha)
  case quiesceIn => exact quiesceIn_move ha
  case commitIn => exact (commitIn_spec ha).2
  case abortIn => exact abortIn_move ha
  case applyState => exact applyState_move ha
  case stepState => exact stepState_move ha
  case rewindState => exact rewindState_move ha

end InstallationTables

end Chariox
