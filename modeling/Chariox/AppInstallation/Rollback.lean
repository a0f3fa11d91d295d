import Chariox.AppInstallation.Fencing

/-!
# Rollback of data migrations

Quiescing an update whose release has another schema opens a migration of the data, and the staged worker then writes
migrated values.  Every way out of the update but its commit puts back the values that the migration found, with one
exception: an uninstall clears the pending update and leaves the values of the worker, although the installation then
reports the release from before the update.
-/

namespace Chariox.InstallationTables

open List

variable {V : Type} {t t' : Tables} {events : List InstallationEvent}

def pending (t : Tables) : Option Nat := t.row.bind (fun row => row.pendingGeneration)

/-- The schema of the release that `data_release` reports. -/
def dataSchema (t : Tables) : Option Nat :=
  t.row.bind (fun row => row.dataRelease.map (fun data => data.release.schemaVersion))

/-- What is remembered of the data: the values that the open migration found, and the values last written under the
release that the data belongs to, with the schema they were written under. -/
structure DataLog where
  opened : Option (OrdMap String StateValue)
  values : OrdMap String StateValue
  schema : Option Nat

def DataLog.new : DataLog where
  opened := none
  values := .empty
  schema := none

/-- The data after a commit is what its migration made of it, or what it was; the first release gives it its schema. -/
def DataLog.note (t t' : Tables) (log : DataLog) : InstallationEvent → DataLog
  | .opened _ => { log with opened := some t.state.values }
  | .written schema => { log with values := t'.state.values, schema := some schema }
  | .committed token =>
    { opened := none
      values := t'.state.values
      schema := match t.state.migrationOf token.generation with
        | some migration => some migration.target
        | none => log.schema.or t'.dataSchema }
  | .ended _ => { log with opened := none }
  | .uninstalled _ _ => { log with opened := none }
  | .staged _ => log

structure DataHistory where
  tables : Tables
  log : DataLog

def DataHistory.start (id : String) : DataHistory where
  tables := InstallationTables.new id
  log := .new

def DataHistory.apply (h : DataHistory) (op : InstallationOp V) : DataHistory :=
  match h.tables.result op with
  | none => h
  | some (t, events) => { tables := t, log := events.foldl (DataLog.note h.tables t) h.log }

def dataRun (id : String) (ops : List (InstallationOp V)) : DataHistory :=
  ops.foldl DataHistory.apply (.start id)

/-- The update of a generation keeps the schema of the data, or migrates the data. -/
def migratesTo (t : Tables) (generation : Nat) : Bool :=
  (t.state.migrationOf generation).isSome || t.dataSchema.all (fun schema =>
    (t.updates.get generation).any (fun record => record.release.schemaVersion = schema))

/-- No uninstall while a migration is open, and no commit of a release with another schema without a migration. -/
def orderly (t : Tables) : InstallationOp V → Bool
  | .uninstall _ _ _ => t.state.migration.isNone
  | .commit token _ => t.migratesTo token.generation
  | .commitVerified _ token _ _ _ => t.migratesTo token.generation
  | .commitIn _ binding _ _ _ _ => t.migratesTo binding.token.generation
  | _ => true

def DataHistory.orderlyRun (h : DataHistory) : List (InstallationOp V) → Bool
  | [] => true
  | op :: ops => h.tables.orderly op && (h.apply op).orderlyRun ops

/-! ### What the moves do to the data -/

theorem dataSchema_eq (t : Tables) : t.dataSchema = t.view.bind RowView.dataSchema := by
  rw [dataSchema, view]
  cases t.row <;> rfl

theorem pending_eq (t : Tables) : t.pending = t.view.bind RowView.pending := by
  rw [pending, view]
  cases t.row <;> rfl

variable {s : ManagedState} {generation : Nat}

theorem migrationOf_eq_some {mig : StateMigration} :
    s.migrationOf generation = some mig ↔ s.migration = some mig ∧ mig.generation = generation := by
  rw [ManagedState.migrationOf, Option.filter_eq_some_iff, decide_eq_true_iff]

theorem restoreIn_spec {s' : ManagedState} (h : s.restoreIn generation = .ok s') :
    (s.migrationOf generation = none ∧ s' = s) ∨
      (s.migrationOf generation).isSome = true ∧ s'.migration = none ∧ s'.values = s.snapshot := by
  obtain ⟨rst, hput, h⟩ := of_bind_ok h
  cases rst with
  | none =>
    cases h
    refine .inl ⟨?_, rfl⟩
    unfold ManagedState.putBack at hput
    split at hput
    · assumption
    · have hput := of_check hput
      cases hput
  | some =>
    cases h
    obtain ⟨mig, head, hm, rfl⟩ := putBack_spec hput
    refine .inr ⟨?_, rfl, rfl⟩
    rw [hm]
    rfl

theorem finishIn_spec {s' : ManagedState} (h : s.finishIn generation = .ok s') :
    (s.migrationOf generation = none ∧ s' = s) ∨ (s.migrationOf generation).isSome = true ∧ s'.migration = none := by
  unfold ManagedState.finishIn at h
  split at h
  · rename_i hn
    cases h
    exact .inl ⟨hn, rfl⟩
  rename_i hm
  split at h
  · cases h
  cases h
  refine .inr ⟨?_, rfl⟩
  rw [hm]
  rfl

/-! ### The invariant -/

/-- The open migration is that of the pending update: admission is paused, and its target is the schema of the staged
release. -/
structure Migrating (t : Tables) (migration : StateMigration) : Prop where
  row : ∃ v, t.view = some v ∧ v.pending = some migration.generation ∧ v.paused = true
  record : ∃ record, t.updates.get migration.generation = some record ∧ record.phase.terminal = false ∧
    record.release.schemaVersion = migration.target

structure Restorable (t : Tables) (log : DataLog) : Prop where
  schema : log.schema = t.dataSchema
  closed : t.state.migration = none → t.state.values = log.values ∧ log.opened = none
  opened : ∀ migration, t.state.migration = some migration →
    log.opened = some t.state.snapshot ∧ log.values = t.state.snapshot ∧ Migrating t migration

theorem new_restorable (id : String) : Restorable (InstallationTables.new id) .new where
  schema := rfl
  closed := fun _ => ⟨rfl, rfl⟩
  opened := nofun

variable {log : DataLog} {migration : StateMigration}

theorem Migrating.frame (h : Migrating t migration) (hv : t'.view = t.view) (hu : t'.updates = t.updates) :
    Migrating t' migration := by
  refine ⟨?_, ?_⟩
  · rw [hv]
    exact h.row
  · rw [hu]
    exact h.record

theorem Migrating.generation_eq (h : Migrating t migration) {tk : StageToken} {row : InstallationRow}
    {r : UpdateRecord} (hc : Current t tk row r) : migration.generation = tk.generation := by
  obtain ⟨v, hv, hp, -⟩ := h.row
  rw [hc.view] at hv
  cases hv
  exact Option.some.inj (hp.symm.trans hc.isPending)

theorem Migrating.paused (h : Migrating t migration) {v : RowView} (hv : t.view = some v) : v.paused = true := by
  obtain ⟨v', hv', -, hp⟩ := h.row
  rw [hv] at hv'
  cases hv'
  exact hp

theorem Restorable.migration_eq_none (h : Restorable t log)
    (hn : ∀ mig, Migrating t mig → t.state.migration ≠ some mig) : t.state.migration = none := by
  cases hmig : t.state.migration with
  | none => rfl
  | some mig => exact (hn mig (h.opened mig hmig).2.2 hmig).elim

theorem Restorable.closed_of_migrationOf (h : Restorable t log) {tk : StageToken} {row : InstallationRow}
    {r : UpdateRecord} (hc : Current t tk row r)
    (hn : t.state.migrationOf tk.generation = none) : t.state.migration = none := by
  apply h.migration_eq_none
  intro mig hm hs
  rw [migrationOf_eq_some.2 ⟨hs, hm.generation_eq hc⟩] at hn
  cases hn

theorem Restorable.schema_eq (h : Restorable t log)
    (hv : t'.view.bind RowView.dataSchema = t.view.bind RowView.dataSchema) : log.schema = t'.dataSchema := by
  rw [h.schema, dataSchema_eq, dataSchema_eq, hv]

theorem Restorable.frame (h : Restorable t log) (hv : t'.view = t.view) (hu : t'.updates = t.updates)
    (hs : t'.state = t.state) : Restorable t' log := by
  refine ⟨h.schema_eq (by rw [hv]), ?_, ?_⟩
  · rw [hs]
    exact h.closed
  · intro mig hm
    rw [hs] at hm ⊢
    obtain ⟨ho, hva, hmi⟩ := h.opened mig hm
    exact ⟨ho, hva, hmi.frame hv hu⟩

/-- Without an open migration only the values and their schema matter. -/
theorem Restorable.of_closed (hc : t.state.migration = none) (hs : log.schema = t.dataSchema)
    (hv : t.state.values = log.values) (ho : log.opened = none) : Restorable t log where
  schema := hs
  closed := fun _ => ⟨hv, ho⟩
  opened := by
    intro mig hm
    rw [hc] at hm
    cases hm

theorem Restorable.stay_closed (h : Restorable t log) (hc : t.state.migration = none) (hs : t'.state = t.state)
    (hv : t'.view.bind RowView.dataSchema = t.view.bind RowView.dataSchema) :
    Restorable t' { log with opened := none } :=
  .of_closed (hs ▸ hc) (h.schema_eq hv) (hs ▸ (h.closed hc).1) rfl

theorem Restorable.note_closed (h : Restorable t log) (hc : t.state.migration = none) :
    { log with opened := none } = log := by
  rw [← (h.closed hc).2]

theorem Restorable.move (h : Restorable t log) (hmo : Move t t' events)
    (hun : ∀ pend gen, .uninstalled pend gen ∈ events → t.state.migration = none)
    (hco : ∀ tk, .committed tk ∈ events → t.migratesTo tk.generation = true) :
    Restorable t' (events.foldl (DataLog.note t t') log) := by
  cases hmo with
  | kept hvi hu hs => exact h.frame hvi hu hs
  | created hn hvi hu hs =>
    have hclo : t.state.migration = none := by
      apply h.migration_eq_none
      intro mig hm
      obtain ⟨v, hv, -⟩ := hm.row
      rw [hn] at hv
      cases hv
    have hkept := h.stay_closed hclo hs (by rw [hn, hvi]; rfl)
    rwa [h.note_closed hclo] at hkept
  | staged v r hv hi _ _ _ hvi _ hs =>
    have hclo : t.state.migration = none := by
      apply h.migration_eq_none
      intro mig hm
      obtain ⟨v', hv', hp, -⟩ := hm.row
      rcases hv with hv | ⟨hn, -⟩
      · rw [hv] at hv'
        cases hv'
        rw [hi] at hp
        cases hp
      · rw [hn] at hv'
        cases hv'
    have hsch : t'.view.bind RowView.dataSchema = t.view.bind RowView.dataSchema := by
      rcases hv with hv | ⟨hn, rfl⟩
      · rw [hvi, hv]
        rfl
      · rw [hvi, hn]
        rfl
    have hkept := h.stay_closed hclo hs hsch
    rwa [h.note_closed hclo] at hkept
  | revised row tk old r hcu hna hr hru paused hvi hu hs =>
    refine ⟨h.schema_eq (by rw [hvi, hcu.view]; rfl), ?_, ?_⟩
    · rw [hs]
      exact h.closed
    intro mig hmi
    rw [hs] at hmi ⊢
    obtain ⟨ho, hva, hm⟩ := h.opened mig hmi
    have hgen := hm.generation_eq hcu
    refine ⟨ho, hva, ?_, ?_⟩
    · have hpau : row.admissionPaused = true := hm.paused hcu.view
      refine ⟨_, hvi, ?_, ?_⟩
      · rw [hgen]
        exact hcu.isPending
      · rw [hpau]
        rfl
    · obtain ⟨found, hf, -, ht⟩ := hm.record
      rw [hgen] at hf ⊢
      obtain rfl : old = found := Option.some.inj (hcu.stored.symm.trans hf)
      refine ⟨r, hu.running _ _ (OrdMap.get_insert_self ..) hru, hru, ?_⟩
      rw [hr, ht]
  | opened row tk old r src hcu hna hr hru hvi hu hne hs =>
    have hclo := h.closed_of_migrationOf hcu hne
    refine ⟨h.schema_eq (by rw [hvi, hcu.view]; rfl), ?_, ?_⟩
    · intro hn
      rw [hs] at hn
      cases hn
    intro mig hmi
    rw [hs] at hmi ⊢
    cases hmi
    refine ⟨rfl, (h.closed hclo).1.symm, ⟨_, hvi, hcu.isPending, rfl⟩, r, ?_, hru, rfl⟩
    rw [hu]
    exact OrdMap.get_insert_self ..
  | ended row tk old r hcu hna he hvi hu hs =>
    have hsch : log.schema = t'.dataSchema := h.schema_eq (by rw [hvi, hcu.view]; rfl)
    rcases restoreIn_spec hs with ⟨hn, hsa⟩ | ⟨hso, hclo, hva⟩
    · have hclo := h.closed_of_migrationOf hcu hn
      exact h.stay_closed hclo hsa (by rw [hvi, hcu.view]; rfl)
    obtain ⟨mig, hmi⟩ := Option.isSome_iff_exists.1 hso
    obtain ⟨-, hsn, -⟩ := h.opened mig (migrationOf_eq_some.1 hmi).1
    exact .of_closed hclo hsch (hva.trans hsn.symm) rfl
  | committed row tk old r a hcu hna he ha hr hvi hu hs =>
    have hsch : t'.dataSchema = some old.release.schemaVersion := by
      rw [dataSchema_eq, hvi, ← hr]
      rfl
    have hmgs := hco tk (mem_singleton_self _)
    rcases finishIn_spec hs with ⟨hn, hsa⟩ | ⟨hso, hclo⟩
    · have hclo := h.closed_of_migrationOf hcu hn
      refine .of_closed (hsa ▸ hclo) ?_ rfl rfl
      simp only [foldl_cons, DataLog.note, hn, h.schema, hsch]
      rw [migratesTo, hn, hcu.stored] at hmgs
      cases hdata : t.dataSchema with
      | none => rfl
      | some schema =>
        rw [hdata] at hmgs
        have heq : old.release.schemaVersion = schema := by
          simpa using hmgs
        rw [heq]
        rfl
    · refine .of_closed hclo ?_ rfl rfl
      obtain ⟨mig, hmi⟩ := Option.isSome_iff_exists.1 hso
      obtain ⟨-, -, hm⟩ := h.opened mig (migrationOf_eq_some.1 hmi).1
      obtain ⟨found, hf, -, ht⟩ := hm.record
      rw [hm.generation_eq hcu, hcu.stored] at hf
      cases hf
      simp only [foldl_cons, foldl_nil, DataLog.note, hmi, hsch, ht]
  | uninstalled v jr hv hjr hvi hu hs =>
    exact h.stay_closed (hun _ _ (mem_singleton_self _)) hs (by rw [hvi, hv]; rfl)
  | written v a hv ha hsr hvi hu hmi =>
    have hclo : t.state.migration = none := by
      apply h.migration_eq_none
      intro mig hm
      have hpau := hm.paused hv
      rw [hsr] at hpau
      cases hpau
    refine .of_closed (hmi.trans hclo) ?_ rfl (h.closed hclo).2
    rw [dataSchema_eq, hvi, hv, Option.bind_some, RowView.dataSchema, ha]
    rfl
  | migrated mig migrated hvi hu hop hmi hsn =>
    obtain ⟨ho, hva, hm⟩ := h.opened mig hop
    refine ⟨h.schema_eq (by rw [hvi]), ?_, ?_⟩
    · intro hn
      rw [hmi] at hn
      cases hn
    intro mig' hso
    rw [hmi] at hso
    cases hso
    rw [hsn]
    have hframed := hm.frame hvi hu
    exact ⟨ho, hva, hframed.row, hframed.record⟩

/-! ### Runs -/

theorem orderly_of_result {op : InstallationOp V} (h : t.result op = some (t', events)) (ho : t.orderly op = true) :
    (∀ pend gen, .uninstalled pend gen ∈ events → t.state.migration = none) ∧
      ∀ tk, .committed tk ∈ events → op.isCommit = true ∧ t.migratesTo tk.generation = true := by
  cases op <;> obtain ⟨a, ha, hf⟩ := exists_of_toOption_map h <;> cases hf
  case uninstall => exact ⟨fun _ _ _ => Option.isNone_iff_eq_none.1 ho, by simp⟩
  case commit | commitVerified | commitIn =>
    refine ⟨by simp, ?_⟩
    intro tk ht
    cases mem_singleton.1 ht
    exact ⟨rfl, ho⟩
  case decide | decideIn => unfold decisionEvents; split <;> simp
  case abortIn => unfold abortEvents; split <;> simp
  case quiesceIn => unfold quiesceEvents; split <;> simp
  case applyState => unfold writeEvents; split <;> simp
  all_goals simp

theorem DataHistory.apply_restorable {h : DataHistory} (hl : Restorable h.tables h.log) {op : InstallationOp V}
    (ho : h.tables.orderly op = true) : Restorable (h.apply op).tables (h.apply op).log := by
  unfold DataHistory.apply
  split
  · exact hl
  rename_i hr
  obtain ⟨hu, hc⟩ := orderly_of_result hr ho
  exact hl.move (result_move hr) hu fun tk ht => (hc tk ht).2

theorem DataHistory.run_restorable {h : DataHistory} (hl : Restorable h.tables h.log) (ops : List (InstallationOp V))
    (ho : h.orderlyRun ops = true) :
    Restorable (ops.foldl DataHistory.apply h).tables (ops.foldl DataHistory.apply h).log := by
  induction ops generalizing h with
  | nil => exact hl
  | cons op ops ih =>
    obtain ⟨hf, hr⟩ := Bool.and_eq_true_iff.1 ho
    exact ih (DataHistory.apply_restorable hl hf) hr

/-- The update ends without a commit: the values are those that its migration found. -/
theorem Restorable.values_of_exit (h : Restorable t log) (hmo : Move t t' events)
    (hu : ∀ p gen, .uninstalled p gen ∈ events → t.state.migration = none)
    (hco : ∀ tk, .committed tk ∉ events) (hb : t.pending.isSome = true) (ha : t'.pending = none)
    {values : OrdMap String StateValue} (ho : log.opened = some values) : t'.state.values = values := by
  have hopen : ∃ migration, t.state.migration = some migration := by
    cases hm : t.state.migration with
    | none =>
      rw [(h.closed hm).2] at ho
      cases ho
    | some migration => exact ⟨migration, rfl⟩
  obtain ⟨migration, hm⟩ := hopen
  obtain ⟨hs, -, hmi⟩ := h.opened migration hm
  have hsame : ∀ {v : RowView}, t.view = some v → ¬ t'.view.bind RowView.pending = v.pending := by
    intro v hv heq
    rw [pending_eq, hv] at hb
    rw [pending_eq, heq] at ha
    rw [Option.bind_some, ha] at hb
    cases hb
  cases hmo with
  | ended row tk old r hc hna he hvi hup hst =>
    rcases restoreIn_spec hst with ⟨hn, -⟩ | ⟨-, -, hva⟩
    · rw [h.closed_of_migrationOf hc hn] at hm
      cases hm
    · rw [hva]
      exact Option.some.inj (hs.symm.trans ho)
  | uninstalled =>
    rw [hu _ _ (mem_singleton_self _)] at hm
    cases hm
  | committed row tk => exact (hco tk (mem_singleton_self _)).elim
  | created hn =>
    rw [pending_eq, hn] at hb
    cases hb
  | staged v r hv hi hg hba hr hvi =>
    rw [pending_eq, hvi] at ha
    cases ha
  | revised row tk old r hc hna hrl hr paused hvi =>
    exact (hsame hc.view (by rw [hvi]; rfl)).elim
  | opened row tk old r src hc hna hrl hr hvi =>
    exact (hsame hc.view (by rw [hvi]; rfl)).elim
  | kept hvi =>
    obtain ⟨v, hv, -⟩ := hmi.row
    exact (hsame hv (by rw [hvi, hv]; rfl)).elim
  | written v a hv hac hsr hvi => exact (hsame hv (by rw [hvi, hv]; rfl)).elim
  | migrated _ _ hvi =>
    obtain ⟨v, hv, -⟩ := hmi.row
    exact (hsame hv (by rw [hvi, hv]; rfl)).elim

/-- In every run without an uninstall during a migration, and without a commit that changes the schema and migrates
nothing: each way out of an update but its commit leaves the values that its migration found, and while no update is
pending the values are those last written under the release that the data belongs to, with its schema. -/
theorem data_restored (id : String) (ops : List (InstallationOp V))
    (horderly : (DataHistory.start id).orderlyRun ops = true) :
    let h := dataRun id ops
    (∀ (op : InstallationOp V) t' events values, h.tables.orderly op = true →
      h.tables.result op = some (t', events) → op.isCommit = false → h.tables.pending.isSome = true →
      t'.pending = none → h.log.opened = some values → t'.state.values = values) ∧
    (h.tables.pending = none → h.tables.state.values = h.log.values ∧ h.log.schema = h.tables.dataSchema) := by
  have hlog : Restorable (dataRun id ops).tables (dataRun id ops).log :=
    DataHistory.run_restorable (h := .start id) (new_restorable id) ops horderly
  refine ⟨?_, ?_⟩
  · intro op t' events values hop hr hn hb ha ho
    obtain ⟨hu, hc⟩ := orderly_of_result hr hop
    refine hlog.values_of_exit (result_move hr) hu ?_ hb ha ho
    intro tk ht
    rw [(hc tk ht).1] at hn
    cases hn
  · intro hi
    refine ⟨(hlog.closed ?_).1, hlog.schema⟩
    apply hlog.migration_eq_none
    intro mig hm
    obtain ⟨v, hv, hp, -⟩ := hm.row
    rw [pending_eq, hv, Option.bind_some, hp] at hi
    cases hi

/-! ### A migration in progress -/

def sampleCodec : StateCodec String where
  encode := .ok
  decode := some

def sampleWrite (schemaVersion : Nat) (text : String) : StateChanges where
  schemaVersion
  checks := []
  writes := [("key", some text)]
  distinct := by simp

def sampleApproval : CapabilityApproval where
  decisionId := "decision"
  authorityRef := "authority"

/-- Release 1 wrote its data, and the worker of release 2 migrates it. -/
def migratedData : List (InstallationOp String) :=
  let trust := (sampleCandidate "1" 1).trust
  [.stageFirstIn sampleRecords (sampleCandidate "1" 1) "owner" "id" 0,
   .decideIn sampleRecords (sampleBinding 0 1) "owner" trust (.approved sampleApproval) 1,
   .quiesceIn sampleRecords (sampleBinding 0 1) "owner" trust 2,
   .commitIn sampleRecords (sampleBinding 0 1) "owner" trust sampleApproval 3,
   .applyState sampleCodec ⟨"owner", "id", 1⟩ (sampleWrite 1 "old"),
   .stageUpdateIn sampleRecords (sampleCandidate "2" 2) "owner" "id" 1 4,
   .decideIn sampleRecords (sampleBinding 1 2) "owner" trust (.approved sampleApproval) 5,
   .quiesceIn sampleRecords (sampleBinding 1 2) "owner" trust 6,
   .applyState sampleCodec ⟨"owner", "id", 2⟩ (sampleWrite 2 "new")]

theorem data_restored_migratedData :
    let ops := migratedData ++ [.abortIn (sampleBinding 1 2) "owner" "failed" 7]
    (DataHistory.start "id").orderlyRun ops = true ∧ (dataRun "id" ops).tables.pending = none ∧
      (dataRun "id" ops).tables.state.values = (dataRun "id" ops).log.values := by
  have hordl : (DataHistory.start "id").orderlyRun
      (migratedData ++ [.abortIn (sampleBinding 1 2) "owner" "failed" 7]) = true := by
    decide +kernel
  have hidle : (dataRun "id" (migratedData ++ [.abortIn (sampleBinding 1 2) "owner" "failed" 7])).tables.pending =
      none := by
    decide +kernel
  exact ⟨hordl, hidle, ((data_restored "id" _ hordl).2 hidle).1⟩

/-- An uninstall during the migration keeps the migrated value, and the data counts as that of release 1. -/
theorem uninstall_keeps_migrated :
    let h := dataRun "id" migratedData
    (h.log.opened.bind (fun values => values.get "key")).map StateValue.text = some "old" ∧
      (h.tables.result (.uninstall "id" 1 7 : InstallationOp String)).map (fun r =>
        ((r.1.state.values.get "key").map StateValue.text, r.1.pending, r.1.dataSchema)) =
        some (some "new", none, some 1) := by
  decide +kernel

end Chariox.InstallationTables
