import Chariox.AppInstallation.Operations

/-!
# Fencing of updates

An update is pending from its stage to its end, and the tokens of ended updates are refused for ever: generation numbers
are never given out twice, and every operation on a stage asks for the pending one.
-/

namespace Chariox

open OrdMap

namespace InstallationTables

variable {V : Type} {t t' : Tables} {events new : List InstallationEvent}

/-! ### The history -/

/-- The generation numbers that were given out, in order. -/
def allocations (events : List InstallationEvent) : List Nat :=
  events.filterMap (fun
    | .staged token => some token.generation
    | .uninstalled _ generation => some generation
    | _ => none)

/-- The update of the token was aborted, declined or committed, or its installation was removed meanwhile. -/
def Ended (events : List InstallationEvent) (token : StageToken) : Prop :=
  .ended token ∈ events ∨ .committed token ∈ events ∨ ∃ generation, .uninstalled (some token) generation ∈ events

/-- The generation that was committed last, unless the App was uninstalled since. -/
def lastCommitted (events : List InstallationEvent) : Option Nat :=
  events.foldl (fun last event =>
    match event with
    | .committed token => some token.generation
    | .uninstalled _ _ => none
    | _ => last) none

variable {token : StageToken} {active : ActiveGeneration} {record : UpdateRecord} {generation : Nat}

theorem pendingToken_spec (h : t.pendingToken = some token) :
    ∃ gen r, t.updates.get gen = some r ∧ r.token = token := by
  obtain ⟨gen, -, hr⟩ := Option.bind_eq_some_iff.1 h
  obtain ⟨r, hg, hn⟩ := Option.map_eq_some_iff.1 hr
  exact ⟨gen, r, hg, hn⟩

theorem allocations_append (es new : List InstallationEvent) :
    allocations (es ++ new) = allocations es ++ allocations new :=
  List.filterMap_append

theorem Ended.of_append (h : Ended (events ++ new) token) : Ended events token ∨ Ended new token := by
  simp only [Ended] at h ⊢
  grind

/-! ### The invariant -/

structure FencedRow (v : RowView) (journal : OrdMap Nat UpdateRecord) (events : List InstallationEvent) : Prop where
  recorded : ∀ generation record, journal.get generation = some record →
    generation ≤ v.allocated ∧ record.token.generation = generation
  pending : ∀ generation, v.pending = some generation → ∃ record, journal.get generation = some record ∧
    record.phase.terminal = false ∧ record.token.baseGeneration = v.generation
  running : ∀ generation record, journal.get generation = some record → record.phase.terminal = false →
    v.pending = some generation
  paused : v.paused = true → v.pending.isSome = true
  active : ∀ active, v.active = some active → active.generation = v.generation ∧
    lastCommitted events = some v.generation
  current : v.generation ≤ v.allocated
  allocated : ∀ generation ∈ allocations events, generation ≤ v.allocated
  increasing : (allocations events).Pairwise (· < ·)
  ended : ∀ token, Ended events token → token.generation ≤ v.allocated ∧ v.pending ≠ some token.generation

/-- Before the installation is created there is nothing; then its row and its journal agree. -/
structure Fenced (t : Tables) (events : List InstallationEvent) : Prop where
  absent : t.view = none → (∀ generation, t.updates.get generation = none) ∧ events = []
  present : ∀ v, t.view = some v → FencedRow v t.updates events

theorem new_fenced (id : String) : Fenced (InstallationTables.new id) [] where
  absent := fun _ => ⟨get_empty, rfl⟩
  present := nofun

theorem fencedRow_new : FencedRow .new .empty [] where
  recorded := nofun
  pending := nofun
  running := nofun
  paused := nofun
  active := nofun
  current := le_refl _
  allocated := nofun
  increasing := List.Pairwise.nil
  ended := nofun

variable {v : RowView} {journal kept : OrdMap Nat UpdateRecord}

section

variable (h : FencedRow v journal events)

include h

theorem FencedRow.prune (hp : Pruned journal kept) : FencedRow v kept events :=
  { h with
    recorded := fun gen r hg => h.recorded gen r (hp.subset gen r hg)
    pending := by
      intro gen hpe
      obtain ⟨r, hg, hr, hb⟩ := h.pending gen hpe
      exact ⟨r, hp.running gen r hg hr, hr, hb⟩
    running := fun gen r hg => h.running gen r (hp.subset gen r hg) }

/-- The record of the pending update ends, and its number is no longer pending. -/
theorem FencedRow.insert_ended (hp : v.pending = some generation) (hge : record.token.generation = generation)
    (he : record.phase.terminal = true) :
    (∀ g r, (journal.insert generation record).get g = some r → g ≤ v.allocated ∧ r.token.generation = g) ∧
      ∀ g r, (journal.insert generation record).get g = some r → r.phase.terminal = false → False := by
  obtain ⟨old, ho, -⟩ := h.pending generation hp
  refine ⟨?_, ?_⟩
  · exact forall_insert ⟨(h.recorded _ old ho).1, hge⟩ h.recorded
  intro g r hg hr
  rcases of_get_insert hg with ⟨-, rfl⟩ | ⟨hne, hg⟩
  · rw [he] at hr
    cases hr
  have hoth := h.running g r hg hr
  rw [hp] at hoth
  exact hne (Option.some.inj hoth).symm

theorem FencedRow.allocate (hne : allocations new = [v.allocated + 1]) :
    (∀ gen ∈ allocations (events ++ new), gen ≤ v.allocated + 1) ∧ (allocations (events ++ new)).Pairwise (· < ·) := by
  rw [allocations_append, hne]
  refine ⟨?_, ?_⟩
  · intro gen hm
    rw [List.mem_append, List.mem_singleton] at hm
    rcases hm with ho | rfl
    · exact Nat.le_succ_of_le (h.allocated gen ho)
    · exact le_refl _
  · rw [List.pairwise_append]
    refine ⟨h.increasing, List.pairwise_singleton _ _, ?_⟩
    intro gen hm next hn
    rw [List.mem_singleton.1 hn]
    exact Nat.lt_succ_of_le (h.allocated gen hm)

theorem FencedRow.ended_append {old : UpdateRecord}
    (hg : journal.get token.generation = some old) (hn : ∀ o, Ended new o → o = token) :
    ∀ o, Ended (events ++ new) o → o.generation ≤ v.allocated := by
  intro o ho
  rcases ho.of_append with hb | ha
  · exact (h.ended o hb).1
  · rw [hn o ha]
    exact (h.recorded _ old hg).1

end

theorem Fenced.row_or_new (h : Fenced t events) (hv : t.view = some v ∨ t.view = none ∧ v = .new) :
    FencedRow v t.updates events := by
  rcases hv with hv | ⟨hn, rfl⟩
  · exact h.present v hv
  obtain ⟨he, rfl⟩ := h.absent hn
  have hjr : t.updates = .empty := by
    apply ext_get
    intro gen
    rw [he, get_empty]
  rw [hjr]
  exact fencedRow_new

variable {row : InstallationRow}

/-- The record of the pending update changes, and its update stays open. -/
theorem FencedRow.revise {old : UpdateRecord} (h : FencedRow (viewOf row) t.updates events)
    (hc : Current t token row old) (hn : record.token = token) (hr : record.phase.terminal = false)
    (paused : Bool) : FencedRow { viewOf row with paused } (t.updates.insert token.generation record) events := by
  subst hn
  refine ⟨?_, ?_, ?_, ?_, h.active, h.current, h.allocated, h.increasing, h.ended⟩
  · exact forall_insert ⟨(h.recorded _ old hc.stored).1, rfl⟩ h.recorded
  · intro g hg
    obtain rfl : record.token.generation = g := Option.some.inj (hc.isPending.symm.trans hg)
    exact ⟨record, get_insert_self .., hr, hc.onBase.symm⟩
  · exact forall_insert (fun _ => hc.isPending) h.running
  · exact fun _ => Option.isSome_of_eq_some hc.isPending

theorem FencedRow.quiet (h : FencedRow v journal events) (ha : allocations new = [])
    (he : ∀ tk, ¬ Ended new tk) (hl : lastCommitted (events ++ new) = lastCommitted events) :
    FencedRow v journal (events ++ new) :=
  { h with
    active := by
      rw [hl]
      exact h.active
    allocated := by
      rw [allocations_append, ha, List.append_nil]
      exact h.allocated
    increasing := by
      rw [allocations_append, ha, List.append_nil]
      exact h.increasing
    ended := by
      intro tk ht
      rcases ht.of_append with hb | haf
      · exact h.ended tk hb
      · exact (he tk haf).elim }

theorem Fenced.of_view (hv : t'.view = some v) (hr : FencedRow v t'.updates events) : Fenced t' events where
  absent := by
    intro ha
    rw [hv] at ha
    cases ha
  present := by
    intro v' hv'
    rw [hv] at hv'
    cases hv'
    exact hr

theorem Fenced.unchanged (h : Fenced t events) (hv : t'.view = t.view) (hu : t'.updates = t.updates) :
    Fenced t' events := by
  refine ⟨?_, ?_⟩
  · rw [hv, hu]
    exact h.absent
  · rw [hv, hu]
    exact h.present

/-- The pending update ends, with a commit or without. -/
theorem FencedRow.close {v' : RowView} {old : UpdateRecord} (h : FencedRow v journal events)
    (hpe : v.pending = some token.generation) (hge : journal.get token.generation = some old)
    (hgen : record.token.generation = token.generation) (he : record.phase.terminal = true)
    (hi : v'.pending = none) (hpa : v'.paused = false) (ha : v'.allocated = v.allocated)
    (hc : v'.generation ≤ v.allocated) (hal : allocations new = []) (hs : ∀ o, Ended new o → o = token)
    (hac : ∀ a, v'.active = some a → a.generation = v'.generation ∧
      lastCommitted (events ++ new) = some v'.generation) :
    FencedRow v' (journal.insert token.generation record) (events ++ new) := by
  obtain ⟨hr, hn⟩ := h.insert_ended hpe hgen he
  have hsame : allocations (events ++ new) = allocations events := by
    rw [allocations_append, hal, List.append_nil]
  refine ⟨?_, ?_, fun g r hge hru => (hn g r hge hru).elim, ?_, hac, ?_, ?_, ?_, ?_⟩
  · rw [ha]
    exact hr
  · intro g hg
    rw [hi] at hg
    cases hg
  · intro hp
    rw [hpa] at hp
    cases hp
  · rw [ha]
    exact hc
  · rw [hsame, ha]
    exact h.allocated
  · rw [hsame]
    exact h.increasing
  · intro o ho
    rw [ha, hi]
    exact ⟨h.ended_append hge hs o ho, by simp⟩

theorem Fenced.move (h : Fenced t events) (hm : Move t t' new) : Fenced t' (events ++ new) := by
  cases hm with
  | kept hvi hu _ =>
    rw [List.append_nil]
    exact h.unchanged hvi hu
  | created hno hvi hu _ =>
    refine .of_view hvi ?_
    rw [hu, List.append_nil]
    exact h.row_or_new (.inr ⟨hno, rfl⟩)
  | staged v rec hv hi hgen hb hr hvi hu _ =>
    have hrow := h.row_or_new hv
    have hnew : allocations [InstallationEvent.staged rec.token] = [v.allocated + 1] := by
      rw [← hgen]
      rfl
    refine .of_view hvi ?_
    rw [hu]
    refine ⟨?_, ?_, ?_, ?_, ?_, ?_, ?_, ?_, ?_⟩
    · refine forall_insert ⟨le_rfl, hgen⟩ fun g r hge => ?_
      obtain ⟨hle, hs⟩ := hrow.recorded g r hge
      exact ⟨Nat.le_succ_of_le hle, hs⟩
    · intro g hg
      cases hg
      exact ⟨rec, get_insert_self .., hr, hb⟩
    · refine forall_insert (fun _ => rfl) fun g r hge hru => ?_
      exact nomatch hi.symm.trans (hrow.running g r hge hru)
    · exact fun _ => rfl
    · intro a ha
      obtain ⟨hs, hl⟩ := hrow.active a ha
      refine ⟨hs, ?_⟩
      rw [lastCommitted, List.foldl_append]
      exact hl
    · exact Nat.le_succ_of_le hrow.current
    · exact (hrow.allocate hnew).1
    · exact (hrow.allocate hnew).2
    · intro tk he
      rcases he.of_append with hol | hno
      · obtain ⟨hle, -⟩ := hrow.ended tk hol
        refine ⟨Nat.le_succ_of_le hle, ?_⟩
        intro heq
        have : v.allocated + 1 = tk.generation := Option.some.inj heq
        omega
      · simp [Ended] at hno
  | revised row tk old rec hc hn _ hr paused hvi hu _ =>
    have hrow := h.present _ hc.view
    rw [List.append_nil]
    exact .of_view hvi (.prune (hrow.revise hc hn hr _) hu)
  | opened row tk old rec src hc hn _ hr hvi hu _ _ =>
    have hrow := h.present _ hc.view
    refine .of_view hvi ?_
    rw [hu]
    refine (hrow.revise hc hn hr true).quiet rfl (by simp [Ended]) ?_
    rw [lastCommitted, List.foldl_append]
    rfl
  | ended row tk old rec hc hn he hvi hu _ =>
    have hrow := h.present _ hc.view
    refine .of_view hvi (.prune ?_ hu)
    refine hrow.close hc.isPending hc.stored (by rw [hn]) he rfl rfl rfl hrow.current rfl
      (by simp [Ended]) ?_
    intro a ha
    obtain ⟨hgen, hl⟩ := hrow.active a ha
    refine ⟨hgen, ?_⟩
    rw [lastCommitted, List.foldl_append]
    exact hl
  | committed row tk old rec a hc hn he ha _ hvi hu _ =>
    have hrow := h.present _ hc.view
    refine .of_view hvi (.prune ?_ hu)
    refine hrow.close hc.isPending hc.stored (by rw [hn]) he rfl rfl rfl
      (hrow.recorded _ old hc.stored).1 rfl (by simp [Ended]) ?_
    intro other hoth
    cases hoth
    refine ⟨ha, ?_⟩
    rw [lastCommitted, List.foldl_append]
    rfl
  | uninstalled v jr hv hjr hvi hu _ =>
    have hrow := h.present v hv
    have hboth : (∀ g r, jr.get g = some r → g ≤ v.allocated ∧ r.token.generation = g) ∧
        ∀ g r, jr.get g = some r → r.phase.terminal = false → False := by
      rcases hjr with ⟨hi, rfl⟩ | ⟨pend, old, rec, hp, hge, hn, he, rfl⟩
      · refine ⟨hrow.recorded, ?_⟩
        intro g r hge hru
        have hoth := hrow.running g r hge hru
        rw [hi] at hoth
        cases hoth
      · have hgen := (hrow.recorded pend old hge).2
        rw [hgen]
        exact hrow.insert_ended hp (by rw [hn, hgen]) he
    have hnew : allocations [InstallationEvent.uninstalled t.pendingToken (v.allocated + 1)] = [v.allocated + 1] := rfl
    refine .of_view hvi (.prune ?_ hu)
    refine ⟨?_, nofun, fun g r hge hru => (hboth.2 g r hge hru).elim, nofun, nofun, le_refl _, ?_, ?_, ?_⟩
    · intro g r hge
      obtain ⟨hle, hs⟩ := hboth.1 g r hge
      exact ⟨Nat.le_succ_of_le hle, hs⟩
    · exact (hrow.allocate hnew).1
    · exact (hrow.allocate hnew).2
    · intro other hoth
      refine ⟨?_, by simp⟩
      rcases hoth.of_append with hol | hl
      · exact Nat.le_succ_of_le (hrow.ended other hol).1
      have hp : t.pendingToken = some other := by
        simpa [Ended, eq_comm] using hl
      obtain ⟨g, rec, hge, rfl⟩ := pendingToken_spec hp
      obtain ⟨hle, hs⟩ := hrow.recorded g rec hge
      rw [hs]
      exact Nat.le_succ_of_le hle
  | written v a hv ha hsr hvi hu _ _ =>
    have hrow := h.present v hv
    refine .of_view (hvi.trans hv) ?_
    rw [hu]
    refine hrow.quiet rfl (by simp [Ended]) ?_
    rw [lastCommitted, List.foldl_append]
    rfl
  | migrated _ _ hvi hu _ _ _ =>
    rw [List.append_nil]
    exact h.unchanged hvi hu

theorem run_fenced (id : String) (ops : List (InstallationOp V)) : Fenced (run id ops).tables (run id ops).events := by
  refine List.foldlRecOn ops History.apply (motive := fun h => Fenced h.tables h.events)
    (b := { tables := InstallationTables.new id, events := [] }) (new_fenced id) ?_
  intro h hf op _
  unfold History.apply
  split
  · exact hf
  · rename_i hr
    exact hf.move (result_move hr)

/-! ### Ended updates -/

/-- An operation about a token succeeds only while the update of the token is pending, but for the supervised abort,
which has nothing to do then. -/
theorem current_of_result {op : InstallationOp V} (ht : op.token = some token) (h : t.result op = some (t', new)) :
    (∃ row r, Current t token row r) ∨ ((∃ bind ow rsn now, op = .abortIn bind ow rsn now) ∧ t' = t ∧ new = []) := by
  cases op <;> cases ht <;> obtain ⟨a, ha, hf⟩ := exists_of_toOption_map h <;> cases hf
  case decide | abort =>
    have ha := of_check ha
    obtain ⟨r, hr, -⟩ := of_bind_ok ha
    obtain ⟨row, hc⟩ := currentUpdate_spec hr
    exact .inl ⟨row, r, hc⟩
  case quiesce | markPrepared =>
    obtain ⟨r, hr, -⟩ := of_bind_ok ha
    obtain ⟨row, hc⟩ := currentUpdate_spec hr
    exact .inl ⟨row, r, hc⟩
  case commit =>
    obtain ⟨⟨row, r, hc, -⟩, -⟩ := commitGeneration_spec (commit_spec ha)
    exact .inl ⟨row, r, hc⟩
  case commitVerified =>
    obtain ⟨⟨row, r, hc, -⟩, -⟩ := commitGeneration_spec (commitVerified_spec ha)
    exact .inl ⟨row, r, hc⟩
  case decideIn =>
    obtain ⟨-, -, ha⟩ := of_bind_ok ha
    have ha := of_check (ok_of_mapError ha)
    obtain ⟨r, hr, -⟩ := of_bind_ok ha
    obtain ⟨row, hc⟩ := currentUpdate_spec hr
    exact .inl ⟨row, r, hc⟩
  case quiesceIn =>
    obtain ⟨_, -, ha⟩ := of_bind_ok ha
    obtain ⟨r, hr, -⟩ := of_bind_ok ha
    obtain ⟨row, hc⟩ := currentUpdate_spec (ok_of_mapError hr)
    exact .inl ⟨row, r, hc⟩
  case commitIn =>
    obtain ⟨⟨row, r, hc, -⟩, -⟩ := commitIn_spec ha
    exact .inl ⟨row, r, hc⟩
  case abortIn bind ow rsn now =>
    rcases abortIn_spec ha with ⟨row, r, hc, -⟩ | ⟨row, hro, hn, rfl⟩
    · exact .inl ⟨row, r, hc⟩
    · refine .inr ⟨⟨bind, ow, rsn, now, rfl⟩, rfl, ?_⟩
      rw [abortEvents, hro, if_neg (by simpa using hn)]

theorem Fenced.not_current_of_ended (h : Fenced t events) (he : Ended events token) : ¬ Current t token row record := by
  intro hc
  exact ((h.present _ hc.view).ended token he).2 hc.isPending

/-- What a commit finds: the pending update of its token, approved, and prepared unless it is the supervised commit,
which finds it quiescing and prepares it in the same transaction. -/
theorem approved_of_commit {op : InstallationOp V} (hco : op.isCommit = true) (h : t.result op = some (t', new)) :
    ∃ tk row r, op.token = some tk ∧ Current t tk row r ∧ isApproved r.decision = true ∧
      (r.phase = .prepared ∨
        ((∃ recs bind ow trust approval now, op = .commitIn recs bind ow trust approval now) ∧
          r.phase = .quiescing)) := by
  cases op <;> cases hco <;> obtain ⟨a, ha, hf⟩ := exists_of_toOption_map h
  case commit =>
    obtain ⟨⟨row, r, hc, hph, hap⟩, -⟩ := commitGeneration_spec (commit_spec ha)
    exact ⟨_, row, r, rfl, hc, hap, .inl hph⟩
  case commitVerified =>
    obtain ⟨⟨row, r, hc, hph, hap⟩, -⟩ := commitGeneration_spec (commitVerified_spec ha)
    exact ⟨_, row, r, rfl, hc, hap, .inl hph⟩
  case commitIn =>
    obtain ⟨⟨row, r, hc, hph, hd⟩, -⟩ := commitIn_spec ha
    refine ⟨_, row, r, rfl, hc, ?_, .inr ⟨⟨_, _, _, _, _, _, rfl⟩, hph⟩⟩
    rw [hd]
    rfl

theorem Fenced.committed_of_active (h : Fenced t events)
    (hr : t.row = some row) (ha : row.active = some active) : lastCommitted events = some row.generation :=
  ((h.present _ (view_of_row hr)).active active ha).2

theorem Fenced.committed_of_requireActive (h : Fenced t events) {id : String}
    (hact : t.requireActive id generation = .ok active) : lastCommitted events = some generation := by
  obtain ⟨inst, hl, hact⟩ := of_bind_ok hact
  obtain ⟨_, hexpected, hact⟩ := of_bind_ok hact
  have hact := of_check hact
  obtain ⟨row, hr, -, rfl⟩ := loadInstallation_spec hl
  split at hact
  · cases hact
  rename_i hf
  have hlast := h.committed_of_active hr hf
  rw [hlast, ← expectedGeneration_spec hexpected]

theorem Fenced.committed_of_requireActiveBinding (h : Fenced t events) {recs : OtherRecords}
    {bind : StageTrustBinding} {ow : String} {trust : TrustedPublisherSnapshot}
    (hact : t.requireActiveBinding recs bind ow trust = .ok active) :
    lastCommitted events = some bind.token.generation := by
  have hact := of_check hact
  have hact := of_check hact
  obtain ⟨inst, hl, hact⟩ := of_bind_ok hact
  obtain ⟨_, hexpected, hact⟩ := of_bind_ok hact
  have hact := of_check hact
  obtain ⟨row, hr, -, rfl⟩ := loadInstallation_spec (ok_of_mapError hl)
  split at hact
  · cases hact
  rename_i hf
  have hlast := h.committed_of_active hr hf
  rw [hlast]
  exact congrArg some (not_not.1 (not_of_failIf hexpected))

/-- At most one update is open in every run, its number is new, and admission is paused only for it; an ended update
stays ended, whatever is called with its token; only an approved and prepared update on top of the current generation
is committed; and only the generation committed last is served, until it is uninstalled.

The supervised abort accepts a stage that was declined or aborted before, and leaves everything as it is. -/
theorem updates_fenced (id : String) (ops : List (InstallationOp V)) :
    let h := run id ops
    (∀ generation record, h.tables.updates.get generation = some record → record.phase.terminal = false →
      ∃ row, h.tables.row = some row ∧ row.pendingGeneration = some generation) ∧
    (allocations h.events).Pairwise (· < ·) ∧
    (∀ row, h.tables.row = some row → row.admissionPaused = true →
      ∃ generation record, row.pendingGeneration = some generation ∧
        h.tables.updates.get generation = some record ∧ record.phase.terminal = false) ∧
    (∀ (op : InstallationOp V) token t' new, Ended h.events token → op.token = some token →
      h.tables.result op = some (t', new) →
      (∃ binding owner reason now, op = .abortIn binding owner reason now) ∧ t' = h.tables ∧ new = []) ∧
    (∀ (op : InstallationOp V) t' new, op.isCommit = true → h.tables.result op = some (t', new) →
      ∃ token row record, op.token = some token ∧ Current h.tables token row record ∧
        isApproved record.decision = true ∧
        (record.phase = .prepared ∨
          ((∃ records binding owner trust approval now, op = .commitIn records binding owner trust approval now) ∧
            record.phase = .quiescing))) ∧
    (∀ id generation active, h.tables.requireActive id generation = .ok active →
      lastCommitted h.events = some generation) ∧
    (∀ records binding owner trust active, h.tables.requireActiveBinding records binding owner trust = .ok active →
      lastCommitted h.events = some binding.token.generation) := by
  have hfen := run_fenced id ops
  refine ⟨?_, ?_, ?_, ?_, ?_, ?_, ?_⟩
  · intro generation record hg hru
    cases hr : (run id ops).tables.row with
    | none =>
      have hemp := (hfen.absent (by rw [view, hr, Option.map_none])).1 generation
      rw [hemp] at hg
      cases hg
    | some row => exact ⟨row, rfl, (hfen.present _ (view_of_row hr)).running generation record hg hru⟩
  · cases hr : (run id ops).tables.row with
    | none =>
      rw [(hfen.absent (by rw [view, hr, Option.map_none])).2]
      exact List.Pairwise.nil
    | some => exact (hfen.present _ (view_of_row hr)).increasing
  · intro row hr hpa
    have hpres := hfen.present _ (view_of_row hr)
    obtain ⟨generation, hp⟩ := Option.isSome_iff_exists.1 (hpres.paused hpa)
    obtain ⟨record, hg, hru, -⟩ := hpres.pending generation hp
    exact ⟨generation, record, hp, hg, hru⟩
  · intro op token t' new he ht hre
    rcases current_of_result ht hre with ⟨row, record, hcu⟩ | hn
    · exact (hfen.not_current_of_ended he hcu).elim
    · exact hn
  · exact fun op t' new hc hre => approved_of_commit hc hre
  · exact fun id generation active ha => hfen.committed_of_requireActive ha
  · exact fun records binding owner trust active ha => hfen.committed_of_requireActiveBinding ha

/-! ### A late abort -/

/-- Every enrollment is current, and nothing else is installed. -/
def sampleRecords : OtherRecords where
  trustCurrent := fun _ _ => true
  knownDigest := fun _ _ => none
  devInstalled := fun _ _ _ => false

def sampleDigest : String := "sha256:0000000000000000000000000000000000000000000000000000000000000000"

def sampleCandidate (version : String) (schemaVersion : Nat) : VerifiedInstallCandidate where
  release := {
    appId := "app", version, publisherId := "publisher", packageDigest := sampleDigest, schemaVersion
    capabilitiesDigest := sampleDigest, catalogDigest := sampleDigest, viewDigest := sampleDigest }
  trust := {
    ownerId := "owner", publisherId := "publisher", keyId := "key", publicKeyFingerprint := sampleDigest, revision := 1 }

def sampleBinding (baseGeneration generation : Nat) : StageTrustBinding where
  token := { installationId := "id", baseGeneration, generation }
  ownerId := "owner"
  packageDigest := sampleDigest
  publisherId := "publisher"
  keyId := "key"
  trustRevision := 1
  publicKeyFingerprint := sampleDigest

def declinedStage : List (InstallationOp Unit) :=
  [.stageFirstIn sampleRecords (sampleCandidate "1" 1) "owner" "id" 0,
   .decideIn sampleRecords (sampleBinding 0 1) "owner" (sampleCandidate "1" 1).trust (.declined "decision" "authority") 1]

/-- The supervised abort of a declined stage is not refused. -/
theorem abortIn_after_decline : ¬ ∀ (ops : List (InstallationOp Unit)) (token : StageToken) (op : InstallationOp Unit),
    Ended (run "id" ops).events token → op.token = some token → (run "id" ops).tables.result op = none := by
  intro hr
  have hend : Ended (run "id" declinedStage).events (sampleBinding 0 1).token := .inl (by decide)
  have hnone := hr declinedStage (sampleBinding 0 1).token (.abortIn (sampleBinding 0 1) "owner" "late" 2) hend rfl
  have hsome : ((run "id" declinedStage).tables.result
      (.abortIn (sampleBinding 0 1) "owner" "late" 2 : InstallationOp Unit)).isSome = true := by
    decide
  rw [hnone] at hsome
  cases hsome

end InstallationTables

end Chariox
