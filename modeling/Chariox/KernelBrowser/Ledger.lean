import Chariox.KernelBrowser.Model
import Chariox.RoomEnvironment.Runs

/-!
# The action ledger without a queue

The kernel's browser gives its ledger no queue, so an action runs from its admission to its end.  After every other
operation fewer actions run, and the ledger stays settled (`Settled`) for everyone who has ever registered.
-/

namespace Chariox.EnvironmentActionLedger

open List

variable {joined : ActorMap} {l l' : Ledger}

/-! ### A ledger without a queue -/

/-- The ledger is settled, has no queue, and every request mutates. -/
structure Calm (joined : ActorMap) (l : Ledger) : Prop where
  settled : Settled joined l
  queueCapacity : l.queueCapacity = 0
  started : ∀ id a, l.actions.get id = some a → a.state ≠ .queued
  mutating : ∀ id r, l.requests.get id = some r → r.mutates = true

theorem promote_eq_self (ck : Clock) (h : ∀ id a, l.actions.get id = some a → a.state ≠ .queued) :
    (l.promoteQueuedActions ck).1 = l := by
  refine promote_induction ck (P := fun m => m = l) ?_ l rfl
  rintro m id act rfl hg hp
  exact absurd hp.1 (h id act hg)

theorem Calms.started (h : Calms l l') (hs : ∀ id a, l.actions.get id = some a → a.state ≠ .queued) :
    ∀ id a, l'.actions.get id = some a → a.state ≠ .queued := by
  intro id a' ha' hqu
  obtain ⟨a, ha, hq, -⟩ := h.live ha' rfl hqu
  exact hs id a ha hq

theorem Calms.promote (ck : Clock) (h : Calms l l') (hs : ∀ id a, l.actions.get id = some a → a.state ≠ .queued) :
    Calms l (l'.promoteQueuedActions ck).1 := by
  rw [promote_eq_self ck (h.started hs)]
  exact h

variable {a : Action} {id : String}

theorem admitAction_stored {req : Request} {q : Bool} {now : Nat}
    (ha : (l.admitAction req q now).actions.get id = some a) :
    (id = actionIdOf l.nextSequence ∧ a = l.newAction req q now) ∨
      (id ≠ actionIdOf l.nextSequence ∧ l.actions.get id = some a) :=
  OrdMap.of_get_insert ha

namespace Calm

section

variable (h : Calm joined l)

include h

theorem calms (hs : Settled joined l') (hc : Calms l l') : Calm joined l' where
  settled := hs
  queueCapacity := hc.queueCapacity.trans h.queueCapacity
  started := hc.started h.started
  mutating := fun id r hr => h.mutating id r (hc.requests id r hr)

/-- Every operation but a submission: it promotes nothing, because nothing waits. -/
theorem apply_calms (op : LedgerOp) (hop : op.request = none) : Calms l (op.apply l) := by
  have hphs := h.settled.wellFormed.apply_phases op
  generalize op.apply l = l' at hphs
  cases hphs with
  | calm hm => exact hm.calms
  | promoted ck hm => exact hm.calms.promote ck h.started
  | admitted req q now ha hs => exact nomatch hop.symm.trans hs.1

theorem finish_ends (ck : Clock) {id : String} (term : EnvironmentActionTerminal)
    {a' : Action} (ha' : (l.finish ck id term).1.actions.get id = some a') : a'.state ≠ .running := by
  intro hr
  rcases finish_cases ck l id term with ⟨heq, hn⟩ | ⟨a, ha, hl, heq⟩
  · rw [heq] at ha'
    exact hn a' ha' hr
  have hend : CalmMove .all l (finishing ck l id term) := finished_move ck ha hl
  have hstd := hend.calms.started h.started
  have hgr : CalmMove .all (finishing ck l id term) _ := finalize_move _
  rw [heq] at ha'
  obtain ⟨b, hb, hru, -⟩ := (hgr.calms.promote ck hstd).live ha' rfl hr
  change (updateAction _ id _).actions.get id = some b at hb
  rw [updateAction_actions, OrdMap.get_modify, if_pos rfl] at hb
  obtain ⟨c, -, rfl⟩ := Option.map_eq_some_iff.1 hb
  have hterm := finished_isTerminal (ck id) term (l.cancellationReasons.get id) c
  rw [hru] at hterm
  cases hterm

theorem admitAction {req : Request} {now : Nat}
    (hs : Settled joined (l.admitAction req false now)) (hm : req.mutates = true) :
    Calm joined (l.admitAction req false now) where
  settled := hs
  queueCapacity := by
    rw [← h.queueCapacity]
    unfold EnvironmentActionLedger.admitAction
    split <;> rfl
  started := by
    intro id a ha
    rcases admitAction_stored ha with ⟨-, rfl⟩ | ⟨-, ho⟩
    · exact nofun
    · exact h.started id a ho
  mutating := OrdMap.forall_insert hm h.mutating

end

end Calm

/-! ### Who is looked up -/

theorem Settled.invalidated_terminal (h : Settled joined l) (ck : Clock) (acs : ActorMap)
    (ha : (l.invalidateAfterKernelRestart ck acs).1.actions.get id = some a) : a.state.isTerminal = true := by
  have hget : (l.invalidateAfterKernelRestart ck acs).1.actions.get id = _ :=
    updateActions_get (actionIdsWhere_nodup h.wellFormed.nodup _) _ _ id
  rw [hget] at ha
  split at ha
  · obtain ⟨b, -, rfl⟩ := Option.map_eq_some_iff.1 ha
    rfl
  rename_i hm
  by_contra hact
  refine hm (mem_actionIdsWhere.2 ⟨(h.wellFormed.ordered id).2 ⟨a, ha⟩, a, ha, ?_⟩)
  simpa using hact

section

variable (hstarted : ∀ id a, l.actions.get id = some a → a.state ≠ .queued)

include hstarted

theorem displacedActionIds_eq_nil (t : InputTarget) (aid : String) : l.displacedActionIds t aid = [] := by
  unfold displacedActionIds
  rw [map_eq_nil_iff, filter_eq_nil_iff]
  intro a ha
  obtain ⟨id, -, hg⟩ := mem_filterMap.1 ha
  simp [hstarted id a hg]

/-- A takeover looks up the actor that asks and the actor that holds the target. -/
theorem requestTakeover_actors (ck : Clock)
    {aid : String} {t : InputTarget} {acs actors' : ActorMap} (tabs : TabRegistry)
    (ha : acs.get aid = actors'.get aid) (hblocking : l.blockingActionIds t acs = l.blockingActionIds t actors') :
    l.requestTakeover ck aid t acs tabs = l.requestTakeover ck aid t actors' tabs := by
  have hbegin : l.beginTakeover ck aid t acs = l.beginTakeover ck aid t actors' := by
    unfold beginTakeover cancelQueuedActionsDisplacedByTakeover
    rw [displacedActionIds_eq_nil hstarted]
    dsimp only [EnvironmentActionLedger.updateActions, foldl_nil]
    rw [hblocking]
  unfold EnvironmentActionLedger.requestTakeover
  rw [ha, hblocking, hbegin]

end

/-- A request is admitted from an actor that is there, whatever its kind. -/
theorem submit_actors {req : Request} {acs acs' : ActorMap}
    (ha : acs.contains req.actorId = acs'.contains req.actorId) (life : EnvironmentLifecycle)
    (gen : Nat) (tabs : TabRegistry) (now : Nat) :
    l.submit req life gen acs tabs now = l.submit req life gen acs' tabs now := by
  unfold EnvironmentActionLedger.submit
  rw [ha]

/-- A settled ledger without a queue: no action of an agent runs on a target that a person owns. -/
theorem Calm.not_running (h : Calm joined l) {t : InputTarget} {o : String}
    (ho : l.inputOwners.get t = some o) (ha : l.actions.get id = some a) (hag : JoinedAs joined .agent a.actorId)
    (ht : t ∈ a.targets) : a.state ≠ .running := by
  intro hru
  obtain ⟨r, hr, -⟩ := h.settled.wellFormed.requested id a ha
  have hruns : l.RunsOn id t := ⟨a, r, ha, hr, hru, h.mutating id r hr, ht⟩
  exact h.settled.owned t o ho ⟨id, a, (h.settled.wellFormed.reserved t id).2 hruns, ha, hag⟩

end Chariox.EnvironmentActionLedger
