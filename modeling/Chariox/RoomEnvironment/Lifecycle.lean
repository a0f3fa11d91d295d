import Chariox.Lib.Runs
import Chariox.RoomEnvironment.Idempotency
import Chariox.RoomEnvironment.QueueOrder

/-!
# The life of an action

Every operation is a sequence of moves, and a move does one of six things to a stored action (`Evolution`).  The times
and the outcome of an action follow its state whatever the clocks show, because every later time is taken no earlier
than the times that the action has already.  Once an action has ended only a compaction touches it
(`action_lifecycle`).

The reason of a cancellation is kept beside the actions.  A recovery of the browser controller ends running actions
and leaves their reasons behind; where it finds none to leave, each reason belongs to a running action that is asked to
stop (`reasons_of_running_actions`).
-/

namespace Chariox

/-- The state that goes with an outcome. -/
def EnvironmentActionOutcome.state : EnvironmentActionOutcome → EnvironmentActionState
  | completed => .completed
  | failed _ => .failed
  | cancelled _ => .cancelled

/-- What an action in each state knows of its start, its end and its outcome. -/
structure EnvironmentAction.InOrder (a : EnvironmentAction) : Prop where
  queued : a.state = .queued → a.startedAtMs = none ∧ a.finishedAtMs = none ∧ a.outcome = none
  running : a.state = .running →
    (∃ started, a.startedAtMs = some started ∧ a.submittedAtMs ≤ started) ∧ a.finishedAtMs = none ∧ a.outcome = none
  terminal : a.state.isTerminal = true →
    a.outcome.map EnvironmentActionOutcome.state = some a.state ∧
      ∃ finished, a.finishedAtMs = some finished ∧ a.startedAtMs.getD a.submittedAtMs ≤ finished

namespace EnvironmentActionLedger

variable {l l' : Ledger} {p : Allowed} {evict fresh : Prop} {id : String} {a : Action}
  {before aft : Option Action}

/-! ### One stored action -/

/-- What a move does to the action that is stored under an id.  An action is admitted only under a `fresh` id and
forgotten only where moves may `evict`. -/
inductive Evolution (evict fresh : Prop) : Option Action → Option Action → Prop
  | same (before : Option Action) : Evolution evict fresh before before
  | asked (a : Action) (hrunning : a.state = .running) :
    Evolution evict fresh (some a) (some { a with cancellationRequested := true })
  | ended (a : Action) (ending : Ending) (now : Nat) (hallows : ending.Allows a.state) :
    Evolution evict fresh (some a) (some (ending.apply now a))
  | started (a : Action) (now : Nat) (hqueued : a.state = .queued) :
    Evolution evict fresh (some a) (some (a.started now))
  | admitted (l : Ledger) (request : Request) (queued : Bool) (now : Nat)
      (hfresh : fresh) : Evolution evict fresh none (some (l.newAction request queued now))
  | evicted (a : Action) (hterminal : a.state.isTerminal = true) (hevict : evict) :
    Evolution evict fresh (some a) none

theorem CalmMove.evolution (hm : CalmMove p l l') (id : String) :
    Evolution p.evict fresh (l.actions.get id) (l'.actions.get id) := by
  cases hm with
  | input => exact .same _
  | asked i a rsn hg hr =>
    rw [updateAction_actions, OrdMap.get_modify]
    split
    · rename_i hi
      rw [hi, hg]
      exact .asked a hr
    · exact .same _
  | ended ck en ids hnd hl =>
    rw [updateActions_get hnd]
    split
    · rename_i hme
      obtain ⟨a, hg, ha⟩ := hl id hme
      rw [hg]
      exact .ended a en (ck id) ha
    · exact .same _
  | evicted i a hg ht he =>
    rw [evictAction_get]
    split
    · rename_i hi
      rw [hi, hg]
      exact .evicted a ht he
    · exact .same _
  | forgot n a hg =>
    rw [forgetHistoryRecord_eq hg]
    exact .same _

theorem WellFormed.evolution (h : l.WellFormed) (hm : Move p l l') (id : String) :
    Evolution p.evict (id = actionIdOf l.nextSequence) (l.actions.get id) (l'.actions.get id) := by
  cases hm with
  | calm hm => exact hm.evolution id
  | started ck i a hg hf =>
    show Evolution _ _ _ ((l.actions.insert i (a.started (ck i))).get id)
    rw [OrdMap.get_insert]
    split
    · rename_i hi
      rw [hi, hg]
      exact .started a (ck i) hf.1
    · exact .same _
  | admitted req q now =>
    rw [admitAction_actions, OrdMap.get_insert]
    split
    · rename_i hi
      rw [hi, h.fresh]
      exact .admitted l req q now rfl
    · exact .same _

theorem le_nextActionTimestamp (now : Nat) (a : Action) :
    a.startedAtMs.getD a.submittedAtMs ≤ nextActionTimestamp now a ∧ a.submittedAtMs ≤ nextActionTimestamp now a := by
  unfold nextActionTimestamp
  omega

theorem Ending.inOrder_apply (en : Ending) (now : Nat) (a : Action) : (en.apply now a).InOrder := by
  have hterm := en.isTerminal_apply now a
  refine ⟨?_, ?_, fun _ => ⟨?_, nextActionTimestamp now a, ?_, ?_⟩⟩
  · intro hq
    rw [hq] at hterm
    cases hterm
  · intro hr
    rw [hr] at hterm
    cases hterm
  · cases en with
    | finished term rsn => cases term <;> rfl
    | _ => rfl
  · cases en <;> rfl
  · cases en <;> exact (le_nextActionTimestamp now a).1

theorem newAction_inOrder (l : Ledger) (req : Request) (q : Bool) (now : Nat) : (l.newAction req q now).InOrder := by
  cases q <;> constructor <;> simp [newAction, EnvironmentActionState.isTerminal]

/-- A step never takes a time before the times that the action has. -/
theorem Evolution.inOrder (h : Evolution evict fresh before aft) (hb : ∀ a ∈ before, a.InOrder) :
    ∀ a ∈ aft, a.InOrder := by
  cases h with
  | same => exact hb
  | asked a hr =>
    rintro _ ⟨⟩
    have ha := hb a rfl
    exact ⟨ha.queued, ha.running, ha.terminal⟩
  | ended a en now =>
    rintro _ ⟨⟩
    exact en.inOrder_apply now a
  | started a now hq =>
    rintro _ ⟨⟩
    obtain ⟨-, hf, ho⟩ := (hb a rfl).queued hq
    exact ⟨nofun, fun _ => ⟨⟨_, rfl, (le_nextActionTimestamp now a).2⟩, hf, ho⟩, nofun⟩
  | admitted l req q now =>
    rintro _ ⟨⟩
    exact newAction_inOrder l req q now
  | evicted =>
    intro a ha
    cases ha

/-- An action that has ended stays as it is, or it is forgotten. -/
theorem Evolution.of_terminal (h : Evolution evict fresh (some a) aft) (ht : a.state.isTerminal = true) :
    aft = some a ∨ (aft = none ∧ evict) := by
  cases h with
  | same => exact .inl rfl
  | asked _ hr =>
    rw [hr] at ht
    cases ht
  | ended _ en now ha =>
    cases en with
    | dequeued =>
      rw [show a.state = .queued from ha] at ht
      cases ht
    | finished =>
      rcases ha with hs | ⟨hs, -⟩ <;> rw [hs] at ht <;> cases ht
    | lost => exact nomatch ht.symm.trans ha
  | started _ now hq =>
    rw [hq] at ht
    cases ht
  | evicted _ _ he => exact .inr ⟨rfl, he⟩

theorem Evolution.of_none (h : Evolution evict fresh none aft) (ho : ¬ fresh) : aft = none := by
  cases h with
  | same => rfl
  | admitted _ _ _ _ hf => exact absurd hf ho

theorem Move.nextSequence_le (hm : Move p l l') : l.nextSequence ≤ l'.nextSequence := by
  cases hm with
  | calm hm =>
    cases hm with
    | asked => rw [updateAction_nextSequence]
    | ended => exact (updateActions_nextSequence _ _ _).ge
    | forgot n a hg => rw [forgetHistoryRecord_eq hg]
    | _ => exact le_refl _
  | started => exact le_refl _
  | admitted => exact Nat.le_succ _

/-! ### Runs -/

variable (terminalCapacity queueCapacity : Nat)

theorem run_append (l : Ledger) (ops more : List LedgerOp) :
    l.run (ops ++ more) = (l.run ops).run more := List.foldl_append

theorem run_inOrder (ops : List LedgerOp) {id : String} {a : Action}
    (ha : ((new terminalCapacity queueCapacity).run ops).actions.get id = some a) : a.InOrder := by
  refine (foldl_invariant (P := fun l : Ledger => l.WellFormed ∧ ∀ a ∈ l.actions.get id, a.InOrder) ?_
    ⟨new_wellFormed terminalCapacity queueCapacity, ?_⟩ ops).2 a ha
  · intro l op hl
    exact hl.1.moves_induction (fun _ _ hwf h hm => (hwf.evolution hm id).inOrder h) hl.2 (hl.1.apply_moves op)
  · intro a ha
    cases ha

/-- The id of an action is not given again: after the action is gone nothing is stored under it. -/
theorem WellFormed.ended_moves (h : l.WellFormed) (hm : Moves p l l')
    (hg : l.actions.get id = some a ∨ l.actions.get id = none) (hid : id = actionIdOf a.sequence)
    (hs : a.sequence < l.nextSequence) (ht : a.state.isTerminal = true) :
    (l'.actions.get id = some a ∨ l'.actions.get id = none) ∧ a.sequence < l'.nextSequence := by
  refine (h.moves_induction (P := fun l => (l.actions.get id = some a ∨ l.actions.get id = none) ∧
    a.sequence < l.nextSequence) ?_ ⟨hg, hs⟩ hm).2
  rintro l l' hwf ⟨hg, hs⟩ hmove
  refine ⟨?_, hs.trans_le hmove.nextSequence_le⟩
  have hstep := hwf.evolution hmove id
  rcases hg with hg | hg
  · rw [hg] at hstep
    exact (hstep.of_terminal ht).imp_right And.left
  rw [hg] at hstep
  refine .inr (hstep.of_none fun hf => ?_)
  have := actionIdOf_injective (hid.symm.trans hf)
  omega

theorem WellFormed.ended_run (h : l.WellFormed) (ops : List LedgerOp) (hg : l.actions.get id = some a)
    (ht : a.state.isTerminal = true) : (l.run ops).actions.get id = some a ∨ (l.run ops).actions.get id = none := by
  obtain ⟨-, hid, hs⟩ := h.stored id a hg
  refine (foldl_invariant (P := fun l : Ledger => l.WellFormed ∧
    (l.actions.get id = some a ∨ l.actions.get id = none) ∧ a.sequence < l.nextSequence) ?_ ⟨h, .inl hg, hs⟩ ops).2.1
  intro l op hl
  exact ⟨hl.1.apply op, hl.1.ended_moves (hl.1.apply_moves op) hl.2.1 hid hl.2.2 ht⟩

theorem WellFormed.ended_apply (h : l.WellFormed) (op : LedgerOp) (hg : l.actions.get id = some a)
    (ht : a.state.isTerminal = true) : (op.apply l).actions.get id = some a ∨ op = .compactTerminalActions := by
  by_cases hop : op = .compactTerminalActions
  · exact .inr hop
  refine .inl (h.moves_induction (P := fun l => l.actions.get id = some a) ?_ hg (h.apply_moves op)).2
  intro l l' hwf hg hm
  have hstep := hwf.evolution hm id
  rw [hg] at hstep
  exact (hstep.of_terminal ht).resolve_right fun hgo => hop hgo.2

/-- The times and the outcome of an action go with its state, however the clocks run.  An action that has ended is
stored unchanged until a compaction forgets it, and then nothing is stored under its id. -/
theorem action_lifecycle (ops : List LedgerOp) (id : String) (a : Action)
    (ha : ((new terminalCapacity queueCapacity).run ops).actions.get id = some a) :
    a.InOrder ∧ (a.state.isTerminal = true → ∀ more,
      (((new terminalCapacity queueCapacity).run (ops ++ more)).actions.get id = some a ∨
        ((new terminalCapacity queueCapacity).run (ops ++ more)).actions.get id = none) ∧
      (((new terminalCapacity queueCapacity).run (ops ++ more)).actions.get id = some a → ∀ op,
        ((new terminalCapacity queueCapacity).run (ops ++ more ++ [op])).actions.get id = some a ∨
          op = .compactTerminalActions)) := by
  have hwf : ∀ ops, ((new terminalCapacity queueCapacity).run ops).WellFormed := run_wellFormed _ _
  refine ⟨run_inOrder _ _ ops ha, fun ht more => ⟨?_, fun hm op => ?_⟩⟩
  · rw [run_append]
    exact (hwf ops).ended_run more ha ht
  · rw [run_append _ (ops ++ more)]
    exact (hwf (ops ++ more)).ended_apply op hm ht

/-- A click on the first tab, submitted at time 5. -/
def runningClick : List LedgerOp := [queueSubmit (.browserMutation "agent" 1 "tab-click" "tab-1" 1)]

/-- The clock has been set back when the click ends. -/
theorem action_lifecycle_earlierClock :
    ∃ a, ((new 8 8).run (runningClick ++ [.finish (fun _ => 2) "action-1" .completed])).actions.get "action-1" = some a ∧
      a.finishedAtMs = some 5 ∧ a.InOrder := by
  obtain ⟨a, ha⟩ := Option.isSome_iff_exists.1 (show (((new 8 8).run
    (runningClick ++ [.finish (fun _ => 2) "action-1" .completed])).actions.get "action-1").isSome = true by decide)
  have hfin : (((new 8 8).run (runningClick ++ [.finish (fun _ => 2) "action-1" .completed])).actions.get
    "action-1").bind EnvironmentAction.finishedAtMs = some 5 := by decide
  rw [ha] at hfin
  exact ⟨a, ha, hfin, (action_lifecycle 8 8 _ "action-1" a ha).1⟩

/-! ### Reasons of cancellations -/

/-- Every stored reason is that of a running action that is asked to stop. -/
def ReasonsRun (l : Ledger) : Prop :=
  ∀ id reason, l.cancellationReasons.get id = some reason →
    ∃ a, l.actions.get id = some a ∧ a.state = .running ∧ a.cancellationRequested = true

theorem ReasonsRun.calm (h : l.ReasonsRun) (hm : CalmMove p l l') (hl : ¬ p.leak) : l'.ReasonsRun := by
  intro id rsn hr
  cases hm with
  | input => exact h id rsn hr
  | asked i a r hg hru =>
    rw [updateAction_reasons] at hr
    rw [updateAction_actions, OrdMap.get_modify]
    split
    · rename_i hi
      subst hi
      rw [hg]
      exact ⟨_, rfl, hru, rfl⟩
    · rename_i hi
      rw [OrdMap.get_insertIfAbsent, if_neg hi] at hr
      exact h id rsn hr
  | ended ck en ids hnd hli rsvs hres reasons hre hc =>
    obtain ⟨a, ha, hru, has⟩ := h id rsn (hre id rsn hr)
    rw [updateActions_get hnd, if_neg]
    · exact ⟨a, ha, hru, has⟩
    intro hme
    have hnone := hc.resolve_left hl id hme a ha hru
    exact nomatch hnone.symm.trans hr
  | evicted i a hg ht =>
    obtain ⟨b, hb, hru, has⟩ := h id rsn hr
    refine ⟨b, ?_, hru, has⟩
    rw [evictAction_get, if_neg, hb]
    rintro rfl
    rw [hg] at hb
    cases hb
    rw [hru] at ht
    cases ht
  | forgot n a hg =>
    rw [forgetHistoryRecord_eq hg] at hr ⊢
    exact h id rsn hr

theorem ReasonsRun.move (hwf : l.WellFormed) (h : l.ReasonsRun) (hm : Move p l l') (hl : ¬ p.leak) : l'.ReasonsRun := by
  intro id reason hrs
  cases hm with
  | calm hm => exact h.calm hm hl id reason hrs
  | started ck i a hg hf =>
    obtain ⟨b, hb, hr, ha⟩ := h id reason hrs
    refine ⟨b, ?_, hr, ha⟩
    show (l.actions.insert i (a.started (ck i))).get id = some b
    rw [OrdMap.get_insert_of_ne, hb]
    rintro rfl
    rw [hg] at hb
    cases hb
    exact nomatch hf.1.symm.trans hr
  | admitted req q now =>
    have hold : l.cancellationReasons.get id = some reason := by
      rw [← hrs]
      unfold EnvironmentActionLedger.admitAction
      split <;> rfl
    obtain ⟨b, hb, hr, ha⟩ := h id reason hold
    refine ⟨b, ?_, hr, ha⟩
    rw [admitAction_actions, OrdMap.get_insert_of_ne, hb]
    rintro rfl
    exact nomatch hwf.fresh.symm.trans hb

/-- As long as no recovery of the controller ends an action whose cancellation has a reason, every reason belongs to a
running action that is asked to stop. -/
theorem reasons_of_running_actions (ops : List LedgerOp)
    (hkept : everyStep LedgerOp.apply (fun l op => !op.leavesReason l) (new terminalCapacity queueCapacity) ops = true) :
    ((new terminalCapacity queueCapacity).run ops).ReasonsRun := by
  refine (foldl_induction (P := fun l => l.WellFormed ∧ l.ReasonsRun) ?_ ⟨new_wellFormed _ _, nofun⟩ hkept).2
  intro l op hl hop
  refine hl.1.moves_induction (fun _ _ hwf h hm => h.move hwf hm ?_) hl.2 (hl.1.apply_moves op)
  rw [Bool.not_eq_true'] at hop
  exact fun hle => Bool.false_ne_true (hop.symm.trans hle)

/-- The agent asks its own click to stop. -/
def cancelledClick : List LedgerOp := runningClick ++ [.cancelAsActor (fun _ => 7) "agent" "action-1" queueActors]

theorem reasons_of_running_actions_cancelledClick :
    ((new 8 8).run cancelledClick).cancellationReasons.get "action-1" = some .requested ∧
      ∃ a, ((new 8 8).run cancelledClick).actions.get "action-1" = some a ∧ a.state = .running ∧
        a.cancellationRequested = true :=
  have hrsn : ((new 8 8).run cancelledClick).cancellationReasons.get "action-1" = some .requested := by decide
  ⟨hrsn, reasons_of_running_actions 8 8 cancelledClick (by decide) "action-1" .requested hrsn⟩

/-- The browser controller is lost while the click is asked to stop: the click has failed, but its reason stays. -/
theorem reason_of_failed_action :
    let l := (new 8 8).run (cancelledClick ++ [.beginControllerRecovery (fun _ => 9)])
    (l.actions.get "action-1").map EnvironmentAction.state = some .failed ∧
      l.cancellationReasons.get "action-1" = some .requested ∧ ¬ l.ReasonsRun := by
  intro l
  have hfail : (l.actions.get "action-1").map EnvironmentAction.state = some .failed := by decide
  have hrsn : l.cancellationReasons.get "action-1" = some .requested := by decide
  refine ⟨hfail, hrsn, fun h => ?_⟩
  obtain ⟨a, ha, hr, -⟩ := h "action-1" .requested hrsn
  rw [ha, Option.map_some, hr] at hfail
  cases hfail

end EnvironmentActionLedger

end Chariox
