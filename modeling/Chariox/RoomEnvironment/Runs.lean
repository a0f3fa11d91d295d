import Chariox.RoomEnvironment.State
import Chariox.RoomEnvironment.Takeover

/-!
# Human takeover over whole runs of a room

Who may drive a room is decided by its actors and its ledger (`input`).  Events, pointers, tabs, health and the
lifecycle do not look at them, so most operations leave them alone; the others are steps of the ledger.  Every
operation keeps the ledger settled and every waiting person waiting, unless it gives up the input of the target.
-/

namespace Chariox

open EnvironmentActionLedger

/-! ### Operations of the room and of its ledger -/

inductive RoomOp
  | transitionTo (next : EnvironmentLifecycle)
  | startRuntime (clock : Clock)
  | resetRuntime (clock : Clock)
  | invalidateRuntimeAfterProcessLoss (clock : Clock)
  | reconcileAfterKernelRestart (clock : Clock)
  | reloaded
  | registerOrReconcileTab (controllerTargetId url title : String)
  | reconcileControllerTabs (observations : List EnvironmentTabObservation) (focusedRuntimeTargetId : Option String)
  | restoreAppTab (saved : EnvironmentTab) (target : String)
  | prepareAppRecovery
  | cancelAppRecoveryFocus
  | setAppTabs (apps : OrdMap String (String × AppPanelLayout)) (agentId : Option String) (appPanels : Bool)
  | setPanelAgent (agentId : Option String)
  | recordNavigation (tabId url title : String)
  | closeTab (tabId : String)
  | registerElementReferences (tabId : String) (runtimeGeneration documentRevision : Nat)
      (controllerNodeRefs : List String)
  | registerActor (actor : EnvironmentActor)
  | reconcileActors (actors : List EnvironmentActor)
  | setActorPresence (actorId : String) (presence : EnvironmentActorPresence)
  | updatePointer (actorId : String) (runtimeGeneration viewportRevision : Nat)
      (position : Option EnvironmentPointerPosition)
  | updatePointerAsActor (actor : EnvironmentActor) (runtimeGeneration viewportRevision : Nat)
      (position : Option EnvironmentPointerPosition)
  | updateComponentHealth (component : EnvironmentComponent) (state : EnvironmentComponentHealthState)
      (diagnosticCode : Option String)
  | updateViewport (actorId : String) (expectedRevision : Nat) (replacement : CanonicalViewport)
  | updateViewportAsActor (actor : EnvironmentActor) (expectedRevision : Nat) (replacement : CanonicalViewport)
  | setBrowserBarVisibleAsActor (actor : EnvironmentActor) (visible : Bool)
  | submitAction (request : EnvironmentActionRequest) (now : Nat)
  | beginBrowserControllerRecovery (clock : Clock)
  | completeBrowserControllerRecovery (clock : Clock)
  | finishAction (clock : Clock) (actionId : String) (terminal : EnvironmentActionTerminal)
  | cancelAction (clock : Clock) (actorId actionId : String)
  | cancelActionAsActor (clock : Clock) (actor : EnvironmentActor) (actionId : String)
  | requestTakeover (clock : Clock) (actorId : String) (target : InputTarget)
  | requestTakeoverAsActor (clock : Clock) (actor : EnvironmentActor) (target : InputTarget)
  | releaseInput (actorId : String) (target : InputTarget)

def RoomOp.apply (e : RoomEnvironment) : RoomOp → RoomEnvironment
  | transitionTo next => (e.transitionTo next).1
  | startRuntime clock => (e.startRuntime clock).1
  | resetRuntime clock => (e.resetRuntime clock).1
  | invalidateRuntimeAfterProcessLoss clock => (e.invalidateRuntimeAfterProcessLoss clock).1
  | reconcileAfterKernelRestart clock => e.reconcileAfterKernelRestart clock
  | reloaded => e.reloaded
  | registerOrReconcileTab controllerTargetId url title => (e.registerOrReconcileTab controllerTargetId url title).1
  | reconcileControllerTabs observations focused => e.reconcileControllerTabs observations focused
  | restoreAppTab saved target => e.restoreAppTab saved target
  | prepareAppRecovery => e.prepareAppRecovery
  | cancelAppRecoveryFocus => e.cancelAppRecoveryFocus
  | setAppTabs apps agentId appPanels => e.setAppTabs apps agentId appPanels
  | setPanelAgent agentId => e.setPanelAgent agentId
  | recordNavigation tabId url title => (e.recordNavigation tabId url title).1
  | closeTab tabId => (e.closeTab tabId).1
  | registerElementReferences tabId generation revision refs =>
    (e.registerElementReferences tabId generation revision refs).1
  | registerActor actor => (e.registerActor actor).1
  | reconcileActors actors => (e.reconcileActors actors).1
  | setActorPresence actorId presence => (e.setActorPresence actorId presence).1
  | updatePointer actorId generation revision position => (e.updatePointer actorId generation revision position).1
  | updatePointerAsActor actor generation revision position =>
    (e.updatePointerAsActor actor generation revision position).1
  | updateComponentHealth component state code => e.updateComponentHealth component state code
  | updateViewport actorId revision replacement => (e.updateViewport actorId revision replacement).1
  | updateViewportAsActor actor revision replacement => (e.updateViewportAsActor actor revision replacement).1
  | setBrowserBarVisibleAsActor actor visible => (e.setBrowserBarVisibleAsActor actor visible).1
  | submitAction request now => (e.submitAction request now).1
  | beginBrowserControllerRecovery clock => e.beginBrowserControllerRecovery clock
  | completeBrowserControllerRecovery clock => e.completeBrowserControllerRecovery clock
  | finishAction clock actionId terminal => (e.finishAction clock actionId terminal).1
  | cancelAction clock actorId actionId => (e.cancelAction clock actorId actionId).1
  | cancelActionAsActor clock actor actionId => (e.cancelActionAsActor clock actor actionId).1
  | requestTakeover clock actorId target => (e.requestTakeover clock actorId target).1
  | requestTakeoverAsActor clock actor target => (e.requestTakeoverAsActor clock actor target).1
  | releaseInput actorId target => (e.releaseInput actorId target).1

/-- Whether the operation gives up the input of the target: the runtime ends, or the target's tab is gone after it. -/
def RoomOp.dropsInput (e : RoomEnvironment) (t : InputTarget) : RoomOp → Bool
  | transitionTo next => allowsTransition e.lifecycle next && (decide (next = .stopped) || decide (next = .failed))
  | startRuntime _ => e.hasStarted && (decide (e.lifecycle = .stopped) || decide (e.lifecycle = .failed) ||
      decide (e.lifecycle = .degraded))
  | resetRuntime _ => decide (e.lifecycle = .stopped) || decide (e.lifecycle = .failed)
  | invalidateRuntimeAfterProcessLoss _ => true
  | reconcileAfterKernelRestart _ => !(decide (e.lifecycle = .stopped) || decide (e.lifecycle = .failed))
  | reconcileControllerTabs observations focused =>
    !EnvironmentActionLedger.isCurrentTarget (e.reconcileControllerTabs observations focused).tabs t
  | restoreAppTab saved target => !EnvironmentActionLedger.isCurrentTarget (e.restoreAppTab saved target).tabs t
  | closeTab tabId => !EnvironmentActionLedger.isCurrentTarget (e.closeTab tabId).1.tabs t
  | _ => false

/-- The room calls the operation of the ledger, and passes these actors. -/
def LedgerOp.CalledWith (actors : ActorMap) : LedgerOp → Prop
  | .submit _ _ _ known _ _ | .cancelAsActor _ _ _ known | .requestTakeover _ _ _ known _ => known = actors
  | .releaseActorInput _ | .releaseActorInputKeepingTabs _ | .releaseTabInput _ | .transferTabOwnership ..
  | .invalidateAfterKernelRestart .. | .compactTransientHistory _ => False
  | _ => True

/-- The operation gives up the input of the target. -/
def LedgerOp.drops (t : InputTarget) : LedgerOp → Bool
  | .retainInputTargets tabs => !isCurrentTarget tabs t
  | .clearOwnership | .invalidateRuntime _ => true
  | _ => false

namespace RoomEnvironment

def run (e : Room) (ops : List RoomOp) : Room := ops.foldl RoomOp.apply e

/-- The part of the room that decides who may drive it. -/
def input (e : Room) : ActorMap × Ledger := (e.actors, e.actionLedger)

/-- What decides who may drive the room, and whether its browser controller recovers. -/
def core (e : Room) : (ActorMap × Ledger) × Bool :=
  (e.input, e.browserControllerRecovering)

/-! ### Operations that leave the core alone -/

section

variable (e : Room)

/-- Events are no part of the core. -/
@[simp] theorem emit_core (kind : EnvironmentEventKind) : (e.emit kind).core = e.core := rfl

@[simp] theorem emitIf_core (changed : Bool) (kind : EnvironmentEventKind) : (e.emitIf changed kind).core = e.core := by
  unfold emitIf
  split <;> rfl

theorem emitIf_actionLedger (changed : Bool) (kind : EnvironmentEventKind) :
    (e.emitIf changed kind).actionLedger = e.actionLedger := congrArg (fun core => core.1.2) (emitIf_core e changed kind)

@[simp] theorem emitActionChanged_core (st : EnvironmentActionState) (e : Room) (id : String) :
    (e.emitActionChanged st id).core = e.core := by
  unfold emitActionChanged
  split <;> rfl

@[simp] theorem emitActionsChanged_core (st : EnvironmentActionState) (ids : List String) :
    (e.emitActionsChanged st ids).core = e.core := by
  unfold emitActionsChanged
  induction ids generalizing e with
  | nil => rfl
  | cons id ids ih => rw [List.foldl_cons, ih, emitActionChanged_core]

@[simp] theorem clearPointers_core : e.clearPointers.core = e.core := by
  unfold clearPointers
  split <;> rfl

theorem compactActions_core : e.compactActions.core = ((e.core.1.1, e.core.1.2.compactTerminalActions), e.core.2) := rfl

@[simp] theorem removePointer_core (aid : String) : (e.removePointer aid).core = e.core := by
  unfold removePointer
  split <;> rfl

@[simp] theorem applyPointer_core (aid : String) (viewportRevision : Nat) (pos : Option EnvironmentPointerPosition) :
    (e.applyPointer aid viewportRevision pos).core = e.core := by
  unfold applyPointer
  split
  · dsimp only
    split <;> rfl
  · exact removePointer_core e aid

@[simp] theorem markAppTabs_core : e.markAppTabs.1.core = e.core := rfl

@[simp] theorem applyViewport_core (aid : String) (repl : CanonicalViewport) :
    (e.applyViewport aid repl).core = e.core := by
  unfold applyViewport
  simp only [emitIf_core, markAppTabs_core, emit_core, clearPointers_core]
  rfl

/-- A change of the lifecycle that ends nothing leaves the core alone. -/
theorem transitionTo_core {next : EnvironmentLifecycle} (hs : next ≠ .stopped) (hf : next ≠ .failed) :
    (e.transitionTo next).1.core = e.core := by
  unfold transitionTo
  split
  · rfl
  · simp only [hs, hf]
    rfl

@[simp] theorem settleHealthLifecycle_core : e.settleHealthLifecycle.core = e.core := by
  unfold settleHealthLifecycle
  dsimp only
  split
  · exact transitionTo_core e (by decide) (by decide)
  · exact transitionTo_core e (by decide) (by decide)
  · rfl

@[simp] theorem updateComponentHealth_core (component : EnvironmentComponent) (st : EnvironmentComponentHealthState)
    (diag : Option String) : (e.updateComponentHealth component st diag).core = e.core := by
  unfold updateComponentHealth
  rw [settleHealthLifecycle_core]
  split <;> rfl

@[simp] theorem markBrowserComponentsStarting_core : e.markBrowserComponentsStarting.core = e.core := by
  unfold markBrowserComponentsStarting
  simp

end

/-! ### Actors -/

theorem joined_refl (actors : ActorMap) : Joined actors actors := fun _ _ h => h

variable {actors : ActorMap} {l' : Ledger} {outcome : TakeoverOutcome}

/-- Who joined stays joined when an actor is added in the kind it had. -/
theorem joined_insert {aid : String} {ac : EnvironmentActor} (h : ∀ ex, actors.get aid = some ex → ex.kind = ac.kind) :
    Joined actors (actors.insert aid ac) := by
  intro id kind hj
  obtain ⟨ex, hg, hk⟩ := hj
  unfold JoinedAs
  rw [OrdMap.get_insert]
  by_cases hid : id = aid
  · subst hid
    refine ⟨ac, if_pos rfl, ?_⟩
    rw [← h ex hg]
    exact hk
  · exact ⟨ex, by rw [if_neg hid]; exact hg, hk⟩

theorem joined_insert_of_not_kindConflict {e : Room} {ac : EnvironmentActor}
    (h : ¬ e.kindConflict ac = true) : Joined e.actors (e.actors.insert ac.actorId ac) := by
  apply joined_insert
  intro ex hg
  unfold kindConflict at h
  rw [hg] at h
  simpa using h

/-- What a room operation does to the core: actors may join, and the ledger takes an operation with a compaction after
it.  Targets that the operation gives up are `dropped`. -/
inductive Calls (e : Room) (dropped : InputTarget → Bool) : (ActorMap × Ledger) × Bool → Prop
  | nothing (actors : ActorMap) (hjoined : Joined e.actors actors) :
    Calls e dropped ((actors, e.actionLedger), e.browserControllerRecovering)
  | one (op : LedgerOp) (hop : op.CalledWith e.actors) (hdropped : ∀ t, op.drops t = true → dropped t = true) :
    Calls e dropped ((e.actors, op.apply e.actionLedger), op.recovering.getD e.browserControllerRecovering)
  | compacted (op : LedgerOp) (actors : ActorMap) (hjoined : Joined e.actors actors)
      (hop : op.CalledWith actors) (hdropped : ∀ t, op.drops t = true → dropped t = true) :
    Calls e dropped ((actors, (op.apply e.actionLedger).compactTerminalActions),
      op.recovering.getD e.browserControllerRecovering)

theorem Calls.refl (e : Room) (drp : InputTarget → Bool) : Calls e drp e.core :=
  .nothing e.actors (joined_refl _)

theorem Calls.of_core {e e' : Room} {drp : InputTarget → Bool} (h : e'.core = e.core) : Calls e drp e'.core := by
  rw [h]
  exact .refl e drp

section

variable (e : Room) (dropped : InputTarget → Bool)

/-- A registration lets an actor join, or changes nothing. -/
theorem registerActor_calls (ac : EnvironmentActor) : Calls e dropped (e.registerActor ac).1.core := by
  unfold registerActor
  split
  · rename_i hg
    split
    · exact .refl e dropped
    split
    · exact .refl e dropped
    refine .nothing _ (joined_insert ?_)
    intro ex' hg'
    rw [hg] at hg'
    cases hg'
    rfl
  · rename_i hg
    refine .nothing _ (joined_insert ?_)
    intro ex hg'
    rw [hg] at hg'
    cases hg'

/-- The actors of a list join one after the other. -/
theorem joinActors_joined (jo : List EnvironmentActor) {reconciled : ActorMap}
    (h : joinActors jo actors = .ok reconciled) : Joined actors reconciled := by
  induction jo generalizing actors with
  | nil =>
    cases h
    exact joined_refl _
  | cons ac jo ih =>
    unfold joinActors at h
    split at h
    · cases h
    rename_i hc
    have hstep : Joined actors (actors.insert ac.actorId { ac with presence := .present }) := by
      apply joined_insert
      intro ex hg
      rw [hg] at hc
      simpa using hc
    intro id kind hj
    exact ih h id kind (hstep id kind hj)

theorem reconcileActors_calls (jo : List EnvironmentActor) : Calls e dropped (e.reconcileActors jo).1.core := by
  unfold reconcileActors
  split
  · exact .refl e dropped
  rename_i reconciled hjo
  split
  · exact .refl e dropped
  rw [emitIf_core]
  refine .nothing reconciled ?_
  intro id kind hj
  apply joinActors_joined jo hjo
  obtain ⟨ac, hg, hk⟩ := hj
  refine ⟨{ ac with presence := .disconnected }, ?_, hk⟩
  rw [OrdMap.get_mapValues, hg]
  rfl

theorem setActorPresence_calls (aid : String) (presence : EnvironmentActorPresence) :
    Calls e dropped (e.setActorPresence aid presence).1.core := by
  unfold setActorPresence
  split
  · exact .refl e dropped
  rename_i ac hg
  have hjnd : Joined e.actors (e.actors.insert aid { ac with presence := presence }) := by
    apply joined_insert
    intro ex hg'
    rw [hg] at hg'
    cases hg'
    rfl
  split
  · rw [removePointer_core]
    exact .nothing _ hjnd
  · exact .nothing _ hjnd

/-- Pointers are no part of the core. -/
theorem updatePointer_core (aid : String) (gen rev : Nat) (pos : Option EnvironmentPointerPosition) :
    (e.updatePointer aid gen rev pos).1.core = e.core := by
  unfold updatePointer
  split
  · rfl
  split
  · rfl
  split
  · rfl
  · exact applyPointer_core _ _ _ _

theorem updatePointerAsActor_calls (ac : EnvironmentActor) (gen rev : Nat) (pos : Option EnvironmentPointerPosition) :
    Calls e dropped (e.updatePointerAsActor ac gen rev pos).1.core := by
  unfold updatePointerAsActor
  split
  · exact .refl e dropped
  split
  · exact .refl e dropped
  split
  · exact .refl e dropped
  dsimp only
  split
  · exact registerActor_calls e dropped ac
  · rw [applyPointer_core]
    exact registerActor_calls e dropped ac

theorem updateViewport_core (aid : String) (rev : Nat) (repl : CanonicalViewport) :
    (e.updateViewport aid rev repl).1.core = e.core := by
  unfold updateViewport
  split
  · rfl
  split
  · rfl
  · exact applyViewport_core _ _ _

theorem updateViewportAsActor_calls (ac : EnvironmentActor) (rev : Nat) (repl : CanonicalViewport) :
    Calls e dropped (e.updateViewportAsActor ac rev repl).1.core := by
  unfold updateViewportAsActor
  split
  · exact .refl e dropped
  dsimp only
  split
  · exact registerActor_calls e dropped ac
  · rw [applyViewport_core]
    exact registerActor_calls e dropped ac

theorem setBrowserBarVisibleAsActor_calls (ac : EnvironmentActor) (visible : Bool) :
    Calls e dropped (e.setBrowserBarVisibleAsActor ac visible).1.core := by
  unfold setBrowserBarVisibleAsActor
  split
  · exact .refl e dropped
  split
  · exact .refl e dropped
  dsimp only
  split
  · exact registerActor_calls e dropped ac
  split <;> exact registerActor_calls e dropped ac

theorem recordNavigation_core (tid url title : String) : (e.recordNavigation tid url title).1.core = e.core := by
  unfold recordNavigation
  dsimp only
  split <;> rfl

end

/-! ### Operations of the ledger -/

variable {e : Room} {dropped : InputTarget → Bool}

section

variable (clock : Clock) (e : Room)

/-- A stop and a failure clear the owners of the input. -/
theorem transitionTo_calls (next : EnvironmentLifecycle) :
    Calls e (fun t => RoomOp.dropsInput e t (.transitionTo next)) (e.transitionTo next).1.core := by
  by_cases hend : next = .stopped ∨ next = .failed
  · unfold transitionTo
    split
    · exact .refl e _
    rename_i ha
    have hcond : (decide (next = .stopped) || decide (next = .failed)) = true := by simpa using hend
    simp only [hcond, if_true, emit_core, clearPointers_core, emitIf_core]
    refine .one .clearOwnership trivial fun _ _ => ?_
    simpa [RoomOp.dropsInput, hcond] using ha
  · rw [not_or] at hend
    exact .of_core (transitionTo_core e hend.1 hend.2)

/-- All actions end with the runtime, and the controller recovers no more. -/
theorem invalidateRuntime_core : (e.invalidateRuntime clock).core =
    ((e.actors, (e.actionLedger.invalidateRuntime clock).1.compactTerminalActions), false) := by
  unfold invalidateRuntime
  simp only [emit_core, markBrowserComponentsStarting_core, compactActions_core, emitActionsChanged_core]
  unfold clearPointers
  split <;> rfl

theorem invalidateRuntime_calls (hd : ∀ t, dropped t = true) : Calls e dropped (e.invalidateRuntime clock).core := by
  rw [invalidateRuntime_core]
  exact .compacted (.invalidateRuntime clock) e.actors (joined_refl _) trivial fun t _ => hd t

theorem startRuntime_calls :
    Calls e (fun t => RoomOp.dropsInput e t (.startRuntime clock)) (e.startRuntime clock).1.core := by
  unfold startRuntime
  split
  · exact .refl e _
  rename_i hli
  split
  · rename_i hs
    refine invalidateRuntime_calls clock e fun t => ?_
    simp only [RoomOp.dropsInput, hs]
    cases hl : e.lifecycle <;> simp [hl] at hli ⊢
  · simp only [emit_core, markBrowserComponentsStarting_core]
    exact .refl e _

theorem resetRuntime_calls :
    Calls e (fun t => RoomOp.dropsInput e t (.resetRuntime clock)) (e.resetRuntime clock).1.core := by
  unfold resetRuntime
  split
  · exact .refl e _
  rename_i hli
  refine invalidateRuntime_calls clock e fun t => ?_
  simp only [RoomOp.dropsInput]
  cases hl : e.lifecycle <;> simp [hl] at hli ⊢

theorem reconcileAfterKernelRestart_calls :
    Calls e (fun t => RoomOp.dropsInput e t (.reconcileAfterKernelRestart clock))
      (e.reconcileAfterKernelRestart clock).core := by
  unfold reconcileAfterKernelRestart
  split
  · exact .refl e _
  rename_i hl
  simp only [updateComponentHealth_core, emit_core]
  show Calls e _ (emit (emitActionsChanged _ _ _) .inputOwnershipChanged).core
  rw [emit_core, emitActionsChanged_core]
  have hdrop : ∀ t, RoomOp.dropsInput e t (.reconcileAfterKernelRestart clock) = true := fun _ => by
    simpa [RoomOp.dropsInput] using hl
  unfold clearPointers
  split <;> exact .one (.invalidateRuntime clock) trivial fun t _ => hdrop t

@[simp] theorem emitIf_tabs (changed : Bool) (kind : EnvironmentEventKind) : (e.emitIf changed kind).tabs = e.tabs := by
  unfold emitIf
  split <;> rfl

end

/-- Input targets whose tabs are gone are given up. -/
theorem retained_calls {e' : Room} (hc : e'.core = e.core ∨
    e'.core = ((e.actors, (e.actionLedger.retainInputTargets e'.tabs).1), e.browserControllerRecovering)) :
    Calls e (fun t => !isCurrentTarget e'.tabs t) e'.core := by
  rcases hc with heq | heq
  · exact .of_core heq
  · rw [heq]
    exact .one (.retainInputTargets e'.tabs) trivial fun _ hd => hd

section

variable (e : Room)

theorem reconcileControllerTabs_calls (obs : List EnvironmentTabObservation) (fo : Option String) :
    Calls e (fun t => RoomOp.dropsInput e t (.reconcileControllerTabs obs fo))
      (e.reconcileControllerTabs obs fo).core := by
  refine retained_calls (.inr ?_)
  unfold reconcileControllerTabs
  simp only [emitIf_core, emitIf_tabs]
  rfl

theorem restoreAppTab_calls (sv : EnvironmentTab) (tg : String) :
    Calls e (fun t => RoomOp.dropsInput e t (.restoreAppTab sv tg)) (e.restoreAppTab sv tg).core := by
  refine retained_calls ?_
  unfold restoreAppTab
  dsimp only
  split
  · right
    simp only [emitIf_core, emitIf_tabs]
    rfl
  · exact .inl rfl

theorem closeTab_calls (tid : String) :
    Calls e (fun t => RoomOp.dropsInput e t (.closeTab tid)) (e.closeTab tid).1.core := by
  refine retained_calls ?_
  unfold closeTab
  dsimp only
  split
  · exact .inl rfl
  right
  simp only [emitIf_core, emitIf_tabs]
  rfl

/-- A submission is one call of the ledger. -/
theorem submitAction_calls (req : EnvironmentActionRequest) (now : Nat) :
    Calls e dropped (e.submitAction req now).1.core := by
  have hstep : Calls e dropped ((e.actors, (e.actionLedger.submit req (e.inputLifecycle req.mode)
      e.runtimeGeneration e.actors e.tabs now).1), e.browserControllerRecovering) :=
    .one (.submit req (e.inputLifecycle req.mode) e.runtimeGeneration e.actors e.tabs now) rfl nofun
  unfold submitAction
  dsimp only
  split
  · exact hstep
  split
  · rw [emitActionChanged_core]
    exact hstep
  · rw [emitActionChanged_core]
    exact hstep
  · exact hstep

theorem emitActionRecoveryEffect_core (ef : ActionRecoveryEffect) :
    (e.emitActionRecoveryEffect ef).core = e.compactActions.core := by
  unfold emitActionRecoveryEffect
  simp only [compactActions_core, emitActionsChanged_core, emitIf_core]

theorem emitCancellation_core (id : String) (ef : ActionCancellationEffect) :
    (e.emitCancellation id ef).core = e.compactActions.core := by
  unfold emitCancellation
  simp only [compactActions_core, emitActionsChanged_core]
  split
  · rw [emitActionChanged_core]
  · rfl

theorem emitTakeover_core (ef : ActionTakeoverEffect) (chgd : Bool) :
    (e.emitTakeover ef chgd).core = e.compactActions.core := by
  unfold emitTakeover
  simp only [compactActions_core, emitActionsChanged_core, emitIf_core]

end

section

variable (clock : Clock) (e : Room)

theorem beginBrowserControllerRecovery_calls : Calls e dropped (e.beginBrowserControllerRecovery clock).core := by
  unfold beginBrowserControllerRecovery
  simp only [settleHealthLifecycle_core, emitActionRecoveryEffect_core]
  exact .compacted (.beginControllerRecovery clock) e.actors (joined_refl _) trivial nofun

theorem completeBrowserControllerRecovery_calls : Calls e dropped (e.completeBrowserControllerRecovery clock).core := by
  unfold completeBrowserControllerRecovery
  simp only [settleHealthLifecycle_core, emitActionRecoveryEffect_core]
  exact .compacted (.completeControllerRecovery clock e.runtimeGeneration e.tabs) e.actors (joined_refl _) trivial nofun

theorem finishAction_calls (id : String) (term : EnvironmentActionTerminal) :
    Calls e dropped (e.finishAction clock id term).1.core := by
  unfold finishAction
  dsimp only
  split
  · exact .one (.finish clock id term) trivial nofun
  · simp only [compactActions_core, emitActionsChanged_core, emitIf_core, emitActionChanged_core]
    exact .compacted (.finish clock id term) e.actors (joined_refl _) trivial nofun

theorem cancelAction_calls (aid id : String) : Calls e dropped (e.cancelAction clock aid id).1.core := by
  unfold cancelAction
  dsimp only
  split
  · exact .one (.cancelAsActor clock aid id e.actors) rfl nofun
  · rw [emitCancellation_core]
    exact .compacted (.cancelAsActor clock aid id e.actors) e.actors (joined_refl _) rfl nofun

theorem cancelActionAsActor_calls (ac : EnvironmentActor) (id : String) :
    Calls e dropped (e.cancelActionAsActor clock ac id).1.core := by
  unfold cancelActionAsActor
  dsimp only
  split
  · exact .refl e dropped
  split
  · exact .refl e dropped
  rename_i hc
  split
  · exact .refl e dropped
  · simp only [emitCancellation_core, compactActions_core, emitIf_core]
    exact .compacted (.cancelAsActor clock ac.actorId id _) _ (joined_insert_of_not_kindConflict hc) rfl nofun

/-- A takeover is one call of the ledger, with a compaction after it. -/
theorem requestTakeover_calls (aid : String) (t : InputTarget) :
    Calls e dropped (e.requestTakeover clock aid t).1.core := by
  unfold requestTakeover
  dsimp only
  split
  · exact .one (.requestTakeover clock aid t e.actors e.tabs) rfl nofun
  · rw [emitTakeover_core]
    exact .compacted (.requestTakeover clock aid t e.actors e.tabs) e.actors (joined_refl _) rfl nofun

theorem requestTakeoverAsActor_calls (ac : EnvironmentActor) (t : InputTarget) :
    Calls e dropped (e.requestTakeoverAsActor clock ac t).1.core := by
  unfold requestTakeoverAsActor
  dsimp only
  split
  · exact .refl e dropped
  split
  · exact .refl e dropped
  rename_i hc
  split
  · exact .refl e dropped
  simp only [emitTakeover_core, compactActions_core, emitIf_core]
  exact .compacted (.requestTakeover clock ac.actorId t _ e.tabs) _
    (joined_insert_of_not_kindConflict hc) rfl nofun

end

theorem releaseInput_calls (e : Room) (aid : String) (t : InputTarget) :
    Calls e dropped (e.releaseInput aid t).1.core := by
  unfold releaseInput
  dsimp only
  split <;> exact .one (.release aid t) trivial nofun

/-- Every operation but the reload is one of the ledger, or none. -/
theorem apply_calls (e : Room) (op : RoomOp) (hop : op ≠ .reloaded) :
    Calls e (fun t => op.dropsInput e t) (op.apply e).core := by
  cases op with
  | transitionTo next => exact transitionTo_calls e next
  | startRuntime ck => exact startRuntime_calls ck e
  | resetRuntime ck => exact resetRuntime_calls ck e
  | invalidateRuntimeAfterProcessLoss ck => exact invalidateRuntime_calls ck e fun _ => rfl
  | reconcileAfterKernelRestart ck => exact reconcileAfterKernelRestart_calls ck e
  | reloaded => exact absurd rfl hop
  | reconcileControllerTabs obs fo => exact reconcileControllerTabs_calls e obs fo
  | restoreAppTab sv tg => exact restoreAppTab_calls e sv tg
  | closeTab tid => exact closeTab_calls e tid
  | recordNavigation => exact .of_core (recordNavigation_core e ..)
  | registerActor ac => exact registerActor_calls e _ ac
  | reconcileActors acs => exact reconcileActors_calls e _ acs
  | setActorPresence aid presence => exact setActorPresence_calls e _ aid presence
  | updatePointer => exact .of_core (updatePointer_core e ..)
  | updatePointerAsActor => exact updatePointerAsActor_calls e ..
  | updateComponentHealth => exact .of_core (updateComponentHealth_core e ..)
  | updateViewport => exact .of_core (updateViewport_core e ..)
  | updateViewportAsActor => exact updateViewportAsActor_calls e ..
  | setBrowserBarVisibleAsActor => exact setBrowserBarVisibleAsActor_calls e ..
  | submitAction req now => exact submitAction_calls e req now
  | beginBrowserControllerRecovery ck => exact beginBrowserControllerRecovery_calls ck e
  | completeBrowserControllerRecovery ck => exact completeBrowserControllerRecovery_calls ck e
  | finishAction ck ai term => exact finishAction_calls ck e ai term
  | cancelAction ck aid ai => exact cancelAction_calls ck e aid ai
  | cancelActionAsActor ck ac ai => exact cancelActionAsActor_calls ck e ac ai
  | requestTakeover ck aid tg => exact requestTakeover_calls ck e aid tg
  | requestTakeoverAsActor ck ac tg => exact requestTakeoverAsActor_calls ck e ac tg
  | releaseInput aid tg => exact releaseInput_calls e aid tg
  | registerOrReconcileTab | setAppTabs | setPanelAgent => exact .of_core (emitIf_core _ _ _)
  | prepareAppRecovery | cancelAppRecoveryFocus | registerElementReferences => exact .refl e _

end RoomEnvironment

/-! ### Settled ledgers -/

namespace EnvironmentActionLedger

variable {l : Ledger} {actors : ActorMap} {op : LedgerOp}

/-- A call of the ledger keeps it settled. -/
theorem Settled.called (h : Settled actors l) (op : LedgerOp) (hop : op.CalledWith actors) : Settled actors (op.apply l) := by
  refine h.apply op ?_ ?_
  · intro kn hkn
    cases op with
    | submit | requestTakeover =>
      cases hkn
      exact hop
    | _ => cases hkn
  · intro t o hh
    cases op with
    | transferTabOwnership => exact hop.elim
    | _ => exact hh.elim

/-- A person who waits for a target that the operation does not give up still waits for it or owns it. -/
theorem Settled.keeps_waiting (h : Settled actors l) (hop : op.CalledWith actors) {t : InputTarget} {o : String}
    (hk : op.drops t = false) (hp : l.pendingTakeovers.get t = some o) :
    (op.apply l).pendingTakeovers.get t = some o ∨ (op.apply l).inputOwners.get t = some o := by
  cases op with
  | submit req life gen kn tabs now => exact submit_keepsWaiting l req life gen tabs now t o hp
  | finish ck id term => exact finish_keepsWaiting ck l id term t o hp
  | cancelAsActor ck aid id kn => exact cancelAsActor_keepsWaiting ck l aid id kn t o hp
  | requestTakeover ck aid tg kn tabs =>
    cases hop
    exact (h.requestTakeover ck aid tg tabs).1 t o hp
  | release aid tg =>
    show (l.release aid tg).1.pendingTakeovers.get t = some o ∨ _
    unfold EnvironmentActionLedger.release
    split
    · split <;> exact .inl hp
    · exact .inl hp
  | retainInputTargets tabs =>
    left
    show (l.pendingTakeovers.retain _).get t = some o
    rw [OrdMap.get_retain, Option.filter_eq_some_iff]
    exact ⟨hp, by simpa [LedgerOp.drops] using hk⟩
  | clearOwnership | invalidateRuntime => cases hk
  | beginControllerRecovery ck => exact beginControllerRecovery_keepsWaiting ck l t o hp
  | completeControllerRecovery ck gen tabs =>
    exact completeControllerRecovery_keepsWaiting ck l gen tabs t o hp
  | compactTerminalActions =>
    left
    exact (compact_input h.wellFormed).2 ▸ hp
  | _ => exact hop.elim

end EnvironmentActionLedger

namespace RoomEnvironment

variable {actors : ActorMap} {l' : Ledger} {outcome : TakeoverOutcome}
  {e : Room} {dropped : InputTarget → Bool}

/-- The ledger is settled for the actors of the room. -/
def Safe (i : ActorMap × Ledger) : Prop := Settled i.1 i.2

/-- The step ends in a safe state, and a person who waits for a target that the step does not give up still waits for
it or owns it. -/
structure Advances (dropped : InputTarget → Bool) (i i' : ActorMap × Ledger) : Prop where
  safe : Safe i'
  keeps : ∀ t o, dropped t = false → i.2.pendingTakeovers.get t = some o →
    i'.2.pendingTakeovers.get t = some o ∨ i'.2.inputOwners.get t = some o

/-- What a room operation does to the core keeps the input safe. -/
theorem Calls.advances {c : (ActorMap × Ledger) × Bool} (hc : Calls e dropped c)
    (h : Safe e.input) : Advances dropped e.input c.1 := by
  cases hc with
  | nothing acs hj => exact ⟨h.join hj, fun _ _ _ hp => .inl hp⟩
  | one op hop hdr =>
    refine ⟨Settled.called h op hop, fun t o hk hp => Settled.keeps_waiting h hop ?_ hp⟩
    exact Bool.eq_false_iff.2 fun hd => Bool.false_ne_true (hk.symm.trans (hdr t hd))
  | compacted op acs hj hop hdr =>
    have hstl : Settled acs (op.apply e.actionLedger) := Settled.called (Settled.join h hj) op hop
    refine ⟨hstl.called .compactTerminalActions trivial, fun t o hk hp => ?_⟩
    rw [(compact_input hstl.wellFormed).1, (compact_input hstl.wellFormed).2]
    refine Settled.keeps_waiting (h.join hj) hop ?_ hp
    exact Bool.eq_false_iff.2 fun hd => Bool.false_ne_true (hk.symm.trans (hdr t hd))

/-- Every operation ends in a safe state and keeps the waiting persons, except where it gives up the input. -/
theorem apply_advances (h : Safe e.input) (op : RoomOp) :
    Advances (fun t => op.dropsInput e t) e.input (op.apply e).input := by
  by_cases hop : op = .reloaded
  · subst hop
    exact ⟨{ h with wellFormed := { h.wellFormed with } }, fun _ _ _ hp => .inl hp⟩
  · exact (apply_calls e op hop).advances h

private theorem answer_of_compact {acs' : ActorMap} {l : Ledger}
    {aid : String} {t : InputTarget} (h : TakeoverAnswer acs' l l' aid t outcome)
    (hh : l.HeldByAgent acs' t ↔ l.HeldByAgent actors t) (hwf : l'.WellFormed) :
    TakeoverAnswer actors l l'.compactTerminalActions aid t outcome where
  granted_iff := by
    rw [h.granted_iff]
    exact not_congr hh
  owns := by
    intro hg
    rw [(compact_input hwf).1]
    exact h.owns hg
  waits := by
    intro hg
    rw [(compact_input hwf).2]
    exact h.waits hg

theorem emitTakeover_actionLedger (e : Room) (ef : ActionTakeoverEffect) (chgd : Bool) :
    (e.emitTakeover ef chgd).actionLedger = e.actionLedger.compactTerminalActions :=
  congrArg (fun core => core.1.2) (emitTakeover_core e ef chgd)

section

variable (h : Safe e.input) (clock : Clock)

include h

/-- The room gives the answer of the ledger. -/
theorem requestTakeover_answer (aid : String) (t : InputTarget)
    (hok : (e.requestTakeover clock aid t).2 = .ok outcome) :
    TakeoverAnswer e.actors e.actionLedger (e.requestTakeover clock aid t).1.actionLedger aid t outcome := by
  obtain ⟨-, ha⟩ := h.requestTakeover clock aid t e.tabs
  have hwf := h.wellFormed.apply (.requestTakeover clock aid t e.actors e.tabs)
  unfold requestTakeover at hok ⊢
  dsimp only at hok ⊢
  split at hok
  · cases hok
  rename_i ef he
  cases hok
  rw [emitTakeover_actionLedger]
  exact answer_of_compact (ha ef he) Iff.rfl hwf

theorem requestTakeoverAsActor_answer (ac : EnvironmentActor) (t : InputTarget)
    (hok : (e.requestTakeoverAsActor clock ac t).2 = .ok outcome) :
    TakeoverAnswer e.actors e.actionLedger (e.requestTakeoverAsActor clock ac t).1.actionLedger ac.actorId t
      outcome := by
  unfold requestTakeoverAsActor at hok ⊢
  dsimp only at hok ⊢
  split at hok
  · cases hok
  rename_i hl
  rw [if_neg hl]
  split at hok
  · cases hok
  rename_i hc
  rw [if_neg hc]
  have hj : Joined e.actors (e.actors.insert ac.actorId ac) := joined_insert_of_not_kindConflict hc
  have hjnd : Settled (e.actors.insert ac.actorId ac) e.actionLedger := h.join hj
  obtain ⟨-, ha⟩ := hjnd.requestTakeover clock ac.actorId t e.tabs
  have hwf := h.wellFormed.apply (.requestTakeover clock ac.actorId t (e.actors.insert ac.actorId ac) e.tabs)
  split at hok
  · cases hok
  rename_i ef he
  cases hok
  rw [emitTakeover_actionLedger, emitIf_actionLedger]
  exact answer_of_compact (ha ef he) (heldByAgent_joined hj h.known) hwf

end

theorem new_safe {sid eid : String} {vp : CanonicalViewport} {eventCapacity qcap : Nat}
    (h : newWithCapacities sid eid vp eventCapacity qcap = .ok e) : Safe e.input := by
  unfold newWithCapacities at h
  split at h <;> cases h
  exact new_settled _ _ _

theorem run_safe (h : Safe e.input) (ops : List RoomOp) : Safe (e.run ops).input :=
  List.foldlRecOn ops RoomOp.apply (motive := fun e => Safe e.input) h fun _ h op _ => (apply_advances h op).safe

/-- A running mutating action of an agent has the target. -/
def AgentRunsOn (e : Room) (t : InputTarget) : Prop :=
  ∃ id a, e.actionLedger.RunsOn id t ∧ e.actionLedger.actions.get id = some a ∧ JoinedAs e.actors .agent a.actorId

theorem agentRunsOn_iff (h : Safe e.input) {t : InputTarget} :
    e.AgentRunsOn t ↔ e.actionLedger.HeldByAgent e.actors t := h.toInputSafe.heldByAgent_iff.symm

/-- Human takeover is safe in every state that a run of the room reaches: only people own targets, no target is both
owned and awaited, no agent runs on an owned target, and an awaited target is reserved by a running action of an agent
that was asked to stop.  A takeover request is granted exactly when no agent runs on the target; a person who waits
gets the target with the step that ends the agent's action, unless the step gives up the input of the target. -/
theorem human_takeover_safe (sessionId environmentId : String) (viewport : CanonicalViewport)
    (eventCapacity queueCapacity : Nat) {room : Room}
    (hnew : newWithCapacities sessionId environmentId viewport eventCapacity queueCapacity = .ok room)
    (ops : List RoomOp) :
    let e := room.run ops
    (∀ t o, e.actionLedger.inputOwners.get t = some o → JoinedAs e.actors .human o) ∧
    (∀ t, e.actionLedger.inputOwners.get t = none ∨ e.actionLedger.pendingTakeovers.get t = none) ∧
    (∀ t o, e.actionLedger.inputOwners.get t = some o → ¬ e.AgentRunsOn t) ∧
    (∀ t o, e.actionLedger.pendingTakeovers.get t = some o → ∃ id a, e.actionLedger.reservations.get t = some id ∧
      e.actionLedger.actions.get id = some a ∧ a.state = .running ∧ JoinedAs e.actors .agent a.actorId ∧
      a.cancellationRequested = true) ∧
    (∀ clock actorId t outcome, (e.requestTakeover clock actorId t).2 = .ok outcome →
      let e' := (e.requestTakeover clock actorId t).1
      (outcome = .granted ↔ ¬ e.AgentRunsOn t) ∧
      (outcome = .granted → e'.actionLedger.inputOwners.get t = some actorId) ∧
      (outcome ≠ .granted → e'.actionLedger.pendingTakeovers.get t = some actorId)) ∧
    (∀ clock actor t outcome, (e.requestTakeoverAsActor clock actor t).2 = .ok outcome →
      let e' := (e.requestTakeoverAsActor clock actor t).1
      (outcome = .granted ↔ ¬ e.AgentRunsOn t) ∧
      (outcome = .granted → e'.actionLedger.inputOwners.get t = some actor.actorId) ∧
      (outcome ≠ .granted → e'.actionLedger.pendingTakeovers.get t = some actor.actorId)) ∧
    (∀ (t : InputTarget) (o : String) (op : RoomOp),
      e.actionLedger.pendingTakeovers.get t = some o → op.dropsInput e t = false →
      let e' := op.apply e
      (e'.AgentRunsOn t ∧ e'.actionLedger.pendingTakeovers.get t = some o) ∨
      (¬ e'.AgentRunsOn t ∧ e'.actionLedger.inputOwners.get t = some o)) := by
  intro e
  have h : Safe e.input := run_safe (new_safe hnew) ops
  refine ⟨h.owner_human, ?_, ?_, ?_, ?_, ?_, ?_⟩
  · intro t
    cases ho : e.actionLedger.inputOwners.get t with
    | none => exact .inl rfl
    | some o => exact .inr (h.exclusive t o ho)
  · intro t o ho
    rw [agentRunsOn_iff h]
    exact h.owned t o ho
  · intro t o hp
    obtain ⟨id, a, hr, ha, hag, hc⟩ := h.waiting t o hp
    exact ⟨id, a, hr, ha, h.wellFormed.running_of_reserved hr ha, hag, hc⟩
  · intro clock actorId t outcome hok
    have hans := requestTakeover_answer h clock actorId t hok
    rw [agentRunsOn_iff h]
    exact ⟨hans.granted_iff, hans.owns, hans.waits⟩
  · intro clock actor t outcome hok
    have hans := requestTakeoverAsActor_answer h clock actor t hok
    rw [agentRunsOn_iff h]
    exact ⟨hans.granted_iff, hans.owns, hans.waits⟩
  · intro t o op hp hk e'
    have hstep : Advances _ e.input e'.input := apply_advances h op
    rw [agentRunsOn_iff hstep.safe]
    rcases hstep.keeps t o hk hp with hw | how
    · exact .inl ⟨hstep.safe.heldByAgent hw, hw⟩
    · exact .inr ⟨hstep.safe.owned t o how, how⟩

/-- A room in which a person asks for the desktop while an agent acts on it. -/
def awaitedDesktop : List RoomOp :=
  [.startRuntime (fun _ => 0), .transitionTo .ready,
    .registerActor {
      actorId := "person", kind := .human, displayLabel := "Person", presence := .present, presentationColor := .blue },
    .registerActor {
      actorId := "agent", kind := .agent, displayLabel := "Agent", presence := .present, presentationColor := .rose },
    .submitAction {
      idempotencyKey := none
      idempotencyFingerprint := none
      arguments := none
      actorId := "agent"
      runtimeGeneration := 1
      mode := .computer
      kind := "click"
      mutates := true
      targets := [.desktop]
      tabPreconditions := [] } 5,
    .requestTakeover (fun _ => 7) "person" .desktop]

theorem human_takeover_safe_awaitedDesktop : ∃ room,
    newWithCapacities "session" "environment" ⟨1280, 720, 1, 1280, 720, 1, none⟩ 16 4 = .ok room ∧
      (room.run awaitedDesktop).actionLedger.pendingTakeovers.get .desktop = some "person" ∧
      ((room.run awaitedDesktop).actionLedger.inputOwners.get .desktop = none ∨
        (room.run awaitedDesktop).actionLedger.pendingTakeovers.get .desktop = none) ∧
      ∃ id a, (room.run awaitedDesktop).actionLedger.reservations.get .desktop = some id ∧
        (room.run awaitedDesktop).actionLedger.actions.get id = some a ∧ a.state = .running ∧
        JoinedAs (room.run awaitedDesktop).actors .agent a.actorId ∧ a.cancellationRequested = true := by
  refine ⟨_, rfl, by decide, ?_, ?_⟩
  · exact (human_takeover_safe "session" "environment" _ 16 4 rfl awaitedDesktop).2.1 .desktop
  · exact (human_takeover_safe "session" "environment" _ 16 4 rfl awaitedDesktop).2.2.2.1 .desktop "person" (by decide)

end RoomEnvironment

end Chariox
