import Chariox.RoomEnvironment.ActionLedger
import Chariox.RoomEnvironment.Elements
import Chariox.RoomEnvironment.Events

/-!
# The room environment

The state of one room: its lifecycle and health, the actors that joined it and their pointers, the viewport, the
tabs with their element references, the action ledger and the event log.  Every operation of the source is a
function that returns the environment after it, with its result where it has one.
-/

namespace Chariox

structure RoomEnvironment where
  sessionId : String
  environmentId : String
  runtimeGeneration : Nat
  hasStarted : Bool
  lifecycle : EnvironmentLifecycle
  viewport : CanonicalViewport
  health : OrdMap EnvironmentComponent EnvironmentComponentHealth
  actors : ActorMap
  pointers : OrdMap String EnvironmentPointer
  tabs : TabRegistry
  elementReferences : ElementReferenceRegistry
  actionLedger : EnvironmentActionLedger
  browserControllerRecovering : Bool
  browserBarVisible : Bool
  appInstallations : OrdMap String (String × AppPanelLayout)
  appPanels : Bool
  panelAgentId : Option String
  eventLog : EnvironmentEventLog
  deriving DecidableEq

def satMul32 (a b : Nat) : Nat := min (a * b) (2 ^ 32 - 1)

def appPanelCssWidthLimit : Nat := 380

def bottomPanelCssHeight : Nat := 260

def minimizedCssHeight : Nat := 32

namespace CanonicalViewport

/-- The default width of the panel at the right: at most a third of the page. -/
def appPanelCssWidth (v : CanonicalViewport) : Nat := min appPanelCssWidthLimit (v.cssWidth / 3)

/-- A panel in desktop pixels. -/
def panel (v : CanonicalViewport) (placement : AppPanelPlacement) (minimized : Bool) (agentId : Option String)
    (x y w h : Nat) : EnvironmentAppPanel where
  x := satMul32 x v.deviceScaleFactor
  y := satMul32 y v.deviceScaleFactor
  width := satMul32 w v.deviceScaleFactor
  height := satMul32 h v.deviceScaleFactor
  agentId
  placement
  minimized

/-- The size of an App page and the panel beside it. -/
def appLayout (v : CanonicalViewport) (layout : AppPanelLayout) (agentId : Option String) :
    (Nat × Nat) × Option EnvironmentAppPanel :=
  let width := v.cssWidth
  let height := v.cssHeight
  match layout.placement with
  | none => ((width, height), none)
  | some placement =>
    let panel := v.panel placement layout.minimized agentId
    if layout.minimized then
      let bar := min minimizedCssHeight (height / 4)
      ((width, height - bar), some (panel 0 (height - bar) width bar))
    else
      match placement with
      | .right =>
        let size := layout.size.elim v.appPanelCssWidth (fun size => min size (width / 2))
        ((width - size, height), some (panel (width - size) 0 size height))
      | .bottom =>
        let size := layout.size.elim (min bottomPanelCssHeight (height / 3)) (fun size => min size (height / 2))
        ((width, height - size), some (panel 0 (height - size) width size))

end CanonicalViewport

def defaultComponentHealth : OrdMap EnvironmentComponent EnvironmentComponentHealth :=
  .ofList ([.browserController, .browser, .desktop, .streamer].map (fun component =>
    (component, { component, state := .unavailable, diagnosticCode := none })))

def allowsTransition (source target : EnvironmentLifecycle) : Bool :=
  match source, target with
  | .starting, .ready | .starting, .degraded | .starting, .failed | .starting, .stopping => true
  | .ready, .degraded | .ready, .saving | .ready, .restoring | .ready, .stopping | .ready, .failed => true
  | .degraded, .ready | .degraded, .saving | .degraded, .restoring | .degraded, .stopping | .degraded, .failed => true
  | .saving, .ready | .saving, .degraded | .saving, .stopping | .saving, .failed => true
  | .restoring, .ready | .restoring, .degraded | .restoring, .stopping | .restoring, .failed => true
  | .stopping, .stopped | .stopping, .failed => true
  | .failed, .stopped => true
  | _, _ => false

/-- The state that a cancellation reports for its action. -/
def ActionCancellationOutcome.toState : ActionCancellationOutcome → EnvironmentActionState
  | .cancelled => .cancelled
  | .cancellationRequested => .running
  | .alreadyTerminal state => state

def InputTarget.mode : InputTarget → EnvironmentMode
  | .browserTab _ => .browser
  | .desktop => .computer

namespace RoomEnvironment

abbrev Room := RoomEnvironment

/-- The room after an operation, and the answer of the operation. -/
abbrev Result (α : Type) := Room × Except EnvironmentError α

def newWithCapacities (sessionId environmentId : String) (viewport : CanonicalViewport)
    (eventCapacity actionQueueCapacity : Nat) : Except EnvironmentError Room :=
  match EnvironmentEventLog.new eventCapacity with
  | .error e => .error e
  | .ok eventLog => .ok {
      sessionId
      environmentId
      runtimeGeneration := 1
      hasStarted := false
      lifecycle := .stopped
      viewport
      health := defaultComponentHealth
      actors := .empty
      pointers := .empty
      tabs := .new
      elementReferences := .new
      actionLedger := .new eventCapacity actionQueueCapacity
      browserControllerRecovering := false
      browserBarVisible := false
      appInstallations := .empty
      appPanels := false
      panelAgentId := none
      eventLog }

/-! ### Events -/

variable (clock : Clock) (e : Room)

def emit (kind : EnvironmentEventKind) : Room :=
  { e with eventLog := e.eventLog.push e.environmentId e.runtimeGeneration kind }

/-- Emit an event when something changed. -/
def emitIf (changed : Bool) (kind : EnvironmentEventKind) : Room :=
  if changed then e.emit kind else e

def emitActionChanged (state : EnvironmentActionState) (e : Room) (actionId : String) : Room :=
  match e.actionLedger.actions.get actionId with
  | none => e
  | some action => e.emit (.actionChanged actionId state action.cancellationRequested action.submittedAtMs
      action.startedAtMs action.finishedAtMs action.outcome)

def emitActionsChanged (state : EnvironmentActionState) (actionIds : List String) : Room :=
  actionIds.foldl (emitActionChanged state) e

def compactActions : Room :=
  { e with actionLedger := e.actionLedger.compactTerminalActions }

/-! ### Lifecycle and health -/

def clearPointers : Room :=
  if e.pointers.isEmpty then e else { e with pointers := .empty }.emit .pointersChanged

def removePointer (actorId : String) : Room :=
  if e.pointers.contains actorId then { e with pointers := e.pointers.remove actorId }.emit .pointersChanged else e

def transitionTo (next : EnvironmentLifecycle) : Result Unit :=
  if !allowsTransition e.lifecycle next then (e, .error (.invalidLifecycleTransition e.lifecycle next))
  else
    let e := { e with lifecycle := next }
    let e := if next = .stopped || next = .failed then
        let cleared := e.actionLedger.clearOwnership
        ({ e with actionLedger := cleared.1 }.emitIf cleared.2 .inputOwnershipChanged).clearPointers
      else e
    (e.emit (.lifecycleChanged next), .ok ())

/-- Ready and degraded follow the health of the components, except while the controller recovers. -/
def settleHealthLifecycle : Room :=
  let healthy := !e.browserControllerRecovering && e.health.values.all (fun health => health.state = .ready)
  match e.lifecycle, healthy with
  | .ready, false => (e.transitionTo .degraded).1
  | .degraded, true => (e.transitionTo .ready).1
  | _, _ => e

def updateComponentHealth (component : EnvironmentComponent)
    (state : EnvironmentComponentHealthState) (diagnosticCode : Option String) : Room :=
  let unchanged := (e.health.get component).any (fun health =>
    decide (health.state = state) && decide (health.diagnosticCode = diagnosticCode))
  let e := if unchanged then e else
    { e with health := e.health.insert component { component, state, diagnosticCode } }.emit .healthChanged
  e.settleHealthLifecycle

def markBrowserComponentsStarting : Room :=
  (e.updateComponentHealth .browserController .starting none).updateComponentHealth .browser .starting none

def invalidateRuntime : Room :=
  let e := { e with
    hasStarted := true
    browserControllerRecovering := false
    runtimeGeneration := e.runtimeGeneration + 1
    lifecycle := .starting
    tabs := e.tabs.clear }
  let e := e.clearPointers
  let e := { e with elementReferences := e.elementReferences.clear, health := defaultComponentHealth }
  let invalidated := e.actionLedger.invalidateRuntime clock
  let e := { e with actionLedger := invalidated.1 }.emitActionsChanged .failed invalidated.2
  let e := e.compactActions.markBrowserComponentsStarting
  (e.emit .runtimeInvalidated).emit (.lifecycleChanged .starting)

def startRuntime : Result Unit :=
  if e.lifecycle ≠ .stopped && e.lifecycle ≠ .failed && e.lifecycle ≠ .degraded then
    (e, .error (.invalidLifecycleTransition e.lifecycle .starting))
  else if e.hasStarted then (e.invalidateRuntime clock, .ok ())
  else
    let e := { e with hasStarted := true, lifecycle := .starting }.markBrowserComponentsStarting
    (e.emit (.lifecycleChanged .starting), .ok ())

def resetRuntime : Result Unit :=
  if e.lifecycle ≠ .stopped && e.lifecycle ≠ .failed then
    (e, .error (.invalidLifecycleTransition e.lifecycle .starting))
  else (e.invalidateRuntime clock, .ok ())

def invalidateRuntimeAfterProcessLoss : Result Unit :=
  (e.invalidateRuntime clock, .ok ())

/-- A restart of the kernel loses execution ownership, but not the browser or its tabs. -/
def reconcileAfterKernelRestart : Room :=
  if e.lifecycle = .stopped || e.lifecycle = .failed then e
  else
    let e := { e with
      runtimeGeneration := satSucc e.runtimeGeneration
      browserControllerRecovering := false
      elementReferences := e.elementReferences.clear }
    let e := e.clearPointers
    let interrupted := e.actionLedger.invalidateRuntime clock
    let e := { e with actionLedger := interrupted.1 }.emitActionsChanged .failed interrupted.2
    let e := { e.emit .inputOwnershipChanged with lifecycle := .degraded }
    let e := (e.emit .runtimeInvalidated).emit (.lifecycleChanged .degraded)
    (e.updateComponentHealth .browserController .starting (some "kernel_restarted")).updateComponentHealth
      .browser .starting none

/-- The environment as it is read back from its durable form: live recovery state, App views and element
references are not stored. -/
def reloaded : Room :=
  { e with
    elementReferences := e.elementReferences.clear
    actionLedger := { e.actionLedger with controllerRecovering := false }
    appInstallations := .empty
    appPanels := false
    panelAgentId := none }

/-! ### Tabs -/

def markAppTabs : Room × Bool :=
  let apps := e.appInstallations.mapValues (fun _ installed =>
    ({ installationId := installed.1
       panel := if e.appPanels then (e.viewport.appLayout installed.2 e.panelAgentId).2 else none } :
      EnvironmentTabApp))
  let marked := e.tabs.setApps apps
  ({ e with tabs := marked.1 }, marked.2)

def registerOrReconcileTab (controllerTargetId url title : String) : Room × String :=
  let registered := e.tabs.registerOrReconcile controllerTargetId url title
  let marked := { e with tabs := registered.1 }.markAppTabs
  (marked.1.emitIf (registered.2.2 || marked.2) .tabsChanged, registered.2.1)

/-- Drop the input of tabs that are gone, and the references into documents that are not current. -/
def retainCurrentTabs : Room × Bool :=
  let retained := e.actionLedger.retainInputTargets e.tabs
  ({ e with
      actionLedger := retained.1
      elementReferences := e.elementReferences.retainCurrent e.tabs e.runtimeGeneration },
    retained.2)

def reconcileControllerTabs (observations : List EnvironmentTabObservation) (focusedRuntimeTargetId : Option String) :
    Room :=
  let reconciled := e.tabs.reconcileControllerTabs observations focusedRuntimeTargetId
  let marked := { e with tabs := reconciled.1 }.markAppTabs
  let retained := marked.1.retainCurrentTabs
  (retained.1.emitIf (reconciled.2 || marked.2) .tabsChanged).emitIf retained.2 .inputOwnershipChanged

def restoreAppTab (saved : EnvironmentTab) (target : String) : Room :=
  let restored := e.tabs.restoreAppTab saved target
  let e := { e with tabs := restored.1 }
  if restored.2 then
    let retained := e.retainCurrentTabs
    (retained.1.emit .tabsChanged).emitIf retained.2 .inputOwnershipChanged
  else e

def prepareAppRecovery : Room := { e with tabs := e.tabs.prepareAppRecovery }

def cancelAppRecoveryFocus : Room := { e with tabs := e.tabs.cancelAppRecoveryFocus }

def setAppTabs (apps : OrdMap String (String × AppPanelLayout)) (agentId : Option String) (appPanels : Bool) : Room :=
  let marked := { e with appInstallations := apps, panelAgentId := agentId, appPanels := appPanels }.markAppTabs
  marked.1.emitIf marked.2 .tabsChanged

def setPanelAgent (agentId : Option String) : Room :=
  let marked := { e with panelAgentId := agentId }.markAppTabs
  marked.1.emitIf marked.2 .tabsChanged

def recordNavigation (tabId url title : String) : Result Unit :=
  let navigated := e.tabs.recordNavigation tabId url title
  let e := { e with tabs := navigated.1 }
  match navigated.2 with
  | .error err => (e, .error err)
  | .ok () =>
    let e := { e with elementReferences := e.elementReferences.retainCurrent e.tabs e.runtimeGeneration }
    (e.emit .tabsChanged, .ok ())

def closeTab (tabId : String) : Result Unit :=
  let closed := e.tabs.close tabId
  let e := { e with tabs := closed.1 }
  match closed.2 with
  | .error err => (e, .error err)
  | .ok () =>
    let retained := e.retainCurrentTabs
    ((retained.1.emit .tabsChanged).emitIf retained.2 .inputOwnershipChanged, .ok ())

def registerElementReferences (tabId : String) (runtimeGeneration documentRevision : Nat)
    (controllerNodeRefs : List String) : Result (OrdMap String String) :=
  let registered := e.elementReferences.register e.tabs e.runtimeGeneration tabId runtimeGeneration documentRevision
    controllerNodeRefs
  ({ e with elementReferences := registered.1 }, registered.2)

/-! ### Actors, pointers and the viewport -/

def registerActor (actor : EnvironmentActor) : Result Unit :=
  match e.actors.get actor.actorId with
  | some existing =>
    if existing.kind ≠ actor.kind then (e, .error (.actorKindConflict actor.actorId))
    else if existing.displayLabel = actor.displayLabel && existing.presence = .present then (e, .ok ())
    else
      let joined := { existing with displayLabel := actor.displayLabel, presence := .present }
      ({ e with actors := e.actors.insert actor.actorId joined }.emit .actorsChanged, .ok ())
  | none => ({ e with actors := e.actors.insert actor.actorId actor }.emit .actorsChanged, .ok ())

/-- Let the listed actors join, each under the kind it joined with before. -/
def joinActors : List EnvironmentActor → ActorMap → Except EnvironmentError ActorMap
  | [], reconciled => .ok reconciled
  | actor :: actors, reconciled =>
    if (reconciled.get actor.actorId).any (fun existing => existing.kind ≠ actor.kind) then
      .error (.actorKindConflict actor.actorId)
    else joinActors actors (reconciled.insert actor.actorId { actor with presence := .present })

def reconcileActors (actors : List EnvironmentActor) : Result Unit :=
  match joinActors actors (e.actors.mapValues (fun _ actor => { actor with presence := .disconnected })) with
  | .error err => (e, .error err)
  | .ok reconciled =>
    if reconciled = e.actors then (e, .ok ())
    else
      let e := { e with actors := reconciled }.emit .actorsChanged
      let pointers : OrdMap String EnvironmentPointer := e.pointers.retain (fun actorId _ =>
        (e.actors.get actorId).any (fun actor => decide (actor.presence = .present)))
      let changed := decide (pointers.len ≠ e.pointers.len)
      ({ e with pointers := pointers }.emitIf changed .pointersChanged, .ok ())

def setActorPresence (actorId : String) (presence : EnvironmentActorPresence) : Result Unit :=
  match e.actors.get actorId with
  | none => (e, .error (.unknownActor actorId))
  | some actor =>
    let e := { e with actors := e.actors.insert actorId { actor with presence := presence } }.emit .actorsChanged
    (if presence ≠ .present then e.removePointer actorId else e, .ok ())

def validatePointerUpdate (runtimeGeneration viewportRevision : Nat)
    (position : Option EnvironmentPointerPosition) : Except EnvironmentError Unit :=
  if e.lifecycle ≠ .ready && e.lifecycle ≠ .degraded then .error (.environmentNotReady e.lifecycle)
  else if runtimeGeneration ≠ e.runtimeGeneration then
    .error (.staleRuntimeGeneration e.runtimeGeneration runtimeGeneration)
  else if viewportRevision ≠ e.viewport.revision then
    .error (.staleViewportRevision e.viewport.revision viewportRevision)
  else
    match position with
    | none => .ok ()
    | some position =>
      if e.viewport.desktopPixelWidth ≤ position.x || e.viewport.desktopPixelHeight ≤ position.y then
        .error (.pointerOutOfBounds position.x position.y e.viewport.desktopPixelWidth e.viewport.desktopPixelHeight)
      else .ok ()

def applyPointer (actorId : String) (viewportRevision : Nat) (position : Option EnvironmentPointerPosition) : Room :=
  match position with
  | some position =>
    let pointer : EnvironmentPointer := { actorId, x := position.x, y := position.y, viewportRevision }
    if e.pointers.get actorId = some pointer then e
    else { e with pointers := e.pointers.insert actorId pointer }.emit .pointersChanged
  | none => e.removePointer actorId

def updatePointer (actorId : String) (runtimeGeneration viewportRevision : Nat)
    (position : Option EnvironmentPointerPosition) : Result Unit :=
  match e.actors.get actorId with
  | none => (e, .error (.unknownActor actorId))
  | some actor =>
    if actor.presence ≠ .present then (e, .error (.unknownActor actorId))
    else
      match e.validatePointerUpdate runtimeGeneration viewportRevision position with
      | .error err => (e, .error err)
      | .ok () => (e.applyPointer actorId viewportRevision position, .ok ())

/-- Whether an actor of this id already joined with another kind. -/
def kindConflict (actor : EnvironmentActor) : Bool :=
  (e.actors.get actor.actorId).any (fun existing => existing.kind ≠ actor.kind)

def updatePointerAsActor (actor : EnvironmentActor) (runtimeGeneration viewportRevision : Nat)
    (position : Option EnvironmentPointerPosition) : Result Unit :=
  if e.kindConflict actor then (e, .error (.actorKindConflict actor.actorId))
  else
    match e.validatePointerUpdate runtimeGeneration viewportRevision position with
    | .error err => (e, .error err)
    | .ok () =>
      if position.isNone && !e.pointers.contains actor.actorId then (e, .ok ())
      else
        let registered := e.registerActor actor
        match registered.2 with
        | .error err => (registered.1, .error err)
        | .ok () => (registered.1.applyPointer actor.actorId viewportRevision position, .ok ())

/-- The check that nobody else drives the desktop. -/
def desktopHeldByOther (actorId : String) : Option String :=
  (e.actionLedger.owner .desktop).filter (fun owner => owner ≠ actorId)

def validateViewportUpdate (actorId : String) (expectedRevision : Nat) : Except EnvironmentError Unit :=
  if e.lifecycle ≠ .ready && e.lifecycle ≠ .degraded then .error (.environmentNotReady e.lifecycle)
  else
    match e.desktopHeldByOther actorId with
    | some owner => .error (.inputOwnedByAnotherActor .desktop owner)
    | none =>
      if expectedRevision ≠ e.viewport.revision then
        .error (.staleViewportRevision e.viewport.revision expectedRevision)
      else .ok ()

def applyViewport (actorId : String) (replacement : CanonicalViewport) : Room :=
  let e := { e with viewport :=
    { replacement with revision := e.viewport.revision + 1, lastActorId := some actorId } }.clearPointers
  let marked := (e.emit (.viewportChanged e.viewport.revision)).markAppTabs
  marked.1.emitIf marked.2 .tabsChanged

def updateViewport (actorId : String) (expectedRevision : Nat) (replacement : CanonicalViewport) : Result Unit :=
  if !e.actors.contains actorId then (e, .error (.unknownActor actorId))
  else
    match e.validateViewportUpdate actorId expectedRevision with
    | .error err => (e, .error err)
    | .ok () => (e.applyViewport actorId replacement, .ok ())

def updateViewportAsActor (actor : EnvironmentActor) (expectedRevision : Nat)
    (replacement : CanonicalViewport) : Result Unit :=
  match e.validateViewportUpdate actor.actorId expectedRevision with
  | .error err => (e, .error err)
  | .ok () =>
    let registered := e.registerActor actor
    match registered.2 with
    | .error err => (registered.1, .error err)
    | .ok () => (registered.1.applyViewport actor.actorId replacement, .ok ())

def setBrowserBarVisibleAsActor (actor : EnvironmentActor) (visible : Bool) : Result Unit :=
  if e.lifecycle ≠ .ready && e.lifecycle ≠ .degraded then (e, .error (.environmentNotReady e.lifecycle))
  else
    match e.desktopHeldByOther actor.actorId with
    | some owner => (e, .error (.inputOwnedByAnotherActor .desktop owner))
    | none =>
      let registered := e.registerActor actor
      match registered.2 with
      | .error err => (registered.1, .error err)
      | .ok () =>
        let e := registered.1
        (if e.browserBarVisible ≠ visible then { e with browserBarVisible := visible }.emit .tabsChanged else e, .ok ())

/-! ### Actions -/

def browserComponentsReady : Bool :=
  [EnvironmentComponent.browserController, .browser].all (fun component =>
    (e.health.get component).any (fun health => health.state = .ready))

/-- The lifecycle that admission sees: browser input is ready once the browser components are. -/
def inputLifecycle (mode : EnvironmentMode) : EnvironmentLifecycle :=
  if e.browserControllerRecovering then .starting
  else if e.lifecycle = .starting && mode = .browser && e.browserComponentsReady then .ready
  else e.lifecycle

def submitAction (request : EnvironmentActionRequest) (now : Nat) : Result ActionAdmission :=
  let submitted := e.actionLedger.submit request (e.inputLifecycle request.mode) e.runtimeGeneration e.actors e.tabs now
  let e := { e with actionLedger := submitted.1 }
  match submitted.2 with
  | .error err => (e, .error err)
  | .ok admission =>
    let e := match admission with
      | .accepted actionId => e.cancelAppRecoveryFocus.emitActionChanged .running actionId
      | .queued actionId _ => e.cancelAppRecoveryFocus.emitActionChanged .queued actionId
      | _ => e
    (e, .ok admission)

def emitActionRecoveryEffect (effect : ActionRecoveryEffect) : Room :=
  let e := e.emitActionsChanged .failed effect.failedActionIds
  let e := e.emitIf effect.ownershipChanged .inputOwnershipChanged
  (e.emitActionsChanged .running effect.startedActionIds).compactActions

def beginBrowserControllerRecovery : Room :=
  let e := { e with browserControllerRecovering := true, elementReferences := e.elementReferences.clear }
  let begun := e.actionLedger.beginControllerRecovery clock
  ({ e with actionLedger := begun.1 }.emitActionRecoveryEffect begun.2).settleHealthLifecycle

def completeBrowserControllerRecovery : Room :=
  let completed := e.actionLedger.completeControllerRecovery clock e.runtimeGeneration e.tabs
  let e := { e with actionLedger := completed.1, browserControllerRecovering := false }
  (e.emitActionRecoveryEffect completed.2).settleHealthLifecycle

def finishAction (actionId : String) (terminal : EnvironmentActionTerminal) : Result Unit :=
  let finished := e.actionLedger.finish clock actionId terminal
  let e := { e with actionLedger := finished.1 }
  match finished.2 with
  | .error err => (e, .error err)
  | .ok effect =>
    let e := e.emitActionChanged effect.state actionId
    let e := e.emitIf effect.ownershipChanged .inputOwnershipChanged
    ((e.emitActionsChanged .running effect.startedActionIds).compactActions, .ok ())

/-- The events of a cancellation, and the compaction after it. -/
def emitCancellation (actionId : String) (effect : ActionCancellationEffect) : Room :=
  let e := if effect.actionChanged then
      e.emitActionChanged effect.outcome.toState actionId else e
  (e.emitActionsChanged .running effect.startedActionIds).compactActions

def cancelAction (actorId actionId : String) : Result ActionCancellationOutcome :=
  let cancelled := e.actionLedger.cancelAsActor clock actorId actionId e.actors
  let e := { e with actionLedger := cancelled.1 }
  match cancelled.2 with
  | .error err => (e, .error err)
  | .ok effect => (e.emitCancellation actionId effect, .ok effect.outcome)

/-- The lifecycle that a cancellation of the action sees. -/
def actionLifecycle (actionId : String) : EnvironmentLifecycle :=
  ((e.actionLedger.actions.get actionId).map (fun action => e.inputLifecycle action.mode)).getD e.lifecycle

def cancelActionAsActor (actor : EnvironmentActor) (actionId : String) : Result ActionCancellationOutcome :=
  let lifecycle := e.actionLifecycle actionId
  if lifecycle ≠ .ready && lifecycle ≠ .degraded then (e, .error (.environmentNotReady lifecycle))
  else if e.kindConflict actor then (e, .error (.actorKindConflict actor.actorId))
  else
    let actors := e.actors.insert actor.actorId actor
    let cancelled := e.actionLedger.cancelAsActor clock actor.actorId actionId actors
    match cancelled.2 with
    | .error err => (e, .error err)
    | .ok effect =>
      let actorsChanged := decide (actors ≠ e.actors)
      let e := { e with actors := actors, actionLedger := cancelled.1 }.emitIf actorsChanged .actorsChanged
      (e.emitCancellation actionId effect, .ok effect.outcome)

/-- The events of a takeover request, and the compaction after it. -/
def emitTakeover (effect : ActionTakeoverEffect) (inputStateChanged : Bool) : Room :=
  let e := e.emitActionsChanged .cancelled effect.cancelledActionIds
  let e := e.emitActionsChanged .running effect.startedActionIds
  let e := e.emitActionsChanged .running effect.cancellationRequestedActionIds
  (e.emitIf inputStateChanged .inputOwnershipChanged).compactActions

def requestTakeover (actorId : String) (target : InputTarget) : Result TakeoverOutcome :=
  let requested := e.actionLedger.requestTakeover clock actorId target e.actors e.tabs
  let e := { e with actionLedger := requested.1 }
  match requested.2 with
  | .error err => (e, .error err)
  | .ok effect => (e.emitTakeover effect effect.inputStateChanged, .ok effect.outcome)

def requestTakeoverAsActor (actor : EnvironmentActor) (target : InputTarget) : Result TakeoverOutcome :=
  let lifecycle := e.inputLifecycle target.mode
  if lifecycle ≠ .ready && lifecycle ≠ .degraded then (e, .error (.environmentNotReady lifecycle))
  else if e.kindConflict actor then (e, .error (.actorKindConflict actor.actorId))
  else
    let actors := e.actors.insert actor.actorId actor
    let requested := e.actionLedger.requestTakeover clock actor.actorId target actors e.tabs
    match requested.2 with
    | .error err => (e, .error err)
    | .ok effect =>
      let actorsChanged := decide (actors ≠ e.actors)
      let inputStateChanged := decide (requested.1 ≠ e.actionLedger)
      let e := { e with actors := actors, actionLedger := requested.1 }.emitIf actorsChanged .actorsChanged
      (e.emitTakeover effect inputStateChanged, .ok effect.outcome)

def releaseInput (actorId : String) (target : InputTarget) : Result Unit :=
  let released := e.actionLedger.release actorId target
  let e := { e with actionLedger := released.1 }
  match released.2 with
  | .error err => (e, .error err)
  | .ok () => (e.emit .inputOwnershipChanged, .ok ())

end RoomEnvironment

end Chariox
