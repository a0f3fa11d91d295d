import Chariox.RoomEnvironment.Model

/-!
# The tab registry

Tabs of the room browser, keyed by their own id and found by the id of the controller target that shows them.  A
tab that goes away leaves its target in a bounded list of retired targets; the tabs of Apps can be reclaimed by
their installation after the browser is restarted.
-/

namespace Chariox

structure TabState where
  controllerTargetId : String
  documentId : Option String
  tab : EnvironmentTab
  deriving DecidableEq, Repr

/-- What an observation does to the tab that is already bound to its target. -/
def TabState.observe (state : TabState) (o : EnvironmentTabObservation) : TabState :=
  let documentChanged := state.documentId.any (fun id => id ≠ o.documentId) ||
    (state.documentId.isNone && decide (state.tab.url ≠ o.url))
  { state with
    documentId := some o.documentId
    tab := { state.tab with
      documentRevision := if documentChanged then satSucc state.tab.documentRevision else state.tab.documentRevision
      url := o.url
      title := o.title } }

/-- Whether `observe` counts as a change of the tabs; the document id alone does not. -/
def TabState.observeChanges (state : TabState) (o : EnvironmentTabObservation) : Bool :=
  state.documentId.any (fun id => id ≠ o.documentId) ||
    (state.documentId.isNone && decide (state.tab.url ≠ o.url)) ||
    decide (state.tab.url ≠ o.url) || decide (state.tab.title ≠ o.title)

/-- A blank page that belongs to no App. -/
def TabState.isOrdinaryBlank (state : TabState) : Bool := state.tab.url = "about:blank" && state.tab.app.isNone

structure TabRegistry where
  tabs : OrdMap String TabState
  tabIdByControllerTarget : OrdMap String String
  retiredTabIdByControllerTarget : OrdMap String String
  retiredControllerTargets : List String
  order : List String
  focusedTabId : Option String
  nextSequence : Nat
  restoringApps : OrdMap String EnvironmentTab
  recoveredAppFocus : Option String
  deriving DecidableEq

namespace TabRegistry

def maxRetiredControllerTargets : Nat := 2048

def new : TabRegistry where
  tabs := .empty
  tabIdByControllerTarget := .empty
  retiredTabIdByControllerTarget := .empty
  retiredControllerTargets := []
  order := []
  focusedTabId := none
  nextSequence := 1
  restoringApps := .empty
  recoveredAppFocus := none

def contains (r : TabRegistry) (tabId : String) : Bool := r.tabs.contains tabId

variable (r : TabRegistry)

def nextTabId : String := "tab-" ++ toString r.nextSequence

/-! ### Retired controller targets -/

def forgetRetiredControllerTarget (controllerTargetId : String) : TabRegistry :=
  { r with
    retiredTabIdByControllerTarget := r.retiredTabIdByControllerTarget.remove controllerTargetId
    retiredControllerTargets := r.retiredControllerTargets.filter (fun candidate => candidate ≠ controllerTargetId) }

/-- Drop the oldest retired targets while more than `maxRetiredControllerTargets` are remembered. -/
def trimRetired : List String → OrdMap String String → List String × OrdMap String String
  | [], retired => ([], retired)
  | target :: targets, retired =>
    if maxRetiredControllerTargets < (target :: targets).length then trimRetired targets (retired.remove target)
    else (target :: targets, retired)

def rememberRetiredControllerTarget (controllerTargetId tabId : String) : TabRegistry :=
  let r := r.forgetRetiredControllerTarget controllerTargetId
  let trimmed := trimRetired (r.retiredControllerTargets ++ [controllerTargetId])
    (r.retiredTabIdByControllerTarget.insert controllerTargetId tabId)
  { r with retiredControllerTargets := trimmed.1, retiredTabIdByControllerTarget := trimmed.2 }

def tabIdForControllerTarget (controllerTargetId : String) : Option String :=
  (r.tabIdByControllerTarget.get controllerTargetId).or (r.retiredTabIdByControllerTarget.get controllerTargetId)

/-! ### Registration and reconciliation -/

def registerOrReconcile (controllerTargetId url title : String) : TabRegistry × String × Bool :=
  match r.tabIdByControllerTarget.get controllerTargetId with
  | some tabId => (r, tabId, false)
  | none =>
    let r := r.forgetRetiredControllerTarget controllerTargetId
    let tabId := r.nextTabId
    let focused := r.focusedTabId.isNone
    ({ r with
        nextSequence := r.nextSequence + 1
        tabs := r.tabs.insert tabId
          { controllerTargetId, documentId := none,
            tab := { tabId, url, title, documentRevision := 1, focused, app := none } }
        tabIdByControllerTarget := r.tabIdByControllerTarget.insert controllerTargetId tabId
        order := r.order ++ [tabId]
        focusedTabId := if focused then some tabId else r.focusedTabId },
      tabId, true)

/-- The registry while the observations are folded in, with the targets observed so far. -/
structure ReconcileState where
  registry : TabRegistry
  changed : Bool
  observedTargets : List String

def reconcileObservation (s : ReconcileState) (o : EnvironmentTabObservation) : ReconcileState :=
  if o.runtimeTargetId ∈ s.observedTargets then s
  else
    let r := s.registry
    let observed := o.runtimeTargetId :: s.observedTargets
    match (r.tabIdByControllerTarget.get o.runtimeTargetId).bind
        (fun tabId => (r.tabs.get tabId).map (fun state => (tabId, state))) with
    | some (tabId, state) =>
      { registry := { r with tabs := r.tabs.insert tabId (state.observe o) }
        changed := s.changed || state.observeChanges o
        observedTargets := observed }
    | none =>
      let r := r.forgetRetiredControllerTarget o.runtimeTargetId
      let tabId := r.nextTabId
      { registry := { r with
          nextSequence := satSucc r.nextSequence
          tabs := r.tabs.insert tabId
            { controllerTargetId := o.runtimeTargetId, documentId := some o.documentId,
              tab := { tabId, url := o.url, title := o.title, documentRevision := 1, focused := false, app := none } }
          tabIdByControllerTarget := r.tabIdByControllerTarget.insert o.runtimeTargetId tabId
          order := r.order ++ [tabId] }
        changed := true
        observedTargets := observed }

/-- Remove one tab with its binding and remember its target as retired. -/
def retireTab (tabId : String) : TabRegistry :=
  match r.tabs.get tabId with
  | none => r
  | some state =>
    let r := { r with
      tabs := r.tabs.remove tabId
      tabIdByControllerTarget := r.tabIdByControllerTarget.remove state.controllerTargetId }
    let r := r.rememberRetiredControllerTarget state.controllerTargetId tabId
    { r with order := r.order.filter (fun candidate => candidate ≠ tabId) }

/-- The focus that a reclaimed App keeps while the controller still reports a blank page, or nothing. -/
def recoveryFocus (observedFocus : Option String) : Option String :=
  r.recoveredAppFocus.filter (fun id =>
    (r.tabs.get id).any (fun state => state.tab.app.isSome) &&
      observedFocus.all (fun observed => observed = id || (r.tabs.get observed).any TabState.isOrdinaryBlank))

def reconcileControllerTabs (observations : List EnvironmentTabObservation)
    (focusedControllerTargetId : Option String) : TabRegistry × Bool :=
  let s := observations.foldl reconcileObservation { registry := r, changed := false, observedTargets := [] }
  let removedTabIds :=
    (s.registry.tabs.entries.filter (fun e => e.2.controllerTargetId ∉ s.observedTargets)).map Prod.fst
  let r := removedTabIds.foldl retireTab s.registry
  let changed := s.changed || !removedTabIds.isEmpty
  let observedFocus := focusedControllerTargetId.bind r.tabIdByControllerTarget.get
  let recovery := r.recoveryFocus observedFocus
  let r := if recovery.isNone then { r with recoveredAppFocus := none } else r
  let nextFocus := ((recovery.or observedFocus).or
    (r.focusedTabId.filter (fun tabId => r.tabs.contains tabId))).or r.order.head?
  ({ r with focusedTabId := nextFocus }, changed || decide (r.focusedTabId ≠ nextFocus))

/-! ### App tabs -/

/-- Reattach a saved App tab to the controller target that shows it again. -/
def restoreAppTab (saved : EnvironmentTab) (target : String) : TabRegistry × Bool :=
  if r.tabIdByControllerTarget.get target = some saved.tabId then (r, false)
  else
    let r := match r.tabIdByControllerTarget.get target with
      | none => r
      | some temporaryId =>
        { r with
          tabIdByControllerTarget := r.tabIdByControllerTarget.remove target
          tabs := r.tabs.remove temporaryId
          order := r.order.filter (fun id => id ≠ temporaryId)
          focusedTabId := if r.focusedTabId = some temporaryId then some saved.tabId else r.focusedTabId }
    let previous := r.tabs.get saved.tabId
    let r := match previous with
      | none => r
      | some old =>
        { r with
          tabs := r.tabs.remove saved.tabId
          tabIdByControllerTarget := r.tabIdByControllerTarget.remove old.controllerTargetId }
          |>.rememberRetiredControllerTarget old.controllerTargetId saved.tabId
    let revision := match previous with
      | none => saved.documentRevision
      | some old => max saved.documentRevision old.tab.documentRevision
    let tab := { saved with documentRevision := satSucc revision }
    let r := r.forgetRetiredControllerTarget target
    ({ r with
        tabIdByControllerTarget := r.tabIdByControllerTarget.insert target tab.tabId
        order := if tab.tabId ∈ r.order then r.order else r.order ++ [tab.tabId]
        tabs := r.tabs.insert tab.tabId { controllerTargetId := target, documentId := none, tab } },
      true)

/-- The focus test of a reclaimed tab: no focus, the temporary tab focused, or an ordinary blank page focused while
the reclaimed tab had the focus. -/
def claimsFocus (temporaryId : String) (previous : EnvironmentTab) : Bool :=
  r.focusedTabId.isNone || decide (r.focusedTabId = some temporaryId) ||
    (previous.focused && (r.focusedTabId.bind r.tabs.get).any TabState.isOrdinaryBlank)

/-- Give the tab `temporaryId` the identity saved for its installation. -/
def claimRestoringApp (s : TabRegistry × Bool) (claim : String × String) : TabRegistry × Bool :=
  let r := s.1
  match r.restoringApps.get claim.2 with
  | none => s
  | some previous =>
    let r := { r with restoringApps := r.restoringApps.remove claim.2 }
    match r.tabs.get claim.1 with
    | none => (r, s.2)
    | some state =>
      let r := { r with tabs := r.tabs.remove claim.1 }
      let state := { state with tab := { state.tab with
        tabId := previous.tabId
        documentRevision := max state.tab.documentRevision (satSucc previous.documentRevision) } }
      let r := { r with
        tabIdByControllerTarget := r.tabIdByControllerTarget.insert state.controllerTargetId previous.tabId
        order := r.order.map (fun id => if id = claim.1 then previous.tabId else id) }
      let r := if r.claimsFocus claim.1 previous then
          { r with
            focusedTabId := some previous.tabId
            recoveredAppFocus := if previous.focused then some previous.tabId else r.recoveredAppFocus }
        else r
      let retired := r.retiredTabIdByControllerTarget.retain (fun _ id => id ≠ previous.tabId)
      ({ r with
          retiredTabIdByControllerTarget := retired
          retiredControllerTargets := r.retiredControllerTargets.filter retired.contains
          tabs := r.tabs.insert previous.tabId state },
        true)

/-- The tabs that can claim the identity saved for their installation. -/
def restorableTabs : List (String × String) :=
  r.tabs.entries.filterMap (fun e => do
    let app ← e.2.tab.app
    let previous ← r.restoringApps.get app.installationId
    if previous.tabId ≠ e.1 && !r.tabs.contains previous.tabId then some (e.1, app.installationId) else none)

def setApps (apps : OrdMap String EnvironmentTabApp) : TabRegistry × Bool :=
  let changed := r.tabs.values.any (fun state => state.tab.app ≠ apps.get state.controllerTargetId)
  let r := { r with tabs := r.tabs.mapValues (fun _ state =>
    { state with tab := { state.tab with app := apps.get state.controllerTargetId } }) }
  r.restorableTabs.foldl claimRestoringApp (r, changed)

def prepareAppRecovery : TabRegistry :=
  { r with
    recoveredAppFocus := none
    restoringApps := r.tabs.values.foldl (fun restoring state =>
      match state.tab.app with
      | none => restoring
      | some app =>
        let tab := { state.tab with focused := decide (r.focusedTabId = some state.tab.tabId) }
        if tab.focused then restoring.insert app.installationId tab
        else restoring.insertIfAbsent app.installationId tab) .empty }

def cancelAppRecoveryFocus : TabRegistry :=
  { r with
    recoveredAppFocus := none
    restoringApps := r.restoringApps.mapValues (fun _ tab => { tab with focused := false }) }

/-! ### Navigation, closing and references -/

def recordNavigation (tabId url title : String) : TabRegistry × Except EnvironmentError Unit :=
  match r.tabs.get tabId with
  | none => (r, .error (.unknownTab tabId))
  | some state =>
    let tab := { state.tab with url := url, title := title, documentRevision := (state.tab.documentRevision + 1) % 2 ^ 64 }
    ({ r with tabs := r.tabs.insert tabId { state with tab := tab } }, .ok ())

def close (tabId : String) : TabRegistry × Except EnvironmentError Unit :=
  match r.tabs.get tabId with
  | none => (r, .error (.unknownTab tabId))
  | some _ =>
    let r := r.retireTab tabId
    ({ r with
        focusedTabId := if r.focusedTabId = some tabId then r.order.head? else r.focusedTabId
        recoveredAppFocus := if r.recoveredAppFocus = some tabId then none else r.recoveredAppFocus },
      .ok ())

def validateReference (runtimeGeneration currentGeneration : Nat) (tabId : String)
    (documentRevision : Nat) : Except EnvironmentError Unit :=
  if runtimeGeneration ≠ currentGeneration then
    .error (.staleRuntimeGeneration currentGeneration runtimeGeneration)
  else
    match r.tabs.get tabId with
    | none => .error (.unknownTab tabId)
    | some state =>
      if documentRevision ≠ state.tab.documentRevision then
        .error (.staleDocumentRevision tabId state.tab.documentRevision documentRevision)
      else .ok ()

/-- Forget every tab of a browser generation, keeping what its Apps may reclaim. -/
def clear : TabRegistry :=
  { r.prepareAppRecovery with
    tabs := .empty
    tabIdByControllerTarget := .empty
    retiredTabIdByControllerTarget := .empty
    retiredControllerTargets := []
    order := []
    focusedTabId := none }

end TabRegistry

end Chariox
