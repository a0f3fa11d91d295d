import Chariox.RoomEnvironment.ActionLedger
import Chariox.Lib.Runs

/-!
# Actors of the kernel's browser

The kernel's browser uses the actors, the tab registry and the action ledger of a room without a session.  Viewers of
a person and agents register with their first operation and leave by a disconnect, or when the table of actors is full
and they hold nothing.  A person's takeover of a tab outlives the viewer that took it: another viewer of the person
adopts it, or it ends when the person sends no input for a while.  A takeover of the desktop lasts as long as one of
the person's desktop subscriptions.

An operation returns the state after it together with its result, since many operations change the state before they
fail.  It reads the clock once.
-/

namespace Chariox

/-- The lease of a desktop subscription, in milliseconds. -/
def desktopViewerLease : Nat := 60000

def displayResumeGrace : Nat := 5000

/-- How long a person's takeover of a tab lasts without input from the person. -/
def takeoverIdleTimeout : Nat := 180000

def tabTakenOverRefusal : String :=
  "MD-3: human_takeover: a person has control of this browser Tab. Call chariox.events.blocked with the reason " ++
    "\"human_takeover: waiting for the person to return control\" and end your turn; the kernel continues you when " ++
    "they return control."

structure KernelBrowserActors where
  generation : Nat
  observation : Nat
  /-- Surface and generation of the native desktop. -/
  desktop : Option (String × String)
  tabs : TabRegistry
  actors : ActorMap
  /-- When each actor last registered. -/
  seen : OrdMap String Nat
  ledger : EnvironmentActionLedger
  /-- The actions that are underway, and whether each was asked to stop. -/
  active : OrdMap String Bool
  /-- The person and the expiry of each desktop subscription. -/
  desktopViewers : OrdMap String (String × Nat)
  /-- The last input of each person who holds or awaits a tab. -/
  takeoverInput : OrdMap String Nat
  /-- The people whose viewer went away while they held a tab. -/
  orphanedTakeovers : OrdMap String Unit
  /-- Everyone who has ever registered, as last registered (history). -/
  joined : ActorMap
  /-- The kind of the actor that began each action (history). -/
  begun : OrdMap String EnvironmentActorKind

/-- The fields of a browser request that its admission reads. -/
structure BrowserParams where
  tabId : Option String
  generation : Option Nat
  op : Option String
  native : Bool
  arguments : Option EnvironmentActionArguments
  deriving DecidableEq

/-- A tab of an inventory: its identity and its document, if given. -/
structure InventoryTab where
  tabId : Option String
  documentId : Option String
  deriving DecidableEq

/-- Addresses and titles are not passed on. -/
def InventoryTab.observe (tab : InventoryTab) : Except String EnvironmentTabObservation :=
  match tab.tabId, tab.documentId with
  | none, _ => .error "MD-3: missing tab identity"
  | some _, none => .error "MD-3: missing document identity"
  | some tabId, some documentId => .ok ⟨tabId, documentId, "", ""⟩

/-- The revision of a tab whose document is known. -/
def TabRegistry.controllerRevision (r : TabRegistry) (tabId : String) : Option Nat :=
  (r.tabs.get tabId).bind (fun state => state.documentId.map (fun _ => state.tab.documentRevision))

def TabRegistry.inputTargets (r : TabRegistry) : List InputTarget :=
  (r.order.filterMap r.tabs.get).map (fun state => .browserTab state.tab.tabId)

namespace KernelBrowserActors

abbrev Actors := KernelBrowserActors

abbrev Result (α : Type) := Actors × Except String α

def new : Actors where
  generation := 0
  observation := 0
  desktop := none
  tabs := .new
  actors := .empty
  seen := .empty
  ledger := .new 256 0
  active := .empty
  desktopViewers := .empty
  takeoverInput := .empty
  orphanedTakeovers := .empty
  joined := .empty
  begun := .empty

def tab (s : Actors) (hostTab : String) : Except String String :=
  match (s.tabs.tabIdForControllerTarget hostTab).filter s.tabs.contains with
  | some tabId => .ok tabId
  | none => .error "MD-3: unknown user-domain tab; refresh state"

variable (clock : Clock) (s : Actors)

def isHuman (actorId : String) : Bool :=
  (s.actors.get actorId).any (fun actor => actor.kind = .human)

def ownsTab (actorId : String) : Bool :=
  s.ledger.inputOwners.entries.any (fun e => e.2 == actorId && e.1.isBrowserTab)

def hasTabTakeover (actorId : String) : Bool :=
  s.ownsTab actorId || s.ledger.pendingTakeovers.entries.any (fun e => e.2 == actorId && e.1.isBrowserTab)

def desktopOwnerIs (actorId : String) : Bool :=
  s.ledger.owner .desktop == some actorId

/-! ### Parts of the operations -/

/-- Ask the listed actions to stop, as far as they are underway. -/
def requestCancel (actionIds : List String) : Actors :=
  { s with active := s.active.mapValues (fun actionId asked => asked || actionIds.contains actionId) }

def actionsOf (actorId : String) : List String :=
  s.ledger.actionIdsWhere (fun _ action => action.actorId == actorId)

def removeActor (actorId : String) : Actors :=
  { s with actors := s.actors.remove actorId, seen := s.seen.remove actorId }

/-- The actor holds input, awaits it, views the desktop or has an action underway. -/
def holdsWork (actorId : String) : Bool :=
  s.ledger.inputOwners.values.contains actorId || s.ledger.pendingTakeovers.values.contains actorId ||
    s.desktopViewers.values.any (fun viewer => viewer.1 == actorId) ||
    (s.actionsOf actorId).any s.active.contains

/-- A replacement viewer inherits the person's input time. -/
def transferTakeover (source destination : String) : Actors :=
  { s with
    ledger := s.ledger.transferTabOwnership source destination
    takeoverInput :=
      match s.takeoverInput.get source with
      | none => s.takeoverInput.remove source
      | some last =>
        let rest := s.takeoverInput.remove source
        rest.insert destination ((rest.get destination).elim last (fun current => max current last)) }

/-- Another viewer of the person that is still connected. -/
def liveViewerOtherThan (actorId : String) : Option String :=
  (s.actors.entries.find? (fun e =>
    e.1 != actorId && decide (e.2.kind = .human) && !s.orphanedTakeovers.contains e.1)).map Prod.fst

/-- What a disconnect ends first: the desktop subscriptions, the input that does not outlive the viewer, and the
actions. -/
def releaseInput (actorId : String) (keepsTakeover : Bool) : Actors :=
  { s with
    desktopViewers := s.desktopViewers.retain (fun _ viewer => viewer.1 != actorId)
    ledger :=
      if keepsTakeover then s.ledger.releaseActorInputKeepingTabs actorId
      else s.ledger.releaseActorInput actorId }.requestCancel (s.actionsOf actorId)

def disconnect (actorId : String) : Actors :=
  if s.isHuman actorId && s.ownsTab actorId then
    let released := s.releaseInput actorId true
    match released.liveViewerOtherThan actorId with
    | some remaining => (released.transferTakeover actorId remaining).removeActor actorId
    | none => { released with orphanedTakeovers := released.orphanedTakeovers.insert actorId () }
  else
    let released := s.releaseInput actorId false
    { released with takeoverInput := released.takeoverInput.remove actorId }.removeActor actorId

/-- The actor without work that registered longest ago; one without a time comes first. -/
def longestIdle : Option String :=
  (s.actors.keys.filter (fun actorId => !s.holdsWork actorId)).argmin
    (fun actorId => (s.seen.get actorId).elim 0 (fun time => time + 1))

/-- Store an actor that may register. -/
def enter (actor : EnvironmentActor) (now : Nat) : Result Unit :=
  if (s.actors.get actor.actorId).any (fun old => old.kind ≠ actor.kind) then
    (s, .error "MD-3: browser actor kind conflict")
  else
    ({ s with
        seen := s.seen.insert actor.actorId now
        actors := s.actors.insert actor.actorId actor
        joined := s.joined.insert actor.actorId actor }, .ok ())

/-- A full table makes room by disconnecting the longest idle actor. -/
def register (actor : EnvironmentActor) (now : Nat) : Result Unit :=
  if !s.actors.contains actor.actorId && decide (64 ≤ s.actors.len) then
    match s.longestIdle with
    | none => (s, .error "MD-3: browser actor limit reached")
    | some idle => (s.disconnect idle).enter actor now
  else s.enter actor now

/-- Keep the idle clock until the person's last tab takeover ends. -/
def endTakeoverBookkeeping (actorId : String) : Actors :=
  if s.hasTabTakeover actorId then s
  else
    let ended := { s with
      takeoverInput := s.takeoverInput.remove actorId
      orphanedTakeovers := s.orphanedTakeovers.remove actorId }
    if s.orphanedTakeovers.contains actorId then ended.removeActor actorId else ended

/-- One orphaned takeover continues with another viewer. -/
def adoptOrphan (actorId : String) (s : Actors) (orphan : String) : Actors :=
  (s.transferTakeover orphan actorId).endTakeoverBookkeeping orphan

def adoptOrphanedTakeovers (actorId : String) : Actors :=
  if !s.isHuman actorId then s
  else
    let reconnected := { s with orphanedTakeovers := s.orphanedTakeovers.remove actorId }
    (reconnected.orphanedTakeovers.keys.filter (fun orphan => orphan != actorId)).foldl (adoptOrphan actorId) reconnected

def notePersonInput (actorId : String) (now : Nat) : Actors :=
  if s.isHuman actorId && s.ownsTab actorId then
    { s with takeoverInput := s.takeoverInput.insert actorId now }
  else s

/-- One idle takeover ends. -/
def reclaimIdle (actorId : String) : Actors :=
  { s with ledger := s.ledger.releaseTabInput actorId }.endTakeoverBookkeeping actorId

def reclaimIdleTakeovers (now : Nat) : Actors :=
  ((s.takeoverInput.entries.filter (fun e => decide (takeoverIdleTimeout ≤ now - e.2))).map Prod.fst).foldl
    reclaimIdle s

/-- A person whose desktop subscriptions have all lapsed loses the desktop. -/
def retireDesktopViewer (actorId : String) : Actors :=
  if s.desktopViewers.values.any (fun viewer => viewer.1 == actorId) || !s.desktopOwnerIs actorId then s
  else
    let asked := s.requestCancel (s.actionsOf actorId)
    { asked with ledger := (asked.ledger.release actorId .desktop).1 }

def retireLapsedDesktopViewers (now : Nat) : Actors :=
  let lapsed := (s.desktopViewers.values.filter (fun viewer => decide (viewer.2 ≤ now))).map Prod.fst
  lapsed.foldl retireDesktopViewer
    { s with desktopViewers := s.desktopViewers.retain (fun _ viewer => decide (now < viewer.2)) }

/-! ### Inventories -/

/-- A new browser generation: whatever was underway is lost. -/
def browserRestarted (generation : Nat) : Actors :=
  { s with
    ledger := (s.ledger.invalidateAfterKernelRestart clock s.actors).1
    active := .empty
    generation := generation }

/-- An inventory of the browser; older ones are dropped. -/
def reconcile (generation : Nat) (observation : Option Nat) (tabs : List InventoryTab) : Result Unit :=
  if generation < s.generation ∨ (generation = s.generation ∧ observation.any (fun n => n ≤ s.observation)) then
    (s, .ok ())
  else
    let observed := { s with observation := observation.getD 0 }
    let current := if generation ≠ s.generation then observed.browserRestarted clock generation else observed
    match tabs.mapM InventoryTab.observe with
    | .error error => (current, .error error)
    | .ok observations =>
      let registry := (current.tabs.reconcileControllerTabs observations none).1
      ({ current with tabs := registry, ledger := (current.ledger.retainInputTargets registry).1 }, .ok ())

/-- Another desktop never takes over input of the one before. -/
def reconcileDesktop (surface generation : String) : Actors :=
  let cleared :=
    if s.desktop.any (fun old => old ≠ (surface, generation)) then
      let asked := s.requestCancel s.active.keys
      { asked with ledger := asked.ledger.clearOwnership.1 }
    else s
  { cleared with desktop := some (surface, generation) }

def desktopCurrent (surface generation : String) : Except String Unit :=
  if s.desktop = some (surface, generation) then .ok () else .error "MP-11: stale native desktop"

/-! ### Actions -/

def tabRequest (actorId : String) (params : BrowserParams) (hostTab : String) :
    Except String EnvironmentActionRequest :=
  match s.tab hostTab with
  | .error error => .error error
  | .ok tab =>
    match s.tabs.controllerRevision tab with
    | none => .error "MD-3: missing tab document"
    | some revision =>
      if params.generation ≠ some s.generation then .error "MD-3: stale browser generation"
      else
        .ok (EnvironmentActionRequest.browserMutation actorId s.generation (params.op.getD "vault_input") tab revision)

/-- The request of an action on the whole browser or desktop. -/
def desktopRequest (actorId : String) (params : BrowserParams) : EnvironmentActionRequest :=
  let request := EnvironmentActionRequest.computerMutation actorId s.generation
    (params.op.getD "browser_mutation") none
  { request with
    mode := if params.native then .computer else .browser
    targets := if params.op = some "stop" then request.targets ++ s.tabs.inputTargets else request.targets }

/-- Every action also needs the desktop, and native input needs every tab. -/
def widen (params : BrowserParams) (request : EnvironmentActionRequest) : EnvironmentActionRequest :=
  let targets := if request.targets.contains .desktop then request.targets else request.targets ++ [.desktop]
  { request with
    targets := if params.native then targets ++ s.tabs.inputTargets else targets
    arguments := params.arguments.or request.arguments }

def actionRequest (actorId : String) (params : BrowserParams) : Except String EnvironmentActionRequest :=
  match params.tabId with
  | none => .ok (s.widen params (s.desktopRequest actorId params))
  | some hostTab => (s.tabRequest actorId params hostTab).map (s.widen params)

/-- Submit the request; an accepted action is underway. -/
def admitRequest (actor : EnvironmentActor) (request : EnvironmentActionRequest) (now : Nat) : Result String :=
  let submitted := s.ledger.submit request .ready s.generation s.actors s.tabs now
  let later := { s with ledger := submitted.1 }
  match submitted.2 with
  | .error _ => (later, .error "MD-3: browser action admission failed")
  | .ok (.accepted actionId) =>
    ({ later with
        active := later.active.insert actionId false
        begun := later.begun.insert actionId actor.kind }, .ok actionId)
  | .ok (.rejectedTakeover _ _) => (later, .error tabTakenOverRefusal)
  | .ok _ => (later, .error "MD-3: browser action lane busy")

/-- The actor is there, with the takeovers it adopts and its input noted. -/
def prepare (actorId : String) (now : Nat) : Actors :=
  (s.adoptOrphanedTakeovers actorId).notePersonInput actorId now

def begin (actor : EnvironmentActor) (params : BrowserParams) (now : Nat) : Result String :=
  let registered := ((s.retireLapsedDesktopViewers now).reclaimIdleTakeovers now).register actor now
  match registered.2 with
  | .error error => (registered.1, .error error)
  | .ok () =>
    let prepared := registered.1.prepare actor.actorId now
    match prepared.actionRequest actor.actorId params with
    | .error error => (prepared, .error error)
    | .ok request => prepared.admitRequest actor request now

def finish (actionId : String) (terminal : EnvironmentActionTerminal) : Actors :=
  { s with
    active := s.active.remove actionId
    ledger := ((s.ledger.finish clock actionId terminal).1.compactTerminalActions).compactTransientHistory 256 }

/-! ### Takeovers -/

/-- Request the takeover; the actions in its way are asked to stop. -/
def requestTakeover (actorId : String) (target : InputTarget) (denied : String) : Result TakeoverOutcome :=
  let requested := s.ledger.requestTakeover clock actorId target s.actors s.tabs
  let later := { s with ledger := requested.1 }
  match requested.2 with
  | .error _ => (later, .error denied)
  | .ok effect => (later.requestCancel effect.cancellationRequestedActionIds, .ok effect.outcome)

def takeover (actor : EnvironmentActor) (hostTab : String) (generation : Nat) (now : Nat) : Result TakeoverOutcome :=
  if generation ≠ s.generation then (s, .error "MD-3: stale browser generation")
  else
    match s.tab hostTab with
    | .error error => (s, .error error)
    | .ok tab =>
      let registered := ((s.retireLapsedDesktopViewers now).reclaimIdleTakeovers now).register actor now
      match registered.2 with
      | .error error => (registered.1, .error error)
      | .ok () =>
        let adopted := registered.1.adoptOrphanedTakeovers actor.actorId
        let noted := { adopted with takeoverInput := adopted.takeoverInput.insert actor.actorId now }
        noted.requestTakeover clock actor.actorId (.browserTab tab) "MD-3: browser takeover denied"

def takeoverDesktop (actor : EnvironmentActor) (surface generation : String) (now : Nat) : Result TakeoverOutcome :=
  match s.desktopCurrent surface generation with
  | .error error => (s, .error error)
  | .ok () =>
    let registered := (s.retireLapsedDesktopViewers now).register actor now
    match registered.2 with
    | .error error => (registered.1, .error error)
    | .ok () => registered.1.requestTakeover clock actor.actorId .desktop "MP-11: desktop takeover denied"

/-- Who gives the tab back: the person who holds it, unless an agent asks. -/
def holder (actorId : String) (target : InputTarget) : String :=
  let agentRequests := (s.actors.get actorId).any (fun actor => actor.kind = .agent)
  ((s.ledger.inputOwners.get target).filter (fun owner => !agentRequests && s.isHuman owner)).getD actorId

def release (actorId hostTab : String) (generation : Nat) (now : Nat) : Result Unit :=
  if generation ≠ s.generation then (s, .error "MD-3: stale browser generation")
  else
    match s.tab hostTab with
    | .error error => (s, .error error)
    | .ok tab =>
      let reclaimed := s.reclaimIdleTakeovers now
      let holder := reclaimed.holder actorId (.browserTab tab)
      let released := reclaimed.ledger.release holder (.browserTab tab)
      let later := { reclaimed with ledger := released.1 }
      match released.2 with
      | .error _ => (later, .error "MD-3: only the input owner may release takeover")
      | .ok () => (later.endTakeoverBookkeeping holder, .ok ())

def releaseDesktop (actorId surface generation : String) : Result Unit :=
  match s.desktopCurrent surface generation with
  | .error error => (s, .error error)
  | .ok () =>
    let released := s.ledger.release actorId .desktop
    ({ s with ledger := released.1 },
      released.2.mapError (fun _ => "MP-11: only the desktop owner may release"))

/-- A viewer of the person connected, and continues the takeovers whose viewer went away. -/
def viewerConnected (actor : EnvironmentActor) (now : Nat) : Actors :=
  let registered := s.register actor now
  match registered.2 with
  | .error _ => registered.1
  | .ok () => registered.1.adoptOrphanedTakeovers actor.actorId

/-- Dialog answers take no lane but honour takeovers. -/
def checkDialogTakeover (hostTab : String) (now : Nat) : Result Unit :=
  let reclaimed := s.reclaimIdleTakeovers now
  match reclaimed.tab hostTab with
  | .error error => (reclaimed, .error error)
  | .ok tab =>
    if [InputTarget.browserTab tab, .desktop].any (fun target =>
        reclaimed.ledger.inputOwners.contains target || reclaimed.ledger.pendingTakeovers.contains target) then
      (reclaimed, .error tabTakenOverRefusal)
    else (reclaimed, .ok ())

/-! ### Desktop subscriptions -/

def desktopViewer (actorId subscription : String) (now : Nat) : Actors :=
  if s.desktopViewers.len < 256 ∨ s.desktopViewers.contains subscription = true then
    { s with desktopViewers := s.desktopViewers.insert subscription (actorId, now + desktopViewerLease) }
  else s

def renewDesktopViewer (subscription : String) (now : Nat) : Actors :=
  { s with desktopViewers := s.desktopViewers.modify subscription (fun v => (v.1, now + desktopViewerLease)) }

def endDesktopViewer (subscription : String) (now : Nat) : Actors :=
  { s with desktopViewers := s.desktopViewers.modify subscription (fun v => (v.1, now)) }

def suspendDesktopViewer (actorId subscription : String) (now : Nat) : Result Unit :=
  if (s.desktopViewers.get subscription).any (fun v => v.1 ≠ actorId) then
    (s, .error "MP-11: foreign desktop viewer")
  else
    ({ s with
        desktopViewers := s.desktopViewers.modify subscription (fun v => (v.1, min v.2 (now + displayResumeGrace))) },
      .ok ())

def resumeDesktopViewer (actorId old replacement : String) (now : Nat) : Result Unit :=
  if (s.desktopViewers.get old).any (fun v => decide (v.1 ≠ actorId) || decide (v.2 ≤ now)) then
    (s, .error "MP-11: stale or foreign desktop viewer")
  else
    ({ s with desktopViewers := s.desktopViewers.remove old }.desktopViewer actorId replacement now, .ok ())

end KernelBrowserActors

/-! ### Runs -/

inductive BrowserOp
  | reconcile (clock : Clock) (generation : Nat) (observation : Option Nat) (tabs : List InventoryTab)
  | reconcileDesktop (surface generation : String)
  | begin (actor : EnvironmentActor) (params : BrowserParams) (now : Nat)
  | finish (clock : Clock) (actionId : String) (terminal : EnvironmentActionTerminal)
  | takeover (clock : Clock) (actor : EnvironmentActor) (hostTab : String) (generation now : Nat)
  | takeoverDesktop (clock : Clock) (actor : EnvironmentActor) (surface generation : String) (now : Nat)
  | release (actorId hostTab : String) (generation now : Nat)
  | releaseDesktop (actorId surface generation : String)
  | disconnect (actorId : String)
  | viewerConnected (actor : EnvironmentActor) (now : Nat)
  | reclaimIdleTakeovers (now : Nat)
  | checkDialogTakeover (hostTab : String) (now : Nat)
  | retireLapsedDesktopViewers (now : Nat)
  | desktopViewer (actorId subscription : String) (now : Nat)
  | renewDesktopViewer (subscription : String) (now : Nat)
  | endDesktopViewer (subscription : String) (now : Nat)
  | suspendDesktopViewer (actorId subscription : String) (now : Nat)
  | resumeDesktopViewer (actorId old replacement : String) (now : Nat)

namespace KernelBrowserActors

def step (s : Actors) : BrowserOp → Actors
  | .reconcile clock generation observation tabs => (s.reconcile clock generation observation tabs).1
  | .reconcileDesktop surface generation => s.reconcileDesktop surface generation
  | .begin actor params now => (s.begin actor params now).1
  | .finish clock actionId terminal => s.finish clock actionId terminal
  | .takeover clock actor hostTab generation now => (s.takeover clock actor hostTab generation now).1
  | .takeoverDesktop clock actor surface generation now => (s.takeoverDesktop clock actor surface generation now).1
  | .release actorId hostTab generation now => (s.release actorId hostTab generation now).1
  | .releaseDesktop actorId surface generation => (s.releaseDesktop actorId surface generation).1
  | .disconnect actorId => s.disconnect actorId
  | .viewerConnected actor now => s.viewerConnected actor now
  | .reclaimIdleTakeovers now => s.reclaimIdleTakeovers now
  | .checkDialogTakeover hostTab now => (s.checkDialogTakeover hostTab now).1
  | .retireLapsedDesktopViewers now => s.retireLapsedDesktopViewers now
  | .desktopViewer actorId subscription now => s.desktopViewer actorId subscription now
  | .renewDesktopViewer subscription now => s.renewDesktopViewer subscription now
  | .endDesktopViewer subscription now => s.endDesktopViewer subscription now
  | .suspendDesktopViewer actorId subscription now => (s.suspendDesktopViewer actorId subscription now).1
  | .resumeDesktopViewer actorId old replacement now => (s.resumeDesktopViewer actorId old replacement now).1

def run (ops : List BrowserOp) : Actors := ops.foldl step new

end KernelBrowserActors

end Chariox
