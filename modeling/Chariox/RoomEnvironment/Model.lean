import Chariox.Lib.Except
import Chariox.Lib.OrdMap

/-!
# Data of a room environment

The values that the action ledger, the tab registry and the room environment pass around: lifecycles, actors,
components, tabs, pointers, actions with their requests, targets and outcomes, and the errors of the operations.
Identifiers are strings and counters are natural numbers, as in the source.
-/

namespace Chariox

def satSucc (n : Nat) : Nat := min (n + 1) u64Max

/-! ### Lifecycle, viewport, actors and components -/

inductive EnvironmentLifecycle
  | stopped | starting | ready | degraded | saving | restoring | stopping | failed
  deriving DecidableEq, Repr

inductive AppPanelPlacement
  | right | bottom
  deriving DecidableEq, Repr

structure AppPanelLayout where
  placement : Option AppPanelPlacement
  size : Option Nat
  minimized : Bool
  deriving DecidableEq, Repr

structure EnvironmentAppPanel where
  x : Nat
  y : Nat
  width : Nat
  height : Nat
  agentId : Option String
  placement : AppPanelPlacement
  minimized : Bool
  deriving DecidableEq, Repr

structure CanonicalViewport where
  cssWidth : Nat
  cssHeight : Nat
  deviceScaleFactor : Nat
  desktopPixelWidth : Nat
  desktopPixelHeight : Nat
  revision : Nat
  lastActorId : Option String
  deriving DecidableEq, Repr

inductive EnvironmentActorKind
  | human | agent
  deriving DecidableEq, Repr

inductive EnvironmentActorPresence
  | present | away | disconnected
  deriving DecidableEq, Repr

inductive EnvironmentActorColor
  | blue | cyan | green | amber | orange | rose | violet | slate
  deriving DecidableEq, Repr

structure EnvironmentActor where
  actorId : String
  kind : EnvironmentActorKind
  displayLabel : String
  presence : EnvironmentActorPresence
  presentationColor : EnvironmentActorColor
  deriving DecidableEq, Repr

abbrev ActorMap := OrdMap String EnvironmentActor

inductive EnvironmentComponent
  | browserController | browser | desktop | streamer
  deriving DecidableEq, Repr

/-- The position of a component in the derived order of the source. -/
def EnvironmentComponent.rank : EnvironmentComponent → Nat
  | browserController => 0
  | browser => 1
  | desktop => 2
  | streamer => 3

instance : LinearOrder EnvironmentComponent :=
  LinearOrder.lift' EnvironmentComponent.rank (fun a b h => by cases a <;> cases b <;> first | rfl | cases h)

inductive EnvironmentComponentHealthState
  | starting | ready | degraded | unavailable
  deriving DecidableEq, Repr

structure EnvironmentComponentHealth where
  component : EnvironmentComponent
  state : EnvironmentComponentHealthState
  diagnosticCode : Option String
  deriving DecidableEq, Repr

structure EnvironmentPointerPosition where
  x : Nat
  y : Nat
  deriving DecidableEq, Repr

structure EnvironmentPointer where
  actorId : String
  x : Nat
  y : Nat
  viewportRevision : Nat
  deriving DecidableEq, Repr

/-! ### Tabs -/

structure EnvironmentTabApp where
  installationId : String
  panel : Option EnvironmentAppPanel
  deriving DecidableEq, Repr

structure EnvironmentTab where
  tabId : String
  url : String
  title : String
  documentRevision : Nat
  focused : Bool
  app : Option EnvironmentTabApp
  deriving DecidableEq, Repr

structure EnvironmentTabObservation where
  runtimeTargetId : String
  documentId : String
  url : String
  title : String
  deriving DecidableEq, Repr

/-! ### Actions -/

inductive EnvironmentMode
  | browser | computer
  deriving DecidableEq, Repr

inductive InputTarget
  | desktop
  | browserTab (id : String)
  deriving DecidableEq, Repr

/-- The derived order of the source: the desktop before every tab, tabs by their id. -/
def InputTarget.rank : InputTarget → WithBot String
  | desktop => ⊥
  | browserTab id => (id : WithBot String)

instance : LinearOrder InputTarget :=
  LinearOrder.lift' InputTarget.rank (fun a b h => by
    cases a <;> cases b <;> simp_all [InputTarget.rank])

def InputTarget.isBrowserTab : InputTarget → Bool
  | desktop => false
  | browserTab _ => true

inductive EnvironmentActionState
  | queued | running | completed | failed | cancelled
  deriving DecidableEq, Repr

inductive EnvironmentPointerButton
  | left | middle | right
  deriving DecidableEq, Repr

inductive EnvironmentActionArguments
  | pointerMove (x y viewportRevision : Nat)
  | pointerDrag (fromX fromY toX toY : Nat) (button : EnvironmentPointerButton) (viewportRevision : Nat)
  | pointerScroll (x y : Nat) (horizontalSteps verticalSteps : Int) (viewportRevision : Nat)
  | keyboardText (utf8ByteCount characterCount : Nat)
  | keyboardKey (repeats : Nat)
  | keyboardHold (durationMs : Nat)
  | pointerHold (x y : Nat) (button : EnvironmentPointerButton) (durationMs viewportRevision : Nat)
  | clipboardWrite (utf8ByteCount characterCount : Nat)
  | pointerClick (x y : Nat) (button : EnvironmentPointerButton) (clickCount viewportRevision : Nat)
  deriving DecidableEq, Repr

inductive EnvironmentActionTerminal
  | completed | failed | cancelled
  deriving DecidableEq, Repr

def EnvironmentActionTerminal.toState : EnvironmentActionTerminal → EnvironmentActionState
  | completed => .completed
  | failed => .failed
  | cancelled => .cancelled

inductive EnvironmentActionFailureCode
  | controllerFailure | processLost
  deriving DecidableEq, Repr

inductive EnvironmentActionCancellationReason
  | requested | humanTakeover | controllerCancellation
  deriving DecidableEq, Repr

inductive EnvironmentActionOutcome
  | completed
  | failed (code : EnvironmentActionFailureCode)
  | cancelled (reason : EnvironmentActionCancellationReason)
  deriving DecidableEq, Repr

structure EnvironmentAction where
  actionId : String
  sequence : Nat
  idempotencyKey : Option String
  actorId : String
  runtimeGeneration : Nat
  mode : EnvironmentMode
  kind : String
  arguments : Option EnvironmentActionArguments
  targets : List InputTarget
  state : EnvironmentActionState
  cancellationRequested : Bool
  submittedAtMs : Nat
  startedAtMs : Option Nat
  finishedAtMs : Option Nat
  outcome : Option EnvironmentActionOutcome
  deriving DecidableEq, Repr

structure EnvironmentActionRequest where
  idempotencyKey : Option String
  idempotencyFingerprint : Option (Vector UInt8 32)
  arguments : Option EnvironmentActionArguments
  actorId : String
  runtimeGeneration : Nat
  mode : EnvironmentMode
  kind : String
  mutates : Bool
  targets : List InputTarget
  tabPreconditions : List (String × Nat)
  deriving DecidableEq, Repr

namespace EnvironmentActionRequest

def browserObservation (actorId : String) (runtimeGeneration : Nat) (kind tabId : String) (documentRevision : Nat) :
    EnvironmentActionRequest where
  idempotencyKey := none
  idempotencyFingerprint := none
  arguments := none
  actorId
  runtimeGeneration
  mode := .browser
  kind
  mutates := false
  targets := [.browserTab tabId]
  tabPreconditions := [(tabId, documentRevision)]

def browserMutation (actorId : String) (runtimeGeneration : Nat) (kind tabId : String) (documentRevision : Nat) :
    EnvironmentActionRequest :=
  { browserObservation actorId runtimeGeneration kind tabId documentRevision with mutates := true }

def computerMutation (actorId : String) (runtimeGeneration : Nat) (kind : String) (focusedTabId : Option String) :
    EnvironmentActionRequest where
  idempotencyKey := none
  idempotencyFingerprint := none
  arguments := none
  actorId
  runtimeGeneration
  mode := .computer
  kind
  mutates := true
  targets := .desktop :: (focusedTabId.map InputTarget.browserTab).toList
  tabPreconditions := []

end EnvironmentActionRequest

/-- Whether a request repeats an earlier one.  The targets and tabs count only for a request without arguments. -/
def EnvironmentActionRequest.matchesIdempotentOperation (r other : EnvironmentActionRequest) : Bool :=
  r.idempotencyKey == other.idempotencyKey &&
    r.idempotencyFingerprint == other.idempotencyFingerprint &&
    r.arguments == other.arguments &&
    r.actorId == other.actorId &&
    r.mode == other.mode &&
    r.kind == other.kind &&
    r.mutates == other.mutates &&
    (r.arguments.isSome ||
      (r.targets == other.targets &&
        r.tabPreconditions.map Prod.fst == other.tabPreconditions.map Prod.fst))

inductive ActionAdmission
  | accepted (actionId : String)
  | existing (actionId : String) (state : EnvironmentActionState)
  | queued (actionId : String) (queueSequence : Nat)
  | rejectedSaturated (capacity : Nat)
  | rejectedTakeover (target : InputTarget) (humanActorId : String)
  deriving DecidableEq, Repr

inductive ActionCancellationOutcome
  | cancelled
  | cancellationRequested
  | alreadyTerminal (actionState : EnvironmentActionState)
  deriving DecidableEq, Repr

inductive TakeoverOutcome
  | granted
  | cancellationRequired (actionIds : List String)
  deriving DecidableEq, Repr

/-! ### Errors -/

inductive EnvironmentError
  | invalidViewport
  | invalidLifecycleTransition (source target : EnvironmentLifecycle)
  | staleRuntimeGeneration (expected actual : Nat)
  | unknownTab (tabId : String)
  | staleDocumentRevision (tabId : String) (expected actual : Nat)
  | staleElementReference (referenceId : String)
  | unknownActor (actorId : String)
  | staleViewportRevision (expected actual : Nat)
  | environmentNotReady (lifecycle : EnvironmentLifecycle)
  | unknownAction (actionId : String)
  | humanActorRequired (actorId : String)
  | inputOwnedByAnotherActor (target : InputTarget) (actorId : String)
  | inputNotOwned (target : InputTarget)
  | pointerOutOfBounds (x y width height : Nat)
  | invalidEventCapacity
  | idempotencyConflict (idempotencyKey : String)
  | actionAlreadyTerminal (actionId : String) (state : EnvironmentActionState)
  | actionNotRunning (actionId : String) (state : EnvironmentActionState)
  | actionCancellationForbidden (actorId actionId : String)
  | actorKindConflict (actorId : String)
  deriving DecidableEq, Repr

end Chariox
