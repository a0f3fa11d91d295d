import Chariox.RoomEnvironment.Tabs

/-!
# The action ledger

The ledger admits actions, runs at most one mutating action on a target at a time, queues the others, and lets a
person take a target over.  An operation returns the ledger after it together with its result, so that what an
error leaves behind is part of the model.  The clock is read anew for every action that an operation stamps, and an
operation stamps an action at most once: a `Clock` gives the reading taken for each action.
-/

namespace Chariox

/-- The clock readings of one operation, by the action that is stamped with them. -/
abbrev Clock := String → Nat

structure EnvironmentActionLedger where
  actions : OrdMap String EnvironmentAction
  historyRecords : OrdMap Nat EnvironmentAction
  historyActionSequences : OrdMap String Nat
  requests : OrdMap String EnvironmentActionRequest
  idempotencyActions : OrdMap String String
  order : List String
  reservations : OrdMap InputTarget String
  inputOwners : OrdMap InputTarget String
  pendingTakeovers : OrdMap InputTarget String
  cancellationReasons : OrdMap String EnvironmentActionCancellationReason
  nextSequence : Nat
  terminalCapacity : Nat
  queueCapacity : Nat
  controllerRecovering : Bool
  deriving DecidableEq

abbrev Ledger := EnvironmentActionLedger

structure ActionFinishEffect where
  state : EnvironmentActionState
  ownershipChanged : Bool
  startedActionIds : List String
  deriving DecidableEq, Repr

structure ActionTakeoverEffect where
  outcome : TakeoverOutcome
  inputStateChanged : Bool
  cancelledActionIds : List String
  startedActionIds : List String
  cancellationRequestedActionIds : List String
  deriving DecidableEq, Repr

structure ActionCancellationEffect where
  outcome : ActionCancellationOutcome
  actionChanged : Bool
  startedActionIds : List String
  deriving DecidableEq, Repr

structure ActionRecoveryEffect where
  failedActionIds : List String
  ownershipChanged : Bool
  startedActionIds : List String
  deriving DecidableEq, Repr

def EnvironmentActionState.isTerminal : EnvironmentActionState → Bool
  | queued => false
  | running => false
  | completed => true
  | failed => true
  | cancelled => true

def nextActionTimestamp (now : Nat) (action : EnvironmentAction) : Nat :=
  max now (max (action.startedAtMs.getD action.submittedAtMs) action.submittedAtMs)

def validateTarget (tabs : TabRegistry) : InputTarget → Except EnvironmentError Unit
  | .desktop => .ok ()
  | .browserTab tabId => if tabs.contains tabId then .ok () else .error (.unknownTab tabId)

/-- The targets of a request as an action stores them: in order and without repetitions. -/
def sortedTargets (targets : List InputTarget) : List InputTarget := targets.dedup.insertionSort (· ≤ ·)

def actionIdOf (sequence : Nat) : String := "action-" ++ toString sequence

/-- An action that its process can no longer finish. -/
def EnvironmentAction.failForProcessLoss (now : Nat) (action : EnvironmentAction) : EnvironmentAction :=
  { action with
    state := .failed
    cancellationRequested := false
    finishedAtMs := some (nextActionTimestamp now action)
    outcome := some (.failed .processLost) }

/-- A queued action that is taken out of the queue. -/
def EnvironmentAction.dequeued (now : Nat) (reason : EnvironmentActionCancellationReason)
    (action : EnvironmentAction) : EnvironmentAction :=
  { action with
    state := .cancelled
    finishedAtMs := some (nextActionTimestamp now action)
    outcome := some (.cancelled reason) }

/-- An action that ends as its controller reports. -/
def EnvironmentAction.finished (now : Nat) (terminal : EnvironmentActionTerminal)
    (reason : Option EnvironmentActionCancellationReason) (action : EnvironmentAction) : EnvironmentAction :=
  { action with
    state := terminal.toState
    finishedAtMs := some (nextActionTimestamp now action)
    outcome := some (match terminal with
      | .completed => .completed
      | .failed => .failed .controllerFailure
      | .cancelled => .cancelled (reason.getD
          (if action.cancellationRequested then .requested else .controllerCancellation)))
    cancellationRequested := false }

/-- A queued action that gets its targets. -/
def EnvironmentAction.started (now : Nat) (action : EnvironmentAction) : EnvironmentAction :=
  { action with state := .running, startedAtMs := some (nextActionTimestamp now action) }

namespace EnvironmentActionLedger

abbrev Action := EnvironmentAction

abbrev Request := EnvironmentActionRequest

abbrev Result (α : Type) := Ledger × Except EnvironmentError α

def new (terminalCapacity queueCapacity : Nat) : Ledger where
  actions := .empty
  historyRecords := .empty
  historyActionSequences := .empty
  requests := .empty
  idempotencyActions := .empty
  order := []
  reservations := .empty
  inputOwners := .empty
  pendingTakeovers := .empty
  cancellationReasons := .empty
  nextSequence := 1
  terminalCapacity
  queueCapacity
  controllerRecovering := false

variable (clock : Clock) (l : Ledger)

def owner (target : InputTarget) : Option String := l.inputOwners.get target

/-! ### Steps shared by the operations -/

def syncHistoryAction (actionId : String) : Ledger :=
  match l.actions.get actionId with
  | none => l
  | some action => { l with historyRecords := l.historyRecords.insert action.sequence action }

/-- Change a stored action and copy it to the history. -/
def updateAction (actionId : String) (f : Action → Action) : Ledger :=
  { l with actions := l.actions.modify actionId f }.syncHistoryAction actionId

/-- The loop that changes one stored action after the other. -/
def updateActions (actionIds : List String) (f : String → Action → Action) : Ledger :=
  actionIds.foldl (fun l actionId => l.updateAction actionId (f actionId)) l

def failActionsForProcessLoss (actionIds : List String) : Ledger :=
  l.updateActions actionIds (fun actionId => EnvironmentAction.failForProcessLoss (clock actionId))

/-- The ids of the stored actions that satisfy `p`, in submission order. -/
def actionIdsWhere (p : String → Action → Bool) : List String :=
  l.order.filter (fun actionId => (l.actions.get actionId).any (p actionId))

def finalizeTakeovers : Ledger × Bool :=
  let readyTargets := l.pendingTakeovers.keys.filter (fun target => !l.reservations.contains target)
  (readyTargets.foldl (fun l target =>
    match l.pendingTakeovers.get target with
    | none => l
    | some actorId =>
      { l with
        pendingTakeovers := l.pendingTakeovers.remove target
        inputOwners := l.inputOwners.insert target actorId }) l,
    !readyTargets.isEmpty)

/-- A target that keeps a queued action of `actorId` waiting: reserved, or held or awaited by another actor. -/
def blocksPromotion (actorId : String) (target : InputTarget) : Bool :=
  l.reservations.contains target ||
    (l.inputOwners.get target).any (fun owner => owner ≠ actorId) ||
    (l.pendingTakeovers.get target).any (fun owner => owner ≠ actorId)

def reserveTargets (targets : List InputTarget) (actionId : String) : Ledger :=
  { l with reservations := targets.foldl (fun m target => m.insert target actionId) l.reservations }

def startAction (actionId : String) (action : Action) : Ledger :=
  let started := action.started (clock actionId)
  { l.reserveTargets action.targets actionId with
    actions := l.actions.insert actionId started
    historyRecords := l.historyRecords.insert started.sequence started }

/-- One round of the promotion loop, with the ids started so far. -/
def promoteStep (s : Ledger × List String) (actionId : String) : Ledger × List String :=
  match s.1.actions.get actionId with
  | none => s
  | some action =>
    if action.state ≠ .queued || action.targets.any (s.1.blocksPromotion action.actorId) then s
    else (s.1.startAction clock actionId action, s.2 ++ [actionId])

def promoteQueuedActions : Ledger × List String :=
  if l.controllerRecovering then (l, []) else l.order.foldl (promoteStep clock) (l, [])

/-! ### Submission -/

def existing (request : Request) : Except EnvironmentError (Option ActionAdmission) :=
  match request.idempotencyKey with
  | none => .ok none
  | some key =>
    match l.idempotencyActions.get key with
    | none => .ok none
    | some actionId =>
      match l.requests.get actionId with
      | none => .error (.unknownAction actionId)
      | some original =>
        if !original.matchesIdempotentOperation request then .error (.idempotencyConflict key)
        else
          match (l.actions.get actionId).or
              ((l.historyActionSequences.get actionId).bind l.historyRecords.get) with
          | none => .error (.unknownAction actionId)
          | some action => .ok (some (.existing actionId action.state))

/-- The first target that a person other than `actorId` holds or awaits. -/
def takeoverRejection (actorId : String) (targets : List InputTarget) : Option (InputTarget × String) :=
  targets.findSome? (fun target =>
    (((l.pendingTakeovers.get target).or (l.inputOwners.get target)).filter (fun human => human ≠ actorId)).map
      (fun human => (target, human)))

/-- Whether a mutating request on `targets` has to wait: a target is reserved, or an earlier action waits for it. -/
def mustQueue (targets : List InputTarget) : Bool :=
  targets.any (fun target => l.reservations.contains target ||
    l.actions.values.any (fun action => action.state = .queued && action.targets.contains target))

def queuedCount : Nat :=
  (l.actions.values.filter (fun action => action.state = .queued)).length

/-- The action that `submit` creates for an admitted request. -/
def newAction (request : Request) (queued : Bool) (now : Nat) : Action where
  actionId := actionIdOf l.nextSequence
  sequence := l.nextSequence
  idempotencyKey := request.idempotencyKey
  actorId := request.actorId
  runtimeGeneration := request.runtimeGeneration
  mode := request.mode
  kind := request.kind
  arguments := request.arguments
  targets := sortedTargets request.targets
  state := if queued then .queued else .running
  cancellationRequested := false
  submittedAtMs := now
  startedAtMs := if queued then none else some now
  finishedAtMs := none
  outcome := none

/-- The last part of `submit`: store the action, and reserve its targets when it starts at once and mutates. -/
def admitAction (request : Request) (queued : Bool) (now : Nat) : Ledger :=
  let action := l.newAction request queued now
  let l' := if request.mutates && !queued then l.reserveTargets action.targets action.actionId else l
  { l' with
    nextSequence := l.nextSequence + 1
    historyRecords := l.historyRecords.insert action.sequence action
    historyActionSequences := l.historyActionSequences.insert action.actionId action.sequence
    actions := l.actions.insert action.actionId action
    requests := l.requests.insert action.actionId request
    idempotencyActions := match request.idempotencyKey with
      | none => l.idempotencyActions
      | some key => l.idempotencyActions.insert key action.actionId
    order := l.order ++ [action.actionId] }

def submit (request : Request) (lifecycle : EnvironmentLifecycle)
    (runtimeGeneration : Nat) (actors : ActorMap) (tabs : TabRegistry) (now : Nat) : Result ActionAdmission :=
  if lifecycle ≠ .ready then (l, .error (.environmentNotReady lifecycle))
  else if !actors.contains request.actorId then (l, .error (.unknownActor request.actorId))
  else
    match l.existing request with
    | .error e => (l, .error e)
    | .ok (some existing) => (l, .ok existing)
    | .ok none =>
      if request.runtimeGeneration ≠ runtimeGeneration then
        (l, .error (.staleRuntimeGeneration runtimeGeneration request.runtimeGeneration))
      else
        match request.tabPreconditions.forM (fun p =>
            tabs.validateReference request.runtimeGeneration runtimeGeneration p.1 p.2) with
        | .error e => (l, .error e)
        | .ok () =>
          match (sortedTargets request.targets).forM (validateTarget tabs) with
          | .error e => (l, .error e)
          | .ok () =>
            match if request.mutates then l.takeoverRejection request.actorId (sortedTargets request.targets)
                else none with
            | some (target, human) => (l, .ok (.rejectedTakeover target human))
            | none =>
              let queued := request.mutates && l.mustQueue (sortedTargets request.targets)
              if queued && decide (l.queueCapacity ≤ l.queuedCount) then
                (l, .ok (.rejectedSaturated l.queueCapacity))
              else
                (l.admitAction request queued now,
                  .ok (if queued then .queued (actionIdOf l.nextSequence) l.nextSequence
                    else .accepted (actionIdOf l.nextSequence)))

/-! ### Finishing and cancelling -/

def dropReservations (actionId : String) : Ledger :=
  { l with reservations := l.reservations.retain (fun _ reserved => reserved ≠ actionId) }

def finish (actionId : String) (terminal : EnvironmentActionTerminal) : Result ActionFinishEffect :=
  match l.actions.get actionId with
  | none => (l, .error (.unknownAction actionId))
  | some current =>
    let cancellingQueued := decide (current.state = .queued) && decide (terminal = .cancelled)
    if current.state = .queued && !cancellingQueued then (l, .error (.actionNotRunning actionId current.state))
    else if current.state ≠ .running && !cancellingQueued then
      (l, .error (.actionAlreadyTerminal actionId current.state))
    else
      let reason := l.cancellationReasons.get actionId
      let l := { l with cancellationReasons := l.cancellationReasons.remove actionId }
      let l := l.updateAction actionId (fun action => action.finished (clock actionId) terminal reason)
      let l := l.dropReservations actionId
      let finalized := l.finalizeTakeovers
      let promoted := finalized.1.promoteQueuedActions clock
      (promoted.1,
        .ok { state := terminal.toState, ownershipChanged := finalized.2, startedActionIds := promoted.2 })

/-- Whether an actor may cancel an action: its own, or as a person holding or awaiting one of its targets. -/
def mayCancel (actor : EnvironmentActor) (actorId : String) (action : Action) : Bool :=
  decide (action.actorId = actorId) ||
    (decide (actor.kind = .human) && action.targets.any (fun target =>
      decide (l.inputOwners.get target = some actorId) || decide (l.pendingTakeovers.get target = some actorId)))

def cancelAsActor (actorId actionId : String) (actors : ActorMap) : Result ActionCancellationEffect :=
  match actors.get actorId with
  | none => (l, .error (.unknownActor actorId))
  | some actor =>
    match l.actions.get actionId with
    | none => (l, .error (.unknownAction actionId))
    | some action =>
      if !l.mayCancel actor actorId action then (l, .error (.actionCancellationForbidden actorId actionId))
      else if action.state.isTerminal then
        (l, .ok { outcome := .alreadyTerminal action.state, actionChanged := false, startedActionIds := [] })
      else if action.state = .queued then
        let l := l.updateAction actionId (fun action => action.dequeued (clock actionId) .requested)
        let promoted := l.promoteQueuedActions clock
        (promoted.1, .ok { outcome := .cancelled, actionChanged := true, startedActionIds := promoted.2 })
      else
        let l := { l with cancellationReasons := l.cancellationReasons.insertIfAbsent actionId .requested }
        (l.updateAction actionId (fun action => { action with cancellationRequested := true }),
          .ok {
            outcome := .cancellationRequested
            actionChanged := !action.cancellationRequested
            startedActionIds := [] })

/-! ### Takeover -/

def blockingActionIds (target : InputTarget) (actors : ActorMap) : List String :=
  (((l.reservations.get target).bind l.actions.get).filter (fun action =>
    (actors.get action.actorId).any (fun actor => actor.kind = .agent))).toList.map EnvironmentAction.actionId

/-- One round of `request_action_cancellation`, with the ids whose flag changed so far. -/
def requestCancellationStep (s : Ledger × List String) (actionId : String) : Ledger × List String :=
  let changed := (s.1.actions.get actionId).any (fun action => !action.cancellationRequested)
  let l := { s.1 with cancellationReasons := s.1.cancellationReasons.insertIfAbsent actionId .humanTakeover }
  (l.updateAction actionId (fun action => { action with cancellationRequested := true }),
    if changed then s.2 ++ [actionId] else s.2)

def requestActionCancellation (actionIds : List String) : Ledger × List String :=
  actionIds.foldl requestCancellationStep (l, [])

/-- The queued actions of other actors on a target that is taken over. -/
def displacedActionIds (target : InputTarget) (takeoverActorId : String) : List String :=
  ((l.order.filterMap l.actions.get).filter (fun action =>
    decide (action.state = .queued) && action.targets.contains target &&
      decide (action.actorId ≠ takeoverActorId))).map EnvironmentAction.actionId

def cancelQueuedActionsDisplacedByTakeover (target : InputTarget) (takeoverActorId : String) : Ledger × List String :=
  (l.updateActions (l.displacedActionIds target takeoverActorId)
      (fun actionId => EnvironmentAction.dequeued (clock actionId) .humanTakeover),
    l.displacedActionIds target takeoverActorId)

variable (actorId : String)

/-- A takeover request on a target that nobody holds or awaits. -/
def beginTakeover (target : InputTarget) (actors : ActorMap) : Ledger × ActionTakeoverEffect :=
  let displaced := l.cancelQueuedActionsDisplacedByTakeover clock target actorId
  let actionIds := displaced.1.blockingActionIds target actors
  let requested := displaced.1.requestActionCancellation actionIds
  let l := requested.1
  let l := if actionIds.isEmpty then { l with inputOwners := l.inputOwners.insert target actorId }
    else { l with pendingTakeovers := l.pendingTakeovers.insert target actorId }
  let promoted := l.promoteQueuedActions clock
  (promoted.1,
    { outcome := if actionIds.isEmpty then .granted else .cancellationRequired actionIds
      inputStateChanged := true
      cancelledActionIds := displaced.2
      startedActionIds := promoted.2
      cancellationRequestedActionIds := requested.2 })

def requestTakeover (target : InputTarget) (actors : ActorMap) (tabs : TabRegistry) : Result ActionTakeoverEffect :=
  match actors.get actorId with
  | none => (l, .error (.unknownActor actorId))
  | some actor =>
    if actor.kind ≠ .human then (l, .error (.humanActorRequired actorId))
    else
      match validateTarget tabs target with
      | .error e => (l, .error e)
      | .ok () =>
        match l.inputOwners.get target with
        | some ownerActorId =>
          if ownerActorId = actorId then
            (l, .ok {
              outcome := .granted
              inputStateChanged := false
              cancelledActionIds := []
              startedActionIds := []
              cancellationRequestedActionIds := [] })
          else (l, .error (.inputOwnedByAnotherActor target ownerActorId))
        | none =>
          match l.pendingTakeovers.get target with
          | some pendingActorId =>
            if pendingActorId ≠ actorId then (l, .error (.inputOwnedByAnotherActor target pendingActorId))
            else
              let actionIds := l.blockingActionIds target actors
              let requested := l.requestActionCancellation actionIds
              (requested.1,
                .ok {
                  outcome := .cancellationRequired actionIds
                  inputStateChanged := false
                  cancelledActionIds := []
                  startedActionIds := []
                  cancellationRequestedActionIds := requested.2 })
          | none =>
            let begun := l.beginTakeover clock actorId target actors
            (begun.1, .ok begun.2)

/-! ### Releasing input -/

def release (target : InputTarget) : Result Unit :=
  match l.inputOwners.get target with
  | some ownerActorId =>
    if ownerActorId = actorId then ({ l with inputOwners := l.inputOwners.remove target }, .ok ())
    else (l, .error (.inputOwnedByAnotherActor target ownerActorId))
  | none => (l, .error (.inputNotOwned target))

def releaseActorInput : Ledger :=
  { l with
    inputOwners := l.inputOwners.retain (fun _ owner => owner ≠ actorId)
    pendingTakeovers := l.pendingTakeovers.retain (fun _ owner => owner ≠ actorId) }

def releaseActorInputKeepingTabs : Ledger :=
  { l with
    inputOwners := l.inputOwners.retain (fun target owner => decide (owner ≠ actorId) || target.isBrowserTab)
    pendingTakeovers := l.pendingTakeovers.retain (fun _ owner => owner ≠ actorId) }

def releaseTabInput : Ledger :=
  { l with
    inputOwners := l.inputOwners.retain (fun target owner => decide (owner ≠ actorId) || !target.isBrowserTab)
    pendingTakeovers :=
      l.pendingTakeovers.retain (fun target owner => decide (owner ≠ actorId) || !target.isBrowserTab) }

def transferTabOwnership (source destination : String) : Ledger :=
  { l with inputOwners := l.inputOwners.mapValues (fun target owner =>
      if owner = source && target.isBrowserTab then destination else owner) }

def clearOwnership : Ledger × Bool :=
  ({ l with inputOwners := .empty, pendingTakeovers := .empty },
    !l.inputOwners.isEmpty || !l.pendingTakeovers.isEmpty)

/-- Whether a target still exists. -/
def isCurrentTarget (tabs : TabRegistry) : InputTarget → Bool
  | .desktop => true
  | .browserTab tabId => tabs.contains tabId

def retainInputTargets (tabs : TabRegistry) : Ledger × Bool :=
  let inputOwners := l.inputOwners.retain (fun target _ => isCurrentTarget tabs target)
  let pendingTakeovers := l.pendingTakeovers.retain (fun target _ => isCurrentTarget tabs target)
  ({ l with inputOwners, pendingTakeovers },
    decide (l.inputOwners.len ≠ inputOwners.len) || decide (l.pendingTakeovers.len ≠ pendingTakeovers.len))

/-! ### Invalidation and recovery -/

def activeActionIds : List String :=
  l.actionIdsWhere (fun _ action => !action.state.isTerminal)

def invalidateRuntime : Ledger × List String :=
  let cleared := { l with
    controllerRecovering := false
    reservations := .empty
    inputOwners := .empty
    pendingTakeovers := .empty
    cancellationReasons := .empty }
  (cleared.failActionsForProcessLoss clock l.activeActionIds, l.activeActionIds)

def invalidateAfterKernelRestart (actors : ActorMap) : Ledger × List String :=
  let humanOwners := l.inputOwners.retain (fun _ actorId =>
    (actors.get actorId).any (fun actor => actor.kind = .human))
  let invalidated := l.invalidateRuntime clock
  ({ invalidated.1 with inputOwners := humanOwners }, invalidated.2)

/-- The running actions of the browser controller. -/
def controllerActionIds : List String :=
  l.actionIdsWhere (fun _ action => decide (action.state = .running) && decide (action.mode = .browser))

def dropReservationsOf (actionIds : List String) : Ledger :=
  { l with reservations := l.reservations.retain (fun _ reserved => !actionIds.contains reserved) }

def beginControllerRecovery : Ledger × ActionRecoveryEffect :=
  let recovering := { l with controllerRecovering := true }
  let failed := recovering.failActionsForProcessLoss clock l.controllerActionIds
  let finalized := (failed.dropReservationsOf l.controllerActionIds).finalizeTakeovers
  (finalized.1,
    { failedActionIds := l.controllerActionIds, ownershipChanged := finalized.2, startedActionIds := [] })

/-- A queued request that the recovered browser can no longer serve. -/
def isStaleAfterRecovery (runtimeGeneration : Nat) (tabs : TabRegistry) (actionId : String) : Bool :=
  (l.requests.get actionId).all (fun request =>
    decide (request.runtimeGeneration ≠ runtimeGeneration) ||
      request.tabPreconditions.any (fun p =>
        !(tabs.validateReference request.runtimeGeneration runtimeGeneration p.1 p.2).isOk))

def staleActionIds (runtimeGeneration : Nat) (tabs : TabRegistry) : List String :=
  l.actionIdsWhere (fun actionId action =>
    decide (action.state = .queued) && l.isStaleAfterRecovery runtimeGeneration tabs actionId)

def completeControllerRecovery (runtimeGeneration : Nat) (tabs : TabRegistry) : Ledger × ActionRecoveryEffect :=
  let recovered := { l with controllerRecovering := false }
  let failedActionIds := l.staleActionIds runtimeGeneration tabs
  let finalized := (recovered.failActionsForProcessLoss clock failedActionIds).finalizeTakeovers
  let promoted := finalized.1.promoteQueuedActions clock
  (promoted.1, { failedActionIds, ownershipChanged := finalized.2, startedActionIds := promoted.2 })

/-! ### Compaction -/

/-- Forget a terminal action; its request stays when an idempotency key still points at it. -/
def evictAction (actionId : String) : Ledger :=
  { l with
    requests := if (l.actions.get actionId).any (fun action => action.idempotencyKey.isNone)
      then l.requests.remove actionId else l.requests
    actions := l.actions.remove actionId
    order := l.order.filter (fun candidate => candidate ≠ actionId) }

def compactTerminalActions : Ledger :=
  let terminalIds := l.actionIdsWhere (fun _ action => action.state.isTerminal)
  (terminalIds.take (terminalIds.length - l.terminalCapacity)).foldl evictAction l

/-- Forget one history record together with the sequence of its action. -/
def forgetHistoryRecord (sequence : Nat) : Ledger :=
  match l.historyRecords.get sequence with
  | none => l
  | some action =>
    { l with
      historyRecords := l.historyRecords.remove sequence
      historyActionSequences := l.historyActionSequences.remove action.actionId }

def compactTransientHistory (capacity : Nat) : Ledger :=
  let removable := (l.historyRecords.entries.filter (fun e =>
    e.2.idempotencyKey.isNone && !l.actions.contains e.2.actionId)).map Prod.fst
  (removable.take (l.historyRecords.len - capacity)).foldl forgetHistoryRecord l

end EnvironmentActionLedger

end Chariox
