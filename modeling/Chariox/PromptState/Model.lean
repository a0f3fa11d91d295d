import Chariox.Lib.Runs

/-!
# The prompts of an agent

`PromptStateOwner` holds, for each agent, the prompt whose turn it is and the queue behind it.  Every operation is one
section of its lock, so what any number of callers do to one agent is a list of operations.  What an operation learns
elsewhere is an argument of it: the clock, the answers of callbacks, the fences of the agent (an archive, a profile
change, a move), whether a steer reserves the front of the queue, and an earlier submission of the same request.

Two fields decide who acts under raised authority: `sudoEntryId` binds the active prompt to a sudo window, and
`sudoWork` holds the agent for the prompts of one window.
-/

namespace Chariox.PromptState

inductive PromptStatus
  | queued
  | dispatching
  | running
  | cancelling
  | completed
  | cancelled
  deriving DecidableEq, Repr

inductive DurablePromptDeliveryPhase
  | accepted
  | dispatching
  | delivered
  deriving DecidableEq, Repr

inductive DaemonError
  | noActivePrompt (sessionId : String)
  | localTransport (operation message : String)
  deriving DecidableEq, Repr

/-- A prompt.  `rest` is what no operation looks at by itself: the text, the attachments, the times, where the prompt
came from, the fingerprint of its request and the record of a recovery. -/
structure PromptQueueItem where
  id : String
  pendingPromptId : Option String := none
  targetAgentId : String
  status : PromptStatus
  workflowRunId : Option String := none
  notificationDeadlineMs : Option Nat := none
  durableOperationId : Option String := none
  durableDeliveryPhase : Option DurablePromptDeliveryPhase := none
  durableDeliveryProviderRunId : Option String := none
  durableDeliveryProviderSessionId : Option String := none
  durableDeliveryFailurePending : Bool := false
  localSteerSubmitted : Bool := false
  rest : String := ""
  deriving DecidableEq, Repr

inductive PromptSubmissionOutcome
  | started (prompt : PromptQueueItem)
  | queued (prompt : PromptQueueItem)
  deriving DecidableEq, Repr

namespace PromptQueueItem

variable (item : PromptQueueItem)

def notificationExpired (now : Nat) : Bool := item.notificationDeadlineMs.any (fun deadline => decide (deadline ≤ now))

/-- A local steer that was submitted holds the prompt even after its reservation is gone. -/
def remoteSteerReserved (reserved : Bool) : Bool := item.localSteerSubmitted || reserved

def setStatus (status : PromptStatus) : PromptQueueItem := { item with status := status }

def setDurableDelivery (phase : DurablePromptDeliveryPhase) (providerRunId providerSessionId : Option String) :
    PromptQueueItem :=
  { item with
    durableDeliveryPhase := some phase
    durableDeliveryProviderRunId := providerRunId
    durableDeliveryProviderSessionId := providerSessionId
    durableDeliveryFailurePending := item.durableDeliveryFailurePending && decide (phase ≠ .delivered) }

/-- The prompt whose delivery is known: one that was on its way runs from now on. -/
def delivered (providerRunId providerSessionId : Option String) : PromptQueueItem :=
  let item := item.setDurableDelivery .delivered providerRunId providerSessionId
  if item.status = .dispatching then item.setStatus .running else item

/-- The dispatch to this run and session is under way. -/
def dispatchedTo (providerRunId providerSessionId : String) : Bool :=
  decide (item.durableDeliveryPhase = some .dispatching ∧ item.durableDeliveryProviderRunId = some providerRunId ∧
    item.durableDeliveryProviderSessionId = some providerSessionId)

end PromptQueueItem

structure SudoWorkHold where
  entryId : String
  prompts : List String
  deriving DecidableEq, Repr

structure OwnedAgentPromptState where
  sudoEntryId : Option String := none
  sudoWork : Option SudoWorkHold := none
  activePrompt : Option PromptQueueItem := none
  queuedPrompts : List PromptQueueItem := []
  deriving DecidableEq, Repr

def promptQueueLimit : Nat := 128

/-- What a submission is told from outside. -/
structure SubmissionContext where
  archived : Bool := false
  /-- A prompt of the session that was submitted for the same durable operation, or why this cannot be one. -/
  replayed : Except DaemonError (Option PromptSubmissionOutcome) := .ok none
  transitionPending : Bool := false
  backlogParked : Bool := false
  nextPendingPromptId : String

namespace OwnedAgentPromptState

abbrev Result (α : Type) := OwnedAgentPromptState × Except DaemonError α

abbrev Answer := OwnedAgentPromptState × Option PromptQueueItem

variable (s : OwnedAgentPromptState)

def activeId : Option String := s.activePrompt.map (·.id)

def sudoAdmits (prompt : String) : Bool := s.sudoWork.all (fun hold => decide (prompt ∈ hold.prompts))

def sudoHolds (prompt : String) : Bool := s.sudoWork.any (fun hold => decide (prompt ∈ hold.prompts))

def bindSudoWork : OwnedAgentPromptState :=
  match s.activePrompt, s.sudoWork with
  | some active, some hold => if active.id ∈ hold.prompts then { s with sudoEntryId := some hold.entryId } else s
  | _, _ => s

def takeActivePrompt : Answer :=
  ({ s with sudoEntryId := none, activePrompt := none }, s.activePrompt)

def setActivePrompt (prompt : PromptQueueItem) : OwnedAgentPromptState :=
  { s with
    sudoEntryId := if s.activeId = some prompt.id then s.sudoEntryId else none
    activePrompt := some prompt }

/-! ### Submission -/

def shouldStart (prompt : PromptQueueItem) (forceQueue : Bool) (context : SubmissionContext) : Bool :=
  !forceQueue && !context.transitionPending && s.activePrompt.isNone &&
    (s.queuedPrompts.isEmpty || context.backlogParked || s.sudoHolds prompt.id) && s.sudoAdmits prompt.id

def submitPreparedPromptWithQueuePolicy (prompt : PromptQueueItem) (forceQueue allowQueue : Bool)
    (context : SubmissionContext) : Result PromptSubmissionOutcome :=
  if context.archived then
    (s, .error (.localTransport "submit prompt" "Unarchive this agent before sending it work."))
  else
    match context.replayed with
    | .error e => (s, .error e)
    | .ok (some outcome) => (s, .ok outcome)
    | .ok none =>
      if s.shouldStart prompt forceQueue context then
        let prompt := (prompt.setDurableDelivery .accepted none none).setStatus .running
        ((s.setActivePrompt prompt).bindSudoWork, .ok (.started prompt))
      else if !allowQueue then
        (s, .error (.localTransport "send agent message" "target agent is busy; retry when its provider is ready"))
      else if promptQueueLimit ≤ s.queuedPrompts.length then
        (s, .error (.localTransport "queue prompt"
          s!"agent prompt queue overloaded: queued prompt limit {promptQueueLimit} reached"))
      else
        -- a durable request keeps its id
        let id := if prompt.durableOperationId.isSome then prompt.id else context.nextPendingPromptId
        let prompt := { (prompt.setDurableDelivery .accepted none none).setStatus .queued with
          id := id, pendingPromptId := some id }
        let position := if prompt.workflowRunId.isSome then s.queuedPrompts.length
          else s.queuedPrompts.findIdx (fun queued => queued.workflowRunId.isSome)
        ({ s with queuedPrompts := s.queuedPrompts.insertIdx position prompt }, .ok (.queued prompt))

/-! ### Activation -/

def validatePromptTargetAgent (agentId : String) (prompt : PromptQueueItem) : Except DaemonError Unit :=
  let id := prompt.id
  let target := prompt.targetAgentId
  if target = agentId then .ok ()
  else .error (.localTransport "activate queued prompt"
    s!"prompt `{id}` targets agent `{target}` but is stored under agent `{agentId}`")

/-- Only the front of the queue is looked at; `reserved` is its steer reservation. -/
def activateOwnedQueuedPrompt (agentId : String) (expectedPromptId : Option String) (reserved : Bool) (now : Nat) :
    Result (Option PromptQueueItem) :=
  match s.activePrompt, s.queuedPrompts with
  | some active, _ =>
    let id := active.id
    (s, .error (.localTransport "activate queued prompt"
      s!"cannot activate queued prompt for agent `{agentId}` while active prompt `{id}` is still running"))
  | none, [] => (s, .ok none)
  | none, front :: rest =>
    let frontId := front.id
    if front.notificationExpired now then
      (s, .error (.localTransport "activate queued prompt" "notification expired before delivery"))
    else if front.remoteSteerReserved reserved || !s.sudoAdmits frontId then (s, .ok none)
    else if expectedPromptId.any (fun expected => decide (frontId ≠ expected)) then
      let expected := expectedPromptId.getD ""
      (s, .error (.localTransport "activate expected queued prompt"
        s!"expected queued prompt `{expected}` but prompt owner queue front was `{frontId}`"))
    else
      match validatePromptTargetAgent agentId front with
      | .error e => (s, .error e)
      | .ok () =>
        let active := { front with pendingPromptId := none }.setStatus .dispatching
        (({ s with queuedPrompts := rest }.setActivePrompt active).bindSudoWork, .ok (some active))

def activateNextQueuedPromptForDispatch (agentId : String) (expectedPromptId : Option String)
    (transitionPending reserved : Bool) (now : Nat) : Result (Option PromptQueueItem) :=
  if transitionPending then (s, .ok none) else s.activateOwnedQueuedPrompt agentId expectedPromptId reserved now

/-- `prepare` is the answer of the callback, which is asked for an eligible front only. -/
def tryActivateNextQueuedPromptForDispatch (agentId expectedPromptId : String) (transitionPending reserved : Bool)
    (prepare : Except DaemonError Unit) (now : Nat) : Result (Option PromptQueueItem) :=
  if transitionPending || s.activePrompt.isSome then (s, .ok none)
  else
    match s.queuedPrompts.head?.filter (fun front => decide (front.id = expectedPromptId) &&
      !front.remoteSteerReserved reserved && s.sudoAdmits front.id) with
    | none => (s, .ok none)
    | some front =>
      match validatePromptTargetAgent agentId front, prepare with
      | .error e, _ => (s, .error e)
      | .ok (), .error e => (s, .error e)
      | .ok (), .ok () => s.activateOwnedQueuedPrompt agentId (some expectedPromptId) reserved now

/-- `current`: the claim is the agent's profile transition. -/
def finishAndActivateNext (agentId : String) (current reserved : Bool) (now : Nat) : Result (Option PromptQueueItem) :=
  if current then s.activateOwnedQueuedPrompt agentId none reserved now
  else (s, .error (.localTransport "finish agent profile transition"
    "profile reservation does not belong to the target agent"))

/-! ### The active prompt -/

/-- `active_prompt.as_mut()`, a test, and a change of the prompt that passes it. -/
def editActivePrompt (test : PromptQueueItem → Bool) (edit : PromptQueueItem → PromptQueueItem) : Answer :=
  ({ s with activePrompt := s.activePrompt.map (fun active => if test active then edit active else active) },
    (s.activePrompt.filter test).map edit)

/-- The same change, with which the binding ends. -/
def unbindActivePrompt (test : PromptQueueItem → Bool) (edit : PromptQueueItem → PromptQueueItem) : Answer :=
  let (edited, answer) := s.editActivePrompt test edit
  ({ edited with sudoEntryId := if answer.isSome then none else s.sudoEntryId }, answer)

/-- `commit` is the answer of the callback.  The binding of a prompt that is dropped here stays. -/
def settleActiveRemoteDispatchIfMatches (promptId : String) (deliveredRunId : Option String)
    (commit : Except DaemonError Bool) : Result (Option PromptQueueItem) :=
  match s.activePrompt.filter (fun active => decide (active.id = promptId ∧
      (active.durableDeliveryPhase = some .accepted ∨ active.durableDeliveryPhase = some .dispatching))), commit with
  | none, _ => (s, .ok none)
  | some _, .error e => (s, .error e)
  | some _, .ok false => (s, .ok none)
  | some current, .ok true =>
    match deliveredRunId with
    | some runId =>
      let settled := current.delivered (some runId) none
      ({ s with activePrompt := some settled }, .ok (some settled))
    | none => ({ s with activePrompt := none }, .ok (some (current.setStatus .cancelled)))

def compareAndMarkActivePromptDeliveryFailure (promptId providerRunId providerSessionId : String)
    (expected next : PromptStatus) : Answer :=
  let test := fun active : PromptQueueItem => decide (active.id = promptId ∧ active.status = expected) &&
    active.dispatchedTo providerRunId providerSessionId
  let edit := fun active : PromptQueueItem =>
    { active.setStatus next with durableDeliveryFailurePending := decide (next = .cancelling) }
  if next = .cancelling then s.unbindActivePrompt test edit else s.editActivePrompt test edit

def compareAndRestoreActivePromptAfterResumeSuperseded
    (promptId providerRunId failedProviderSessionId currentProviderSessionId : String) : Answer :=
  s.editActivePrompt
    (fun active => decide (active.id = promptId ∧ active.status = .cancelling) &&
      active.durableDeliveryFailurePending && active.dispatchedTo providerRunId failedProviderSessionId)
    (fun active => { active.setStatus .dispatching with
      durableDeliveryProviderSessionId := some currentProviderSessionId, durableDeliveryFailurePending := false })

def completeActivePromptIfMatches (expected : Option String) : Answer :=
  if expected.any (fun id => decide (s.activeId ≠ some id)) then (s, none)
  else (s.takeActivePrompt.1, s.activePrompt.map (·.setStatus .completed))

def cancelActivePromptOnly : Answer :=
  (s.takeActivePrompt.1, s.activePrompt.map (·.setStatus .cancelled))

def finalizeActivePromptCancellationIfMatches (expected : Option String) : Answer :=
  if s.activePrompt.any (fun active => decide (active.status = .cancelling) && expected.all (· = active.id)) then
    s.cancelActivePromptOnly
  else (s, none)

/-- A cancellation may name the prompt by its id or by the id it had in the queue. -/
def beginCancellingPromptIfMatches (expected : Option String) : Answer :=
  s.unbindActivePrompt
    (fun active => expected.all (fun id => decide (active.id = id ∨ active.pendingPromptId = some id)))
    (·.setStatus .cancelling)

def markActivePromptRunning : Answer :=
  s.editActivePrompt (fun _ => true) (·.setStatus .running)

def markActivePromptDelivery (sessionId promptId : String) (phase : DurablePromptDeliveryPhase)
    (providerRunId providerSessionId : Option String) : Result PromptQueueItem :=
  match s.activePrompt with
  | none => (s, .error (.noActivePrompt sessionId))
  | some active =>
    let id := active.id
    if id ≠ promptId then
      (s, .error (.localTransport "mark prompt delivery"
        s!"active prompt `{id}` does not match delivery prompt `{promptId}`"))
    else if phase = .dispatching ∧ active.status = .cancelling then
      if active.durableDeliveryPhase ≠ some .dispatching then
        (s, .error (.localTransport "mark prompt delivery"
          s!"cancelling prompt `{promptId}` cannot start remote dispatch"))
      else (s, .ok active)
    else
      let active := if phase = .delivered then active.delivered providerRunId providerSessionId
        else active.setDurableDelivery phase providerRunId providerSessionId
      ({ s with activePrompt := some active }, .ok active)

def replaceActivePromptIfMatches (expected replacement : PromptQueueItem) : OwnedAgentPromptState × Bool :=
  if s.activePrompt = some expected then ({ s with activePrompt := some replacement }, true) else (s, false)

def restoreReservedPromptIfUnclaimed (prompt : PromptQueueItem) (expectedQueue : List PromptQueueItem) :
    OwnedAgentPromptState × Bool :=
  if s.activePrompt.isSome ∨ s.queuedPrompts ≠ expectedQueue then (s, false) else (s.setActivePrompt prompt, true)

/-! ### Sudo windows -/

/-- The active prompt is this one and running. -/
def runs (prompt : String) : Bool :=
  s.activePrompt.any (fun active => decide (active.id = prompt ∧ active.status = .running))

def bindSudoTurn (prompt entry : String) : OwnedAgentPromptState × Bool :=
  if s.runs prompt then ({ s with sudoEntryId := some entry }, true) else (s, false)

/-- The running prompt bound to a sudo window, as the entry and the id of the prompt. -/
def sudoBoundPrompt : Option (String × String) :=
  match s.sudoEntryId with
  | none => none
  | some entry => (s.activePrompt.filter (fun active => decide (active.status = .running))).map (fun p => (entry, p.id))

def holdSudoWork (entry prompt : String) : OwnedAgentPromptState :=
  { s with sudoWork := some { entryId := entry, prompts := [prompt] } }

def admitSudoWorkPrompt (entry prompt : String) : OwnedAgentPromptState × Bool :=
  match s.sudoWork.filter (fun hold => decide (hold.entryId = entry)) with
  | none => (s, false)
  | some hold => ({ s with sudoWork := some { hold with prompts := prompt :: hold.prompts } }, true)

def releaseSudoWork (entry : String) : OwnedAgentPromptState :=
  { s with
    sudoWork := s.sudoWork.filter (fun hold => decide (hold.entryId ≠ entry))
    sudoEntryId := s.sudoEntryId.filter (fun bound => decide (bound ≠ entry)) }

/-! ### The queue and the mirror -/

/-- `take_queued_prompts_matching`: the prompts of a workflow run or of an event, all of the agent's, or those that
expired and that no steer reserves. -/
def takeQueuedPromptsMatching (shouldRemove : PromptQueueItem → Bool) : OwnedAgentPromptState × List PromptQueueItem :=
  ({ s with queuedPrompts := s.queuedPrompts.filter (fun prompt => !shouldRemove prompt) },
    s.queuedPrompts.filter shouldRemove)

def removeQueuedPrompt (promptId : String) : Answer :=
  ({ s with queuedPrompts := s.queuedPrompts.eraseP (fun prompt => decide (prompt.id = promptId)) },
    s.queuedPrompts.find? (fun prompt => decide (prompt.id = promptId)))

def restoreQueuedPrompt (position : Nat) (prompt : PromptQueueItem) : OwnedAgentPromptState :=
  { s with queuedPrompts := s.queuedPrompts.insertIdx (min position s.queuedPrompts.length) prompt }

/-- The mark of a local steer or the text of a queued prompt: the first prompt of the id is changed. -/
def updateQueuedPrompt (promptId : String) (submitted : Bool) (rest : String) : OwnedAgentPromptState :=
  match s.queuedPrompts.findIdx? (fun prompt => decide (prompt.id = promptId)) with
  | none => s
  | some i => { s with queuedPrompts := s.queuedPrompts.modify i (fun prompt =>
      { prompt with localSteerSubmitted := submitted, rest := rest }) }

/-- What a restore of the session makes of the agent: `mirrored` is the active prompt and the queue of the mirror, which
knows nothing of sudo windows. -/
def restoreSessionState (mirrored : Option (Option PromptQueueItem × List PromptQueueItem)) : OwnedAgentPromptState :=
  match mirrored with
  | none => { sudoWork := s.sudoWork }
  | some (active, queued) =>
    { sudoEntryId := if s.activeId = active.map (·.id) then s.sudoEntryId else none
      sudoWork := s.sudoWork
      activePrompt := active
      queuedPrompts := queued }

end OwnedAgentPromptState

/-! ### Runs -/

inductive Operation
  | submit (prompt : PromptQueueItem) (forceQueue allowQueue : Bool) (context : SubmissionContext)
  | activateNext (expected : Option String) (transitionPending reserved : Bool) (now : Nat)
  | tryActivateNext (expected : String) (transitionPending reserved : Bool) (prepare : Except DaemonError Unit)
      (now : Nat)
  | finishAndActivateNext (current reserved : Bool) (now : Nat)
  | settle (prompt : String) (deliveredRun : Option String) (commit : Except DaemonError Bool)
  | markDeliveryFailure (prompt run session : String) (expected next : PromptStatus)
  | restoreAfterResumeSuperseded (prompt run failed current : String)
  | complete (expected : Option String)
  | cancelOnly
  | finalizeCancellation (expected : Option String)
  | beginCancelling (expected : Option String)
  | markRunning
  | markDelivery (sessionId prompt : String) (phase : DurablePromptDeliveryPhase) (run session : Option String)
  | replaceActive (expected replacement : PromptQueueItem)
  | restoreReserved (prompt : PromptQueueItem) (expectedQueue : List PromptQueueItem)
  /-- The record of a recovery, which is part of the active prompt. -/
  | markRecovery (rest : String)
  | bindSudoTurn (prompt entry : String)
  | holdSudoWork (entry prompt : String)
  | admitSudoWorkPrompt (entry prompt : String)
  | releaseSudoWork (entry : String)
  | takeQueued (shouldRemove : PromptQueueItem → Bool)
  | removeQueued (prompt : String)
  | restoreQueued (position : Nat) (prompt : PromptQueueItem)
  | updateQueued (prompt : String) (submitted : Bool) (rest : String)
  | restoreSession (mirrored : Option (Option PromptQueueItem × List PromptQueueItem))
  /-- The agent or its session is removed. -/
  | remove

/-- One section of the owner's lock that works on the agent. -/
def step (agentId : String) (s : OwnedAgentPromptState) : Operation → OwnedAgentPromptState
  | .submit prompt force allow context => (s.submitPreparedPromptWithQueuePolicy prompt force allow context).1
  | .activateNext expected pending reserved now =>
    (s.activateNextQueuedPromptForDispatch agentId expected pending reserved now).1
  | .tryActivateNext expected pending reserved prepare now =>
    (s.tryActivateNextQueuedPromptForDispatch agentId expected pending reserved prepare now).1
  | .finishAndActivateNext current reserved now => (s.finishAndActivateNext agentId current reserved now).1
  | .settle prompt run commit => (s.settleActiveRemoteDispatchIfMatches prompt run commit).1
  | .markDeliveryFailure prompt run session expected next =>
    (s.compareAndMarkActivePromptDeliveryFailure prompt run session expected next).1
  | .restoreAfterResumeSuperseded prompt run failed current =>
    (s.compareAndRestoreActivePromptAfterResumeSuperseded prompt run failed current).1
  | .complete expected => (s.completeActivePromptIfMatches expected).1
  | .cancelOnly => s.cancelActivePromptOnly.1
  | .finalizeCancellation expected => (s.finalizeActivePromptCancellationIfMatches expected).1
  | .beginCancelling expected => (s.beginCancellingPromptIfMatches expected).1
  | .markRunning => s.markActivePromptRunning.1
  | .markDelivery sessionId prompt phase run session =>
    (s.markActivePromptDelivery sessionId prompt phase run session).1
  | .replaceActive expected replacement => (s.replaceActivePromptIfMatches expected replacement).1
  | .restoreReserved prompt queue => (s.restoreReservedPromptIfUnclaimed prompt queue).1
  | .markRecovery rest => (s.editActivePrompt (fun _ => true) (fun active => { active with rest := rest })).1
  | .bindSudoTurn prompt entry => (s.bindSudoTurn prompt entry).1
  | .holdSudoWork entry prompt => s.holdSudoWork entry prompt
  | .admitSudoWorkPrompt entry prompt => (s.admitSudoWorkPrompt entry prompt).1
  | .releaseSudoWork entry => s.releaseSudoWork entry
  | .takeQueued shouldRemove => (s.takeQueuedPromptsMatching shouldRemove).1
  | .removeQueued prompt => (s.removeQueuedPrompt prompt).1
  | .restoreQueued position prompt => s.restoreQueuedPrompt position prompt
  | .updateQueued prompt submitted rest => s.updateQueuedPrompt prompt submitted rest
  | .restoreSession mirrored => s.restoreSessionState mirrored
  | .remove => {}

def run (agentId : String) (operations : List Operation) : OwnedAgentPromptState :=
  operations.foldl (step agentId) {}

end Chariox.PromptState
