import Chariox.Lib.Except
import Chariox.Lib.OrdMap
import Chariox.Lib.Text

/-!
# Sessions, their triggers, and the operations that change them

A session holds, beside its prompts, whether the Room is pinned and the triggers of its agents.  Each operation changes
one session of the store under the store's lock, or fails and changes nothing.  What an operation changes is said in
fields of the session: the pin, and of each trigger its definition, its busy policy, its prompt and its schedule.
-/

namespace Chariox.SessionStore

open List

/-! ### Triggers -/

def trim (text : String) : String := String.ofList (trimText text.toList)

inductive AgentTriggerBusyPolicy
  | queue
  | steer
  deriving DecidableEq, Repr

inductive AgentTriggerRepeat
  | once
  | every
  deriving DecidableEq, Repr

inductive AgentTriggerNotificationSource
  | workflow (sourceId : String)
  | app (installationId eventName : String)
  deriving DecidableEq, Repr

/-- The number that is printed in the id of a trigger. -/
abbrev TriggerId := Nat

inductive AgentTriggerSource
  | http (ingressId : TriggerId) (port : Nat)
  | schedule (intervalSeconds : Nat) (repeats : AgentTriggerRepeat) (nextRunAtMs : Nat)
  | notification (source : AgentTriggerNotificationSource) (subscriptionId displayName : String)
  deriving DecidableEq, Repr

structure AgentTrigger where
  id : TriggerId
  agentId : String
  createdByUserId : Option String
  source : AgentTriggerSource
  busyPolicy : AgentTriggerBusyPolicy
  prompt : String
  enabled : Bool
  createdAtMs : Nat
  dispatchInFlight : Bool
  dispatchGeneration : Nat
  deriving DecidableEq, Repr

namespace AgentTrigger

/-- A new trigger is enabled and has not been dispatched. -/
def created (id : TriggerId) (agentId createdByUserId : String) (source : AgentTriggerSource)
    (busyPolicy : AgentTriggerBusyPolicy) (prompt : String) (createdAtMs : Nat) : AgentTrigger where
  id := id
  agentId := agentId
  createdByUserId := some createdByUserId
  source := source
  busyPolicy := busyPolicy
  prompt := prompt
  enabled := true
  createdAtMs := createdAtMs
  dispatchInFlight := false
  dispatchGeneration := 0

def schedule (id : TriggerId) (agentId createdByUserId : String) (intervalSeconds : Nat) (repeats : AgentTriggerRepeat)
    (busyPolicy : AgentTriggerBusyPolicy) (prompt : String) (createdAtMs : Nat) : AgentTrigger :=
  created id agentId createdByUserId
    (.schedule intervalSeconds repeats (saturatingAdd createdAtMs (saturatingMul intervalSeconds 1000)))
    busyPolicy prompt createdAtMs

def http (id : TriggerId) (agentId owner : String) (port : Nat) (policy : AgentTriggerBusyPolicy) (prompt : String)
    (nowMs : Nat) : AgentTrigger :=
  created id agentId owner (.http id port) policy prompt nowMs

/-- A notification trigger always queues. -/
def notification (id : TriggerId) (agentId owner : String) (source : AgentTriggerNotificationSource)
    (subscriptionId displayName prompt : String) (nowMs : Nat) : AgentTrigger :=
  created id agentId owner (.notification source subscriptionId displayName) .queue prompt nowMs

variable (trigger : AgentTrigger)

def nextRunAtMs : Nat :=
  match trigger.source with
  | .schedule _ _ nextRunAtMs => nextRunAtMs
  | .http .. | .notification .. => u64Max

def scheduleNextRun (nowMs minimumIntervalSeconds : Nat) : AgentTrigger :=
  match trigger.source with
  | .schedule intervalSeconds repeats _ =>
    { trigger with
      source := .schedule intervalSeconds repeats
        (saturatingAdd nowMs (saturatingMul (max intervalSeconds minimumIntervalSeconds) 1000)) }
  | .http .. | .notification .. => trigger

/-- The last part of `update`: a schedule that is enabled again counts a full interval from now. -/
def setEnabled (enabled : Bool) (nowMs : Nat) : AgentTrigger :=
  let trigger := if enabled && !trigger.enabled then trigger.scheduleNextRun nowMs 0 else trigger
  let trigger :=
    if enabled then trigger
    else
      { trigger with
        dispatchInFlight := false
        dispatchGeneration := (trigger.dispatchGeneration + 1) % 2 ^ 64 }
  { trigger with enabled := enabled }

def update (busyPolicy : Option AgentTriggerBusyPolicy) (prompt : Option String) (enabled : Option Bool) (nowMs : Nat) :
    AgentTrigger :=
  let trigger := { trigger with busyPolicy := busyPolicy.getD trigger.busyPolicy, prompt := prompt.getD trigger.prompt }
  match enabled with
  | none => trigger
  | some enabled => trigger.setEnabled enabled nowMs

/-- The trigger as it is written to the disk: the claim of a firing is not. -/
def serialized : AgentTrigger :=
  { trigger with dispatchInFlight := false, dispatchGeneration := 0 }

end AgentTrigger

/-! ### Sessions -/

structure AgentPromptState where
  activePrompt : Option String
  queuedPrompts : List String
  deriving DecidableEq, Repr

/-- A session; its id is the key under which the store has it. -/
structure RuntimeSession where
  ownerUserId : String
  pinned : Bool
  pinnedAtMs : Option Nat
  lastActivityAtMs : Nat
  agentTriggers : List AgentTrigger
  promptStates : OrdMap String AgentPromptState
  deriving DecidableEq

/-- Change the first element that satisfies `p`. -/
def modifyFirst {α : Type} (p : α → Bool) (f : α → α) : List α → List α
  | [] => []
  | x :: xs => if p x then f x :: xs else x :: modifyFirst p f xs

namespace RuntimeSession

variable (session : RuntimeSession)

def setPinned (pinned : Bool) (nowMs : Nat) : RuntimeSession :=
  if session.pinned ≠ pinned then
    { session with pinnedAtMs := if pinned then some nowMs else none, pinned := pinned }
  else session

def noteActivityAt (timestampMs : Nat) : RuntimeSession :=
  { session with lastActivityAtMs := max session.lastActivityAtMs timestampMs }

def findTrigger (triggerId : TriggerId) : Option AgentTrigger :=
  session.agentTriggers.find? (fun trigger => trigger.id == triggerId)

def addAgentTrigger (trigger : AgentTrigger) : RuntimeSession :=
  { session with agentTriggers := session.agentTriggers ++ [trigger] }

def removeAgentTrigger (triggerId : TriggerId) : RuntimeSession :=
  { session with agentTriggers := session.agentTriggers.eraseP (fun trigger => trigger.id == triggerId) }

def updateAgentTrigger (triggerId : TriggerId) (f : AgentTrigger → AgentTrigger) : RuntimeSession :=
  { session with agentTriggers := modifyFirst (fun trigger => trigger.id == triggerId) f session.agentTriggers }

/-- The session as it is written to the disk. -/
def durableRuntimeSnapshot : RuntimeSession :=
  { session with agentTriggers := session.agentTriggers.map AgentTrigger.serialized }

end RuntimeSession

/-! ### The session service -/

inductive DaemonError
  | sessionNotFound (sessionId : String)
  | ownershipAccessDenied (userId ownerUserId resource operation : String)
  | localTransport (operation message : String)
  deriving DecidableEq, Repr

/-- The session service: its sessions, the counter of the trigger ids, and the configured prompt of a schedule. -/
structure SessionService where
  sessions : OrdMap String RuntimeSession
  nextAgentTriggerNumber : Nat
  scheduleContinuation : String
  deriving DecidableEq

/-- `ordered_entity_id`: the creation millisecond above a counter of 16 bits. -/
def orderedEntityId (epochMs number : Nat) : TriggerId := (epochMs <<< 16) % 2 ^ 64 ||| number % 2 ^ 16

def agentTriggerNotFound (sessionId : String) (triggerId : TriggerId) : DaemonError :=
  .localTransport "agent trigger" s!"agent trigger `{triggerId}` was not found in session `{sessionId}`"

namespace SessionService

variable (service : SessionService)

def getSession (sessionId : String) : Except DaemonError RuntimeSession :=
  match service.sessions.get sessionId with
  | some session => .ok session
  | none => .error (.sessionNotFound sessionId)

/-- Put a changed session back. -/
def put (sessionId : String) (session : RuntimeSession) : SessionService :=
  { service with sessions := service.sessions.insert sessionId session }

/-- A session that is put back keeps the activity noted in the meantime. -/
def restoreSession (sessionId : String) (session : RuntimeSession) : SessionService :=
  match service.sessions.get sessionId with
  | some held => service.put sessionId (session.noteActivityAt held.lastActivityAtMs)
  | none => service.put sessionId session

/-- The part of `set_room_pinned` under the lock of the store. -/
def setRoomPinned (sessionId : String) (pinned : Bool) (callerUserId : String)
    (nowMs : Nat) : Except DaemonError SessionService := do
  let session ← service.getSession sessionId
  failIf (session.ownerUserId ≠ callerUserId)
    (.ownershipAccessDenied callerUserId session.ownerUserId sessionId "pin Room")
  return service.restoreSession sessionId (session.setPinned pinned nowMs)

/-- Add the trigger that `make` builds from a new id. -/
def addTrigger (sessionId : String) (make : TriggerId → AgentTrigger) (nowMs : Nat) :
    Except DaemonError (SessionService × AgentTrigger) := do
  let session ← service.getSession sessionId
  let number := (service.nextAgentTriggerNumber + 1) % 2 ^ 64
  let trigger := make (orderedEntityId nowMs number)
  return ({ service with nextAgentTriggerNumber := number }.put sessionId (session.addAgentTrigger trigger), trigger)

def createAgentScheduleTrigger (sessionId agentId createdByUserId : String)
    (intervalSeconds : Nat) (repeats : AgentTriggerRepeat) (busyPolicy : AgentTriggerBusyPolicy)
    (prompt : Option String) (nowMs : Nat) : Except DaemonError (SessionService × AgentTrigger) := do
  failIf (intervalSeconds = 0) (.localTransport "agent trigger create" "wait duration must be greater than zero")
  let prompt := ((prompt.map trim).filter (fun prompt => prompt ≠ "")).getD service.scheduleContinuation
  service.addTrigger sessionId
    (fun id => .schedule id agentId createdByUserId intervalSeconds repeats busyPolicy prompt nowMs) nowMs

/-- Unlike the prompts of the other triggers, that of an HTTP trigger is kept with its outer white space. -/
def createAgentHttpTrigger (sessionId agentId owner : String) (port : Nat)
    (policy : AgentTriggerBusyPolicy) (prompt : Option String) (nowMs : Nat) :
    Except DaemonError (SessionService × AgentTrigger) :=
  let prompt := (prompt.filter (fun prompt => trim prompt ≠ "")).getD
    "A request arrived through your local HTTP trigger. Decide what to do with its input."
  service.addTrigger sessionId (fun id => .http id agentId owner port policy prompt nowMs) nowMs

def createAgentNotificationTrigger (sessionId agentId owner : String)
    (source : AgentTriggerNotificationSource) (subscriptionId displayName : String) (prompt : Option String)
    (nowMs : Nat) : Except DaemonError (SessionService × AgentTrigger) :=
  let prompt := ((prompt.map trim).filter (fun prompt => prompt ≠ "")).getD
    s!"A notification from {displayName} arrived. Decide what to do with its input."
  service.addTrigger sessionId
    (fun id => .notification id agentId owner source subscriptionId displayName prompt nowMs) nowMs

def AgentTriggerSource.isNotification : AgentTriggerSource → Bool
  | .notification .. => true
  | .http .. | .schedule .. => false

def updateAgentTrigger (service : SessionService) (sessionId : String) (triggerId : TriggerId)
    (busyPolicy : Option AgentTriggerBusyPolicy) (prompt : Option String) (enabled : Option Bool) (nowMs : Nat) :
    Except DaemonError (SessionService × AgentTrigger) := do
  let prompt := prompt.map trim
  failIf (prompt = some "") (.localTransport "agent trigger update"
    "trigger prompt must not be empty; omit it to keep the current one")
  let session ← service.getSession sessionId
  match session.findTrigger triggerId with
  | none => .error (agentTriggerNotFound sessionId triggerId)
  | some trigger =>
    failIf (busyPolicy.isSome ∧ AgentTriggerSource.isNotification trigger.source) (.localTransport
      "agent trigger update" "a notification trigger always queues; it has no busy policy")
    let change := fun (trigger : AgentTrigger) => trigger.update busyPolicy prompt enabled nowMs
    return (service.put sessionId (session.updateAgentTrigger triggerId change), change trigger)

def deleteAgentTrigger (sessionId : String) (triggerId : TriggerId) :
    Except DaemonError (SessionService × AgentTrigger) := do
  let session ← service.getSession sessionId
  match session.findTrigger triggerId with
  | none => .error (agentTriggerNotFound sessionId triggerId)
  | some trigger => return (service.put sessionId (session.removeAgentTrigger triggerId), trigger)

end SessionService

/-! ### Operations and the fields they write -/

/-- What a new trigger listens to.  The port was reserved, and the source of a notification was resolved and given a
subscription, before the session changes. -/
inductive AgentTriggerSourceRequest
  | http (port : Nat)
  | schedule (intervalSeconds : Nat) (repeats : AgentTriggerRepeat)
  | notification (source : AgentTriggerNotificationSource) (subscriptionId displayName : String)
  deriving DecidableEq, Repr

inductive Operation
  | setRoomPinned (pinned : Bool)
  | createAgentTrigger (agentId : String) (source : AgentTriggerSourceRequest)
      (busyPolicy : Option AgentTriggerBusyPolicy) (prompt : Option String)
  | updateAgentTrigger (triggerId : TriggerId) (busyPolicy : Option AgentTriggerBusyPolicy) (prompt : Option String)
      (enabled : Option Bool)
  | deleteAgentTrigger (triggerId : TriggerId)
  deriving DecidableEq, Repr

/-- A part of a session that an operation writes. -/
inductive Field
  | pinned
  | trigger (triggerId : TriggerId)
  | busyPolicy (triggerId : TriggerId)
  | prompt (triggerId : TriggerId)
  | enabled (triggerId : TriggerId)
  deriving DecidableEq, Repr

namespace Field

def ofTrigger (triggerId : TriggerId) : List Field :=
  [.trigger triggerId, .busyPolicy triggerId, .prompt triggerId, .enabled triggerId]

/-- The fields that an update with these options writes. -/
def ofUpdate (triggerId : TriggerId) (busyPolicy : Option AgentTriggerBusyPolicy) (prompt : Option String)
    (enabled : Option Bool) : List Field :=
  (if busyPolicy.isSome then [.busyPolicy triggerId] else []) ++
    (if prompt.isSome then [.prompt triggerId] else []) ++ (if enabled.isSome then [.enabled triggerId] else [])

end Field

/-- A trigger source without the time of the next run, which belongs to the schedule. -/
def AgentTriggerSource.definition : AgentTriggerSource → AgentTriggerSource
  | .schedule intervalSeconds repeats _ => .schedule intervalSeconds repeats 0
  | .http ingressId port => .http ingressId port
  | .notification source subscriptionId displayName => .notification source subscriptionId displayName

/-- What an update never changes. -/
def AgentTrigger.definition (trigger : AgentTrigger) : String × Option String × AgentTriggerSource × Nat :=
  (trigger.agentId, trigger.createdByUserId, trigger.source.definition, trigger.createdAtMs)

/-- Two sessions have the same value in the field. -/
def Field.SameIn (a b : RuntimeSession) : Field → Prop
  | .pinned => a.pinned = b.pinned ∧ a.pinnedAtMs = b.pinnedAtMs
  | .trigger id =>
    a.agentTriggers.countP (fun t => t.id == id) = b.agentTriggers.countP (fun t => t.id == id) ∧
      (a.findTrigger id).map AgentTrigger.definition = (b.findTrigger id).map AgentTrigger.definition
  | .busyPolicy id => (a.findTrigger id).map (·.busyPolicy) = (b.findTrigger id).map (·.busyPolicy)
  | .prompt id => (a.findTrigger id).map (·.prompt) = (b.findTrigger id).map (·.prompt)
  | .enabled id =>
    (a.findTrigger id).map (fun t => (t.enabled, t.nextRunAtMs)) =
      (b.findTrigger id).map (fun t => (t.enabled, t.nextRunAtMs))

instance (a b : RuntimeSession) : (f : Field) → Decidable (f.SameIn a b)
  | .pinned => inferInstanceAs (Decidable (_ ∧ _))
  | .trigger _ => inferInstanceAs (Decidable (_ ∧ _))
  | .busyPolicy _ => inferInstanceAs (Decidable (_ = _))
  | .prompt _ => inferInstanceAs (Decidable (_ = _))
  | .enabled _ => inferInstanceAs (Decidable (_ = _))

/-- The change that an operation makes under the lock of the store, and the trigger it is about. -/
def SessionService.perform (service : SessionService) (sessionId : String) (operation : Operation)
    (callerUserId : String) (nowMs : Nat) : Except DaemonError (SessionService × Option AgentTrigger) :=
  let about := fun (result : SessionService × AgentTrigger) => (result.1, some result.2)
  match operation with
  | .setRoomPinned pinned => do return (← service.setRoomPinned sessionId pinned callerUserId nowMs, none)
  | .createAgentTrigger agentId (.schedule intervalSeconds repeats) busyPolicy prompt => do
    return about (← service.createAgentScheduleTrigger sessionId agentId callerUserId intervalSeconds repeats
      (busyPolicy.getD .queue) prompt nowMs)
  | .createAgentTrigger agentId (.http port) busyPolicy prompt => do
    return about (← service.createAgentHttpTrigger sessionId agentId callerUserId port (busyPolicy.getD .queue)
      prompt nowMs)
  | .createAgentTrigger agentId (.notification source subscriptionId displayName) busyPolicy prompt => do
    failIf busyPolicy.isSome (.localTransport "workflow.notifications"
      "a notification trigger always queues; it has no busy policy")
    return about (← service.createAgentNotificationTrigger sessionId agentId callerUserId source subscriptionId
      displayName prompt nowMs)
  | .updateAgentTrigger triggerId busyPolicy prompt enabled => do
    return about (← service.updateAgentTrigger sessionId triggerId busyPolicy prompt enabled nowMs)
  | .deleteAgentTrigger triggerId => do return about (← service.deleteAgentTrigger sessionId triggerId)

/-- The fields that an operation writes; `trigger` is the trigger it is about. -/
def Operation.fields (operation : Operation) (trigger : Option AgentTrigger) : List Field :=
  match operation with
  | .setRoomPinned _ => [.pinned]
  | .createAgentTrigger .. => (trigger.map (fun t => Field.ofTrigger t.id)).getD []
  | .updateAgentTrigger triggerId busyPolicy prompt enabled => Field.ofUpdate triggerId busyPolicy prompt enabled
  | .deleteAgentTrigger triggerId => Field.ofTrigger triggerId

/-! ### What an operation leaves unchanged -/

section ModifyFirst

variable {α : Type} {p q : α → Bool} {f : α → α}

theorem find?_modifyFirst_of_disjoint (hq : ∀ x, p x = true → q x = false) (hf : ∀ x, q (f x) = q x) (l : List α) :
    (modifyFirst p f l).find? q = l.find? q := by
  induction l with
  | nil => rfl
  | cons x l ih =>
    unfold modifyFirst
    split
    · rename_i hp
      rw [find?_cons_of_neg (by rw [hf, hq x hp]; simp), find?_cons_of_neg (by rw [hq x hp]; simp)]
    · rw [find?_cons, find?_cons, ih]

theorem find?_modifyFirst (hf : ∀ x, p (f x) = p x) (l : List α) : (modifyFirst p f l).find? p = (l.find? p).map f := by
  induction l with
  | nil => rfl
  | cons x l ih =>
    unfold modifyFirst
    split
    · rename_i hp
      rw [find?_cons_of_pos (by rw [hf, hp]), find?_cons_of_pos hp, Option.map_some]
    · rename_i hp
      rw [find?_cons_of_neg hp, find?_cons_of_neg hp, ih]

theorem countP_modifyFirst (hf : ∀ x, q (f x) = q x) (l : List α) : (modifyFirst p f l).countP q = l.countP q := by
  induction l with
  | nil => rfl
  | cons x l ih =>
    unfold modifyFirst
    split
    · rw [countP_cons, countP_cons, hf]
    · rw [countP_cons, countP_cons, ih]

end ModifyFirst

namespace Field

theorem SameIn.refl (a : RuntimeSession) (f : Field) : f.SameIn a a := by
  cases f <;> simp [SameIn]

variable {a b : RuntimeSession} {f : Field}

theorem SameIn.trans {c : RuntimeSession} (hab : f.SameIn a b) (hbc : f.SameIn b c) : f.SameIn a c := by
  cases f with
  | pinned | trigger => exact ⟨hab.1.trans hbc.1, hab.2.trans hbc.2⟩
  | _ => exact Eq.trans hab hbc

theorem sameIn_of_eq (hp : a.pinned = b.pinned) (hat : a.pinnedAtMs = b.pinnedAtMs)
    (ht : a.agentTriggers = b.agentTriggers) (f : Field) : f.SameIn a b := by
  cases f <;> simp [SameIn, RuntimeSession.findTrigger, hp, hat, ht]

theorem sameIn_of_find {id : TriggerId} (hf : f ∈ ofTrigger id)
    (hc : a.agentTriggers.countP (fun t => t.id == id) = b.agentTriggers.countP (fun t => t.id == id))
    (hfi : a.findTrigger id = b.findTrigger id) : f.SameIn a b := by
  simp only [ofTrigger, mem_cons, not_mem_nil, or_false] at hf
  rcases hf with rfl | rfl | rfl | rfl <;> simp [SameIn, hc, hfi]

theorem eq_pinned_or_mem (f : Field) : f = .pinned ∨ ∃ id, f ∈ ofTrigger id := by
  cases f with
  | pinned => exact .inl rfl
  | trigger id | busyPolicy id | prompt id | enabled id => exact .inr ⟨id, by simp [ofTrigger]⟩

/-- A change of the triggers of one id leaves the fields outside that id as they were. -/
theorem sameIn_of_trigger {id : TriggerId} (hp : a.pinned = b.pinned) (hat : a.pinnedAtMs = b.pinnedAtMs)
    (ho : ∀ o, o ≠ id →
      a.agentTriggers.countP (fun t => t.id == o) = b.agentTriggers.countP (fun t => t.id == o) ∧
        a.findTrigger o = b.findTrigger o) (hf : f ∉ ofTrigger id) : f.SameIn a b := by
  rcases eq_pinned_or_mem f with rfl | ⟨o, hm⟩
  · exact ⟨hp, hat⟩
  have hne : o ≠ id := by
    rintro rfl
    exact hf hm
  obtain ⟨hc, hfi⟩ := ho o hne
  exact sameIn_of_find hm hc hfi

end Field

namespace RuntimeSession

variable {f : Field}

theorem sameIn_setPinned (ses : RuntimeSession) (pinned : Bool) (now : Nat) (hf : f ∉ [Field.pinned]) :
    f.SameIn ses (ses.setPinned pinned now) := by
  rw [mem_singleton] at hf
  unfold setPinned
  split
  · cases f with
    | pinned => exact absurd rfl hf
    | trigger => exact ⟨rfl, rfl⟩
    | _ => rfl
  · exact Field.SameIn.refl ..

theorem sameIn_addAgentTrigger (ses : RuntimeSession) (trig : AgentTrigger)
    (hf : f ∉ Field.ofTrigger trig.id) : f.SameIn ses (ses.addAgentTrigger trig) := by
  refine Field.sameIn_of_trigger (a := ses) (b := ses.addAgentTrigger trig) rfl rfl ?_ hf
  intro o ho
  have hne : (trig.id == o) = false := beq_eq_false_iff_ne.2 (Ne.symm ho)
  constructor
  · simp [addAgentTrigger, hne]
  · simp [findTrigger, addAgentTrigger, hne]

theorem id_ne {id o : TriggerId} (h : o ≠ id) (t : AgentTrigger) (ht : (t.id == id) = true) : (t.id == o) = false := by
  rw [beq_iff_eq] at ht
  rw [beq_eq_false_iff_ne, ht]
  exact Ne.symm h

theorem sameIn_removeAgentTrigger (ses : RuntimeSession) (id : TriggerId) (hf : f ∉ Field.ofTrigger id) :
    f.SameIn ses (ses.removeAgentTrigger id) := by
  refine Field.sameIn_of_trigger (a := ses) (b := ses.removeAgentTrigger id) rfl rfl ?_ hf
  intro o ho
  unfold findTrigger removeAgentTrigger
  generalize ses.agentTriggers = l
  induction l with
  | nil => exact ⟨rfl, rfl⟩
  | cons t l ih =>
    rw [eraseP_cons]
    cases ht : t.id == id with
    | true => simp [id_ne ho t ht]
    | false =>
      obtain ⟨hc, hfi⟩ := ih
      simp only [cond_false, countP_cons, find?_cons, hc, hfi, and_self]

end RuntimeSession

namespace AgentTrigger

theorem setEnabled_keeps (trig : AgentTrigger) (en : Bool) (now : Nat) : (trig.setEnabled en now).id = trig.id ∧
      (trig.setEnabled en now).definition = trig.definition ∧
      (trig.setEnabled en now).busyPolicy = trig.busyPolicy ∧
      (trig.setEnabled en now).prompt = trig.prompt := by
  have hnext : ∀ t : AgentTrigger, ∀ n, (t.scheduleNextRun now n).id = t.id ∧
      (t.scheduleNextRun now n).definition = t.definition ∧ (t.scheduleNextRun now n).busyPolicy = t.busyPolicy ∧
      (t.scheduleNextRun now n).prompt = t.prompt := by
    intro t n
    unfold scheduleNextRun
    split
    · rename_i hs
      simp [definition, hs, AgentTriggerSource.definition]
    · exact ⟨rfl, rfl, rfl, rfl⟩
    · exact ⟨rfl, rfl, rfl, rfl⟩
  unfold setEnabled
  cases en with
  | false => exact ⟨rfl, rfl, rfl, rfl⟩
  | true =>
    cases trig.enabled with
    | false => exact hnext trig 0
    | true => exact ⟨rfl, rfl, rfl, rfl⟩

section

variable (trigger : AgentTrigger) (busyPolicy : Option AgentTriggerBusyPolicy) (prompt : Option String)
  (enabled : Option Bool) (nowMs : Nat)

theorem update_id : (trigger.update busyPolicy prompt enabled nowMs).id = trigger.id := by
  cases enabled with
  | none => rfl
  | some => exact (setEnabled_keeps ..).1

/-- An update keeps the definition of the trigger and what it was not given a value for. -/
theorem update_keeps : (trigger.update busyPolicy prompt enabled nowMs).definition = trigger.definition ∧
      (trigger.update busyPolicy prompt enabled nowMs).busyPolicy = busyPolicy.getD trigger.busyPolicy ∧
      (trigger.update busyPolicy prompt enabled nowMs).prompt = prompt.getD trigger.prompt ∧
      (enabled = none → (trigger.update busyPolicy prompt enabled nowMs).enabled = trigger.enabled ∧
        (trigger.update busyPolicy prompt enabled nowMs).nextRunAtMs = trigger.nextRunAtMs) := by
  cases enabled with
  | none => exact ⟨rfl, rfl, rfl, fun _ => ⟨rfl, rfl⟩⟩
  | some enabled =>
    obtain ⟨-, hd, hp, hpr⟩ := setEnabled_keeps
      { trigger with busyPolicy := busyPolicy.getD trigger.busyPolicy, prompt := prompt.getD trigger.prompt }
      enabled nowMs
    exact ⟨hd, hp, hpr, nofun⟩

end

end AgentTrigger

theorem RuntimeSession.sameIn_updateAgentTrigger (ses : RuntimeSession) (id : TriggerId)
    (busy : Option AgentTriggerBusyPolicy) (pr : Option String) (en : Option Bool) (now : Nat)
    {f : Field} (hf : f ∉ Field.ofUpdate id busy pr en) :
    let change := fun (t : AgentTrigger) => t.update busy (pr.map trim) en now
    f.SameIn ses (ses.updateAgentTrigger id change) := by
  intro change
  have hid : ∀ (o : TriggerId) (t : AgentTrigger), ((change t).id == o) = (t.id == o) := by
    intro o t
    rw [AgentTrigger.update_id]
  have hcnt : ∀ o, (ses.updateAgentTrigger id change).agentTriggers.countP (fun t => t.id == o) =
      ses.agentTriggers.countP (fun t => t.id == o) :=
    fun o => countP_modifyFirst (hid o) ses.agentTriggers
  by_cases hmem : f ∈ Field.ofTrigger id
  · -- the field belongs to the changed trigger, but the update was given no value for it
    have hfind : (ses.updateAgentTrigger id change).findTrigger id = (ses.findTrigger id).map change :=
      find?_modifyFirst (hid id) ses.agentTriggers
    have hkp := fun t : AgentTrigger => t.update_keeps busy (pr.map trim) en now
    have hmap : ∀ {β : Type} (g : AgentTrigger → β), (∀ t, g (change t) = g t) →
        (ses.findTrigger id).map g = ((ses.updateAgentTrigger id change).findTrigger id).map g := by
      intro β g hg
      rw [hfind, Option.map_map]
      congr 1
      exact funext fun t => (hg t).symm
    simp only [Field.ofTrigger, mem_cons, not_mem_nil, or_false] at hmem
    simp only [Field.ofUpdate, mem_append, not_or] at hf
    obtain ⟨⟨hp, hpr⟩, he⟩ := hf
    rcases hmem with rfl | rfl | rfl | rfl
    · exact ⟨(hcnt id).symm, hmap _ (fun t => (hkp t).1)⟩
    · cases busy with
      | some => simp at hp
      | none => exact hmap _ (fun t => (hkp t).2.1)
    · cases pr with
      | some => simp at hpr
      | none => exact hmap _ (fun t => (hkp t).2.2.1)
    · cases en with
      | some => simp at he
      | none => exact hmap _ (fun t => by rw [((hkp t).2.2.2 rfl).1, ((hkp t).2.2.2 rfl).2])
  · refine Field.sameIn_of_trigger (a := ses) (b := ses.updateAgentTrigger id change) rfl rfl ?_ hmem
    intro o ho
    exact ⟨(hcnt o).symm, (find?_modifyFirst_of_disjoint (id_ne ho) (hid o) ses.agentTriggers).symm⟩

namespace SessionService

variable {service svc' : SessionService} {sid : String} {trigger : AgentTrigger} {nowMs : Nat}

theorem getSession_eq_ok {session : RuntimeSession}
    (h : service.getSession sid = .ok session) : service.sessions.get sid = some session := by
  unfold getSession at h
  split at h
  · cases h
    assumption
  · cases h

/-- What a change does to the store: one session is replaced, and agrees with its old version outside `fields`. -/
structure Changes (service service' : SessionService) (sessionId : String) (fields : List Field)
    (before after : RuntimeSession) : Prop where
  before_eq : service.sessions.get sessionId = some before
  after_eq : service'.sessions = service.sessions.insert sessionId after
  outside : ∀ f, f ∉ fields → f.SameIn before after

theorem setRoomPinned_changes {uid : String} {pinned : Bool}
    (h : service.setRoomPinned sid pinned uid nowMs = .ok svc') :
    ∃ b after, Changes service svc' sid [.pinned] b after := by
  obtain ⟨ses, hs, h⟩ := of_bind_ok h
  have h := of_check h
  have hget := getSession_eq_ok hs
  cases h
  refine ⟨ses, _, hget, by rw [restoreSession, hget]; rfl, ?_⟩
  intro f hf
  refine (ses.sameIn_setPinned pinned nowMs hf).trans ?_
  exact Field.sameIn_of_eq rfl rfl rfl f

theorem addTrigger_changes {make : TriggerId → AgentTrigger}
    (h : service.addTrigger sid make nowMs = .ok (svc', trigger)) :
    ∃ b after, Changes service svc' sid (Field.ofTrigger trigger.id) b after := by
  obtain ⟨ses, hs, h⟩ := of_bind_ok h
  cases h
  exact ⟨ses, _, getSession_eq_ok hs, rfl, fun f hf => ses.sameIn_addAgentTrigger _ hf⟩

theorem updateAgentTrigger_changes {tid : TriggerId}
    {busy : Option AgentTriggerBusyPolicy} {pr : Option String} {en : Option Bool}
    (h : service.updateAgentTrigger sid tid busy pr en nowMs = .ok (svc', trigger)) :
    ∃ b after, Changes service svc' sid (Field.ofUpdate tid busy pr en)
      b after := by
  have h := of_check h
  obtain ⟨ses, hs, h⟩ := of_bind_ok h
  split at h
  · cases h
  have h := of_check h
  cases h
  exact ⟨ses, _, getSession_eq_ok hs, rfl, fun f hf => ses.sameIn_updateAgentTrigger tid busy pr en nowMs hf⟩

theorem deleteAgentTrigger_changes {tid : TriggerId} (h : service.deleteAgentTrigger sid tid = .ok (svc', trigger)) :
    ∃ b after, Changes service svc' sid (Field.ofTrigger tid) b after := by
  obtain ⟨ses, hs, h⟩ := of_bind_ok h
  split at h <;> cases h
  exact ⟨ses, _, getSession_eq_ok hs, rfl, fun f hf => ses.sameIn_removeAgentTrigger tid hf⟩

/-- Every operation that succeeds replaces its session by one that agrees with it outside the fields it writes. -/
theorem perform_changes {uid : String} {op : Operation} {trig : Option AgentTrigger}
    (h : service.perform sid op uid nowMs = .ok (svc', trig)) :
    ∃ b after, Changes service svc' sid (op.fields trig) b after := by
  cases op with
  | setRoomPinned =>
    obtain ⟨res, hres, h⟩ := of_bind_ok h
    cases h
    exact setRoomPinned_changes hres
  | createAgentTrigger aid src =>
    cases src with
    | http =>
      obtain ⟨res, hres, h⟩ := of_bind_ok h
      cases h
      unfold createAgentHttpTrigger at hres
      exact addTrigger_changes hres
    | schedule =>
      obtain ⟨res, hres, h⟩ := of_bind_ok h
      cases h
      have hres := of_check hres
      exact addTrigger_changes hres
    | notification =>
      have h := of_check h
      obtain ⟨res, hres, h⟩ := of_bind_ok h
      cases h
      unfold createAgentNotificationTrigger at hres
      exact addTrigger_changes hres
  | updateAgentTrigger =>
    obtain ⟨res, hres, h⟩ := of_bind_ok h
    cases h
    exact updateAgentTrigger_changes hres
  | deleteAgentTrigger =>
    obtain ⟨res, hres, h⟩ := of_bind_ok h
    cases h
    exact deleteAgentTrigger_changes hres

end SessionService

end Chariox.SessionStore
