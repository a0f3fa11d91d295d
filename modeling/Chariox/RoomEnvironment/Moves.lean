import Chariox.RoomEnvironment.Reservations

/-!
# What the operations of the ledger are made of

Every operation is a sequence of moves.  Most of them start nothing (`CalmMove`): owners and pending takeovers change,
actions are asked to stop or end, and records are forgotten.  The others start a waiting action or admit a new one
(`Move`).  An operation makes calm moves and then promotes the queue, unless it admits a request or leaves nothing that
could start (`Phases`).  An invariant of the moves is an invariant of every run.
-/

namespace Chariox

open OrdMap List

/-- The actor joined the room with this kind. -/
def JoinedAs (actors : ActorMap) (kind : EnvironmentActorKind) (actorId : String) : Prop :=
  ∃ actor, actors.get actorId = some actor ∧ actor.kind = kind

namespace EnvironmentActionLedger

variable {l l' : Ledger} {id : String}

/-- An action of an agent holds the target. -/
def HeldByAgent (actors : ActorMap) (l : Ledger) (t : InputTarget) : Prop :=
  ∃ id a, l.reservations.get t = some id ∧ l.actions.get id = some a ∧ JoinedAs actors .agent a.actorId

/-- Somebody holds the target or waits to take it over. -/
def HeldBy (l : Ledger) (t : InputTarget) (actorId : String) : Prop :=
  l.inputOwners.get t = some actorId ∨ l.pendingTakeovers.get t = some actorId

/-- Nobody owns a target that somebody awaits. -/
def Exclusive (l : Ledger) : Prop :=
  ∀ t o p, l.inputOwners.get t = some o → l.pendingTakeovers.get t = some p → False

/-- An action of an agent holds the target and was asked to stop. -/
def Cancelling (actors : ActorMap) (l : Ledger) (t : InputTarget) : Prop :=
  ∃ id a, l.reservations.get t = some id ∧ l.actions.get id = some a ∧ JoinedAs actors .agent a.actorId ∧
    a.cancellationRequested = true

/-- A person asks for the target, and no action of somebody else waits for it. -/
structure AsksFor (actors : ActorMap) (l : Ledger) (t : InputTarget) (actorId : String) : Prop where
  human : JoinedAs actors .human actorId
  alone : ∀ id a, l.actions.get id = some a → a.state = .queued → t ∈ a.targets → actorId = a.actorId

/-- A target that somebody awaits is reserved. -/
def Awaited (l : Ledger) : Prop :=
  ∀ t o, l.pendingTakeovers.get t = some o → l.reservations.get t ≠ none

/-! ### Moves -/

theorem finished_isTerminal (now : Nat) (term : EnvironmentActionTerminal)
    (rsn : Option EnvironmentActionCancellationReason) (a : Action) :
    (a.finished now term rsn).state.isTerminal = true := by
  cases term <;> rfl

/-- How an action ends: it is taken out of the queue, its controller reports the end, or its process is lost. -/
inductive Ending
  | dequeued (reason : EnvironmentActionCancellationReason)
  | finished (terminal : EnvironmentActionTerminal) (reason : Option EnvironmentActionCancellationReason)
  | lost

namespace Ending

def apply (now : Nat) : Ending → Action → Action
  | dequeued reason => EnvironmentAction.dequeued now reason
  | finished terminal reason => EnvironmentAction.finished now terminal reason
  | lost => EnvironmentAction.failForProcessLoss now

/-- The states in which the operations end an action in this way. -/
def Allows (state : EnvironmentActionState) : Ending → Prop
  | dequeued _ => state = .queued
  | finished terminal _ => state = .running ∨ state = .queued ∧ terminal = .cancelled
  | lost => state.isTerminal = false

variable (ending : Ending) (now : Nat) (a : Action)

theorem identity_apply : (ending.apply now a).identity = a.identity := by
  cases ending <;> rfl

theorem isTerminal_apply : (ending.apply now a).state.isTerminal = true := by
  cases ending with
  | finished term rsn => exact finished_isTerminal now term rsn a
  | _ => rfl

end Ending

/-- What moves may do: leave the reason of a cancellation behind (`leak`), forget a terminal action (`evict`) or a
history record (`forget`), begin or end a recovery (`recover`), give an owned target to another owner (`hands`), let a
person of the `actors` have a target, and admit a request (`submits`). -/
structure Allowed where
  leak : Prop
  evict : Prop
  forget : Prop
  recover : Prop
  hands : InputTarget → String → Prop
  actors : ActorMap → Prop
  submits : Request → Prop

def Allowed.all : Allowed := ⟨True, True, True, True, fun _ _ => True, fun _ => True, fun _ => True⟩

/-- Where the owner of a target comes from. -/
inductive Owns (p : Allowed) (l : Ledger) (t : InputTarget) (o : String) : Prop
  | kept (howner : l.inputOwners.get t = some o)
  | granted (hpending : l.pendingTakeovers.get t = some o) (hfree : l.reservations.get t = none)
  | handed (source : String) (howner : l.inputOwners.get t = some source) (hhands : p.hands t o)
  | taken (actors : ActorMap) (hactors : p.actors actors) (hasks : l.AsksFor actors t o)
      (hfree : ¬ l.HeldByAgent actors t)

/-- Where somebody who awaits a target comes from. -/
inductive Awaits (p : Allowed) (l : Ledger) (t : InputTarget) (o : String) : Prop
  | kept (hpending : l.pendingTakeovers.get t = some o)
  | asked (actors : ActorMap) (hactors : p.actors actors) (hasks : l.AsksFor actors t o)
      (hcancelling : l.Cancelling actors t)

/-- The parts of the operations that start nothing. -/
inductive CalmMove (p : Allowed) (l : Ledger) : Ledger → Prop
  | input (owners pending : OrdMap InputTarget String) (recovering : Bool)
      (hrecovering : p.recover ∨ recovering = l.controllerRecovering)
      (hexclusive : l.Exclusive → Exclusive { l with inputOwners := owners, pendingTakeovers := pending })
      (howners : ∀ t o, owners.get t = some o → l.Owns p t o)
      (hpending : ∀ t o, pending.get t = some o → l.Awaits p t o) :
    CalmMove p l { l with inputOwners := owners, pendingTakeovers := pending, controllerRecovering := recovering }
  | asked (id : String) (a : Action) (reason : EnvironmentActionCancellationReason)
      (hget : l.actions.get id = some a) (hrunning : a.state = .running) :
    CalmMove p l ({ l with cancellationReasons := l.cancellationReasons.insertIfAbsent id reason }.updateAction id
      (fun action => { action with cancellationRequested := true }))
  | ended (clock : Clock) (ending : Ending) (ids : List String) (hnd : ids.Nodup)
      (hlive : ∀ id ∈ ids, ∃ a, l.actions.get id = some a ∧ ending.Allows a.state)
      (reservations : OrdMap InputTarget String)
      (hreservations : ∀ t id, reservations.get t = some id ↔ l.reservations.get t = some id ∧ id ∉ ids)
      (reasons : OrdMap String EnvironmentActionCancellationReason)
      (hreasons : ∀ id r, reasons.get id = some r → l.cancellationReasons.get id = some r)
      (hclean : p.leak ∨ ∀ id ∈ ids, ∀ a, l.actions.get id = some a → a.state = .running → reasons.get id = none) :
    CalmMove p l { l.updateActions ids (fun id => ending.apply (clock id)) with
      reservations := reservations, cancellationReasons := reasons }
  | evicted (id : String) (a : Action) (hget : l.actions.get id = some a)
      (hterminal : a.state.isTerminal = true) (hevict : p.evict) : CalmMove p l (l.evictAction id)
  | forgot (n : Nat) (a : Action) (hget : l.historyRecords.get n = some a)
      (hkeyless : a.idempotencyKey = none) (hforget : p.forget) : CalmMove p l (l.forgetHistoryRecord n)

/-- The request passed the tests of a submission. -/
structure Admits (l : Ledger) (request : Request) (queued : Bool) : Prop where
  waits : queued = (request.mutates && l.mustQueue (sortedTargets request.targets))
  fresh : l.existing request = .ok none
  unheld : request.mutates = true → l.takeoverRejection request.actorId (sortedTargets request.targets) = none
  room : queued = true → l.queuedCount < l.queueCapacity

inductive Move (p : Allowed) (l : Ledger) : Ledger → Prop
  | calm {m : Ledger} (hmove : CalmMove p l m) : Move p l m
  | started (clock : Clock) (id : String) (a : Action) (hget : l.actions.get id = some a)
      (hfree : l.Promotable a) : Move p l (l.startAction clock id a)
  | admitted (request : Request) (queued : Bool) (now : Nat) (hadmits : l.Admits request queued)
      (hsubmits : p.submits request) : Move p l (l.admitAction request queued now)

abbrev CalmMoves (p : Allowed) : Ledger → Ledger → Prop :=
  Relation.ReflTransGen (CalmMove p)

abbrev Moves (p : Allowed) : Ledger → Ledger → Prop := Relation.ReflTransGen (Move p)

variable {p : Allowed}

theorem CalmMoves.moves (h : CalmMoves p l l') : Moves p l l' :=
  Relation.ReflTransGen.mono (fun _ _ hm => Move.calm hm) l l' h

theorem forgetHistoryRecord_eq {n : Nat} {a : Action} (h : l.historyRecords.get n = some a) :
    l.forgetHistoryRecord n = { l with
      historyRecords := l.historyRecords.remove n
      historyActionSequences := l.historyActionSequences.remove a.actionId } := by
  unfold forgetHistoryRecord
  rw [h]

theorem WellFormed.calm (h : l.WellFormed) (hm : CalmMove p l l') : l'.WellFormed := by
  cases hm with
  | input => exact { h with }
  | asked id a rsn =>
    have hfr : WellFormed { l with cancellationReasons := l.cancellationReasons.insertIfAbsent id rsn } := { h with }
    exact hfr.updateAction id (fun _ => rfl) fun _ => rfl
  | ended ck en ids hnd hl rsvs hr =>
    exact h.endActions hnd (fun id => en.identity_apply (ck id)) (fun id => en.isTerminal_apply (ck id)) rfl
      (updateActions_requests _ _ _) (updateActions_order _ _ _) (updateActions_nextSequence _ _ _) hr
  | evicted id a hg ht => exact h.evictAction hg ht
  | forgot n a hg =>
    rw [forgetHistoryRecord_eq hg]
    exact { h with }

theorem WellFormed.move (h : l.WellFormed) (hmo : Move p l l') : l'.WellFormed := by
  cases hmo with
  | calm hmo => exact h.calm hmo
  | started ck id a hg hf => exact h.startAction ck hg hf
  | admitted req q now ha =>
    have hque := ha.waits
    refine h.admitAction req q now ?_ ?_
    · intro hq
      rw [hq] at hque
      exact (Bool.and_eq_true_iff.1 hque.symm).1
    intro hq hm t ht
    rw [hq, hm] at hque
    exact free_of_not_mustQueue hque.symm ht

/-- An invariant of the moves of a well-formed ledger is an invariant of every sequence of moves. -/
theorem WellFormed.moves_induction {P : Ledger → Prop}
    (hP : ∀ l l', l.WellFormed → P l → Move p l l' → P l') (hwf : l.WellFormed) (h : P l) (hmv : Moves p l l') :
    l'.WellFormed ∧ P l' := by
  induction hmv with
  | refl => exact ⟨hwf, h⟩
  | tail _ hm ih => exact ⟨ih.1.move hm, hP _ _ ih.1 ih.2 hm⟩

/-! ### Moves that start nothing -/

/-- No action or request is new, and every action keeps its state or has ended. -/
structure Calms (l l' : Ledger) : Prop where
  order : l'.order.Sublist l.order
  action : ∀ id a', l'.actions.get id = some a' →
    ∃ a, l.actions.get id = some a ∧ a'.identity = a.identity ∧ (a'.state = a.state ∨ a'.state.isTerminal = true)
  requests : ∀ id r, l'.requests.get id = some r → l.requests.get id = some r
  queueCapacity : l'.queueCapacity = l.queueCapacity

theorem Calms.refl (l : Ledger) : Calms l l where
  order := .refl _
  action := fun _ a ha => ⟨a, ha, rfl, .inl rfl⟩
  requests := fun _ _ hr => hr
  queueCapacity := rfl

theorem Calms.trans {m : Ledger} (h : Calms l m) (h' : Calms m l') : Calms l l' where
  order := h'.order.trans h.order
  action := by
    intro id c hc
    obtain ⟨b, hb, hid, hs⟩ := h'.action id c hc
    obtain ⟨a, ha, hid', hs'⟩ := h.action id b hb
    refine ⟨a, ha, hid.trans hid', ?_⟩
    rcases hs with heq | ht
    · rw [heq]
      exact hs'
    · exact .inr ht
  requests := fun id r hr => h.requests id r (h'.requests id r hr)
  queueCapacity := h'.queueCapacity.trans h.queueCapacity

theorem CalmMove.calms (h : CalmMove p l l') : Calms l l' := by
  cases h with
  | input => exact { Calms.refl l with }
  | asked i a rsn =>
    refine ⟨by rw [updateAction_order], fun id a' ha' => ?_, ?_, updateAction_queueCapacity _ _ _⟩
    · rw [updateAction_actions, get_modify] at ha'
      split at ha'
      · obtain ⟨a, ha, rfl⟩ := Option.map_eq_some_iff.1 ha'
        exact ⟨a, ha, rfl, .inl rfl⟩
      · exact ⟨a', ha', rfl, .inl rfl⟩
    · rw [updateAction_requests]
      exact fun _ _ hr => hr
  | ended ck en ids hnd =>
    refine ⟨(updateActions_order _ _ _).symm ▸ List.Sublist.refl _, fun id a' ha' => ?_, ?_,
      updateActions_queueCapacity _ _ _⟩
    · rw [updateActions_get hnd] at ha'
      split at ha'
      · obtain ⟨a, ha, rfl⟩ := Option.map_eq_some_iff.1 ha'
        exact ⟨a, ha, en.identity_apply (ck id) a, .inr (en.isTerminal_apply (ck id) a)⟩
      · exact ⟨a', ha', rfl, .inl rfl⟩
    · exact fun _ _ hr => updateActions_requests l _ _ ▸ hr
  | evicted i =>
    exact ⟨filter_sublist, fun id a ha => ⟨a, (of_get_remove ha).2, rfl, .inl rfl⟩,
      fun id r hr => evictAction_requests_of hr, rfl⟩
  | forgot n a hg =>
    rw [forgetHistoryRecord_eq hg]
    exact { Calms.refl l with }

theorem CalmMoves.calms (h : CalmMoves p l l') : Calms l l' := by
  induction h with
  | refl => exact .refl l
  | tail _ hm ih => exact ih.trans hm.calms

/-- A queued or running action of the later ledger is one of the earlier ledger. -/
theorem Calms.live (h : Calms l l') {a' : Action} (ha' : l'.actions.get id = some a')
    {st : EnvironmentActionState} (hl : st.isTerminal = false) (hs : a'.state = st) :
    ∃ a, l.actions.get id = some a ∧ a.state = st ∧ a'.identity = a.identity := by
  obtain ⟨a, ha, hid, hst⟩ := h.action id a' ha'
  refine ⟨a, ha, ?_, hid⟩
  rcases hst with heq | ht
  · rw [← heq, hs]
  · rw [hs, hl] at ht
    cases ht

/-- An action that keeps its reservation stays stored and in the same hands. -/
theorem Calms.heldByAgent_iff (h : Calms l l') (hwf : l.WellFormed) (hwf' : l'.WellFormed)
    (hre : l'.reservations = l.reservations) {acs : ActorMap} {t : InputTarget} :
    l'.HeldByAgent acs t ↔ l.HeldByAgent acs t := by
  have hsame : ∀ {id a a'}, l.actions.get id = some a → l'.actions.get id = some a' → a'.actorId = a.actorId := by
    intro id a a' ha ha'
    obtain ⟨a₀, ha₀, hid, -⟩ := h.action id a' ha'
    rw [ha] at ha₀
    cases ha₀
    exact actorId_of_identity hid
  unfold HeldByAgent
  rw [hre]
  constructor
  · rintro ⟨id, a', hr, ha', hag⟩
    obtain ⟨a, -, ha, -⟩ := (hwf.reserved t id).1 hr
    exact ⟨id, a, hr, ha, hsame ha ha' ▸ hag⟩
  rintro ⟨id, a, hr, ha, hag⟩
  obtain ⟨a', -, ha', -⟩ := (hwf'.reserved t id).1 (hre ▸ hr)
  exact ⟨id, a', hr, ha', (hsame ha ha').symm ▸ hag⟩

theorem AsksFor.calms {acs : ActorMap} {t : InputTarget} {aid : String}
    (h : l.AsksFor acs t aid) (hc : Calms l l') : l'.AsksFor acs t aid where
  human := h.human
  alone := by
    intro id a ha hq ht
    obtain ⟨a₀, ha₀, hq₀, hid⟩ := hc.live ha rfl hq
    rw [actorId_of_identity hid]
    exact h.alone id a₀ ha₀ hq₀ (targets_of_identity hid ▸ ht)

/-- Owners and pending takeovers are only dropped. -/
theorem dropped_move (ows pend : OrdMap InputTarget String) (rcv : Bool) (hr : p.recover ∨ rcv = l.controllerRecovering)
    (how : ∀ {t o}, ows.get t = some o → l.inputOwners.get t = some o)
    (hpe : ∀ {t o}, pend.get t = some o → l.pendingTakeovers.get t = some o) :
    CalmMove p l { l with inputOwners := ows, pendingTakeovers := pend, controllerRecovering := rcv } :=
  .input ows pend rcv hr (fun h t o p ho hp => h t o p (how ho) (hpe hp))
    (fun _ _ ho => .kept (how ho)) fun _ _ hp => .kept (hpe hp)

/-- A takeover that is granted was pending. -/
theorem finalize_move (l : Ledger) : CalmMove p l l.finalizeTakeovers.1 := by
  obtain ⟨ows, pend, heq, hpe, how⟩ := finalizeTakeovers_eq l
  rw [heq]
  refine .input ows pend l.controllerRecovering (.inr rfl) ?_ ?_ ?_
  · intro h t o p ho hp
    rw [hpe] at hp
    rw [how] at ho
    by_cases hf : l.reservations.get t = none
    · simp [hf] at hp
    · simp only [hf] at ho hp
      exact h t o p ho hp
  · intro t o ho
    rw [how] at ho
    split at ho
    · rename_i hf
      rw [Option.or_eq_some_iff] at ho
      rcases ho with hp | ⟨-, ho⟩
      · exact .granted hp hf
      · exact .kept ho
    · exact .kept ho
  · intro t o hp
    rw [hpe] at hp
    split at hp
    · cases hp
    · exact .kept hp

theorem finalize_awaited (l : Ledger) : l.finalizeTakeovers.1.Awaited := by
  obtain ⟨ows, pend, heq, hpe, -⟩ := finalizeTakeovers_eq l
  rw [heq]
  intro t o hp
  rw [hpe] at hp
  split at hp
  · cases hp
  · rename_i hr
    exact hr

/-- Ending queued actions: there are no reservations and no reasons to drop. -/
theorem WellFormed.endQueued_move (h : l.WellFormed) (ck : Clock) (en : Ending) {ids : List String}
    (hnd : ids.Nodup) (hqu : ∀ id ∈ ids, ∃ a, l.actions.get id = some a ∧ a.state = .queued)
    (hal : en.Allows .queued) : CalmMove p l (l.updateActions ids (fun id => en.apply (ck id))) := by
  obtain ⟨acts, hi, heq⟩ := updateActions_eq l ids fun id => en.apply (ck id)
  have hsame : l.updateActions ids (fun id => en.apply (ck id)) =
      { l.updateActions ids fun id => en.apply (ck id) with
        reservations := l.reservations, cancellationReasons := l.cancellationReasons } := by
    rw [heq]
  rw [hsame]
  refine .ended ck en ids hnd ?_ _ (h.reserved_iff_of_queued hqu) _ (fun _ _ hr => hr) (.inr ?_)
  · intro id hm
    obtain ⟨a, ha, hq⟩ := hqu id hm
    exact ⟨a, ha, hq ▸ hal⟩
  intro id hm a ha hru
  obtain ⟨a', ha', hq⟩ := hqu id hm
  rw [ha] at ha'
  cases ha'
  rw [hq] at hru
  cases hru

/-! ### Operations -/

/-- The ledger in which an action has just ended, together with its reservations and its reason. -/
def finishing (clock : Clock) (l : Ledger) (id : String) (terminal : EnvironmentActionTerminal) : Ledger :=
  ({ l with cancellationReasons := l.cancellationReasons.remove id }.updateAction id (fun action =>
    action.finished (clock id) terminal (l.cancellationReasons.get id))).dropReservations id

/-- Either a finish is refused, or it ends a running action or a cancelled queued one, grants takeovers and
promotes. -/
theorem finish_cases (ck : Clock) (l : Ledger) (id : String) (term : EnvironmentActionTerminal) :
    ((l.finish ck id term).1 = l ∧ ∀ a, l.actions.get id = some a → a.state ≠ .running) ∨
      ∃ a, l.actions.get id = some a ∧ (a.state = .running ∨ (a.state = .queued ∧ term = .cancelled)) ∧
        (l.finish ck id term).1 = ((finishing ck l id term).finalizeTakeovers.1.promoteQueuedActions ck).1 := by
  unfold finish
  cases hget : l.actions.get id with
  | none => simp
  | some a =>
    by_cases hq : a.state = .queued
    · by_cases hc : term = .cancelled
      · right
        refine ⟨a, rfl, .inr ⟨hq, hc⟩, ?_⟩
        simp [hq, hc, finishing]
      · left
        simp [hq, hc]
    · by_cases hr : a.state = .running
      · right
        refine ⟨a, rfl, .inl hr, ?_⟩
        simp [hr, finishing]
      · left
        simp [hq, hr]

/-- A cancellation is refused, takes a queued action out of the queue and promotes, or asks a running one to stop. -/
theorem cancelAsActor_cases (ck : Clock) (l : Ledger) (aid id : String) (acs : ActorMap) :
    (l.cancelAsActor ck aid id acs).1 = l ∨
      ((∀ i ∈ [id], ∃ a, l.actions.get i = some a ∧ a.state = .queued) ∧ (l.cancelAsActor ck aid id acs).1 =
        ((l.updateActions [id] (fun _ act => act.dequeued (ck id) .requested)).promoteQueuedActions ck).1) ∨
      ((∃ a, l.actions.get id = some a ∧ a.state = .running) ∧ (l.cancelAsActor ck aid id acs).1 =
        { l with cancellationReasons := l.cancellationReasons.insertIfAbsent id .requested }.updateAction id
          (fun act => { act with cancellationRequested := true })) := by
  unfold EnvironmentActionLedger.cancelAsActor
  split
  · exact .inl rfl
  split
  · exact .inl rfl
  rename_i a ha
  split
  · exact .inl rfl
  split
  · exact .inl rfl
  rename_i hl
  split
  · rename_i hq
    exact .inr (.inl ⟨fun i hi => ⟨a, mem_singleton.1 hi ▸ ha, hq⟩, rfl⟩)
  rename_i hq
  refine .inr (.inr ⟨⟨a, ha, ?_⟩, rfl⟩)
  cases hs : a.state <;> simp [hs, EnvironmentActionState.isTerminal] at hl hq ⊢

/-- The update of one action does not look at the cancellation reasons. -/
theorem updateAction_reasons (l : Ledger) (reasons : OrdMap String EnvironmentActionCancellationReason)
    (id : String) (f : Action → Action) : { l with cancellationReasons := reasons }.updateAction id f =
      { l.updateAction id f with cancellationReasons := reasons } := by
  unfold updateAction syncHistoryAction
  dsimp only
  split <;> rfl

theorem requestActionCancellation_singleton (l : Ledger) (id : String) : (l.requestActionCancellation [id]).1 =
      { l with cancellationReasons := l.cancellationReasons.insertIfAbsent id .humanTakeover }.updateAction id
        (fun a => { a with cancellationRequested := true }) := rfl

/-- A takeover request changes nothing, asks the holder of an awaited target again, or begins a takeover. -/
theorem requestTakeover_cases (ck : Clock) (l : Ledger) (aid : String) (tg : InputTarget)
    (acs : ActorMap) (tabs : TabRegistry) : (l.requestTakeover ck aid tg acs tabs).1 = l ∨
      (l.requestTakeover ck aid tg acs tabs).1 =
        (l.requestActionCancellation (l.blockingActionIds tg acs)).1 ∨
      (JoinedAs acs .human aid ∧ l.inputOwners.get tg = none ∧ l.pendingTakeovers.get tg = none ∧
        (l.requestTakeover ck aid tg acs tabs).1 = (l.beginTakeover ck aid tg acs).1) := by
  unfold requestTakeover
  split
  · exact .inl rfl
  rename_i ac hg
  split
  · exact .inl rfl
  rename_i hh
  split
  · exact .inl rfl
  split
  · split <;> exact .inl rfl
  rename_i ho
  split
  · split
    · exact .inl rfl
    · exact .inr (.inl rfl)
  · rename_i hp
    exact .inr (.inr ⟨⟨ac, hg, not_not.1 hh⟩, ho, hp, rfl⟩)

theorem finished_move (ck : Clock) {a : Action} {term : EnvironmentActionTerminal}
    (ha : l.actions.get id = some a) (hl : a.state = .running ∨ (a.state = .queued ∧ term = .cancelled)) :
    CalmMove p l (finishing ck l id term) := by
  unfold finishing
  rw [updateAction_reasons]
  refine .ended (fun _ => ck id) (.finished term (l.cancellationReasons.get id)) [id] (nodup_singleton id)
    ?_ _ ?_ _ ?_ (.inr ?_)
  · intro i hi
    exact ⟨a, mem_singleton.1 hi ▸ ha, hl⟩
  · intro t i
    rw [get_retain]
    simp
  · exact fun i r hr => (of_get_remove hr).2
  · intro i hi _ _ _
    rw [mem_singleton.1 hi, get_remove, if_pos rfl]

section

variable (h : l.WellFormed)

include h

variable {actorId : String}

/-- The queued actions that a takeover displaces, with their ids. -/
theorem WellFormed.mem_displaced {tg : InputTarget} : id ∈ l.displacedActionIds tg actorId ↔
      ∃ a, l.actions.get id = some a ∧ a.state = .queued ∧ tg ∈ a.targets ∧ a.actorId ≠ actorId := by
  rw [displacedActionIds, mem_map]
  simp only [mem_filter, mem_filterMap, Bool.and_eq_true, decide_eq_true_eq, contains_iff_mem, and_assoc]
  constructor
  · intro hm
    obtain ⟨a, ⟨i, -, ha⟩, hq, ht, hne, rfl⟩ := hm
    have hi := (h.stored i a ha).1
    rw [hi]
    exact ⟨a, ha, hq, ht, hne⟩
  · intro hm
    obtain ⟨a, ha, hq, ht, hne⟩ := hm
    exact ⟨a, ⟨id, (h.ordered id).2 ⟨a, ha⟩, ha⟩, hq, ht, hne, (h.stored id a ha).1⟩

theorem WellFormed.displaced_nodup (tg : InputTarget) (aid : String) : (l.displacedActionIds tg aid).Nodup := by
  have hids : (l.order.filterMap l.actions.get).map EnvironmentAction.actionId = l.order := by
    rw [map_filterMap]
    refine (filterMap_congr fun i hi => ?_).trans filterMap_some
    obtain ⟨a, ha⟩ := (h.ordered i).1 hi
    rw [ha, Option.map_some, (h.stored i a ha).1]
  have hsub : (l.displacedActionIds tg aid).Sublist
      ((l.order.filterMap l.actions.get).map EnvironmentAction.actionId) := filter_sublist.map _
  rw [hids] at hsub
  exact h.nodup.sublist hsub

theorem WellFormed.displaced_move (ck : Clock) (tg : InputTarget) (aid : String) :
    CalmMove p l (l.cancelQueuedActionsDisplacedByTakeover ck tg aid).1 := by
  refine h.endQueued_move ck (.dequeued .humanTakeover) (h.displaced_nodup tg aid) ?_ rfl
  intro id hid
  obtain ⟨a, ha, hq, -⟩ := h.mem_displaced.1 hid
  exact ⟨a, ha, hq⟩

/-- What still waits for the target after the others were displaced belongs to the actor that takes it over. -/
theorem WellFormed.actor_of_displaced (ck : Clock) {tg : InputTarget} {a : Action}
    (ha : (l.cancelQueuedActionsDisplacedByTakeover ck tg actorId).1.actions.get id = some a)
    (hq : a.state = .queued) (ht : tg ∈ a.targets) : a.actorId = actorId := by
  change (l.updateActions (l.displacedActionIds tg actorId) _).actions.get id = some a at ha
  rw [updateActions_get (h.displaced_nodup tg actorId)] at ha
  split at ha
  · obtain ⟨a₀, -, rfl⟩ := Option.map_eq_some_iff.1 ha
    cases hq
  rename_i hm
  by_contra hne
  exact hm (h.mem_displaced.2 ⟨a, ha, hq, ht, hne⟩)

/-- The blocking actions of a target: none when no agent holds it, else the one action that does. -/
theorem WellFormed.blockingActionIds_cases (acs : ActorMap) (t : InputTarget) :
    (l.blockingActionIds t acs = [] ∧ ¬ l.HeldByAgent acs t) ∨
      ∃ id a, l.blockingActionIds t acs = [id] ∧ l.reservations.get t = some id ∧ l.actions.get id = some a ∧
        JoinedAs acs .agent a.actorId := by
  unfold blockingActionIds
  cases hres : l.reservations.get t with
  | none =>
    left
    refine ⟨rfl, ?_⟩
    intro hh
    obtain ⟨id, a, hr', -⟩ := hh
    rw [hres] at hr'
    cases hr'
  | some id =>
    obtain ⟨a, r, ha, -⟩ := (h.reserved t id).1 hres
    have hid := (h.stored id a ha).1
    rw [Option.bind_some, ha]
    cases hag : (acs.get a.actorId).any fun ac => decide (ac.kind = .agent) with
    | true =>
      right
      refine ⟨id, a, ?_, rfl, ha, ?_⟩
      · simp [hag, hid]
      rw [Option.any_eq_true] at hag
      obtain ⟨ac, hg, hk⟩ := hag
      exact ⟨ac, hg, by simpa using hk⟩
    | false =>
      left
      refine ⟨by simp [hag], ?_⟩
      intro hh
      obtain ⟨id', a', hr', ha', ac, hg, hk⟩ := hh
      rw [hres] at hr'
      cases hr'
      rw [ha] at ha'
      cases ha'
      simp [hg, hk] at hag

/-- The holder of a target is asked to stop, if it is an agent. -/
theorem WellFormed.requested_cases (acs : ActorMap) (t : InputTarget) :
    (l.requestActionCancellation (l.blockingActionIds t acs)).1 = l ∨
      ∃ id a, l.actions.get id = some a ∧ a.state = .running ∧
        (l.requestActionCancellation (l.blockingActionIds t acs)).1 =
          { l with cancellationReasons := l.cancellationReasons.insertIfAbsent id .humanTakeover }.updateAction id
            (fun act => { act with cancellationRequested := true }) := by
  rcases h.blockingActionIds_cases acs t with ⟨hi, -⟩ | ⟨id, a, hi, hr, ha, -⟩
  · rw [hi]
    exact .inl rfl
  · rw [hi]
    exact .inr ⟨id, a, ha, h.running_of_reserved hr ha, rfl⟩

/-- The request does not touch reservations and takeovers. -/
theorem WellFormed.requested_moves (t : InputTarget) (acs : ActorMap) :
    CalmMoves p l (l.requestActionCancellation (l.blockingActionIds t acs)).1 ∧
      (l.requestActionCancellation (l.blockingActionIds t acs)).1.reservations = l.reservations ∧
      (l.requestActionCancellation (l.blockingActionIds t acs)).1.pendingTakeovers = l.pendingTakeovers := by
  rcases h.requested_cases acs t with heq | ⟨id, a, ha, hr, heq⟩
  · rw [heq]
    exact ⟨.refl, rfl, rfl⟩
  · rw [heq]
    exact ⟨.single (.asked id a _ ha hr), updateAction_reservations _ _ _, updateAction_pendingTakeovers _ _ _⟩

/-- A takeover first cancels the queued actions of others on its target, so the new holder keeps nobody waiting.  It is
granted when no agent holds the target, and otherwise waits for the agent, which is asked to stop. -/
theorem WellFormed.beginTakeover_spec (ck : Clock) {target : InputTarget}
    {acs : ActorMap} (hac : p.actors acs) (hh : JoinedAs acs .human actorId)
    (how : l.inputOwners.get target = none) (hpe : l.pendingTakeovers.get target = none) :
    ∃ m, CalmMoves p l m ∧ m.reservations = l.reservations ∧
      (l.beginTakeover ck actorId target acs).1 = (m.promoteQueuedActions ck).1 ∧
      (((l.beginTakeover ck actorId target acs).2.outcome = .granted ∧ ¬ l.HeldByAgent acs target ∧
          m.inputOwners = l.inputOwners.insert target actorId ∧ m.pendingTakeovers = l.pendingTakeovers) ∨
        ((∃ ids, (l.beginTakeover ck actorId target acs).2.outcome = .cancellationRequired ids) ∧
          l.HeldByAgent acs target ∧ m.inputOwners = l.inputOwners ∧
          m.pendingTakeovers = l.pendingTakeovers.insert target actorId)) := by
  have hd : CalmMove p l (l.cancelQueuedActionsDisplacedByTakeover ck target actorId).1 :=
    h.displaced_move ck target actorId
  have hdo : (l.cancelQueuedActionsDisplacedByTakeover ck target actorId).1.inputOwners = l.inputOwners :=
    updateActions_inputOwners _ _ _
  have hdp : (l.cancelQueuedActionsDisplacedByTakeover ck target actorId).1.pendingTakeovers = l.pendingTakeovers :=
    updateActions_pendingTakeovers _ _ _
  have hdr : (l.cancelQueuedActionsDisplacedByTakeover ck target actorId).1.reservations = l.reservations :=
    updateActions_reservations _ _ _
  have hasks : AsksFor acs (l.cancelQueuedActionsDisplacedByTakeover ck target actorId).1 target actorId :=
    ⟨hh, fun id a ha hq ht => (h.actor_of_displaced ck ha hq ht).symm⟩
  unfold EnvironmentActionLedger.beginTakeover
  generalize l.cancelQueuedActionsDisplacedByTakeover ck target actorId = d at hd hdo hdp hdr hasks
  have hdwf := h.calm hd
  have hheld : d.1.HeldByAgent acs target ↔ l.HeldByAgent acs target :=
    hd.calms.heldByAgent_iff h hdwf hdr
  rcases hdwf.blockingActionIds_cases acs target with ⟨hi, hf⟩ | ⟨id, a, hi, hre, ha, hag⟩
  · simp only [hi, isEmpty_nil, if_true]
    refine ⟨{ d.1 with inputOwners := d.1.inputOwners.insert target actorId }, .tail (.single hd) ?_, hdr, rfl,
      .inl ⟨trivial, mt hheld.2 hf, by rw [hdo], hdp⟩⟩
    refine .input _ _ d.1.controllerRecovering (.inr rfl) ?_ ?_ fun _ _ hp => .kept hp
    · intro he t o q ho hq
      rcases of_get_insert ho with ⟨rfl, -⟩ | ⟨-, ho⟩
      · rw [hdp, hpe] at hq
        cases hq
      · exact he t o q ho hq
    · exact forall_insert (.taken acs hac hasks hf) fun _ _ ho => .kept ho
  · simp only [hi, requestActionCancellation_singleton]
    have hask : CalmMove p d.1 _ := .asked id a .humanTakeover ha (hdwf.running_of_reserved hre ha)
    obtain ⟨his, hr⟩ := updateAction_eq { d.1 with
      cancellationReasons := d.1.cancellationReasons.insertIfAbsent id .humanTakeover } id
      fun act => { act with cancellationRequested := true }
    rw [hr] at hask ⊢
    refine ⟨_, .tail (.tail (.single hd) hask) ?_, ?_, rfl,
      .inr ⟨⟨_, rfl⟩, hheld.1 ⟨id, a, hre, ha, hag⟩, hdo, congrArg (OrdMap.insert · target actorId) hdp⟩⟩
    swap
    · exact hdr
    refine .input _ _ d.1.controllerRecovering (.inr rfl) ?_ (fun _ _ ho => .kept ho) ?_
    · intro he t o q ho hq
      rcases of_get_insert hq with ⟨rfl, -⟩ | ⟨-, hq⟩
      · rw [hdo, how] at ho
        cases ho
      · exact he t o q ho hq
    · refine forall_insert (.asked acs hac (hasks.calms hask.calms) ?_) fun _ _ hp => .kept hp
      refine ⟨id, { a with cancellationRequested := true }, hre, ?_, hag, rfl⟩
      rw [get_modify, if_pos rfl, ha]
      rfl

section

variable (clock : Clock)

section

variable (hrecover : p.recover)

include hrecover

/-- The maps are cleared first, but every reserving action is among the actions that end. -/
theorem WellFormed.invalidateRuntime_moves (ows : OrdMap InputTarget String)
    (how : ∀ {t o}, ows.get t = some o → l.inputOwners.get t = some o) :
    CalmMoves p l { (l.invalidateRuntime clock).1 with inputOwners := ows } ∧
      ∀ id a, (l.invalidateRuntime clock).1.actions.get id = some a → a.state ≠ .queued := by
  have hends : CalmMove p l { l.failActionsForProcessLoss clock l.activeActionIds with
      reservations := .empty, cancellationReasons := .empty } := by
    refine .ended clock .lost l.activeActionIds (actionIdsWhere_nodup h.nodup _) ?_ _ ?_ _ nofun (.inr ?_)
    · intro id hid
      obtain ⟨-, a, ha, hli⟩ := mem_actionIdsWhere.1 hid
      exact ⟨a, ha, (Bool.not_eq_true' _).mp hli⟩
    · intro t id
      refine ⟨nofun, fun hr => ?_⟩
      obtain ⟨a, r, ha, -, hru, -⟩ := (h.reserved t id).1 hr.1
      exact absurd (mem_actionIdsWhere.2 ⟨(h.ordered id).2 ⟨a, ha⟩, a, ha, by rw [hru]; rfl⟩) hr.2
    · exact fun _ _ _ _ _ => rfl
  obtain ⟨acts, hi, hl⟩ := updateActions_eq l l.activeActionIds
    fun id => EnvironmentAction.failForProcessLoss (clock id)
  have heq : (l.invalidateRuntime clock).1 = { { l.failActionsForProcessLoss clock l.activeActionIds with
      reservations := .empty, cancellationReasons := .empty } with
      inputOwners := .empty, pendingTakeovers := .empty, controllerRecovering := false } := by
    refine Eq.trans (updateActions_frame (l := l) (by rfl) (by rfl)) ?_
    unfold failActionsForProcessLoss
    rw [hl]
  rw [heq]
  constructor
  · refine (Relation.ReflTransGen.single hends).tail (dropped_move ows .empty false (.inl hrecover) ?_ nofun)
    intro t o ho
    exact (congrArg (OrdMap.get · t) (updateActions_inputOwners l _ _)).trans (how ho)
  intro id a ha hq
  have hnd : l.activeActionIds.Nodup := actionIdsWhere_nodup h.nodup _
  change (l.updateActions l.activeActionIds _).actions.get id = some a at ha
  rw [updateActions_get hnd] at ha
  split at ha
  · obtain ⟨a₀, -, rfl⟩ := Option.map_eq_some_iff.1 ha
    cases hq
  · rename_i hm
    exact hm (mem_actionIdsWhere.2 ⟨(h.ordered id).2 ⟨a, ha⟩, a, ha, by rw [hq]; rfl⟩)

theorem WellFormed.failControllerActions_moves
    (hle : p.leak ∨ ∀ id ∈ l.controllerActionIds, l.cancellationReasons.get id = none) :
    CalmMoves p l (({ l with controllerRecovering := true }.failActionsForProcessLoss clock
      l.controllerActionIds).dropReservationsOf l.controllerActionIds) := by
  refine (Relation.ReflTransGen.single (dropped_move l.inputOwners l.pendingTakeovers true (.inl hrecover) id id)).tail ?_
  generalize hids : l.controllerActionIds = ids at hle
  obtain ⟨acts, hi, hl⟩ := updateActions_eq { l with controllerRecovering := true } ids
    fun id => Ending.lost.apply (clock id)
  have hsame : ({ l with controllerRecovering := true }.failActionsForProcessLoss clock ids).dropReservationsOf ids =
      { { l with controllerRecovering := true }.updateActions ids fun id => Ending.lost.apply (clock id) with
        reservations := l.reservations.retain fun _ rsv => !ids.contains rsv
        cancellationReasons := l.cancellationReasons } := by
    show dropReservationsOf (updateActions _ ids fun id => Ending.lost.apply (clock id)) ids = _
    rw [hl]
    rfl
  rw [hsame]
  refine .ended clock .lost ids (hids ▸ actionIdsWhere_nodup h.nodup _) ?_ _ ?_ _ (fun _ _ hr => hr)
    (hle.imp_right fun hn id hid _ _ _ => hn id hid)
  · intro id hid
    rw [← hids] at hid
    obtain ⟨-, a, ha, hru⟩ := mem_actionIdsWhere.1 hid
    rw [Bool.and_eq_true, decide_eq_true_eq] at hru
    refine ⟨a, ha, ?_⟩
    rw [hru.1]
    rfl
  · intro t id
    rw [get_retain]
    simp

theorem WellFormed.failStaleActions_moves (gen : Nat) (tabs : TabRegistry) :
    CalmMoves p l ({ l with controllerRecovering := false }.failActionsForProcessLoss clock
      (l.staleActionIds gen tabs)) := by
  have hframe : WellFormed { l with controllerRecovering := false } := { h with }
  refine (Relation.ReflTransGen.single
    (dropped_move l.inputOwners l.pendingTakeovers false (.inl hrecover) id id)).tail
    (hframe.endQueued_move clock .lost (actionIdsWhere_nodup h.nodup _) ?_ rfl)
  intro id hid
  obtain ⟨-, a, ha, hq⟩ := mem_actionIdsWhere.1 hid
  rw [Bool.and_eq_true, decide_eq_true_eq] at hq
  exact ⟨a, ha, hq.1⟩

end

end

end

theorem forgetHistoryRecord_get (l : Ledger) (n m : Nat) :
    (l.forgetHistoryRecord n).historyRecords.get m = if m = n then none else l.historyRecords.get m := by
  unfold forgetHistoryRecord
  split
  · rename_i hn
    split
    · rename_i hm
      rw [hm, hn]
    · rfl
  · exact get_remove _ _ _

theorem compactTransientHistory_eq (l : Ledger) (cap : Nat) :
    ∃ recs seqs, l.compactTransientHistory cap = { l with historyRecords := recs, historyActionSequences := seqs } := by
  apply foldlRecOn (motive := fun m => ∃ recs seqs, m =
    { l with historyRecords := recs, historyActionSequences := seqs }) _ forgetHistoryRecord ⟨_, _, rfl⟩
  rintro _ ⟨recs, seqs, rfl⟩ n _
  unfold forgetHistoryRecord
  split <;> exact ⟨_, _, rfl⟩

/-- The records to forget are chosen before the loop; the loop only removes records, so they still have no key. -/
theorem compactTransientHistory_moves (l : Ledger) (cap : Nat) (hf : p.forget) :
    CalmMoves p l (l.compactTransientHistory cap) := by
  have key : ∀ (ns : List Nat) (l : Ledger),
      (∀ n ∈ ns, ∀ a, l.historyRecords.get n = some a → a.idempotencyKey = none) →
      CalmMoves p l (ns.foldl forgetHistoryRecord l) := by
    intro ns
    induction ns with
    | nil => exact fun l _ => .refl
    | cons n ns ih =>
      intro l hkl
      have hrest : CalmMoves p (l.forgetHistoryRecord n) (ns.foldl forgetHistoryRecord (l.forgetHistoryRecord n)) := by
        apply ih
        intro m hm a ha
        rw [forgetHistoryRecord_get] at ha
        split at ha
        · cases ha
        · exact hkl m (by simp [hm]) a ha
      cases hget : l.historyRecords.get n with
      | none =>
        have hsame : l.forgetHistoryRecord n = l := by
          unfold forgetHistoryRecord
          rw [hget]
        rw [hsame] at hrest
        rw [foldl_cons, hsame]
        exact hrest
      | some a => exact hrest.head (.forgot n a hget (hkl n (by simp) a hget) hf)
  apply key _ l
  intro n hn a ha
  obtain ⟨e, he, rfl⟩ := mem_map.1 (mem_of_mem_take hn)
  rw [mem_filter, Bool.and_eq_true, Option.isNone_iff_eq_none] at he
  have hget : l.historyRecords.get e.1 = some e.2 := mem_entries.1 he.1
  rw [hget] at ha
  cases ha
  exact he.2.1

/-- Where the queue is not promoted nothing could have started: the controller recovers, nothing waits, or the targets
are reserved as they were. -/
def Quiet (p : Allowed) (l l' : Ledger) : Prop :=
  l'.controllerRecovering = true ∨ (∀ id a, l'.actions.get id = some a → a.state ≠ .queued) ∨
    (¬ p.recover ∧ l'.reservations = l.reservations)

/-- The shape of an operation. -/
inductive Phases (p : Allowed) (l : Ledger) : Ledger → Prop
  | calm {m : Ledger} (hmoves : CalmMoves p l m) (hquiet : Quiet p l m)
      (hawaited : l.Awaited → m.Awaited) : Phases p l m
  | promoted {m : Ledger} (clock : Clock) (hmoves : CalmMoves p l m)
      (hawaited : l.Awaited → m.Awaited) : Phases p l (m.promoteQueuedActions clock).1
  | admitted (request : Request) (queued : Bool) (now : Nat) (hadmits : l.Admits request queued)
      (hsubmits : p.submits request) : Phases p l (l.admitAction request queued now)

section

variable (hrecover : ¬ p.recover)

include hrecover

theorem Phases.refl : Phases p l l := .calm .refl (.inr (.inr ⟨hrecover, rfl⟩)) id

theorem Phases.of_same {m : Ledger} (hm : CalmMoves p l m) (hr : m.reservations = l.reservations)
    (hpending : ∀ {t o}, m.pendingTakeovers.get t = some o → l.pendingTakeovers.get t = some o) : Phases p l m :=
  .calm hm (.inr (.inr ⟨hrecover, hr⟩)) fun h t o hp => hr ▸ h t o (hpending hp)

end

/-- The promotion only starts actions. -/
theorem Phases.moves (h : Phases p l l') : Moves p l l' := by
  cases h with
  | calm hmv => exact hmv.moves
  | promoted ck hmv =>
    exact promote_induction ck (P := Moves p l) (fun _ id a hm hg hf => hm.tail (.started ck id a hg hf)) _
      hmv.moves
  | admitted req q now ha hs => exact .single (.admitted req q now ha hs)

/-! ### Runs -/

end EnvironmentActionLedger

inductive LedgerOp
  | submit (request : EnvironmentActionRequest) (lifecycle : EnvironmentLifecycle) (runtimeGeneration : Nat)
      (actors : ActorMap) (tabs : TabRegistry) (now : Nat)
  | finish (clock : Clock) (actionId : String) (terminal : EnvironmentActionTerminal)
  | cancelAsActor (clock : Clock) (actorId actionId : String) (actors : ActorMap)
  | requestTakeover (clock : Clock) (actorId : String) (target : InputTarget) (actors : ActorMap)
      (tabs : TabRegistry)
  | release (actorId : String) (target : InputTarget)
  | releaseActorInput (actorId : String)
  | releaseActorInputKeepingTabs (actorId : String)
  | releaseTabInput (actorId : String)
  | transferTabOwnership (source destination : String)
  | retainInputTargets (tabs : TabRegistry)
  | clearOwnership
  | invalidateRuntime (clock : Clock)
  | invalidateAfterKernelRestart (clock : Clock) (actors : ActorMap)
  | beginControllerRecovery (clock : Clock)
  | completeControllerRecovery (clock : Clock) (runtimeGeneration : Nat) (tabs : TabRegistry)
  | compactTerminalActions
  | compactTransientHistory (capacity : Nat)

def LedgerOp.apply (l : Ledger) : LedgerOp → Ledger
  | submit request lifecycle runtimeGeneration actors tabs now =>
    (l.submit request lifecycle runtimeGeneration actors tabs now).1
  | finish clock actionId terminal => (l.finish clock actionId terminal).1
  | cancelAsActor clock actorId actionId actors => (l.cancelAsActor clock actorId actionId actors).1
  | requestTakeover clock actorId target actors tabs => (l.requestTakeover clock actorId target actors tabs).1
  | release actorId target => (l.release actorId target).1
  | releaseActorInput actorId => l.releaseActorInput actorId
  | releaseActorInputKeepingTabs actorId => l.releaseActorInputKeepingTabs actorId
  | releaseTabInput actorId => l.releaseTabInput actorId
  | transferTabOwnership source destination => l.transferTabOwnership source destination
  | retainInputTargets tabs => (l.retainInputTargets tabs).1
  | clearOwnership => l.clearOwnership.1
  | invalidateRuntime clock => (l.invalidateRuntime clock).1
  | invalidateAfterKernelRestart clock actors => (l.invalidateAfterKernelRestart clock actors).1
  | beginControllerRecovery clock => (l.beginControllerRecovery clock).1
  | completeControllerRecovery clock runtimeGeneration tabs =>
    (l.completeControllerRecovery clock runtimeGeneration tabs).1
  | compactTerminalActions => l.compactTerminalActions
  | compactTransientHistory capacity => l.compactTransientHistory capacity

/-- The operation ends a running action and leaves its cancellation reason behind. -/
def LedgerOp.leavesReason (l : Ledger) : LedgerOp → Bool
  | .beginControllerRecovery _ => l.controllerActionIds.any (fun id => l.cancellationReasons.contains id)
  | _ => false

/-- A tab changes hands. -/
def LedgerOp.handsOver (l : Ledger) (t : InputTarget) (o : String) : LedgerOp → Prop
  | .transferTabOwnership source destination =>
    o = destination ∧ t.isBrowserTab = true ∧ l.inputOwners.get t = some source
  | _ => False

def LedgerOp.request : LedgerOp → Option EnvironmentActionRequest
  | .submit request _ _ _ _ _ => some request
  | _ => none

/-- The actors among which a request or a takeover looks up its actor. -/
def LedgerOp.actors : LedgerOp → Option ActorMap
  | .submit _ _ _ actors _ _ | .requestTakeover _ _ _ actors _ => some actors
  | _ => none

/-- Whether the browser controller recovers after the operation, where that changes. -/
def LedgerOp.recovering : LedgerOp → Option Bool
  | .beginControllerRecovery _ => some true
  | .completeControllerRecovery .. | .invalidateRuntime _ | .invalidateAfterKernelRestart .. => some false
  | _ => none

def LedgerOp.allowed (l : Ledger) (op : LedgerOp) : EnvironmentActionLedger.Allowed where
  leak := op.leavesReason l = true
  evict := op = .compactTerminalActions
  forget := ∃ capacity, op = .compactTransientHistory capacity
  recover := op.recovering ≠ none
  hands := fun t o => op.handsOver l t o
  actors := fun actors => op.actors = some actors
  submits := fun request => op.request = some request ∧
    ∃ actors, op.actors = some actors ∧ actors.contains request.actorId = true

namespace EnvironmentActionLedger

variable {l : Ledger}

def run (l : Ledger) (ops : List LedgerOp) : Ledger := ops.foldl LedgerOp.apply l

theorem transferTabOwnership_move (l : Ledger) (src dest : String) :
    CalmMove ((LedgerOp.transferTabOwnership src dest).allowed l) l (l.transferTabOwnership src dest) := by
  have hown : ∀ t o, (l.transferTabOwnership src dest).inputOwners.get t = some o →
      ∃ o₀, l.inputOwners.get t = some o₀ ∧ (o = o₀ ∨ o = dest ∧ o₀ = src ∧ t.isBrowserTab = true) := by
    intro t o ho
    change (l.inputOwners.mapValues _).get t = some o at ho
    rw [get_mapValues, Option.map_eq_some_iff] at ho
    obtain ⟨o₀, ho₀, heq⟩ := ho
    refine ⟨o₀, ho₀, ?_⟩
    split at heq
    · rename_i hm
      rw [Bool.and_eq_true, decide_eq_true_eq] at hm
      exact .inr ⟨heq.symm, hm⟩
    · exact .inl heq.symm
  refine .input _ l.pendingTakeovers l.controllerRecovering (.inr rfl) ?_ ?_ fun _ _ hp => .kept hp
  · intro he t o q ho hq
    obtain ⟨o₀, ho₀, -⟩ := hown t o ho
    exact he t o₀ q ho₀ hq
  intro t o ho
  obtain ⟨o₀, ho₀, rfl | ⟨rfl, rfl, ht⟩⟩ := hown t o ho
  · exact .kept ho₀
  · exact .handed o₀ ho₀ ⟨rfl, ht, ho₀⟩

theorem updateActions_recovering (l : Ledger) (ids : List String) (f : String → Action → Action) :
    (l.updateActions ids f).controllerRecovering = l.controllerRecovering := by
  obtain ⟨acts, hi, heq⟩ := updateActions_eq l ids f
  rw [heq]

theorem finalize_recovering (l : Ledger) : l.finalizeTakeovers.1.controllerRecovering = l.controllerRecovering := by
  obtain ⟨ows, pend, heq, -⟩ := finalizeTakeovers_eq l
  rw [heq]

theorem promote_recovering (l : Ledger) (ck : Clock) :
    (l.promoteQueuedActions ck).1.controllerRecovering = l.controllerRecovering :=
  promote_induction ck (P := fun m => m.controllerRecovering = l.controllerRecovering) (fun _ _ _ h _ _ => h) l rfl

theorem apply_recovering {op : LedgerOp} {recovering : Bool} (h : op.recovering = some recovering) :
    (op.apply l).controllerRecovering = recovering := by
  cases op with
  | beginControllerRecovery ck =>
    cases h
    exact (finalize_recovering _).trans (updateActions_recovering _ _ _)
  | completeControllerRecovery ck gen tabs =>
    cases h
    exact ((promote_recovering _ ck).trans (finalize_recovering _)).trans (updateActions_recovering _ _ _)
  | invalidateRuntime | invalidateAfterKernelRestart =>
    cases h
    exact updateActions_recovering _ _ _
  | _ => cases h

theorem WellFormed.apply_phases (h : l.WellFormed) (op : LedgerOp) : Phases (op.allowed l) l (op.apply l) := by
  have hdrop : ∀ {p : Allowed} {ows pend : OrdMap InputTarget String}, ¬ p.recover →
      (∀ {t o}, ows.get t = some o → l.inputOwners.get t = some o) →
      (∀ {t o}, pend.get t = some o → l.pendingTakeovers.get t = some o) →
      Phases p l { l with inputOwners := ows, pendingTakeovers := pend } := fun hrc how hpe =>
    .of_same hrc (.single (dropped_move _ _ l.controllerRecovering (.inr rfl) how hpe)) rfl hpe
  cases op with
  | submit req life gen acs tabs now =>
    show Phases _ l (l.submit req life gen acs tabs now).1
    rcases submit_cases l req life gen acs tabs now with
      ⟨heq, -⟩ | ⟨queued, hq, heq, -, hactr, hnew, -, hrej, hroom⟩
    · rw [heq]
      exact .refl (not_not.2 rfl)
    · rw [heq]
      exact .admitted req queued now ⟨hq, hnew, hrej, hroom⟩ ⟨rfl, acs, rfl, hactr⟩
  | finish ck id term =>
    show Phases _ l (l.finish ck id term).1
    rcases finish_cases ck l id term with ⟨heq, -⟩ | ⟨a, ha, hl, heq⟩
    · rw [heq]
      exact .refl (not_not.2 rfl)
    rw [heq]
    exact .promoted ck (.tail (.single (finished_move ck ha hl)) (finalize_move _))
      fun _ => finalize_awaited _
  | cancelAsActor ck aid id acs =>
    show Phases _ l (l.cancelAsActor ck aid id acs).1
    rcases cancelAsActor_cases ck l aid id acs with heq | ⟨hq, heq⟩ | ⟨⟨a, ha, hru⟩, heq⟩
    · rw [heq]
      exact .refl (not_not.2 rfl)
    · rw [heq]
      refine .promoted ck (.single
        (h.endQueued_move (fun _ => ck id) (.dequeued .requested) (nodup_singleton id) hq rfl)) ?_
      unfold Awaited
      rw [updateActions_pendingTakeovers, updateActions_reservations]
      exact fun haw => haw
    · rw [heq]
      exact .of_same (not_not.2 rfl) (.single (.asked id a .requested ha hru)) (updateAction_reservations _ _ _)
        fun hp => by rwa [updateAction_pendingTakeovers] at hp
  | requestTakeover ck aid tg acs tabs =>
    show Phases _ l (l.requestTakeover ck aid tg acs tabs).1
    rcases requestTakeover_cases ck l aid tg acs tabs with heq | heq | ⟨hh, hown, hpe, heq⟩
    · rw [heq]
      exact .refl (not_not.2 rfl)
    · obtain ⟨hmv, hr, hpe⟩ := h.requested_moves tg acs
      rw [heq]
      exact .of_same (not_not.2 rfl) hmv hr fun hp => hpe ▸ hp
    · obtain ⟨m, hmv, hr, hb, hi⟩ := h.beginTakeover_spec ck
        (p := (LedgerOp.requestTakeover ck aid tg acs tabs).allowed l) rfl hh hown hpe
      rw [heq, hb]
      refine .promoted ck hmv fun haw => ?_
      unfold Awaited
      rw [hr]
      rcases hi with ⟨-, -, -, hpend⟩ | ⟨-, ⟨id, a, hhe, -⟩, -, hpend⟩
      · rw [hpend]
        exact haw
      · rw [hpend]
        exact forall_insert (hhe ▸ Option.some_ne_none id) haw
  | release aid tg =>
    show Phases _ l (l.release aid tg).1
    unfold EnvironmentActionLedger.release
    split
    · split
      · exact hdrop (not_not.2 rfl) (fun ho => (of_get_remove ho).2) id
      · exact .refl (not_not.2 rfl)
    · exact .refl (not_not.2 rfl)
  | transferTabOwnership src dest =>
    exact .of_same (not_not.2 rfl) (.single (transferTabOwnership_move l src dest)) rfl fun hp => hp
  | clearOwnership => exact hdrop (not_not.2 rfl) nofun nofun
  | invalidateRuntime ck =>
    have hemp : (l.invalidateRuntime ck).1.inputOwners = .empty := updateActions_inputOwners _ _ _
    have hnone : (l.invalidateRuntime ck).1.pendingTakeovers = .empty := updateActions_pendingTakeovers _ _ _
    obtain ⟨hmv, he⟩ := h.invalidateRuntime_moves ck (p := (LedgerOp.invalidateRuntime ck).allowed l)
      (Option.some_ne_none _) (l.invalidateRuntime ck).1.inputOwners (by rw [hemp]; nofun)
    exact .calm hmv (.inr (.inl he)) fun _ t o hp => nomatch hnone ▸ hp
  | invalidateAfterKernelRestart ck acs =>
    have hnone : (l.invalidateRuntime ck).1.pendingTakeovers = .empty := updateActions_pendingTakeovers _ _ _
    obtain ⟨hmv, he⟩ := h.invalidateRuntime_moves ck
      (p := (LedgerOp.invalidateAfterKernelRestart ck acs).allowed l) (Option.some_ne_none _) _
      get_of_get_retain
    exact .calm hmv (.inr (.inl he)) fun _ t o hp => nomatch hnone ▸ hp
  | beginControllerRecovery ck =>
    refine .calm ((h.failControllerActions_moves ck (Option.some_ne_none _) ?_).tail (finalize_move _)) (.inl ?_)
      fun _ => finalize_awaited _
    · cases hleak : l.controllerActionIds.any l.cancellationReasons.contains with
      | true => exact .inl hleak
      | false =>
        right
        intro id hid
        exact contains_eq_false.1 (by simpa using any_eq_false.1 hleak id hid)
    · exact (apply_recovering rfl : (LedgerOp.apply l (.beginControllerRecovery ck)).controllerRecovering = true)
  | completeControllerRecovery ck gen tabs =>
    exact .promoted ck ((h.failStaleActions_moves ck (Option.some_ne_none _) gen tabs).tail (finalize_move _))
      fun _ => finalize_awaited _
  | compactTerminalActions =>
    have hcmp : CalmMoves (LedgerOp.compactTerminalActions.allowed l) l l.compactTerminalActions ∧
        l.compactTerminalActions.reservations = l.reservations ∧
        l.compactTerminalActions.pendingTakeovers = l.pendingTakeovers :=
      compact_induction (P := fun m => CalmMoves _ l m ∧ m.reservations = l.reservations ∧
        m.pendingTakeovers = l.pendingTakeovers)
        (fun _ id a hm ha ht => ⟨hm.1.tail (.evicted id a ha ht rfl), hm.2⟩) h.nodup ⟨.refl, rfl, rfl⟩
    obtain ⟨hmv, hr, hpe⟩ := hcmp
    exact .of_same (not_not.2 rfl) hmv hr fun hp => hpe ▸ hp
  | compactTransientHistory cap =>
    have hmv : CalmMoves ((LedgerOp.compactTransientHistory cap).allowed l) l _ :=
      compactTransientHistory_moves l cap (Exists.intro cap rfl)
    show Phases _ l (l.compactTransientHistory cap)
    obtain ⟨recs, seqs, heq⟩ := compactTransientHistory_eq l cap
    rw [heq] at hmv ⊢
    exact .of_same (not_not.2 rfl) hmv rfl fun hp => hp
  | _ => exact hdrop (not_not.2 rfl) get_of_get_retain get_of_get_retain

theorem WellFormed.apply_moves (h : l.WellFormed) (op : LedgerOp) : Moves (op.allowed l) l (op.apply l) :=
  (h.apply_phases op).moves

theorem WellFormed.apply (h : l.WellFormed) (op : LedgerOp) : (op.apply l).WellFormed :=
  (h.moves_induction (P := fun _ => True) (fun _ _ _ h _ => h) trivial (h.apply_moves op)).1

theorem run_wellFormed (tcap qcap : Nat) (ops : List LedgerOp) : ((new tcap qcap).run ops).WellFormed :=
  foldlRecOn ops LedgerOp.apply (new_wellFormed tcap qcap) fun _ h op _ => h.apply op

/-- After every run a target is reserved by an action exactly while the action is stored, running, mutating and has
the target.  Two running mutating actions never share a target, and a reservation does not outlive its action. -/
theorem reservations_exclusive (terminalCapacity queueCapacity : Nat) (ops : List LedgerOp) :
    let l := (new terminalCapacity queueCapacity).run ops
    (∀ t id, l.reservations.get t = some id ↔ l.RunsOn id t) ∧
      (∀ t id id', l.RunsOn id t → l.RunsOn id' t → id = id') ∧
      (∀ id, (∀ a, l.actions.get id = some a → a.state ≠ .running) → ∀ t, l.reservations.get t ≠ some id) := by
  intro l
  have h : l.WellFormed := run_wellFormed terminalCapacity queueCapacity ops
  refine ⟨h.reserved, ?_, ?_⟩
  · intro t id id' hid hid'
    have h1 := (h.reserved t id).2 hid
    have h2 := (h.reserved t id').2 hid'
    rw [h1] at h2
    exact Option.some.inj h2
  · intro id hn t hr
    obtain ⟨a, r, ha, -, hru, -⟩ := (h.reserved t id).1 hr
    exact hn a ha hru

end EnvironmentActionLedger

end Chariox
