import Chariox.RoomEnvironment.QueueOrder
import Chariox.RoomEnvironment.Runs

/-!
# The queue does not strand

Outside a recovery of the browser controller an action waits only while another runs: every operation that frees a
target promotes the queue, and what the promotion passes over waits for a target that is reserved.  Nobody waits for a
target that somebody else owns or awaits, and there are never more waiting actions than the queue has room for.
-/

namespace Chariox

namespace EnvironmentActionLedger

variable {l l' m : Ledger} {p : Allowed} {id : String} {a : Action}

/-- While an action waits, some target is reserved. -/
def Busy (l : Ledger) : Prop :=
  ∀ id a, l.actions.get id = some a → a.state = .queued → ∃ t, l.reservations.get t ≠ none

/-- Queued actions wait for reservations only, and there is room for them. -/
structure Queues (l : Ledger) : Prop extends Waits l where
  bounded : l.queuedCount ≤ l.queueCapacity

theorem Thins.refl (l : Ledger) : Thins l l := (Calms.refl l).thins

theorem Thins.trans (h : Thins l m) (h' : Thins m l') : Thins l l' where
  order := h'.order.trans h.order
  action := by
    intro id c hc
    obtain ⟨b, hb, hid, hq⟩ := h'.action id c hc
    obtain ⟨a, ha, hid', hq'⟩ := h.action id b hb
    exact ⟨a, ha, hid.trans hid', hq' ∘ hq⟩

/-- Only actions under new ids are counted that were not counted before. -/
theorem queuedCount_le (new : List String) (h : ∀ id a, l'.actions.get id = some a → a.state = .queued →
    id ∈ new ∨ ∃ b, l.actions.get id = some b ∧ b.state = .queued) : l'.queuedCount ≤ new.length + l.queuedCount := by
  refine OrdMap.length_filter_values_le new fun id a ha hq => ?_
  rcases h id a ha (of_decide_eq_true hq) with hn | ⟨b, hb, hq'⟩
  · exact .inl hn
  · exact .inr ⟨b, hb, decide_eq_true hq'⟩

theorem Thins.queuedCount_le (h : Thins l l') : l'.queuedCount ≤ l.queuedCount := by
  refine (EnvironmentActionLedger.queuedCount_le [] fun id a ha hq => .inr ?_).trans (Nat.zero_add _).le
  obtain ⟨b, hb, -, hq'⟩ := h.action id a ha
  exact ⟨b, hb, hq' hq⟩

theorem CalmMove.recovering (h : CalmMove p l l') (hp : ¬ p.recover) :
    l'.controllerRecovering = l.controllerRecovering := by
  cases h with
  | input ows pend rcv hr => exact hr.resolve_left hp
  | asked id a rsn =>
    obtain ⟨hi, heq⟩ := updateAction_eq { l with
      cancellationReasons := l.cancellationReasons.insertIfAbsent id rsn } id
      fun act => { act with cancellationRequested := true }
    rw [heq]
  | ended => exact updateActions_recovering _ _ _
  | evicted => rfl
  | forgot n a hg => rw [forgetHistoryRecord_eq hg]

theorem CalmMoves.recovering (h : CalmMoves p l l') (hp : ¬ p.recover) :
    l'.controllerRecovering = l.controllerRecovering := by
  induction h with
  | refl => rfl
  | tail _ hm ih => rw [hm.recovering hp, ih]

section

variable (h : l.Queues)

include h

theorem Queues.calms (hm : CalmMoves p l l') (hh : ∀ t o, ¬ p.hands t o) : l'.Queues := by
  refine ⟨h.toWaits.calms hm fun t o hha => absurd hha (hh t o), ?_⟩
  rw [hm.calms.queueCapacity]
  exact hm.calms.thins.queuedCount_le.trans h.bounded

/-- What the promotion leaves waiting waits for a reserved target. -/
theorem Queues.promote (ck : Clock) : (l.promoteQueuedActions ck).1.Queues ∧
    (l.controllerRecovering = false → (l.promoteQueuedActions ck).1.Busy) := by
  cases hrec : l.controllerRecovering with
  | true =>
    unfold promoteQueuedActions
    rw [hrec]
    exact ⟨h, nofun⟩
  | false =>
    have hscan : (l.promoteQueuedActions ck).1.Waits ∧ Thins l (l.promoteQueuedActions ck).1 ∧
        (l.promoteQueuedActions ck).1.queueCapacity = l.queueCapacity ∧
        (l.promoteQueuedActions ck).1.order = l.order ∧ (l.promoteQueuedActions ck).1.Blocked l.order := by
      refine promote_scan ck (I := fun done m => m.Waits ∧ Thins l m ∧ m.queueCapacity = l.queueCapacity ∧
        m.order = l.order ∧ m.Blocked done) ?_ ⟨h.toWaits, .refl l, rfl, rfl, nofun⟩ hrec
      rintro done id rest s - ⟨hw, ht, hc, hs, hb⟩
      obtain ⟨hw', hb'⟩ := hw.promoteStep ck hb id
      rcases promoteStep_cases ck s id with ⟨heq, -⟩ | ⟨act, hg, hp, heq⟩
      · rw [heq] at hb' ⊢
        exact ⟨hw, ht, hc, hs, hb'⟩
      · rw [heq] at hw' hb' ⊢
        exact ⟨hw', ht.trans (hw.startAction ck hg hp).1, hc, hs, hb'⟩
    obtain ⟨hw, ht, hc, hs, hb⟩ := hscan
    refine ⟨⟨hw, ?_⟩, fun _ id a ha hq => ?_⟩
    · rw [hc]
      exact ht.queuedCount_le.trans h.bounded
    have hmem := (hw.wellFormed.ordered id).2 ⟨a, ha⟩
    rw [hs] at hmem
    obtain ⟨t, -, hr⟩ := hb id hmem a ha hq
    exact ⟨t, hr⟩

/-- An action that is queued found a target reserved, or another action waiting for one. -/
theorem Queues.admitAction {req : Request} {q : Bool} (had : l.Admits req q)
    (now : Nat) : (l.admitAction req q now).Queues ∧ (l.Busy → (l.admitAction req q now).Busy) := by
  have hque : ∀ i a, (l.admitAction req q now).actions.get i = some a → a.state = .queued →
      i = actionIdOf l.nextSequence ∧ q = true ∨ l.actions.get i = some a ∧ a.state = .queued := by
    intro i a ha hq
    rcases OrdMap.of_get_insert ha with ⟨hi, rfl⟩ | ⟨-, ha⟩
    · cases q with
      | true => exact .inl ⟨hi, rfl⟩
      | false => cases hq
    · exact .inr ⟨ha, hq⟩
  refine ⟨⟨h.toWaits.admitAction had now, ?_⟩, fun hbu id a ha hq => ?_⟩
  · have hcap : (l.admitAction req q now).queueCapacity = l.queueCapacity := by
      unfold EnvironmentActionLedger.admitAction
      split <;> rfl
    rw [hcap]
    cases hq : q with
    | true =>
      have hroom := had.room hq
      have hcnt := @queuedCount_le l (l.admitAction req q now) [actionIdOf l.nextSequence]
        fun i a ha hq => (hque i a ha hq).imp fun hn => by simp [hn.1] fun ho => ⟨a, ho⟩
      rw [hq, List.length_singleton] at hcnt
      omega
    | false =>
      have hcnt := @queuedCount_le l (l.admitAction req q now) []
        fun i a ha hqa => (hque i a ha hqa).imp (fun hn => by simp [hq] at hn) fun ho => ⟨a, ho⟩
      rw [hq, List.length_nil, Nat.zero_add] at hcnt
      exact hcnt.trans h.bounded
  · have hrsv : ∃ t, l.reservations.get t ≠ none := by
      rcases hque id a ha hq with ⟨-, hq⟩ | ⟨ha, hq⟩
      · have hwts := had.waits
        rw [hq] at hwts
        obtain ⟨t, -, ht⟩ := List.any_eq_true.1 (Bool.and_eq_true_iff.1 hwts.symm).2
        rcases Bool.or_eq_true_iff.1 ht with hr | hot
        · obtain ⟨i, hi⟩ := OrdMap.contains_iff.1 hr
          exact ⟨t, hi ▸ Option.some_ne_none i⟩
        obtain ⟨b, hb, hqb⟩ := List.any_eq_true.1 hot
        obtain ⟨i, hi⟩ := OrdMap.mem_values.1 hb
        exact hbu i b hi (of_decide_eq_true (Bool.and_eq_true_iff.1 hqb).1)
      · exact hbu id a ha hq
    obtain ⟨t, ht⟩ := hrsv
    refine ⟨t, ?_⟩
    rw [admitAction_reservations]
    split
    · exact Option.some_ne_none _
    · exact ht

theorem Queues.apply (op : LedgerOp) (hh : ∀ t o, ¬ op.handsOver l t o) : (op.apply l).Queues ∧
    ((op.apply l).controllerRecovering = false → (op.recovering = none → l.Busy) → (op.apply l).Busy) := by
  have hphs := h.wellFormed.apply_phases op
  generalize op.apply l = l' at hphs
  cases hphs with
  | calm hm hqt =>
    refine ⟨h.calms hm hh, fun hr hbu id a ha hq => ?_⟩
    rcases hqt with ht | hn | ⟨hrc, hre⟩
    · exact nomatch hr.symm.trans ht
    · exact absurd hq (hn id a ha)
    · obtain ⟨b, hb, hqb, -⟩ := hm.calms.live ha rfl hq
      rw [hre]
      exact hbu (not_not.1 hrc) id b hb hqb
  | promoted ck hm =>
    obtain ⟨hqs, hbu⟩ := (h.calms hm hh).promote ck
    refine ⟨hqs, fun hr _ => hbu ?_⟩
    rw [← hr, promote_recovering]
  | admitted req q now had hs =>
    have hr : op.recovering = none := by
      cases op with
      | submit => rfl
      | _ => cases hs.1
    obtain ⟨hqs, hbu⟩ := h.admitAction had now
    exact ⟨hqs, fun _ ho => hbu (ho hr)⟩

theorem Queues.apply_recovering (op : LedgerOp) :
    (op.apply l).controllerRecovering = op.recovering.getD l.controllerRecovering := by
  cases hop : op.recovering with
  | some => exact EnvironmentActionLedger.apply_recovering hop
  | none =>
    have hphs := h.wellFormed.apply_phases op
    generalize op.apply l = l' at hphs
    cases hphs with
    | calm hm => exact hm.recovering (not_not.2 hop)
    | promoted ck hm => exact (promote_recovering _ ck).trans (hm.recovering (not_not.2 hop))
    | admitted =>
      unfold EnvironmentActionLedger.admitAction
      split <;> rfl

end

end EnvironmentActionLedger

open EnvironmentActionLedger

namespace RoomEnvironment

/-- The queue of the room's ledger flows, and outside a recovery it is not stranded. -/
structure Flows (l : Ledger) (recovering : Bool) : Prop where
  queues : l.Queues
  recovered : recovering = false → l.controllerRecovering = false
  busy : recovering = false → l.Busy

theorem Flows.apply {l : Ledger} {rcv : Bool} (h : Flows l rcv) {op : LedgerOp}
    {acs : ActorMap} (hop : op.CalledWith acs) : Flows (op.apply l) (op.recovering.getD rcv) := by
  obtain ⟨hqs, hb⟩ := h.queues.apply op (fun t o hh => by
    cases op with
    | transferTabOwnership => exact hop
    | _ => exact hh)
  have hrcvd : op.recovering.getD rcv = false → (op.apply l).controllerRecovering = false := by
    intro hf
    rw [h.queues.apply_recovering op]
    cases hr : op.recovering with
    | none =>
      rw [hr] at hf
      exact h.recovered hf
    | some =>
      rw [hr] at hf
      exact hf
  refine ⟨hqs, hrcvd, fun hf => hb (hrcvd hf) fun hn => ?_⟩
  rw [hn] at hf
  exact h.busy hf

theorem Calls.flows {e : Room} {drp : InputTarget → Bool} {c : (ActorMap × Ledger) × Bool} (hc : Calls e drp c)
    (h : Flows e.actionLedger e.browserControllerRecovering) : Flows c.1.2 c.2 := by
  cases hc with
  | nothing => exact h
  | one op hop => exact h.apply hop
  | compacted op acs hj hop =>
    exact (h.apply hop).apply (show LedgerOp.CalledWith acs .compactTerminalActions from trivial)

theorem run_flows {e : Room} (h : Flows e.actionLedger e.browserControllerRecovering) (ops : List RoomOp) :
    Flows (e.run ops).actionLedger (e.run ops).browserControllerRecovering := by
  refine List.foldlRecOn ops RoomOp.apply
    (motive := fun e => Flows e.actionLedger e.browserControllerRecovering) h fun e h op _ => ?_
  by_cases hop : op = .reloaded
  · subst hop
    exact ⟨⟨⟨{ h.queues.wellFormed with }, h.queues.exclusive, h.queues.unheld⟩, h.queues.bounded⟩, fun _ => rfl, h.busy⟩
  · exact (apply_calls e op hop).flows h

/-- In every state that a run of the room reaches outside a recovery of its browser controller: while an action waits
another one runs and mutates.  In every state nobody waits for a target that somebody else owns or awaits, and no more
actions wait than the queue has room for. -/
theorem no_stranded_queue (sessionId environmentId : String) (viewport : CanonicalViewport)
    (eventCapacity queueCapacity : Nat) {room : Room}
    (hnew : newWithCapacities sessionId environmentId viewport eventCapacity queueCapacity = .ok room)
    (ops : List RoomOp) :
    let e := room.run ops
    (e.browserControllerRecovering = false →
      (∃ id a, e.actionLedger.actions.get id = some a ∧ a.state = .queued) →
      ∃ id a r, e.actionLedger.actions.get id = some a ∧ a.state = .running ∧
        e.actionLedger.requests.get id = some r ∧ r.mutates = true) ∧
    (∀ id a t o, e.actionLedger.actions.get id = some a → a.state = .queued → t ∈ a.targets →
      e.actionLedger.inputOwners.get t = some o ∨ e.actionLedger.pendingTakeovers.get t = some o → o = a.actorId) ∧
    e.actionLedger.queuedCount ≤ e.actionLedger.queueCapacity := by
  intro e
  have hst : Flows room.actionLedger room.browserControllerRecovering := by
    have hwf := (new_safe hnew).wellFormed
    unfold newWithCapacities at hnew
    split at hnew
    · cases hnew
    cases hnew
    refine ⟨⟨⟨hwf, fun t o p ho => ?_, fun id a t o ha => ?_⟩, Nat.zero_le _⟩, fun _ => rfl, fun _ id a ha => ?_⟩
    · cases ho
    · cases ha
    · cases ha
  have h : Flows e.actionLedger e.browserControllerRecovering := run_flows hst ops
  refine ⟨fun hrc hw => ?_, h.queues.unheld, h.queues.bounded⟩
  obtain ⟨id, a, ha, hq⟩ := hw
  obtain ⟨t, ht⟩ := h.busy hrc id a ha hq
  obtain ⟨i, hi⟩ := Option.ne_none_iff_exists'.1 ht
  obtain ⟨b, r, hb, hr, hru, hm, -⟩ := (h.queues.wellFormed.reserved t i).1 hi
  exact ⟨i, b, r, hb, hru, hr, hm⟩

/-- The first operations of `awaitedDesktop`, and its click once more, which has to wait. -/
def queuedDesktop : List RoomOp := awaitedDesktop.take 5 ++ (awaitedDesktop.drop 4).take 1

theorem no_stranded_queue_queuedDesktop : ∃ room,
    newWithCapacities "session" "environment" ⟨1280, 720, 1, 1280, 720, 1, none⟩ 16 4 = .ok room ∧
      (room.run queuedDesktop).actionLedger.queuedCount = 1 ∧
      (room.run queuedDesktop).actionLedger.queuedCount ≤ (room.run queuedDesktop).actionLedger.queueCapacity :=
  ⟨_, rfl, by decide, (no_stranded_queue "session" "environment" _ 16 4 rfl queuedDesktop).2.2⟩

end RoomEnvironment

end Chariox
