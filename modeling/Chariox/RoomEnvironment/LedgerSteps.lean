import Chariox.Lib.Text
import Chariox.RoomEnvironment.ActionLedger

/-!
# What the steps of the ledger do

The steps that the operations of the ledger share, described field by field: which fields a step leaves alone, and
what it does to the bindings of the others.  Later proofs use these descriptions and do not unfold the steps.
-/

namespace Chariox

open EnvironmentActionLedger List

/-! ### Actions -/

/-- The part of an action that never changes after its submission. -/
def EnvironmentAction.identity (a : EnvironmentAction) : EnvironmentAction :=
  { a with state := .queued, cancellationRequested := false, startedAtMs := none, finishedAtMs := none, outcome := none }

variable {a b : EnvironmentAction}

section

variable (h : a.identity = b.identity)

include h

theorem actionId_of_identity : a.actionId = b.actionId :=
  (congrArg EnvironmentAction.actionId h : a.identity.actionId = b.identity.actionId)

theorem targets_of_identity : a.targets = b.targets :=
  (congrArg EnvironmentAction.targets h : a.identity.targets = b.identity.targets)

theorem actorId_of_identity : a.actorId = b.actorId :=
  (congrArg EnvironmentAction.actorId h : a.identity.actorId = b.identity.actorId)

theorem sequence_of_identity : a.sequence = b.sequence :=
  (congrArg EnvironmentAction.sequence h : a.identity.sequence = b.identity.sequence)

end

theorem actionIdOf_injective {m n : Nat} (h : actionIdOf m = actionIdOf n) : m = n := numbered_injective h

theorem mem_sortedTargets {t : InputTarget} {targets : List InputTarget} : t ∈ sortedTargets targets ↔ t ∈ targets := by
  rw [sortedTargets, mem_insertionSort, mem_dedup]

namespace EnvironmentActionLedger

variable {l : Ledger}

/-! ### Updating stored actions -/

section updateAction

variable (l : Ledger) (id : String) (f : Action → Action)

/-- An update changes the stored action and the history, and nothing else. -/
theorem updateAction_eq : ∃ hi, l.updateAction id f =
    { l with actions := l.actions.modify id f, historyRecords := hi } := by
  unfold updateAction syncHistoryAction
  split <;> exact ⟨_, rfl⟩

@[simp] theorem updateAction_actions : (l.updateAction id f).actions = l.actions.modify id f := by
  obtain ⟨_, h⟩ := updateAction_eq l id f
  rw [h]

@[simp] theorem updateAction_requests : (l.updateAction id f).requests = l.requests := by
  obtain ⟨_, h⟩ := updateAction_eq l id f
  rw [h]

@[simp] theorem updateAction_order : (l.updateAction id f).order = l.order := by
  obtain ⟨_, h⟩ := updateAction_eq l id f
  rw [h]

@[simp] theorem updateAction_reservations : (l.updateAction id f).reservations = l.reservations := by
  obtain ⟨_, h⟩ := updateAction_eq l id f
  rw [h]

@[simp] theorem updateAction_inputOwners : (l.updateAction id f).inputOwners = l.inputOwners := by
  obtain ⟨_, h⟩ := updateAction_eq l id f
  rw [h]

@[simp] theorem updateAction_pendingTakeovers : (l.updateAction id f).pendingTakeovers = l.pendingTakeovers := by
  obtain ⟨_, h⟩ := updateAction_eq l id f
  rw [h]

@[simp] theorem updateAction_nextSequence : (l.updateAction id f).nextSequence = l.nextSequence := by
  obtain ⟨_, h⟩ := updateAction_eq l id f
  rw [h]

theorem updateAction_queueCapacity : (l.updateAction id f).queueCapacity = l.queueCapacity := by
  obtain ⟨_, h⟩ := updateAction_eq l id f
  rw [h]

end updateAction

section

variable (l : Ledger) (ids : List String) (f : String → Action → Action)

/-- The updates change stored actions and the history, and look at nothing else. -/
theorem updateActions_frame {l m : Ledger} {ids : List String}
    {f : String → Action → Action} (ha : m.actions = l.actions)
    (hh : m.historyRecords = l.historyRecords) : m.updateActions ids f =
      { m with actions := (l.updateActions ids f).actions, historyRecords := (l.updateActions ids f).historyRecords } := by
  induction ids generalizing l m with
  | nil => cases m; cases l; cases ha; cases hh; rfl
  | cons id ids ih =>
    obtain ⟨hi, hs⟩ := updateAction_eq m id (f id)
    have hsame : (m.updateAction id (f id)).actions = (l.updateAction id (f id)).actions ∧
        (m.updateAction id (f id)).historyRecords = (l.updateAction id (f id)).historyRecords := by
      unfold updateAction syncHistoryAction
      rw [ha, hh]
      cases (l.actions.modify id (f id)).get id <;> exact ⟨rfl, rfl⟩
    show (m.updateAction id (f id)).updateActions ids f = _
    rw [ih hsame.1 hsame.2, hs]
    rfl

theorem updateActions_eq : ∃ acts hi, l.updateActions ids f = { l with actions := acts, historyRecords := hi } :=
  ⟨_, _, updateActions_frame rfl rfl⟩

@[simp] theorem updateActions_requests : (l.updateActions ids f).requests = l.requests := by
  obtain ⟨_, _, h⟩ := updateActions_eq l ids f
  rw [h]

@[simp] theorem updateActions_order : (l.updateActions ids f).order = l.order := by
  obtain ⟨_, _, h⟩ := updateActions_eq l ids f
  rw [h]

@[simp] theorem updateActions_reservations : (l.updateActions ids f).reservations = l.reservations := by
  obtain ⟨_, _, h⟩ := updateActions_eq l ids f
  rw [h]

@[simp] theorem updateActions_inputOwners : (l.updateActions ids f).inputOwners = l.inputOwners := by
  obtain ⟨_, _, h⟩ := updateActions_eq l ids f
  rw [h]

@[simp] theorem updateActions_pendingTakeovers : (l.updateActions ids f).pendingTakeovers = l.pendingTakeovers := by
  obtain ⟨_, _, h⟩ := updateActions_eq l ids f
  rw [h]

@[simp] theorem updateActions_nextSequence : (l.updateActions ids f).nextSequence = l.nextSequence := by
  obtain ⟨_, _, h⟩ := updateActions_eq l ids f
  rw [h]

theorem updateActions_queueCapacity : (l.updateActions ids f).queueCapacity = l.queueCapacity := by
  obtain ⟨_, _, h⟩ := updateActions_eq l ids f
  rw [h]

end

theorem updateActions_get {ids : List String} (hnd : ids.Nodup) (l : Ledger)
    (f : String → Action → Action) (id : String) :
    (l.updateActions ids f).actions.get id = if id ∈ ids then (l.actions.get id).map (f id) else l.actions.get id := by
  induction ids generalizing l with
  | nil => simp [updateActions]
  | cons a ids ih =>
    rw [nodup_cons] at hnd
    show ((l.updateAction a (f a)).updateActions ids f).actions.get id = _
    rw [ih hnd.2, updateAction_actions, OrdMap.get_modify]
    by_cases h : id = a
    · subst h
      simp [hnd.1]
    · simp [h]

/-! ### Selecting actions -/

theorem mem_actionIdsWhere {p : String → Action → Bool} {id : String} :
    id ∈ l.actionIdsWhere p ↔ id ∈ l.order ∧ ∃ a, l.actions.get id = some a ∧ p id a = true := by
  unfold actionIdsWhere
  rw [mem_filter]
  cases l.actions.get id <;> simp

theorem actionIdsWhere_nodup (h : l.order.Nodup) (p : String → Action → Bool) : (l.actionIdsWhere p).Nodup := h.filter _

/-! ### Reservations -/

theorem reserveTargets_get (l : Ledger) (tgts : List InputTarget) (id : String) (t : InputTarget) :
    (l.reserveTargets tgts id).reservations.get t = if t ∈ tgts then some id else l.reservations.get t := by
  induction tgts generalizing l with
  | nil => simp [reserveTargets]
  | cons a tgts ih =>
    show (reserveTargets { l with reservations := l.reservations.insert a id } tgts id).reservations.get t = _
    rw [ih, OrdMap.get_insert]
    by_cases h : t = a
    · simp [h]
    · simp [h]

/-! ### Granting takeovers -/

/-- One round of the loop that grants the pending takeovers of unreserved targets. -/
private theorem finalize_fold (tgts : List InputTarget) (l : Ledger) : ∃ ows pend, tgts.foldl (fun l tg =>
        match l.pendingTakeovers.get tg with
        | none => l
        | some aid =>
          { l with
            pendingTakeovers := l.pendingTakeovers.remove tg
            inputOwners := l.inputOwners.insert tg aid }) l =
        { l with inputOwners := ows, pendingTakeovers := pend } ∧
      ∀ t, pend.get t = (if t ∈ tgts then none else l.pendingTakeovers.get t) ∧
        ows.get t = if t ∈ tgts then (l.pendingTakeovers.get t).or (l.inputOwners.get t)
          else l.inputOwners.get t := by
  induction tgts generalizing l with
  | nil => exact ⟨_, _, rfl, by simp⟩
  | cons a tgts ih =>
    rw [foldl_cons]
    cases h : l.pendingTakeovers.get a with
    | none =>
      obtain ⟨ows, pend, heq, hg⟩ := ih l
      refine ⟨ows, pend, heq, fun t => ?_⟩
      rw [(hg t).1, (hg t).2]
      by_cases hta : t = a
      · subst hta
        simp [h]
      · simp [hta]
    | some aid =>
      obtain ⟨ows, pend, heq, hg⟩ := ih { l with
        pendingTakeovers := l.pendingTakeovers.remove a, inputOwners := l.inputOwners.insert a aid }
      refine ⟨ows, pend, heq, fun t => ?_⟩
      rw [(hg t).1, (hg t).2, OrdMap.get_remove, OrdMap.get_insert]
      by_cases hta : t = a
      · subst hta
        simp [h]
      · simp [hta]

/-- Granting takeovers moves the pending takeovers of unreserved targets to the owners, and changes nothing else. -/
theorem finalizeTakeovers_eq (l : Ledger) :
    ∃ ows pend, l.finalizeTakeovers.1 = { l with inputOwners := ows, pendingTakeovers := pend } ∧
      (∀ t, pend.get t = if l.reservations.get t = none then none else l.pendingTakeovers.get t) ∧
      (∀ t, ows.get t = if l.reservations.get t = none then (l.pendingTakeovers.get t).or (l.inputOwners.get t)
        else l.inputOwners.get t) := by
  obtain ⟨ows, pend, heq, hg⟩ :=
    finalize_fold (l.pendingTakeovers.keys.filter fun tg => !l.reservations.contains tg) l
  have hmem : ∀ t, t ∈ l.pendingTakeovers.keys.filter (fun tg => !l.reservations.contains tg) ↔
      (∃ a, l.pendingTakeovers.get t = some a) ∧ l.reservations.get t = none := by
    intro t
    rw [mem_filter, OrdMap.mem_keys, Bool.not_eq_true', OrdMap.contains_eq_false]
  refine ⟨ows, pend, heq, ?_, ?_⟩
  · intro t
    cases h : l.pendingTakeovers.get t <;> simp_all
  · intro t
    cases h : l.pendingTakeovers.get t <;> simp_all

/-! ### Promotion -/

/-- The test of the promotion loop. -/
def Promotable (l : Ledger) (action : Action) : Prop :=
  action.state = .queued ∧ ∀ t ∈ action.targets, l.blocksPromotion action.actorId t = false

theorem promoteStep_cases (ck : Clock) (s : Ledger × List String) (id : String) :
    (promoteStep ck s id = s ∧ ∀ action, s.1.actions.get id = some action → ¬ s.1.Promotable action) ∨
      ∃ action, s.1.actions.get id = some action ∧ s.1.Promotable action ∧
        promoteStep ck s id = (s.1.startAction ck id action, s.2 ++ [id]) := by
  unfold promoteStep
  split
  · rename_i hno
    exact .inl ⟨rfl, fun action hg => nomatch hno ▸ hg⟩
  · rename_i action hg
    have hcond : (decide (action.state ≠ .queued) || action.targets.any (s.1.blocksPromotion action.actorId)) = true ↔
        ¬ s.1.Promotable action := by
      unfold Promotable
      rw [Bool.or_eq_true, decide_eq_true_eq, any_eq_true, not_and_or]
      simp only [not_forall, exists_prop, Bool.not_eq_false]
    split
    · rename_i hn
      refine .inl ⟨rfl, ?_⟩
      intro a' hg'
      rw [hg] at hg'
      cases hg'
      exact hcond.1 hn
    · rename_i hn
      exact .inr ⟨action, hg, not_not.1 fun h => hn (hcond.2 h), rfl⟩

/-- An invariant of starting one promotable action is an invariant of the promotion loop. -/
theorem promote_induction (ck : Clock) {P : Ledger → Prop}
    (hst : ∀ l id a, P l → l.actions.get id = some a → l.Promotable a → P (l.startAction ck id a))
    (l : Ledger) (h : P l) : P (l.promoteQueuedActions ck).1 := by
  unfold promoteQueuedActions
  split
  · exact h
  refine foldlRecOn l.order (promoteStep ck) (motive := fun s => P s.1) (b := (l, [])) h ?_
  intro s hs id _
  rcases promoteStep_cases ck s id with ⟨heq, -⟩ | ⟨a, hg, hp, heq⟩
  · rw [heq]
    exact hs
  · rw [heq]
    exact hst s.1 id a hs hg hp

theorem not_blocked_iff {aid : String} {t : InputTarget} :
    l.blocksPromotion aid t = false ↔ l.reservations.get t = none ∧
      (∀ o, l.inputOwners.get t = some o → o = aid) ∧ (∀ o, l.pendingTakeovers.get t = some o → o = aid) := by
  unfold blocksPromotion
  rw [Bool.or_eq_false_iff, Bool.or_eq_false_iff, OrdMap.contains_eq_false, and_assoc]
  refine and_congr Iff.rfl (and_congr ?_ ?_)
  · cases l.inputOwners.get t <;> simp
  · cases l.pendingTakeovers.get t <;> simp

end EnvironmentActionLedger

end Chariox
