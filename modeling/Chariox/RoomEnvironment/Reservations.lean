import Chariox.RoomEnvironment.LedgerSteps

/-!
# Mutual exclusion of the ledger

The invariant of the ledger (`WellFormed`): stored actions are listed in `order`, carry the targets of their stored
requests, and a target is reserved by an action exactly while that action runs, mutates and has the target.  Every
operation keeps the invariant, so it holds after every run of operations (`run_wellFormed`).
-/

namespace Chariox

open OrdMap List

namespace EnvironmentActionLedger

/-- Action `id` is stored, is running, was requested to mutate, and has the target `t`. -/
def RunsOn (l : Ledger) (id : String) (t : InputTarget) : Prop :=
  ∃ a r, l.actions.get id = some a ∧ l.requests.get id = some r ∧ a.state = .running ∧ r.mutates = true ∧ t ∈ a.targets

structure WellFormed (l : Ledger) : Prop where
  stored : ∀ id a, l.actions.get id = some a →
    a.actionId = id ∧ id = actionIdOf a.sequence ∧ a.sequence < l.nextSequence
  ordered : ∀ id, id ∈ l.order ↔ ∃ a, l.actions.get id = some a
  nodup : l.order.Nodup
  requested : ∀ id a, l.actions.get id = some a →
    ∃ r, l.requests.get id = some r ∧ a.targets = sortedTargets r.targets ∧ (a.state = .queued → r.mutates = true)
  reserved : ∀ t id, l.reservations.get t = some id ↔ l.RunsOn id t

variable {l l' : Ledger}

/-! ### Steps that keep the invariant -/

theorem new_wellFormed (tcap qcap : Nat) : (new tcap qcap).WellFormed where
  stored := by intro id a h; simp [new] at h
  ordered := by simp [new]
  nodup := nodup_nil
  requested := by intro id a h; simp [new] at h
  reserved := by simp [new, RunsOn]

/-- Changing stored actions in place, when no action enters the queue and the reservations follow. -/
theorem WellFormed.update (h : l.WellFormed) {g : String → Action → Action}
    (hac : ∀ id, l'.actions.get id = (l.actions.get id).map (g id)) (hre : l'.requests = l.requests)
    (ho : l'.order = l.order) (hn : l'.nextSequence = l.nextSequence) (hid : ∀ id a, (g id a).identity = a.identity)
    (hqu : ∀ id a, (g id a).state = .queued → a.state = .queued)
    (hres : ∀ t id, l'.reservations.get t = some id ↔ ∃ a r, l.actions.get id = some a ∧ l.requests.get id = some r ∧
      (g id a).state = .running ∧ r.mutates = true ∧ t ∈ a.targets) : l'.WellFormed where
  stored := by
    intro id a' ha'
    rw [hac, Option.map_eq_some_iff] at ha'
    obtain ⟨a, ha, rfl⟩ := ha'
    have hs := h.stored id a ha
    rw [actionId_of_identity (hid id a), sequence_of_identity (hid id a), hn]
    exact hs
  ordered := by
    intro id
    rw [ho, h.ordered, hac]
    cases l.actions.get id <;> simp
  nodup := by rw [ho]; exact h.nodup
  requested := by
    intro id a' ha'
    rw [hac, Option.map_eq_some_iff] at ha'
    obtain ⟨a, ha, rfl⟩ := ha'
    obtain ⟨r, hr, ht, hm⟩ := h.requested id a ha
    refine ⟨r, by rw [hre]; exact hr, ?_, fun hq => hm (hqu id a hq)⟩
    rw [targets_of_identity (hid id a)]
    exact ht
  reserved := by
    intro t id
    rw [hres]
    unfold RunsOn
    rw [hre]
    constructor
    · intro hr
      obtain ⟨a, r, ha, hr, hru, hm, ht⟩ := hr
      rw [← targets_of_identity (hid id a)] at ht
      exact ⟨g id a, r, by rw [hac, ha]; rfl, hr, hru, hm, ht⟩
    · intro hr
      obtain ⟨a', r, ha', hr, hru, hm, ht⟩ := hr
      rw [hac, Option.map_eq_some_iff] at ha'
      obtain ⟨a, ha, rfl⟩ := ha'
      rw [targets_of_identity (hid id a)] at ht
      exact ⟨a, r, ha, hr, hru, hm, ht⟩

theorem WellFormed.updateAction (h : l.WellFormed) (id : String) {f : Action → Action}
    (hid : ∀ a, (f a).identity = a.identity) (hs : ∀ a, (f a).state = a.state) : (l.updateAction id f).WellFormed := by
  have hact : ∀ i, (l.updateAction id f).actions.get i = (l.actions.get i).map fun a => if i = id then f a else a := by
    intro i
    rw [updateAction_actions, get_modify]
    split <;> simp
  have hsame : ∀ i a, (if i = id then f a else a).state = a.state := by
    intro i a
    split
    · exact hs a
    · rfl
  refine h.update hact (by simp) (by simp) (by simp) ?_ ?_ ?_
  · intro i a
    split
    · exact hid a
    · rfl
  · intro i a hq
    rw [← hsame i a]
    exact hq
  · intro t i
    rw [updateAction_reservations, h.reserved]
    simp only [RunsOn, hsame]

/-- Ending the actions of a list of ids together with the reservations they hold. -/
theorem WellFormed.endActions (h : l.WellFormed) {ids : List String} (hnd : ids.Nodup)
    {f : String → Action → Action} (hid : ∀ id a, (f id a).identity = a.identity)
    (ht : ∀ id a, (f id a).state.isTerminal = true) (hac : l'.actions = (l.updateActions ids f).actions)
    (hreq : l'.requests = l.requests) (ho : l'.order = l.order) (hn : l'.nextSequence = l.nextSequence)
    (hres : ∀ t id, l'.reservations.get t = some id ↔ l.reservations.get t = some id ∧ id ∉ ids) : l'.WellFormed := by
  have hact' : ∀ i, l'.actions.get i = (l.actions.get i).map fun a => if i ∈ ids then f i a else a := by
    intro i
    rw [hac, updateActions_get hnd]
    split <;> simp
  have hnot : ∀ i a, (f i a).state ≠ .queued ∧ (f i a).state ≠ .running := by
    intro i a
    have := ht i a
    constructor <;> intro hs <;> simp [hs, EnvironmentActionState.isTerminal] at this
  refine h.update hact' hreq ho hn ?_ ?_ ?_
  · intro i a
    split
    · exact hid i a
    · rfl
  · intro i a
    split
    · intro hq
      exact absurd hq (hnot i a).1
    · exact fun h => h
  · intro t i
    rw [hres, h.reserved]
    constructor
    · intro hr
      obtain ⟨⟨a, r, ha, hr, hru, hre⟩, hi⟩ := hr
      exact ⟨a, r, ha, hr, by rw [if_neg hi]; exact hru, hre⟩
    intro hr
    obtain ⟨a, r, ha, hr, hru, hre⟩ := hr
    split at hru
    · exact absurd hru (hnot i a).2
    · rename_i hi
      exact ⟨⟨a, r, ha, hr, hru, hre⟩, hi⟩

variable {id : String}

section

variable (h : l.WellFormed)

include h

/-- A reserved target belongs to a running action, so a queued action holds no reservation. -/
theorem WellFormed.running_of_reserved {t : InputTarget} {a : Action}
    (hr : l.reservations.get t = some id) (ha : l.actions.get id = some a) : a.state = .running := by
  obtain ⟨a', r, ha', -, hru, -⟩ := (h.reserved t id).1 hr
  rw [ha] at ha'
  cases ha'
  exact hru

theorem WellFormed.reserved_iff_of_queued {ids : List String}
    (hqu : ∀ id ∈ ids, ∃ a, l.actions.get id = some a ∧ a.state = .queued) (t : InputTarget) (id : String) :
    l.reservations.get t = some id ↔ l.reservations.get t = some id ∧ id ∉ ids := by
  refine ⟨fun hr => ⟨hr, fun hm => ?_⟩, And.left⟩
  obtain ⟨a, ha, hq⟩ := hqu id hm
  have hrun := h.running_of_reserved hr ha
  rw [hq] at hrun
  cases hrun

theorem WellFormed.startAction (ck : Clock) {act : Action}
    (hg : l.actions.get id = some act) (hp : l.Promotable act) : (l.startAction ck id act).WellFormed := by
  have hact : ∀ i, (l.startAction ck id act).actions.get i =
      (l.actions.get i).map fun a => if i = id then a.started (ck id) else a := by
    intro i
    show (l.actions.insert id (act.started (ck id))).get i = _
    rw [get_insert]
    by_cases hi : i = id
    · subst hi
      simp [hg]
    · simp [hi]
  obtain ⟨r, hr, htg, hmu⟩ := h.requested id act hg
  refine h.update hact rfl rfl rfl ?_ ?_ ?_
  · intro i a
    split <;> rfl
  · intro i a
    split
    · intro hq
      cases hq
    · exact fun h => h
  · intro t i
    have hrsrv : (l.startAction ck id act).reservations.get t =
        if t ∈ act.targets then some id else l.reservations.get t := reserveTargets_get l act.targets id t
    rw [hrsrv]
    -- a target of the started action was free before, and its new holder is the started action
    constructor
    · intro hre
      split at hre
      · rename_i ht
        cases hre
        exact ⟨act, r, hg, hr, by rw [if_pos rfl]; rfl, hmu hp.1, ht⟩
      obtain ⟨a, r', ha, hr', hru, hm, ht⟩ := (h.reserved t i).1 hre
      refine ⟨a, r', ha, hr', ?_, hm, ht⟩
      split
      · rfl
      · exact hru
    · intro hr'
      obtain ⟨a, r', ha, hr', hru, hm, ht⟩ := hr'
      by_cases hi : i = id
      · subst hi
        rw [hg] at ha
        cases ha
        rw [if_pos ht]
      · rw [if_neg hi] at hru
        have hre : l.reservations.get t = some i := (h.reserved t i).2 ⟨a, r', ha, hr', hru, hm, ht⟩
        split
        · rename_i ht'
          have hfree := (not_blocked_iff.1 (hp.2 t ht')).1
          rw [hfree] at hre
          cases hre
        · exact hre

end

/-! ### Submission -/

def createdId : ActionAdmission → Option String
  | .accepted actionId => some actionId
  | .queued actionId _ => some actionId
  | .existing _ _ => none
  | .rejectedSaturated _ => none
  | .rejectedTakeover _ _ => none

theorem createdId_of_existing {req : Request} {adm : ActionAdmission}
    (h : l.existing req = .ok (some adm)) : createdId adm = none := by
  unfold existing at h
  split at h
  · cases h
  split at h
  · cases h
  split at h
  · cases h
  split at h
  · cases h
  split at h <;> cases h
  rfl

/-- Either a submission leaves the ledger as it is and creates no action, or it passed every check and admits the
request. -/
theorem submit_cases (l : Ledger) (req : Request)
    (life : EnvironmentLifecycle) (gen : Nat) (acs : ActorMap) (tabs : TabRegistry) (now : Nat) :
    ((l.submit req life gen acs tabs now).1 = l ∧
        ∀ adm, (l.submit req life gen acs tabs now).2 = .ok adm →
          createdId adm = none) ∨
      ∃ q, q = (req.mutates && l.mustQueue (sortedTargets req.targets)) ∧
        l.submit req life gen acs tabs now =
          (l.admitAction req q now, .ok (if q then .queued (actionIdOf l.nextSequence) l.nextSequence
            else .accepted (actionIdOf l.nextSequence))) ∧
        life = .ready ∧ acs.contains req.actorId = true ∧ l.existing req = .ok none ∧
        req.runtimeGeneration = gen ∧
        (req.mutates = true → l.takeoverRejection req.actorId (sortedTargets req.targets) = none) ∧
        (q = true → l.queuedCount < l.queueCapacity) := by
  have href : ∀ e : EnvironmentError, ∀ adm, Except.error e = Except.ok adm →
      createdId adm = none := fun _ _ h => by cases h
  unfold submit
  split
  · exact .inl ⟨rfl, href _⟩
  rename_i hr
  split
  · exact .inl ⟨rfl, href _⟩
  rename_i ha
  split
  · exact .inl ⟨rfl, href _⟩
  · rename_i hexisting
    exact .inl ⟨rfl, fun _ h => Except.ok.inj h ▸ createdId_of_existing hexisting⟩
  rename_i hexisting
  split
  · exact .inl ⟨rfl, href _⟩
  rename_i hg
  split
  · exact .inl ⟨rfl, href _⟩
  split
  · exact .inl ⟨rfl, href _⟩
  split
  · exact .inl ⟨rfl, fun _ h => Except.ok.inj h ▸ rfl⟩
  rename_i hre
  dsimp only
  split
  · exact .inl ⟨rfl, fun _ h => Except.ok.inj h ▸ rfl⟩
  rename_i hf
  refine .inr ⟨_, rfl, rfl, not_not.1 hr, by simpa using ha, hexisting, not_not.1 hg, ?_, ?_⟩
  · intro hm
    simpa [hm] using hre
  · intro hq
    simpa [hq] using hf

theorem free_of_not_mustQueue {tgts : List InputTarget} (h : l.mustQueue tgts = false) {t : InputTarget}
    (ht : t ∈ tgts) : l.reservations.get t = none := by
  unfold mustQueue at h
  rw [any_eq_false] at h
  have := h t ht
  simp only [Bool.or_eq_true, not_or, Bool.not_eq_true] at this
  exact contains_eq_false.1 this.1

theorem WellFormed.fresh (h : l.WellFormed) : l.actions.get (actionIdOf l.nextSequence) = none := by
  cases hget : l.actions.get (actionIdOf l.nextSequence) with
  | none => rfl
  | some a =>
    obtain ⟨-, hs, hlt⟩ := h.stored _ a hget
    have := actionIdOf_injective hs
    omega

section

variable (l : Ledger) (request : Request) (q : Bool) (now : Nat)

theorem admitAction_actions :
    (l.admitAction request q now).actions = l.actions.insert (actionIdOf l.nextSequence) (l.newAction request q now) :=
  rfl

theorem admitAction_requests :
    (l.admitAction request q now).requests = l.requests.insert (actionIdOf l.nextSequence) request := rfl

theorem admitAction_reservations (t : InputTarget) : (l.admitAction request q now).reservations.get t =
      if (request.mutates && !q) = true ∧ t ∈ sortedTargets request.targets
      then some (actionIdOf l.nextSequence) else l.reservations.get t := by
  show (if request.mutates && !q then
      l.reserveTargets (sortedTargets request.targets) (actionIdOf l.nextSequence) else l).reservations.get t = _
  by_cases h : (request.mutates && !q) = true
  · simp only [h, true_and]
    exact reserveTargets_get l _ _ t
  · simp [h]

end

theorem WellFormed.admitAction (h : l.WellFormed) (req : Request) (q : Bool) (now : Nat)
    (hqu : q = true → req.mutates = true)
    (hf : q = false → req.mutates = true → ∀ t ∈ sortedTargets req.targets, l.reservations.get t = none) :
    (l.admitAction req q now).WellFormed := by
  have hfrsh := h.fresh
  have hact : ∀ i, (l.admitAction req q now).actions.get i =
      if i = actionIdOf l.nextSequence then some (l.newAction req q now) else l.actions.get i := by
    intro i
    rw [admitAction_actions, get_insert]
  have hreq : ∀ i, (l.admitAction req q now).requests.get i =
      if i = actionIdOf l.nextSequence then some req else l.requests.get i := by
    intro i
    rw [admitAction_requests, get_insert]
  constructor
  · intro i a ha
    rw [hact] at ha
    show _ ∧ _ ∧ a.sequence < l.nextSequence + 1
    split at ha
    · rename_i hi
      cases ha
      exact ⟨hi.symm, hi, Nat.lt_succ_self _⟩
    · obtain ⟨h1, h2, h3⟩ := h.stored i a ha
      exact ⟨h1, h2, by omega⟩
  · intro i
    show i ∈ l.order ++ [actionIdOf l.nextSequence] ↔ _
    rw [mem_append, h.ordered]
    simp only [hact]
    by_cases hi : i = actionIdOf l.nextSequence
    · simp [hi]
    · simp [hi]
  · show (l.order ++ [actionIdOf l.nextSequence]).Nodup
    have hnot : actionIdOf l.nextSequence ∉ l.order := by
      intro hme
      obtain ⟨a, ha⟩ := (h.ordered _).1 hme
      rw [hfrsh] at ha
      cases ha
    exact List.Nodup.append h.nodup (nodup_singleton _) (by simpa using hnot)
  · intro i a ha
    rw [hact] at ha
    rw [hreq]
    split at ha
    · rename_i hi
      cases ha
      refine ⟨req, by simp [hi], rfl, ?_⟩
      intro hs
      apply hqu
      cases q with
      | true => rfl
      | false => cases hs
    · rename_i hi
      simp only [hi]
      exact h.requested i a ha
  · intro t i
    rw [admitAction_reservations]
    unfold RunsOn
    simp only [hact, hreq]
    by_cases hi : i = actionIdOf l.nextSequence
    · subst hi
      have hold : l.reservations.get t ≠ some (actionIdOf l.nextSequence) := by
        intro hr
        obtain ⟨a, r, ha, -⟩ := (h.reserved t _).1 hr
        rw [hfrsh] at ha
        cases ha
      cases q with
      | true => simpa [newAction] using hold
      | false =>
        by_cases hm : req.mutates = true
        · by_cases ht : t ∈ sortedTargets req.targets
          · simp [hm, ht, newAction]
          · simp [newAction, hold]
        · simp [hm, hold]
    · simp only [hi, if_false]
      rw [← RunsOn, ← h.reserved]
      split
      · rename_i hn
        have hq : q = false := by
          cases q with
          | true => simp at hn
          | false => rfl
        have hm : req.mutates = true := by
          cases hm : req.mutates with
          | true => rfl
          | false => simp [hm] at hn
        rw [hf hq hm t hn.2]
        simp [Ne.symm hi]
      · exact Iff.rfl

/-! ### Compaction -/

theorem evictAction_get (l : Ledger) (id i : String) :
    (l.evictAction id).actions.get i = if i = id then none else l.actions.get i :=
  get_remove l.actions id i

theorem evictAction_requests_of {id i : String} {r : Request}
    (h : (l.evictAction id).requests.get i = some r) : l.requests.get i = some r := by
  change (if _ then l.requests.remove id else l.requests).get i = _ at h
  split at h
  · exact (of_get_remove h).2
  · exact h

/-- An invariant of forgetting one terminal action is an invariant of the compaction. -/
theorem compact_induction {P : Ledger → Prop}
    (hev : ∀ l id a, P l → l.actions.get id = some a → a.state.isTerminal = true → P (l.evictAction id))
    (hnd : l.order.Nodup) (h : P l) : P l.compactTerminalActions := by
  -- the ids still to be evicted are distinct, so each of them keeps its terminal action until its turn
  have key : ∀ (ids : List String) (l : Ledger), ids.Nodup →
      (∀ id ∈ ids, ∃ a, l.actions.get id = some a ∧ a.state.isTerminal = true) → P l → P (ids.foldl evictAction l) := by
    intro ids
    induction ids with
    | nil => exact fun l _ _ h => h
    | cons id ids ih =>
      intro l hnd ht h
      rw [nodup_cons] at hnd
      obtain ⟨a, ha, hat⟩ := ht id (by simp)
      apply ih (l.evictAction id) hnd.2 ?_ (hev l id a h ha hat)
      intro i hi
      have hne : i ≠ id := fun he => hnd.1 (he ▸ hi)
      rw [evictAction_get]
      simpa [hne] using ht i (by simp [hi])
  apply key _ l ((actionIdsWhere_nodup hnd _).sublist (take_sublist _ _)) ?_ h
  intro id hid
  obtain ⟨-, a, ha, hat⟩ := mem_actionIdsWhere.1 (mem_of_mem_take hid)
  exact ⟨a, ha, hat⟩

theorem WellFormed.evictAction (h : l.WellFormed) {a : Action}
    (ha : l.actions.get id = some a) (ht : a.state.isTerminal = true) : (l.evictAction id).WellFormed := by
  have hreq : ∀ i, i ≠ id → (l.evictAction id).requests.get i = l.requests.get i := by
    intro i hi
    show (if _ then l.requests.remove id else l.requests).get i = _
    split
    · exact get_remove_of_ne _ hi
    · rfl
  constructor
  · exact fun i b hb => h.stored i b (of_get_remove hb).2
  · intro i
    show i ∈ l.order.filter (fun cand => cand ≠ id) ↔ _
    rw [mem_filter, h.ordered]
    simp only [evictAction_get]
    by_cases hi : i = id
    · simp [hi]
    · simp [hi]
  · exact h.nodup.filter _
  · intro i b hb
    obtain ⟨hi, hb⟩ := of_get_remove hb
    rw [hreq i hi]
    exact h.requested i b hb
  · intro t i
    show l.reservations.get t = some i ↔ _
    rw [h.reserved]
    unfold RunsOn
    simp only [evictAction_get]
    by_cases hi : i = id
    · subst hi
      constructor
      · intro hr
        obtain ⟨b, r, hb, -, hru, -⟩ := hr
        rw [ha] at hb
        cases hb
        simp [hru, EnvironmentActionState.isTerminal] at ht
      · simp
    · simp only [hi, if_false, hreq i hi]

end EnvironmentActionLedger

end Chariox
