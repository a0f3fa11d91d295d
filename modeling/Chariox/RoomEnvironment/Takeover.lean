import Chariox.RoomEnvironment.Moves

/-!
# Human takeover of input targets

Owners, pending takeovers, reservations and cancellation flags are kept in separate maps.  `InputSafe` ties them
together: only people own or await a target, nobody owns a target that someone awaits, no agent runs on an owned
target, and an awaited target is either free or held by an agent that was asked to stop.  The free case exists only
inside an operation: granting takeovers closes it, which gives `Settled`, the invariant between operations.
-/

namespace Chariox

theorem JoinedAs.unique {acs : ActorMap} {kind kind' : EnvironmentActorKind} {aid : String}
    (h : JoinedAs acs kind aid) (h' : JoinedAs acs kind' aid) : kind = kind' := by
  obtain ⟨ac, hg, hk⟩ := h
  obtain ⟨ac', hg', hk'⟩ := h'
  rw [hg] at hg'
  cases hg'
  rw [← hk, ← hk']

namespace EnvironmentActionLedger

variable {actors actors' : ActorMap} {l l' : Ledger}

structure InputSafe (actors : ActorMap) (l : Ledger) : Prop where
  wellFormed : l.WellFormed
  known : ∀ id a, l.actions.get id = some a → ∃ kind, JoinedAs actors kind a.actorId
  owner_human : ∀ t o, l.inputOwners.get t = some o → JoinedAs actors .human o
  pending_human : ∀ t o, l.pendingTakeovers.get t = some o → JoinedAs actors .human o
  exclusive : ∀ t o, l.inputOwners.get t = some o → l.pendingTakeovers.get t = none
  owned : ∀ t o, l.inputOwners.get t = some o → ¬ l.HeldByAgent actors t
  blocked : ∀ t o, l.pendingTakeovers.get t = some o → l.reservations.get t = none ∨ l.Cancelling actors t

structure Settled (actors : ActorMap) (l : Ledger) : Prop extends InputSafe actors l where
  waiting : ∀ t o, l.pendingTakeovers.get t = some o → l.Cancelling actors t

theorem new_settled (acs : ActorMap) (tcap qcap : Nat) : Settled acs (new tcap qcap) where
  wellFormed := new_wellFormed _ _
  known := by intro id a h; simp [new] at h
  owner_human := by intro t o h; simp [new] at h
  pending_human := by intro t o h; simp [new] at h
  exclusive := by intro t o h; simp [new] at h
  owned := by intro t o h; simp [new] at h
  blocked := by intro t o h; simp [new] at h
  waiting := by intro t o h; simp [new] at h

variable {t : InputTarget} {actorId : String} {p : Allowed}

theorem Cancelling.heldByAgent (h : l.Cancelling actors t) : l.HeldByAgent actors t := by
  obtain ⟨id, a, hr, ha, hag, -⟩ := h
  exact ⟨id, a, hr, ha, hag⟩

theorem Settled.heldByAgent (h : Settled actors l) {o : String}
    (hp : l.pendingTakeovers.get t = some o) : l.HeldByAgent actors t := (h.waiting t o hp).heldByAgent

theorem InputSafe.heldByAgent_iff (h : InputSafe actors l) :
    l.HeldByAgent actors t ↔ ∃ id a, l.RunsOn id t ∧ l.actions.get id = some a ∧ JoinedAs actors .agent a.actorId := by
  unfold HeldByAgent
  simp only [h.wellFormed.reserved]

/-! ### Actors that join -/

/-- More actors may have joined, and those that had joined keep their kind. -/
def Joined (actors actors' : ActorMap) : Prop :=
  ∀ actorId kind, JoinedAs actors kind actorId → JoinedAs actors' kind actorId

section

variable (hj : Joined actors actors')
  (hk : ∀ id a, l.actions.get id = some a → ∃ kind, JoinedAs actors kind a.actorId)

include hj hk

private theorem heldByAgent_of_joined (h : l.HeldByAgent actors' t) : l.HeldByAgent actors t := by
  obtain ⟨id, a, hr, ha, hag⟩ := h
  obtain ⟨kind, hki⟩ := hk id a ha
  have : kind = .agent := (hj _ _ hki).unique hag
  subst this
  exact ⟨id, a, hr, ha, hki⟩

theorem heldByAgent_joined : l.HeldByAgent actors' t ↔ l.HeldByAgent actors t := by
  constructor
  · exact heldByAgent_of_joined hj hk
  intro h
  obtain ⟨id, a, hr, ha, hag⟩ := h
  exact ⟨id, a, hr, ha, hj _ _ hag⟩

end

private theorem cancelling_of_joined (hj : Joined actors actors') (h : l.Cancelling actors t) :
    l.Cancelling actors' t := by
  obtain ⟨id, a, hr, ha, hag, hc⟩ := h
  exact ⟨id, a, hr, ha, hj _ _ hag, hc⟩

theorem Settled.join (h : Settled actors l) (hj : Joined actors actors') : Settled actors' l :=
  { h with
    known := by
      intro id a ha
      obtain ⟨kind, hk⟩ := h.known id a ha
      exact ⟨kind, hj _ _ hk⟩
    owner_human := fun t o ho => hj _ _ (h.owner_human t o ho)
    pending_human := fun t o hp => hj _ _ (h.pending_human t o hp)
    owned := fun t o ho hh => h.owned t o ho (heldByAgent_of_joined hj h.known hh)
    blocked := fun t o hp => .inr (cancelling_of_joined hj (h.waiting t o hp))
    waiting := fun t o hp => cancelling_of_joined hj (h.waiting t o hp) }

/-! ### Moves that keep the invariant -/

/-- What a change of stored actions has to respect: no action changes hands, and an action that keeps a reservation
stays stored and keeps its cancellation flag. -/
structure ActionsKept (l l' : Ledger) : Prop where
  inputOwners : l'.inputOwners = l.inputOwners
  pendingTakeovers : l'.pendingTakeovers = l.pendingTakeovers
  stored : ∀ id a', l'.actions.get id = some a' → ∃ a, l.actions.get id = some a ∧ a'.actorId = a.actorId
  reserved : ∀ t id, l'.reservations.get t = some id → l.reservations.get t = some id
  holding : ∀ t id a, l'.reservations.get t = some id → l.actions.get id = some a →
    ∃ a', l'.actions.get id = some a' ∧ a'.actorId = a.actorId ∧
      (a.cancellationRequested = true → a'.cancellationRequested = true)

private theorem ActionsKept.cancelling (hk : ActionsKept l l') (h : l.Cancelling actors t) :
    l'.reservations.get t = none ∨ l'.Cancelling actors t := by
  obtain ⟨id, a, hr, ha, hag, hc⟩ := h
  cases hres' : l'.reservations.get t with
  | none => exact .inl rfl
  | some id' =>
    have hsame := hk.reserved t id' hres'
    rw [hr] at hsame
    cases hsame
    obtain ⟨a', ha', hac, hc'⟩ := hk.holding t id a hres' ha
    exact .inr ⟨id, a', hres', ha', by rw [hac]; exact hag, hc' hc⟩

theorem InputSafe.change (h : InputSafe actors l) (hwf : l'.WellFormed) (hk : ActionsKept l l') : InputSafe actors l' where
  wellFormed := hwf
  known := by
    intro id a' ha'
    obtain ⟨a, ha, hac⟩ := hk.stored id a' ha'
    rw [hac]
    exact h.known id a ha
  owner_human := by rw [hk.inputOwners]; exact h.owner_human
  pending_human := by rw [hk.pendingTakeovers]; exact h.pending_human
  exclusive := by rw [hk.inputOwners, hk.pendingTakeovers]; exact h.exclusive
  owned := by
    intro t o ho hh
    rw [hk.inputOwners] at ho
    obtain ⟨id, a', hr', ha', hag⟩ := hh
    obtain ⟨a, ha, hac⟩ := hk.stored id a' ha'
    rw [hac] at hag
    exact h.owned t o ho ⟨id, a, hk.reserved t id hr', ha, hag⟩
  blocked := by
    intro t o hp
    rw [hk.pendingTakeovers] at hp
    rcases h.blocked t o hp with hf | hc
    · left
      cases hr' : l'.reservations.get t with
      | none => rfl
      | some id =>
        have := hk.reserved t id hr'
        rw [hf] at this
        cases this
    · exact hk.cancelling hc

/-- Only a person gets a target, and only one that no agent holds or that its agent was asked to give up. -/
theorem InputSafe.calm (h : InputSafe actors l) (hm : CalmMove p l l')
    (hac : ∀ kn, p.actors kn → kn = actors) (hha : ∀ t o, p.hands t o → JoinedAs actors .human o) :
    InputSafe actors l' := by
  have hwf := h.wellFormed.calm hm
  have hstrd : ∀ id a', l'.actions.get id = some a' → ∃ a, l.actions.get id = some a ∧ a'.actorId = a.actorId := by
    intro id a' ha'
    obtain ⟨a, ha, hid, -⟩ := hm.calms.action id a' ha'
    exact ⟨a, ha, actorId_of_identity hid⟩
  cases hm with
  | input ows pend rcv hre hexclusive how hpe =>
    refine { wellFormed := hwf, known := h.known, owner_human := ?_, pending_human := ?_, exclusive := ?_,
             owned := ?_, blocked := ?_ }
    · intro t o ho
      cases how t o ho with
      | kept ho => exact h.owner_human t o ho
      | granted hp => exact h.pending_human t o hp
      | handed _ _ hhand => exact hha t o hhand
      | taken kn hkn has => exact hac kn hkn ▸ has.human
    · intro t o hp
      cases hpe t o hp with
      | kept hp => exact h.pending_human t o hp
      | asked kn hkn has => exact hac kn hkn ▸ has.human
    · intro t o ho
      refine Option.eq_none_iff_forall_ne_some.2 fun q hq => hexclusive ?_ t o q ho hq
      intro t o q ho hq
      rw [h.exclusive t o ho] at hq
      cases hq
    · intro t o ho hh
      cases how t o ho with
      | kept ho => exact h.owned t o ho hh
      | granted _ hf =>
        obtain ⟨id, a, hr, -⟩ := hh
        exact nomatch hf.symm.trans hr
      | handed src ho => exact h.owned t src ho hh
      | taken kn hkn _ hf => exact hf (hac kn hkn ▸ hh)
    · intro t o hp
      cases hpe t o hp with
      | kept hp => exact h.blocked t o hp
      | asked kn hkn _ hca => exact .inr (hac kn hkn ▸ hca)
  | asked id a rsn hg hru =>
    refine h.change hwf ⟨updateAction_inputOwners _ _ _, updateAction_pendingTakeovers _ _ _, hstrd, ?_, ?_⟩
    · rw [updateAction_reservations]
      exact fun _ _ hr => hr
    intro t i b hr hb
    rw [updateAction_actions, OrdMap.get_modify, hb]
    split
    · exact ⟨_, rfl, rfl, fun _ => rfl⟩
    · exact ⟨b, rfl, rfl, fun hc => hc⟩
  | ended ck en ids hnd hl rsvs hrs =>
    refine h.change hwf ⟨updateActions_inputOwners _ _ _, updateActions_pendingTakeovers _ _ _, hstrd,
      fun t i hr => ((hrs t i).1 hr).1, fun t i b hr hb => ⟨b, ?_, rfl, fun hc => hc⟩⟩
    rw [updateActions_get hnd, if_neg ((hrs t i).1 hr).2]
    exact hb
  | evicted id a hg ht =>
    refine h.change hwf ⟨rfl, rfl, hstrd, fun _ _ hr => hr, fun t i b hr hb => ⟨b, ?_, rfl, fun hc => hc⟩⟩
    rw [evictAction_get, if_neg]
    · exact hb
    rintro rfl
    have hrun := h.wellFormed.running_of_reserved (show l.reservations.get t = some i from hr) hb
    rw [hg] at hb
    cases hb
    simp [hrun, EnvironmentActionState.isTerminal] at ht
  | forgot n a hg =>
    rw [forgetHistoryRecord_eq hg] at hwf ⊢
    exact { h with wellFormed := hwf }

/-! ### Starting actions -/

/-- Storing an action and giving it free targets, of which a person owns only those of the action's own actor. -/
theorem Settled.give (h : Settled actors l) (id : String) {act : Action} (given : List InputTarget)
    (hwf : l'.WellFormed) (how : l'.inputOwners = l.inputOwners) (hpe : l'.pendingTakeovers = l.pendingTakeovers)
    (hac : ∀ i, l'.actions.get i = if i = id then some act else l.actions.get i)
    (hr : ∀ t, l'.reservations.get t = if t ∈ given then some id else l.reservations.get t)
    (hactr : ∃ kind, JoinedAs actors kind act.actorId) (hn : ∀ t, l.reservations.get t ≠ some id)
    (hf : ∀ t ∈ given, l.reservations.get t = none)
    (hown : ∀ t ∈ given, ∀ o, l.inputOwners.get t = some o → o = act.actorId) : Settled actors l' := by
  have hne : ∀ t i, l.reservations.get t = some i → i ≠ id := by
    intro t i hi he
    exact hn t (he ▸ hi)
  have hcnl : ∀ t o, l'.pendingTakeovers.get t = some o → l'.Cancelling actors t := by
    intro t o hp
    rw [hpe] at hp
    obtain ⟨i, a, hi, ha, hag, hc⟩ := h.waiting t o hp
    refine ⟨i, a, ?_, ?_, hag, hc⟩
    · rw [hr, if_neg]
      · exact hi
      intro ht
      rw [hf t ht] at hi
      cases hi
    · rw [hac, if_neg (hne t i hi)]
      exact ha
  refine { wellFormed := hwf, known := ?_, owner_human := by rw [how]; exact h.owner_human,
           pending_human := by rw [hpe]; exact h.pending_human,
           exclusive := by rw [how, hpe]; exact h.exclusive, owned := ?_,
           blocked := fun t o hp => .inr (hcnl t o hp), waiting := hcnl }
  · intro i a ha
    rw [hac] at ha
    split at ha
    · cases ha
      exact hactr
    · exact h.known i a ha
  · intro t o ho hh
    rw [how] at ho
    obtain ⟨i, a, hi, ha, hag⟩ := hh
    rw [hr] at hi
    rw [hac] at ha
    split at hi
    · rename_i ht
      cases hi
      rw [if_pos rfl] at ha
      cases ha
      have hhuman := h.owner_human t o ho
      rw [hown t ht o ho] at hhuman
      cases hhuman.unique hag
    · rw [if_neg (hne t i hi)] at ha
      exact h.owned t o ho ⟨i, a, hi, ha, hag⟩

theorem Settled.startAction (h : Settled actors l) (ck : Clock) {id : String} {a : Action}
    (hg : l.actions.get id = some a) (hp : l.Promotable a) : Settled actors (l.startAction ck id a) := by
  refine h.give id a.targets (h.wellFormed.startAction ck hg hp) rfl rfl (fun i => OrdMap.get_insert l.actions id i _)
    (reserveTargets_get l a.targets id) (h.known id a hg) ?_ ?_ ?_
  · intro t hi
    have hrun := h.wellFormed.running_of_reserved hi hg
    rw [hp.1] at hrun
    cases hrun
  · intro t ht
    exact (not_blocked_iff.1 (hp.2 t ht)).1
  · intro t ht
    exact (not_blocked_iff.1 (hp.2 t ht)).2.1

theorem Settled.promote (h : Settled actors l) (ck : Clock) : Settled actors (l.promoteQueuedActions ck).1 :=
  promote_induction ck (fun _ _ _ h hg hp => h.startAction ck hg hp) l h

/-- A mutating request that starts at once passed the test that no other person holds or awaits its targets. -/
theorem not_rejected {tgts : List InputTarget} (h : l.takeoverRejection actorId tgts = none)
    (ht : t ∈ tgts) {o : String} (ho : l.inputOwners.get t = some o)
    (hp : l.pendingTakeovers.get t = none) : o = actorId := by
  unfold takeoverRejection at h
  rw [List.findSome?_eq_none_iff] at h
  have := h t ht
  rw [hp, ho] at this
  simpa using this

section

variable (l : Ledger) (request : Request) (qd : Bool) (now : Nat)

@[simp] theorem admitAction_inputOwners : (l.admitAction request qd now).inputOwners = l.inputOwners := by
  unfold admitAction
  split <;> rfl

@[simp] theorem admitAction_pendingTakeovers : (l.admitAction request qd now).pendingTakeovers = l.pendingTakeovers := by
  unfold admitAction
  split <;> rfl

end

section

variable (h : Settled actors l)

include h

theorem Settled.admitAction {req : Request} {qd : Bool} (had : l.Admits req qd)
    (now : Nat) (hac : actors.contains req.actorId = true) : Settled actors (l.admitAction req qd now) := by
  obtain ⟨ac, hg⟩ := OrdMap.contains_iff.1 hac
  have hwf := h.wellFormed.move (p := .all) (.admitted req qd now had trivial)
  have hgiven : ∀ t, t ∈ (if (req.mutates && !qd) = true then sortedTargets req.targets else []) ↔
      (req.mutates && !qd) = true ∧ t ∈ sortedTargets req.targets := by
    split
    · rename_i hst
      simp [hst]
    · rename_i hst
      simp [hst]
  refine h.give (actionIdOf l.nextSequence)
    (if (req.mutates && !qd) = true then sortedTargets req.targets else []) hwf
    (by simp) (by simp) (fun i => OrdMap.get_insert l.actions _ i _) ?_ ⟨ac.kind, ac, hg, rfl⟩ ?_ ?_ ?_
  · intro t
    rw [admitAction_reservations]
    simp only [hgiven]
  · intro t hi
    obtain ⟨a, r, ha, -⟩ := (h.wellFormed.reserved t _).1 hi
    rw [h.wellFormed.fresh] at ha
    cases ha
  · intro t ht
    obtain ⟨hst, ht⟩ := (hgiven t).1 ht
    rw [Bool.and_eq_true, Bool.not_eq_true'] at hst
    have hwts := had.waits
    rw [hst.1, hst.2] at hwts
    exact free_of_not_mustQueue hwts.symm ht
  · intro t ht o ho
    obtain ⟨hst, ht⟩ := (hgiven t).1 ht
    rw [Bool.and_eq_true] at hst
    exact not_rejected (had.unheld hst.1) ht ho (h.exclusive t o ho)

end

/-- The parts of an operation that start nothing keep the ledger safe, and leave nobody waiting for a free target. -/
theorem Settled.apply (h : Settled actors l) (op : LedgerOp) (hac : ∀ kn, op.actors = some kn → kn = actors)
    (hh : ∀ t o, op.handsOver l t o → JoinedAs actors .human o) : Settled actors (op.apply l) := by
  have hcalm : ∀ {m}, CalmMoves (op.allowed l) l m → (l.Awaited → m.Awaited) → Settled actors m := by
    intro m hm ha
    have hsafe : InputSafe actors m := by
      clear ha
      induction hm with
      | refl => exact h.toInputSafe
      | tail _ hmo ih => exact ih.calm hmo hac hh
    refine ⟨hsafe, fun t o hp => (hsafe.blocked t o hp).resolve_left (ha ?_ t o hp)⟩
    intro t o hp hf
    obtain ⟨id, a, hr, -⟩ := h.waiting t o hp
    exact nomatch hf.symm.trans hr
  have hphs := h.wellFormed.apply_phases op
  generalize op.apply l = l' at hphs
  cases hphs with
  | calm hm _ ha => exact hcalm hm ha
  | promoted ck hm ha => exact (hcalm hm ha).promote ck
  | admitted req qd now had hs =>
    obtain ⟨-, kn, hkn, hactr⟩ := hs
    obtain rfl := hac kn hkn
    exact h.admitAction had now hactr

/-! ### Takeover requests -/

theorem promote_input (l : Ledger) (ck : Clock) : (l.promoteQueuedActions ck).1.inputOwners = l.inputOwners ∧
      (l.promoteQueuedActions ck).1.pendingTakeovers = l.pendingTakeovers :=
  promote_induction ck (P := fun l' => l'.inputOwners = l.inputOwners ∧ l'.pendingTakeovers = l.pendingTakeovers)
    (fun _ _ _ h _ _ => h) l ⟨rfl, rfl⟩

/-- A person who waits for a target still waits for it or owns it. -/
def KeepsWaiting (l l' : Ledger) : Prop :=
  ∀ t o, l.pendingTakeovers.get t = some o → l'.pendingTakeovers.get t = some o ∨ l'.inputOwners.get t = some o

theorem KeepsWaiting.of_eq (h : l'.pendingTakeovers = l.pendingTakeovers) : KeepsWaiting l l' := by
  intro t o hp
  rw [h]
  exact .inl hp

/-- What became of a takeover request: granted, or waiting for the agent that holds the target. -/
structure TakeoverAnswer (actors : ActorMap) (l l' : Ledger) (actorId : String)
    (t : InputTarget) (outcome : TakeoverOutcome) : Prop where
  granted_iff : outcome = .granted ↔ ¬ l.HeldByAgent actors t
  owns : outcome = .granted → l'.inputOwners.get t = some actorId
  waits : outcome ≠ .granted → l'.pendingTakeovers.get t = some actorId

theorem Settled.requestTakeover (h : Settled actors l) (ck : Clock) (aid : String) (t : InputTarget)
    (tabs : TabRegistry) : KeepsWaiting l (l.requestTakeover ck aid t actors tabs).1 ∧
      ∀ ef, (l.requestTakeover ck aid t actors tabs).2 = .ok ef →
        TakeoverAnswer actors l (l.requestTakeover ck aid t actors tabs).1 aid t ef.outcome := by
  -- a refused request changes nothing and has no effect to speak of
  have href : ∀ e : EnvironmentError, KeepsWaiting l l ∧
      ∀ ef : ActionTakeoverEffect, (Except.error e : Except EnvironmentError ActionTakeoverEffect) = .ok ef →
        TakeoverAnswer actors l l aid t ef.outcome :=
    fun e => ⟨.of_eq rfl, nofun⟩
  unfold EnvironmentActionLedger.requestTakeover
  split
  · exact href _
  rename_i ac hge
  split
  · exact href _
  rename_i hk
  split
  · exact href _
  split
  · rename_i o ho
    split
    · rename_i hs
      subst hs
      refine ⟨.of_eq rfl, ?_⟩
      rintro ef ⟨⟩
      exact ⟨⟨fun _ => h.owned t o ho, fun _ => rfl⟩, fun _ => ho, absurd rfl⟩
    · exact href _
  rename_i ho
  split
  · rename_i hp
    split
    · exact href _
    rename_i hs
    rw [not_not.1 hs] at hp
    have hpendi := (h.wellFormed.requested_moves (p := .all) t actors).2.2
    refine ⟨.of_eq hpendi, ?_⟩
    rintro ef ⟨⟩
    refine ⟨⟨nofun, absurd (h.heldByAgent hp)⟩, nofun, fun _ => ?_⟩
    rw [hpendi]
    exact hp
  rename_i hp
  obtain ⟨m, -, -, hb, hou⟩ := h.wellFormed.beginTakeover_spec (p := .all) ck trivial
    ⟨ac, hge, not_not.1 hk⟩ ho hp
  obtain ⟨hmo, hmp⟩ := promote_input m ck
  rw [hb]
  rw [← hmo, ← hmp] at hou
  rcases hou with ⟨hg, hf, how, hpe⟩ | ⟨⟨ids, hg⟩, hh, -, hpe⟩
  · refine ⟨.of_eq hpe, ?_⟩
    rintro ef ⟨⟩
    refine ⟨⟨fun _ => hf, fun _ => hg⟩, fun _ => ?_, absurd hg⟩
    rw [how, OrdMap.get_insert_self]
  refine ⟨fun t' o hp' => ?_, ?_⟩
  · left
    rw [hpe, OrdMap.get_insert, if_neg]
    · exact hp'
    intro ht
    rw [ht, hp] at hp'
    cases hp'
  rintro ef ⟨⟩
  rw [hg]
  refine ⟨⟨nofun, absurd hh⟩, nofun, fun _ => ?_⟩
  rw [hpe, OrdMap.get_insert_self]

/-! ### Waiting through the other operations -/

theorem finalize_keepsWaiting (l : Ledger) : KeepsWaiting l l.finalizeTakeovers.1 := by
  intro t o hp
  obtain ⟨ows, pend, heq, hpe, ho⟩ := finalizeTakeovers_eq l
  rw [heq]
  rw [hpe, ho, hp]
  split
  · exact .inr rfl
  · exact .inl rfl

/-- Granting takeovers and promoting, after steps that do not touch owners and pending takeovers. -/
private theorem keepsWaiting_of_settling {m : Ledger} (ck : Clock)
    (hm : m.pendingTakeovers = l.pendingTakeovers) : KeepsWaiting l (m.finalizeTakeovers.1.promoteQueuedActions ck).1 := by
  intro t o hp
  rw [(promote_input _ ck).1, (promote_input _ ck).2]
  apply finalize_keepsWaiting m t o
  rw [hm]
  exact hp

theorem submit_keepsWaiting (l : Ledger) (req : Request)
    (life : EnvironmentLifecycle) (gen : Nat) (tabs : TabRegistry) (now : Nat) :
    KeepsWaiting l (l.submit req life gen actors tabs now).1 := by
  rcases submit_cases l req life gen actors tabs now with ⟨heq, -⟩ | ⟨qd, -, heq, -⟩
  · rw [heq]
    exact .of_eq rfl
  · rw [heq]
    exact .of_eq (admitAction_pendingTakeovers l req qd now)

theorem finish_keepsWaiting (ck : Clock) (l : Ledger) (id : String)
    (term : EnvironmentActionTerminal) : KeepsWaiting l (l.finish ck id term).1 := by
  rcases finish_cases ck l id term with ⟨heq, -⟩ | ⟨a, -, -, heq⟩
  · rw [heq]
    exact .of_eq rfl
  · rw [heq]
    exact keepsWaiting_of_settling ck (updateAction_pendingTakeovers _ _ _)

theorem cancelAsActor_keepsWaiting (ck : Clock) (l : Ledger) (aid id : String)
    (acs' : ActorMap) : KeepsWaiting l (l.cancelAsActor ck aid id acs').1 := by
  apply KeepsWaiting.of_eq
  rcases cancelAsActor_cases ck l aid id acs' with heq | ⟨-, heq⟩ | ⟨-, heq⟩
  · rw [heq]
  · rw [heq, (promote_input _ ck).2, updateActions_pendingTakeovers]
  · rw [heq, updateAction_pendingTakeovers]

theorem beginControllerRecovery_keepsWaiting (ck : Clock) (l : Ledger) :
    KeepsWaiting l (l.beginControllerRecovery ck).1 := by
  intro t o hp
  refine finalize_keepsWaiting _ t o ?_
  show (failActionsForProcessLoss ck _ _).pendingTakeovers.get t = some o
  unfold failActionsForProcessLoss
  rw [updateActions_pendingTakeovers]
  exact hp

theorem completeControllerRecovery_keepsWaiting (ck : Clock) (l : Ledger) (gen : Nat)
    (tabs : TabRegistry) : KeepsWaiting l (l.completeControllerRecovery ck gen tabs).1 :=
  keepsWaiting_of_settling ck (updateActions_pendingTakeovers _ _ _)

theorem compact_input (h : l.WellFormed) : l.compactTerminalActions.inputOwners = l.inputOwners ∧
    l.compactTerminalActions.pendingTakeovers = l.pendingTakeovers :=
  compact_induction (P := fun l' => l'.inputOwners = l.inputOwners ∧ l'.pendingTakeovers = l.pendingTakeovers)
    (fun _ _ _ h _ _ => h) h.nodup ⟨rfl, rfl⟩

end EnvironmentActionLedger

end Chariox
