import Chariox.RoomEnvironment.Moves

/-!
# Idempotent submission

A key index, the stored actions, the stored requests and the history are pruned by different rules.  All that the
operations do to them is put together from five steps: leave them alone, change an action in place, admit a new
action, forget a terminal action, and forget a history record without a key.  A property that these five steps keep
(`ClosedUnderSteps`) holds after every run.  The history record of an action with a key is never dropped and its
request stays, so the key answers for its action as long as the ledger lives (`submission_idempotent`).
-/

namespace Chariox

open EnvironmentActionLedger OrdMap

theorem idempotencyKey_of_identity {a b : EnvironmentAction} (h : a.identity = b.identity) :
    a.idempotencyKey = b.idempotencyKey :=
  (congrArg EnvironmentAction.idempotencyKey h : a.identity.idempotencyKey = b.identity.idempotencyKey)

namespace EnvironmentActionLedger

variable {l l' : Ledger}

/-! ### The steps of the operations -/

/-- The two ledgers store the same actions, requests, keys and history. -/
structure SameRecords (l l' : Ledger) : Prop where
  actions : l'.actions = l.actions
  historyRecords : l'.historyRecords = l.historyRecords
  historyActionSequences : l'.historyActionSequences = l.historyActionSequences
  requests : l'.requests = l.requests
  idempotencyActions : l'.idempotencyActions = l.idempotencyActions
  nextSequence : l'.nextSequence = l.nextSequence

/-- The property survives each of the steps that the operations are put together from. -/
structure ClosedUnderSteps (P : Ledger → Prop) : Prop where
  frame : ∀ l l', P l → SameRecords l l' → P l'
  update : ∀ l id (f : Action → Action), P l → (∀ a, (f a).identity = a.identity) →
    P (l.updateAction id f)
  submitted : ∀ l request queued now, P l → l.existing request = .ok none → P (l.admitAction request queued now)
  evict : ∀ l id a, P l → l.actions.get id = some a → P (l.evictAction id)
  forget : ∀ l n a, P l → l.historyRecords.get n = some a → a.idempotencyKey = none → P (l.forgetHistoryRecord n)

namespace ClosedUnderSteps

variable {P : Ledger → Prop}

/-- Starting an action changes it in place; the reservations are not looked at. -/
theorem start (hP : ClosedUnderSteps P) (ck : Clock) {id : String} {a : Action} (h : P l)
    (hg : l.actions.get id = some a) : P (l.startAction ck id a) := by
  have hupdt := hP.update l id (EnvironmentAction.started (ck id)) h fun _ => rfl
  have hact : (l.startAction ck id a).actions = (l.updateAction id (EnvironmentAction.started (ck id))).actions := by
    apply ext_get
    intro i
    rw [updateAction_actions, get_modify]
    show (l.actions.insert id (a.started (ck id))).get i = _
    rw [get_insert]
    by_cases hi : i = id
    · subst hi
      simp [hg]
    · simp [hi]
  have hhist : (l.updateAction id (EnvironmentAction.started (ck id))).historyRecords =
      l.historyRecords.insert a.sequence (a.started (ck id)) := by
    have hmod : (l.actions.modify id (EnvironmentAction.started (ck id))).get id = some (a.started (ck id)) := by
      rw [get_modify]
      simp [hg]
    simp only [updateAction, syncHistoryAction, hmod]
    rfl
  obtain ⟨his, heq⟩ := updateAction_eq l id (EnvironmentAction.started (ck id))
  refine hP.frame _ _ hupdt ⟨hact, hhist.symm, ?_, ?_, ?_, ?_⟩
  · rw [heq]; rfl
  · rw [heq]; rfl
  · rw [heq]; rfl
  · rw [heq]; rfl

theorem calm (hP : ClosedUnderSteps P) {p : Allowed} (h : P l) (hm : CalmMove p l l') : P l' := by
  cases hm with
  | input => exact hP.frame l _ h ⟨rfl, rfl, rfl, rfl, rfl, rfl⟩
  | asked id a rsn =>
    exact hP.update _ id _ (hP.frame l _ h ⟨rfl, rfl, rfl, rfl, rfl, rfl⟩) fun _ => rfl
  | ended ck en ids =>
    have hupda : P (l.updateActions ids fun id => en.apply (ck id)) :=
      List.foldlRecOn ids _ h fun l h id _ => hP.update l id _ h (en.identity_apply (ck id))
    exact hP.frame _ _ hupda ⟨rfl, rfl, rfl, rfl, rfl, rfl⟩
  | evicted id a hg => exact hP.evict l id a h hg
  | forgot n a hg hkl => exact hP.forget l n a h hg hkl

theorem move (hP : ClosedUnderSteps P) {p : Allowed} (h : P l) (hm : Move p l l') : P l' := by
  cases hm with
  | calm hm => exact hP.calm h hm
  | started ck id a hg => exact hP.start ck h hg
  | admitted req q now ha => exact hP.submitted l req q now h ha.fresh

theorem apply (hP : ClosedUnderSteps P) (hwf : l.WellFormed) (h : P l) (op : LedgerOp) : P (op.apply l) :=
  (hwf.moves_induction (fun _ _ _ => hP.move) h (hwf.apply_moves op)).2

theorem run (hP : ClosedUnderSteps P) (hwf : l.WellFormed) (h : P l) (ops : List LedgerOp) : P (l.run ops) :=
  (List.foldlRecOn ops LedgerOp.apply (motive := fun l => l.WellFormed ∧ P l) ⟨hwf, h⟩
    fun _ hl op _ => ⟨hl.1.apply op, hP.apply hl.1 hl.2 op⟩).2

end ClosedUnderSteps

/-! ### Keys and their actions -/

/-- The action is among the stored actions or in the history. -/
def Stores (l : Ledger) (a : Action) : Prop :=
  (∃ id, l.actions.get id = some a) ∨ ∃ n, l.historyRecords.get n = some a

structure Tagged (l : Ledger) : Prop where
  stored : ∀ id a, l.actions.get id = some a → id = actionIdOf a.sequence ∧ a.actionId = id ∧ a.sequence < l.nextSequence
  recorded : ∀ n a, l.historyRecords.get n = some a → a.sequence = n ∧ a.actionId = actionIdOf n ∧ n < l.nextSequence
  requested : ∀ id a r, l.actions.get id = some a → l.requests.get id = some r → a.idempotencyKey = r.idempotencyKey
  keyed : ∀ a key, l.Stores a → a.idempotencyKey = some key → l.idempotencyActions.get key = some a.actionId

/-- The key stands for the action `id` with the given request, and the history can still answer for it. -/
structure Recorded (key id : String) (original : Request) (l : Ledger) : Prop where
  indexed : l.idempotencyActions.get key = some id
  requested : l.requests.get id = some original
  keyed : original.idempotencyKey = some key
  recorded : ∃ n a, id = actionIdOf n ∧ l.historyActionSequences.get id = some n ∧ l.historyRecords.get n = some a ∧
    a.idempotencyKey = some key

theorem new_tagged (tcap qcap : Nat) : (new tcap qcap).Tagged where
  stored := by intro id a h; simp [new] at h
  recorded := by intro n a h; simp [new] at h
  requested := by intro id a r h; simp [new] at h
  keyed := by intro a key h; simp [new, Stores] at h

variable {request original : Request} {f : Action → Action}
variable {a : Action} {id key : String} {n : Nat}

theorem existing_eq_none (h : l.existing request = .ok none)
    (hk : request.idempotencyKey = some key) : l.idempotencyActions.get key = none := by
  unfold existing at h
  rw [hk] at h
  dsimp only at h
  split at h
  · rename_i hn
    exact hn
  split at h
  · cases h
  split at h
  · cases h
  split at h <;> cases h

/-! ### Steps that keep the keys -/

section

variable (l : Ledger) (id : String) (f : Action → Action)

theorem updateAction_records (n : Nat) : (l.updateAction id f).historyRecords.get n = match l.actions.get id with
      | none => l.historyRecords.get n
      | some a => if n = (f a).sequence then some (f a) else l.historyRecords.get n := by
  have hget : (l.actions.modify id f).get id = (l.actions.get id).map f := by
    rw [get_modify]
    simp
  unfold updateAction syncHistoryAction
  rw [hget]
  cases l.actions.get id with
  | none => rfl
  | some => exact get_insert _ _ _ _

theorem updateAction_index : (l.updateAction id f).idempotencyActions = l.idempotencyActions ∧
      (l.updateAction id f).historyActionSequences = l.historyActionSequences := by
  obtain ⟨_, h⟩ := updateAction_eq l id f
  rw [h]
  exact ⟨rfl, rfl⟩

end

/-- An action that is stored after an update was stored before, or is an updated one; its identity is not new. -/
theorem stores_of_updateAction (hid : ∀ a, (f a).identity = a.identity) (h : (l.updateAction id f).Stores a) :
    ∃ b, l.Stores b ∧ a.identity = b.identity := by
  rcases h with ⟨i, hi⟩ | ⟨n, hn⟩
  · rw [updateAction_actions, get_modify] at hi
    split at hi
    · obtain ⟨b, hb, rfl⟩ := Option.map_eq_some_iff.1 hi
      exact ⟨b, .inl ⟨_, hb⟩, hid b⟩
    · exact ⟨a, .inl ⟨i, hi⟩, rfl⟩
  · rw [updateAction_records] at hn
    split at hn
    · exact ⟨a, .inr ⟨n, hn⟩, rfl⟩
    rename_i b hb
    split at hn
    · cases hn
      exact ⟨b, .inl ⟨id, hb⟩, hid b⟩
    · exact ⟨a, .inr ⟨n, hn⟩, rfl⟩

theorem Tagged.updateAction (h : l.Tagged) (id : String)
    (hid : ∀ a, (f a).identity = a.identity) : (l.updateAction id f).Tagged where
  stored := by
    intro i a ha
    rw [updateAction_actions, get_modify] at ha
    rw [updateAction_nextSequence]
    split at ha
    · obtain ⟨b, hb, rfl⟩ := Option.map_eq_some_iff.1 ha
      rw [sequence_of_identity (hid b), actionId_of_identity (hid b)]
      exact h.stored i b hb
    · exact h.stored i a ha
  recorded := by
    intro n a ha
    rw [updateAction_records] at ha
    rw [updateAction_nextSequence]
    split at ha
    · exact h.recorded n a ha
    rename_i b hb
    split at ha
    · rename_i hn
      cases ha
      obtain ⟨hs, hac, hlt⟩ := h.stored id b hb
      rw [sequence_of_identity (hid b)] at hn
      rw [sequence_of_identity (hid b), actionId_of_identity (hid b), hn, hac]
      exact ⟨rfl, hs, hlt⟩
    · exact h.recorded n a ha
  requested := by
    intro i a r ha hr
    rw [updateAction_actions, get_modify] at ha
    rw [updateAction_requests] at hr
    split at ha
    · obtain ⟨b, hb, rfl⟩ := Option.map_eq_some_iff.1 ha
      rw [idempotencyKey_of_identity (hid b)]
      exact h.requested i b r hb hr
    · exact h.requested i a r ha hr
  keyed := by
    intro a key ha hk
    obtain ⟨b, hb, hi⟩ := stores_of_updateAction hid ha
    rw [(updateAction_index l id f).1, actionId_of_identity hi]
    exact h.keyed b key hb (idempotencyKey_of_identity hi ▸ hk)

theorem Recorded.updateAction (h : Recorded key id original l)
    (ht : l.Tagged) (i : String) (hid : ∀ a, (f a).identity = a.identity) :
    Recorded key id original (l.updateAction i f) where
  indexed := by rw [(updateAction_index l i f).1]; exact h.indexed
  requested := by rw [updateAction_requests]; exact h.requested
  keyed := h.keyed
  recorded := by
    obtain ⟨n, a, hn, hs, ha, hk⟩ := h.recorded
    rw [(updateAction_index l i f).2]
    cases hb : l.actions.get i with
    | none => exact ⟨n, a, hn, hs, by rw [updateAction_records, hb]; exact ha, hk⟩
    | some b =>
      obtain ⟨hi, -⟩ := ht.stored i b hb
      by_cases heq : n = (f b).sequence
      · -- the record is overwritten by the updated action, which has the key of its request
        rw [sequence_of_identity (hid b)] at heq
        subst heq
        rw [hn, ← hi] at h
        refine ⟨b.sequence, f b, hn, hs, ?_, ?_⟩
        · rw [updateAction_records, hb]
          simp [sequence_of_identity (hid b)]
        · rw [idempotencyKey_of_identity (hid b), ht.requested i b original hb h.requested, h.keyed]
      · refine ⟨n, a, hn, hs, ?_, hk⟩
        rw [updateAction_records, hb]
        simp [heq, ha]

section

variable (l : Ledger) (request : Request) (queued : Bool)

theorem admitAction_index (now : Nat) (key : String) : (l.admitAction request queued now).idempotencyActions.get key =
      if request.idempotencyKey = some key then some (actionIdOf l.nextSequence) else l.idempotencyActions.get key := by
  unfold admitAction
  dsimp only
  cases request.idempotencyKey with
  | none => simp
  | some k =>
    rw [get_insert]
    by_cases hk : key = k
    · simp [hk, newAction]
    · simp [hk, Ne.symm hk]

theorem admitAction_records (now n : Nat) : (l.admitAction request queued now).historyRecords.get n =
      if n = l.nextSequence then some (l.newAction request queued now) else l.historyRecords.get n :=
  get_insert _ _ _ _

end

theorem Tagged.admitAction (h : l.Tagged) (hne : l.existing request = .ok none)
    (q : Bool) (now : Nat) : (l.admitAction request q now).Tagged where
  stored := by
    intro i a ha
    show _ ∧ _ ∧ a.sequence < l.nextSequence + 1
    rcases of_get_insert ha with ⟨hi, rfl⟩ | ⟨-, ha⟩
    · exact ⟨hi, hi.symm, Nat.lt_succ_self _⟩
    · obtain ⟨h1, h2, h3⟩ := h.stored i a ha
      exact ⟨h1, h2, by omega⟩
  recorded := by
    intro n a ha
    show _ ∧ _ ∧ n < l.nextSequence + 1
    rw [admitAction_records] at ha
    split at ha
    · rename_i hn
      cases ha
      subst hn
      exact ⟨rfl, rfl, Nat.lt_succ_self _⟩
    · obtain ⟨h1, h2, h3⟩ := h.recorded n a ha
      exact ⟨h1, h2, by omega⟩
  requested := by
    intro i a r ha hr
    rw [admitAction_actions, get_insert] at ha
    rw [admitAction_requests, get_insert] at hr
    by_cases hi : i = actionIdOf l.nextSequence
    · simp only [hi] at ha hr
      cases ha
      cases hr
      rfl
    · simp only [hi] at ha hr
      exact h.requested i a r ha hr
  keyed := by
    intro a key ha hk
    have hcases : a = l.newAction request q now ∨ l.Stores a := by
      rcases ha with ⟨i, hi⟩ | ⟨n, hn⟩
      · exact (of_get_insert hi).imp And.right fun ho => .inl ⟨i, ho.2⟩
      · rw [admitAction_records] at hn
        split at hn
        · exact .inl (Option.some.inj hn).symm
        · exact .inr (.inr ⟨n, hn⟩)
    rw [admitAction_index]
    rcases hcases with rfl | ho
    · have hre : request.idempotencyKey = some key := hk
      simp only [hre]
      rfl
    -- an older action has the key only if the request does not, since the key of a new request is free
    have hidx := h.keyed a key ho hk
    split
    · rename_i hre
      rw [existing_eq_none hne hre] at hidx
      cases hidx
    · exact hidx

theorem Recorded.of_admitted (hk : request.idempotencyKey = some key) (q : Bool) (now : Nat) :
    Recorded key (actionIdOf l.nextSequence) request (l.admitAction request q now) where
  indexed := by rw [admitAction_index]; simp [hk]
  requested := get_insert_self _ _ _
  keyed := hk
  recorded := ⟨l.nextSequence, l.newAction request q now, rfl, get_insert_self _ _ _, get_insert_self _ _ _, hk⟩

theorem Recorded.admitAction
    (h : Recorded key id original l) (ht : l.Tagged) (hnew : l.existing request = .ok none) (q : Bool) (now : Nat) :
    Recorded key id original (l.admitAction request q now) := by
  obtain ⟨n, a, hn, hs, ha, hk⟩ := h.recorded
  have hlt := (ht.recorded n a ha).2.2
  have hne : id ≠ actionIdOf l.nextSequence := by
    intro heq
    have := actionIdOf_injective (hn.symm.trans heq)
    omega
  constructor
  · rw [admitAction_index]
    split
    · rename_i hr
      have hfree := existing_eq_none hnew hr
      rw [h.indexed] at hfree
      cases hfree
    · exact h.indexed
  · exact (get_insert_of_ne _ hne _).trans h.requested
  · exact h.keyed
  · refine ⟨n, a, hn, (get_insert_of_ne _ hne _).trans hs, ?_, hk⟩
    rw [admitAction_records, if_neg (by omega)]
    exact ha

theorem stores_of_evictAction (h : (l.evictAction id).Stores a) : l.Stores a := by
  rcases h with ⟨i, hi⟩ | hn
  · exact .inl ⟨i, (of_get_remove hi).2⟩
  · exact .inr hn

theorem Tagged.evictAction (h : l.Tagged) (id : String) : (l.evictAction id).Tagged where
  stored := fun i a ha => h.stored i a (of_get_remove ha).2
  recorded := h.recorded
  requested := fun i a r ha hr => h.requested i a r (of_get_remove ha).2 (evictAction_requests_of hr)
  keyed := fun a key ha hk => h.keyed a key (stores_of_evictAction ha) hk

/-- The request of an action with a key stays when the action is forgotten. -/
theorem Recorded.evictAction (h : Recorded key id original l)
    (ht : l.Tagged) {i : String} (ha : l.actions.get i = some a) : Recorded key id original (l.evictAction i) :=
  { h with
    requested := by
      show (if (l.actions.get i).any fun act => act.idempotencyKey.isNone then l.requests.remove i
        else l.requests).get id = _
      by_cases hi : id = i
      · subst hi
        have hkey : a.idempotencyKey = some key := by rw [ht.requested id a original ha h.requested, h.keyed]
        simp [ha, hkey, h.requested]
      split
      · rw [get_remove_of_ne _ hi]
        exact h.requested
      · exact h.requested }

theorem Tagged.forgetHistoryRecord (h : l.Tagged)
    (ha : l.historyRecords.get n = some a) : (l.forgetHistoryRecord n).Tagged := by
  rw [forgetHistoryRecord_eq ha]
  refine { h with recorded := fun m b hb => h.recorded m b (of_get_remove hb).2, keyed := ?_ }
  intro b key hb hk
  refine h.keyed b key (hb.imp_right ?_) hk
  rintro ⟨m, hm⟩
  exact ⟨m, (of_get_remove hm).2⟩

theorem Recorded.forgetHistoryRecord (h : Recorded key id original l) (ht : l.Tagged)
    (ha : l.historyRecords.get n = some a) (hkl : a.idempotencyKey = none) :
    Recorded key id original (l.forgetHistoryRecord n) := by
  obtain ⟨m, b, hm, hs, hb, hk⟩ := h.recorded
  have hne : m ≠ n := by
    intro heq
    subst heq
    rw [ha] at hb
    cases hb
    rw [hkl] at hk
    cases hk
  have hne' : id ≠ a.actionId := by
    intro heq
    rw [hm, (ht.recorded n a ha).2.1] at heq
    exact hne (actionIdOf_injective heq)
  rw [forgetHistoryRecord_eq ha]
  refine ⟨h.indexed, h.requested, h.keyed, m, b, hm, ?_, ?_, hk⟩
  · exact (get_remove_of_ne _ hne').trans hs
  · exact (get_remove_of_ne _ hne).trans hb

/-! ### Runs -/

theorem Tagged.frame (h : l.Tagged) (hs : SameRecords l l') : l'.Tagged := by
  constructor
  · rw [hs.actions, hs.nextSequence]
    exact h.stored
  · rw [hs.historyRecords, hs.nextSequence]
    exact h.recorded
  · rw [hs.actions, hs.requests]
    exact h.requested
  · unfold Stores
    rw [hs.actions, hs.historyRecords, hs.idempotencyActions]
    exact h.keyed

theorem Recorded.frame (h : Recorded key id original l) (hs : SameRecords l l') : Recorded key id original l' := by
  constructor
  · rw [hs.idempotencyActions]
    exact h.indexed
  · rw [hs.requests]
    exact h.requested
  · exact h.keyed
  · rw [hs.historyActionSequences, hs.historyRecords]
    exact h.recorded

theorem tagged_closed : ClosedUnderSteps Tagged where
  frame := fun _ _ h hs => h.frame hs
  update := fun _ id _ h hid => h.updateAction id hid
  submitted := fun _ _ q now h hn => h.admitAction hn q now
  evict := fun _ id _ h _ => h.evictAction id
  forget := fun _ _ _ h ha _ => h.forgetHistoryRecord ha

theorem recorded_closed (key id : String) (orig : Request) :
    ClosedUnderSteps (fun l => l.Tagged ∧ Recorded key id orig l) where
  frame := fun _ _ h hs => ⟨h.1.frame hs, h.2.frame hs⟩
  update := fun _ i _ h hid => ⟨h.1.updateAction i hid, h.2.updateAction h.1 i hid⟩
  submitted := fun _ _ q now h hn => ⟨h.1.admitAction hn q now, h.2.admitAction h.1 hn q now⟩
  evict := fun _ i _ h ha => ⟨h.1.evictAction i, h.2.evictAction h.1 ha⟩
  forget := fun _ _ _ h ha hkl => ⟨h.1.forgetHistoryRecord ha, h.2.forgetHistoryRecord h.1 ha hkl⟩

theorem Recorded.existing (h : Recorded key id original l) (ht : l.Tagged) (hk : request.idempotencyKey = some key) :
    if original.matchesIdempotentOperation request then
      ∃ a, l.Stores a ∧ a.actionId = id ∧ l.existing request = .ok (some (.existing id a.state))
    else l.existing request = .error (.idempotencyConflict key) := by
  obtain ⟨n, a, hn, hs, ha, -⟩ := h.recorded
  unfold EnvironmentActionLedger.existing
  simp only [hk, h.indexed, h.requested]
  split
  · rename_i hm
    simp only [hm]
    cases hb : l.actions.get id with
    | some b => exact ⟨b, .inl ⟨id, hb⟩, (ht.stored id b hb).2.1, rfl⟩
    | none =>
      refine ⟨a, .inr ⟨n, ha⟩, by rw [(ht.recorded n a ha).2.1, hn], ?_⟩
      simp [hs, ha]
  · rename_i hm
    simp [hm]

/-- A submission that passes the checks of the lifecycle and of the actor answers as the lookup does. -/
theorem submit_of_existing {acs : ActorMap}
    (ha : acs.contains request.actorId = true) (gen : Nat) (tabs : TabRegistry) (now : Nat) :
    (∀ e, l.existing request = .error e → l.submit request .ready gen acs tabs now = (l, .error e)) ∧
      ∀ adm, l.existing request = .ok (some adm) → l.submit request .ready gen acs tabs now = (l, .ok adm) := by
  constructor
  · intro e he
    simp [submit, ha, he]
  · intro adm he
    simp [submit, ha, he]

/-- A submission with a key that created an action ties the key to that action for the rest of the run.  No other
action ever has the key.  A matching request is answered with the action, another one is refused as a conflict, and
both leave the ledger as it is. -/
theorem submission_idempotent (terminalCapacity queueCapacity : Nat) (ops : List LedgerOp)
    (request : Request) (lifecycle : EnvironmentLifecycle) (generation : Nat)
    (actors : ActorMap) (tabs : TabRegistry) (now : Nat) (admission : ActionAdmission)
    (key id : String) (hkey : request.idempotencyKey = some key)
    (hadmission : (((new terminalCapacity queueCapacity).run ops).submit request lifecycle generation actors tabs
      now).2 = .ok admission)
    (hcreated : createdId admission = some id) (later : List LedgerOp) :
    let l := ((((new terminalCapacity queueCapacity).run ops).submit request lifecycle generation actors tabs
      now).1).run later
    l.idempotencyActions.get key = some id ∧
      (∀ a, l.Stores a → a.idempotencyKey = some key → a.actionId = id) ∧
      ∀ repeated : Request, repeated.idempotencyKey = some key →
        if request.matchesIdempotentOperation repeated then
          ∃ a, l.Stores a ∧ a.actionId = id ∧ l.existing repeated = .ok (some (.existing id a.state)) ∧
            ∀ (actors' : ActorMap) (generation' : Nat) (tabs' : TabRegistry) (now' : Nat),
              actors'.contains repeated.actorId = true →
              l.submit repeated .ready generation' actors' tabs' now' = (l, .ok (.existing id a.state))
        else
          l.existing repeated = .error (.idempotencyConflict key) ∧
            ∀ (actors' : ActorMap) (generation' : Nat) (tabs' : TabRegistry) (now' : Nat),
              actors'.contains repeated.actorId = true →
              l.submit repeated .ready generation' actors' tabs' now' = (l, .error (.idempotencyConflict key)) := by
  intro l
  have hwf := run_wellFormed terminalCapacity queueCapacity ops
  have htagged := tagged_closed.run (new_wellFormed terminalCapacity queueCapacity)
    (new_tagged terminalCapacity queueCapacity) ops
  have hwf' := hwf.apply (.submit request lifecycle generation actors tabs now)
  have hfst : (((new terminalCapacity queueCapacity).run ops).submit request lifecycle generation actors tabs now).1.Tagged ∧
      Recorded key id request
        (((new terminalCapacity queueCapacity).run ops).submit request lifecycle generation actors tabs now).1 := by
    rcases submit_cases ((new terminalCapacity queueCapacity).run ops) request lifecycle generation actors tabs now with
      ⟨-, hnone⟩ | ⟨queued, -, heq, -, -, hnew, -⟩
    · rw [hnone admission hadmission] at hcreated
      cases hcreated
    have hid : id = actionIdOf ((new terminalCapacity queueCapacity).run ops).nextSequence := by
      rw [heq] at hadmission
      cases hadmission
      split at hcreated
      · exact (Option.some.inj hcreated).symm
      · exact (Option.some.inj hcreated).symm
    rw [heq, hid]
    exact ⟨htagged.admitAction hnew queued now, Recorded.of_admitted hkey queued now⟩
  obtain ⟨ht, hr⟩ : l.Tagged ∧ Recorded key id request l := (recorded_closed key id request).run hwf' hfst later
  refine ⟨hr.indexed, ?_, ?_⟩
  · intro a ha hak
    have hidx := ht.keyed a key ha hak
    rw [hr.indexed] at hidx
    exact (Option.some.inj hidx).symm
  · intro repeated hre
    have hans := hr.existing ht hre
    split
    · rename_i hm
      simp only [hm, if_true] at hans
      obtain ⟨a, ha, hid, hexisting⟩ := hans
      exact ⟨a, ha, hid, hexisting, fun actors' generation' tabs' now' hac =>
        (submit_of_existing hac generation' tabs' now').2 _ hexisting⟩
    · rename_i hm
      simp only [hm] at hans
      exact ⟨hans, fun actors' generation' tabs' now' hac =>
        (submit_of_existing hac generation' tabs' now').1 _ hans⟩

/-- An agent's click on the desktop that carries a key. -/
def keyedClick : Request :=
  { EnvironmentActionRequest.computerMutation "agent" 1 "pointer_click" none with
    idempotencyKey := some "pointer-click-1" }

/-- The only actor of the room is an agent. -/
def agentActors : ActorMap := OrdMap.ofList [("agent", {
  actorId := "agent", kind := .agent, displayLabel := "Agent", presence := .present, presentationColor := .rose })]

/-- The click ends, is forgotten by a ledger that keeps no terminal action, and the runtime is lost. -/
def forgottenClick : List LedgerOp :=
  [.finish (fun _ => 3) "action-1" .completed, .compactTerminalActions, .compactTransientHistory 0,
    .invalidateRuntime (fun _ => 4)]

theorem submission_idempotent_forgottenClick :
    let l := ((((new 0 8).run []).submit keyedClick .ready 1 agentActors .new 0).1).run forgottenClick
    l.actions.get "action-1" = none ∧
      ∃ a, l.Stores a ∧ a.actionId = "action-1" ∧ l.existing keyedClick = .ok (some (.existing "action-1" a.state)) ∧
        ∀ (actors' : ActorMap) (generation' : Nat) (tabs' : TabRegistry) (now' : Nat),
          actors'.contains "agent" = true →
          l.submit keyedClick .ready generation' actors' tabs' now' = (l, .ok (.existing "action-1" a.state)) :=
  ⟨by decide, (submission_idempotent 0 8 [] keyedClick .ready 1 agentActors .new 0 (.accepted "action-1")
    "pointer-click-1" "action-1" rfl (by decide) rfl forgottenClick).2.2 keyedClick rfl⟩

end EnvironmentActionLedger

end Chariox
