import Chariox.PromptState.Model

/-!
# Whose turn it is, and with which authority

Three results about runs of the prompt owner.  The sudo binding follows the active prompt, except through a replacement
of the active prompt by another one.  A cancellation that was accepted stands, except against the operations that write
a status without looking at the one before.  Work that a sudo window holds is activated when it is at the front of
the queue, and only then.
-/

namespace Chariox.PromptState

open OwnedAgentPromptState List

variable {agentId : String} {s s' : OwnedAgentPromptState} {op : Operation}

/-! ### What becomes of a turn -/

/-- The operations that take a prompt from a submission or from the queue and make it active. -/
def Operation.activates : Operation → Bool
  | .submit .. | .activateNext .. | .tryActivateNext .. | .finishAndActivateNext .. => true
  | _ => false

/-- No bound prompt is replaced by another one. -/
def keepsAuthority (s : OwnedAgentPromptState) : Operation → Bool
  | .replaceActive expected replacement => s.sudoEntryId.isNone || decide (replacement.id = expected.id)
  | _ => true

/-- The operation leaves an active prompt in status cancelling when it finds it so and leaves it active. -/
def keepsCancelling (s : OwnedAgentPromptState) : Operation → Bool
  | .markRunning => false
  | .restoreAfterResumeSuperseded .. => !s.activePrompt.any (·.durableDeliveryFailurePending)
  | .markDeliveryFailure _ _ _ expected next => decide (expected = .cancelling → next = .cancelling)
  | .replaceActive _ replacement => decide (s.activeId = some replacement.id → replacement.status = .cancelling)
  | .restoreSession (some (some active, _)) => decide (s.activeId = some active.id → active.status = .cancelling)
  | _ => true

def OwnedAgentPromptState.status (s : OwnedAgentPromptState) : Option PromptStatus := s.activePrompt.map (·.status)

/-- What an operation does to the turn of the agent: the turn goes on, with the same authority or none, it ends, one of an
idle agent starts, a prompt is written in place of the active one, or the running prompt is bound. -/
inductive Turn (op : Operation) (s s' : OwnedAgentPromptState) : Prop
  | kept (hid : s'.activeId = s.activeId) (hentry : s'.sudoEntryId = s.sudoEntryId ∨ s'.sudoEntryId = none)
      (hstatus : keepsCancelling s op = true → s.status = some .cancelling → s'.status = some .cancelling)
  | ended (h : s'.activePrompt = none)
  | started (p : PromptQueueItem) (hidle : s.activePrompt = none) (hactive : s'.activePrompt = some p)
      (hadmits : op.activates = true → s.sudoAdmits p.id = true)
      (hentry : ∀ e, s'.sudoEntryId = some e → ∃ hold, s.sudoWork = some hold ∧ hold.entryId = e ∧ p.id ∈ hold.prompts)
  | written (p : PromptQueueItem) (hactive : s'.activePrompt = some p) (hop : op.activates = false)
      (hentry : keepsAuthority s op = true → ∀ e, s'.sudoEntryId = some e → s.sudoEntryId = some e ∧ s.activeId = some p.id)
      (hstatus : keepsCancelling s op = true → s.activeId = some p.id → p.status = .cancelling)
  | bound (p e : String) (hop : op = .bindSudoTurn p e) (hruns : s.runs p = true)
      (hs : s' = { s with sudoEntryId := some e })

variable {test : PromptQueueItem → Bool} {edit : PromptQueueItem → PromptQueueItem}

theorem Turn.same (ha : s'.activePrompt = s.activePrompt)
    (he : s'.sudoEntryId = s.sudoEntryId ∨ s'.sudoEntryId = none) : Turn op s s' := by
  refine .kept (by simp [activeId, ha]) he ?_
  simp [status, ha]

theorem Turn.refl : Turn op s s := .same rfl (.inl rfl)

theorem Turn.edited (he : s'.activePrompt = s.activePrompt.map (fun p => if test p then edit p else p))
    (hen : s'.sudoEntryId = s.sudoEntryId ∨ s'.sudoEntryId = none) (hid : ∀ p, (edit p).id = p.id)
    (hs : keepsCancelling s op = true → ∀ p, s.activePrompt = some p → test p = true → p.status = .cancelling →
      (edit p).status = .cancelling) : Turn op s s' := by
  cases hact : s.activePrompt with
  | none => exact .ended (by simp [he, hact])
  | some p =>
    by_cases htest : test p = true
    · refine .kept (by simp [activeId, he, hact, htest, hid]) hen ?_
      intro hqt hc
      simp only [status, hact, Option.map_some, Option.some.injEq] at hc
      simp [status, he, hact, htest, hs hqt p hact htest hc]
    · exact .same (by simp [he, hact, htest]) hen

theorem Turn.unbound (hid : ∀ p, (edit p).id = p.id)
    (hs : keepsCancelling s op = true → ∀ p, s.activePrompt = some p → test p = true → p.status = .cancelling →
      (edit p).status = .cancelling) : Turn op s (s.unbindActivePrompt test edit).1 := by
  refine .edited rfl ?_ hid hs
  simp only [unbindActivePrompt]
  split
  · exact .inr rfl
  · exact .inl rfl

/-- A prompt that is set and bound has the authority of the hold it belongs to, and no other. -/
theorem Turn.bind {p : PromptQueueItem} (hi : s.activePrompt = none) (ha : s.sudoAdmits p.id = true)
    (q : List PromptQueueItem) : Turn op s ({ s with queuedPrompts := q }.setActivePrompt p).bindSudoWork := by
  have hset : { s with queuedPrompts := q }.setActivePrompt p =
      { s with sudoEntryId := none, activePrompt := some p, queuedPrompts := q } := by
    simp [setActivePrompt, activeId, hi]
  rw [hset]
  cases hwork : s.sudoWork with
  | none => exact .started p hi (by simp [bindSudoWork]) (fun _ => ha) (by simp [bindSudoWork])
  | some ho =>
    have hmem : p.id ∈ ho.prompts := by simpa [sudoAdmits, hwork] using ha
    refine .started p hi (by simp [bindSudoWork, hmem]) (fun _ => ha) ?_
    intro e he
    simpa [bindSudoWork, hwork, hmem] using he

theorem turn_activateOwned (exp : Option String) (rsv : Bool) (now : Nat) :
    Turn op s (s.activateOwnedQueuedPrompt agentId exp rsv now).1 := by
  unfold activateOwnedQueuedPrompt
  split
  · exact .refl
  · exact .refl
  · rename_i front rest hi hqu
    dsimp only
    split
    · exact .refl
    split
    · exact .refl
    rename_i hf
    split
    · exact .refl
    split
    · exact .refl
    refine .bind (p := { front with pendingPromptId := none }.setStatus .dispatching) hi ?_ rest
    simp only [Bool.or_eq_true, Bool.not_eq_true', not_or, Bool.not_eq_false] at hf
    exact hf.2

theorem turn_submit (pr : PromptQueueItem) (force allow : Bool) (context : SubmissionContext) :
    Turn op s (s.submitPreparedPromptWithQueuePolicy pr force allow context).1 := by
  unfold submitPreparedPromptWithQueuePolicy
  split
  · exact .refl
  split
  · exact .refl
  · exact .refl
  · split
    · rename_i hst
      simp only [shouldStart, Bool.and_eq_true, Option.isNone_iff_eq_none] at hst
      exact .bind (p := (pr.setDurableDelivery .accepted none none).setStatus .running) hst.1.1.2 hst.2
        s.queuedPrompts
    · split
      · exact .refl
      · split <;> exact .same rfl (.inl rfl)

theorem turn_tryActivateNext (exp : String) (pend rsv : Bool) (prepare : Except DaemonError Unit)
    (now : Nat) : Turn op s (s.tryActivateNextQueuedPromptForDispatch agentId exp pend rsv prepare now).1 := by
  unfold tryActivateNextQueuedPromptForDispatch
  split
  · exact .refl
  split
  · exact .refl
  split
  · exact .refl
  · exact .refl
  · exact turn_activateOwned (some exp) rsv now

theorem delivered_id (p : PromptQueueItem) (run ses : Option String) : (p.delivered run ses).id = p.id := by
  simp only [PromptQueueItem.delivered]
  split <;> rfl

theorem delivered_status {p : PromptQueueItem} (h : p.status = .cancelling) (run ses : Option String) :
    (p.delivered run ses).status = .cancelling := by
  simp [PromptQueueItem.delivered, PromptQueueItem.setDurableDelivery, h]

theorem turn_settle (pr : String) (run : Option String) (commit : Except DaemonError Bool) :
    Turn op s (s.settleActiveRemoteDispatchIfMatches pr run commit).1 := by
  unfold settleActiveRemoteDispatchIfMatches
  split
  · exact .refl
  · exact .refl
  · exact .refl
  · rename_i cur hcu
    rw [Option.filter_eq_some_iff] at hcu
    cases run with
    | none => exact .ended rfl
    | some run =>
      refine .kept (by simp [activeId, hcu.1, delivered_id]) (.inl rfl) ?_
      intro _ hc
      have hc : cur.status = .cancelling := by simpa [status, hcu.1] using hc
      simp [status, delivered_status hc]

theorem turn_markDelivery (sid pr : String) (phase : DurablePromptDeliveryPhase)
    (run ses : Option String) : Turn op s (s.markActivePromptDelivery sid pr phase run ses).1 := by
  unfold markActivePromptDelivery
  split
  · exact .refl
  rename_i a ha
  dsimp only
  split
  · exact .refl
  split
  · split <;> exact .refl
  refine .kept ?_ (.inl rfl) ?_
  · split <;> simp [activeId, ha, delivered_id, PromptQueueItem.setDurableDelivery]
  intro _ hc
  have hc : a.status = .cancelling := by simpa [status, ha] using hc
  split
  · simp [status, delivered_status hc]
  · simp [status, PromptQueueItem.setDurableDelivery, hc]

theorem turn_markDeliveryFailure (pr run ses : String) (exp next : PromptStatus) :
    Turn (.markDeliveryFailure pr run ses exp next) s
      (s.compareAndMarkActivePromptDeliveryFailure pr run ses exp next).1 := by
  have hstat : keepsCancelling s (.markDeliveryFailure pr run ses exp next) = true →
      ∀ p, s.activePrompt = some p → (decide (p.id = pr ∧ p.status = exp) && p.dispatchedTo run ses) = true →
        p.status = .cancelling → next = .cancelling := by
    intro hqt p _ ht hp
    simp only [keepsCancelling, decide_eq_true_eq, Bool.and_eq_true] at hqt ht
    exact hqt (ht.1.2.symm.trans hp)
  unfold compareAndMarkActivePromptDeliveryFailure
  split
  · exact .unbound (fun _ => rfl) hstat
  · exact .edited rfl (.inl rfl) (fun _ => rfl) hstat

theorem turn_replaceActive (exp repl : PromptQueueItem) :
    Turn (.replaceActive exp repl) s (s.replaceActivePromptIfMatches exp repl).1 := by
  unfold replaceActivePromptIfMatches
  split
  · rename_i ha
    refine .written repl rfl rfl ?_ of_decide_eq_true
    intro hl e he
    have hid : repl.id = exp.id := by
      rw [keepsAuthority, show s.sudoEntryId = some e from he] at hl
      simpa using hl
    exact ⟨he, by simp [activeId, ha, hid]⟩
  · exact .refl

theorem turn_restoreSession (mi : Option (Option PromptQueueItem × List PromptQueueItem)) :
    Turn (.restoreSession mi) s (s.restoreSessionState mi) := by
  match mi with
  | none | some (none, _) => exact .ended rfl
  | some (some a, q) =>
    refine .written a rfl rfl ?_ of_decide_eq_true
    intro _ e he
    simp only [restoreSessionState] at he
    split at he
    · rename_i hs
      exact ⟨he, hs⟩
    · cases he

theorem step_turn (aid : String) (s : OwnedAgentPromptState) (op : Operation) : Turn op s (step aid s op) := by
  cases op with
  | submit pr force allow context => exact turn_submit pr force allow context
  | activateNext exp pend rsv now =>
    simp only [step, activateNextQueuedPromptForDispatch]
    split
    · exact .refl
    · exact turn_activateOwned exp rsv now
  | tryActivateNext exp pend rsv prepare now =>
    exact turn_tryActivateNext exp pend rsv prepare now
  | finishAndActivateNext cur rsv now =>
    simp only [step, OwnedAgentPromptState.finishAndActivateNext]
    split
    · exact turn_activateOwned none rsv now
    · exact .refl
  | holdSudoWork | takeQueued | removeQueued | restoreQueued => exact .same rfl (.inl rfl)
  | settle pr run commit => exact turn_settle pr run commit
  | markDelivery sid pr phase run ses => exact turn_markDelivery sid pr phase run ses
  | markDeliveryFailure pr run ses exp next => exact turn_markDeliveryFailure pr run ses exp next
  | replaceActive exp repl => exact turn_replaceActive exp repl
  | restoreSession mi => exact turn_restoreSession mi
  | restoreAfterResumeSuperseded pr run fl cur =>
    refine .edited rfl (.inl rfl) (fun _ => rfl) ?_
    intro hqt p ha ht hp
    simp only [keepsCancelling, ha, Option.any_some, Bool.not_eq_true'] at hqt
    simp [hqt] at ht
  | markRunning => exact .edited rfl (.inl rfl) (fun _ => rfl) nofun
  | markRecovery rest => exact .edited rfl (.inl rfl) (fun _ => rfl) fun _ _ _ _ hp => hp
  | beginCancelling exp => exact .unbound (fun _ => rfl) fun _ _ _ _ _ => rfl
  | cancelOnly | remove => exact .ended rfl
  | complete exp =>
    simp only [step, completeActivePromptIfMatches]
    split
    · exact .refl
    · exact .ended rfl
  | finalizeCancellation exp =>
    simp only [step, finalizeActivePromptCancellationIfMatches]
    split
    · exact .ended rfl
    · exact .refl
  | restoreReserved pr q =>
    simp only [step, restoreReservedPromptIfUnclaimed]
    split
    · exact .refl
    rename_i hf
    have hidle : s.activePrompt = none := by simpa using (not_or.1 hf).1
    exact .started pr hidle rfl nofun (by simp [setActivePrompt, activeId, hidle])
  | bindSudoTurn pr e =>
    simp only [step, OwnedAgentPromptState.bindSudoTurn]
    split
    · rename_i hr
      exact .bound pr e rfl hr rfl
    · exact .same rfl (.inl rfl)
  | admitSudoWorkPrompt e pr =>
    simp only [step, OwnedAgentPromptState.admitSudoWorkPrompt]
    split <;> exact .same rfl (.inl rfl)
  | releaseSudoWork e =>
    refine .same rfl ?_
    simp only [step, OwnedAgentPromptState.releaseSudoWork]
    cases hent : s.sudoEntryId with
    | none => exact .inr rfl
    | some bound => by_cases hbd : bound = e <;> simp [hbd]
  | updateQueued pr submitted rest =>
    simp only [step, updateQueuedPrompt]
    split <;> exact .same rfl (.inl rfl)

/-! ### Authority -/

/-- The operation gives the prompt the authority of the window: it binds the running prompt, or it starts a turn of a
prompt that the window holds. -/
def Grants (agentId : String) (s : OwnedAgentPromptState) (op : Operation) (e p : String) : Prop :=
  (op = .bindSudoTurn p e ∧ s.runs p = true) ∨
    (s.activePrompt = none ∧ (step agentId s op).activeId = some p ∧
      ∃ hold, s.sudoWork = some hold ∧ hold.entryId = e ∧ p ∈ hold.prompts)

/-- The turn of the prompt has lasted since the window gave it its authority. -/
def Authorized (agentId : String) (ops : List Operation) (e p : String) : Prop :=
  ∃ before op later, ops = before ++ op :: later ∧ Grants agentId (run agentId before) op e p ∧
    ∀ earlier, earlier <+: later → (run agentId (before ++ op :: earlier)).activeId = some p

theorem runs_iff {p : String} : s.runs p = true ↔ ∃ a, s.activePrompt = some a ∧ a.id = p ∧ a.status = .running := by
  simp [runs, Option.any_eq_true]

variable {ops : List Operation} {e p : String}

theorem step_authority (hok : keepsAuthority s op = true) (he : (step agentId s op).sudoEntryId = some e)
    (hp : (step agentId s op).activeId = some p) :
    (s.sudoEntryId = some e ∧ s.activeId = some p) ∨ Grants agentId s op e p := by
  cases step_turn agentId s op with
  | kept hid hen hst =>
    rcases hen with hen | hen
    · exact .inl ⟨hen.symm.trans he, hid.symm.trans hp⟩
    · cases hen.symm.trans he
  | ended h => simp [activeId, h] at hp
  | started q hi ha had hen =>
    have hq : q.id = p := by simpa [activeId, ha] using hp
    exact .inr (.inr ⟨hi, hp, hq ▸ hen e he⟩)
  | written q ha _ hen hst =>
    have hq : q.id = p := by simpa [activeId, ha] using hp
    exact .inl (hq ▸ hen hok e he)
  | bound q en hop hr hs =>
    rw [hs] at he hp
    cases he
    obtain ⟨a, ha, hq, -⟩ := runs_iff.1 hr
    have hq : q = p := by simpa [activeId, ha, hq] using hp
    exact .inr (.inl (hq ▸ ⟨hop, hr⟩))

theorem run_snoc (ops : List Operation) (op : Operation) : run agentId (ops ++ [op]) = step agentId (run agentId ops) op := by
  simp [run]

theorem Authorized.snoc (h : Authorized agentId ops e p) (hp : (run agentId (ops ++ [op])).activeId = some p) :
    Authorized agentId (ops ++ [op]) e p := by
  obtain ⟨b, grant, lr, rfl, hg, hl⟩ := h
  refine ⟨b, grant, lr ++ [op], by simp, hg, ?_⟩
  intro old he
  rcases prefix_concat_iff.1 he with rfl | he
  · simpa using hp
  · exact hl old he

theorem Grants.authorized (h : Grants agentId (run agentId ops) op e p)
    (hp : (run agentId (ops ++ [op])).activeId = some p) : Authorized agentId (ops ++ [op]) e p := by
  refine ⟨ops, op, [], rfl, h, ?_⟩
  intro old he
  rw [prefix_nil.1 he]
  exact hp

/-- After these operations a bound prompt has had its authority for its whole turn. -/
def Loyal (agentId : String) (ops : List Operation) : Prop :=
  ∀ e p, (run agentId ops).sudoEntryId = some e → (run agentId ops).activeId = some p → Authorized agentId ops e p

theorem Loyal.snoc (h : Loyal agentId ops) (hok : keepsAuthority (run agentId ops) op = true) :
    Loyal agentId (ops ++ [op]) := by
  intro e p he hp
  have hstep : run agentId (ops ++ [op]) = step agentId (run agentId ops) op := run_snoc ops op
  rcases step_authority hok (hstep ▸ he) (hstep ▸ hp) with ⟨he', hp'⟩ | hg
  · exact (h e p he' hp').snoc hp
  · exact hg.authorized hp

theorem Loyal.append (h : Loyal agentId ops) {lr : List Operation}
    (hok : everyStep (step agentId) keepsAuthority (run agentId ops) lr = true) : Loyal agentId (ops ++ lr) := by
  induction lr generalizing ops with
  | nil => simpa using h
  | cons op rest ih =>
    rw [everyStep, Bool.and_eq_true] at hok
    rw [show ops ++ op :: rest = ops ++ [op] ++ rest by simp]
    exact ih (h.snoc hok.1) (run_snoc ops op ▸ hok.2)

/-- When no bound prompt is replaced by another one, sudo authority belongs to the prompt it was given to.  While a hold
is in place, only its prompts start. -/
theorem sudo_authority (agentId : String) (ops : List Operation)
    (hok : everyStep (step agentId) keepsAuthority {} ops = true) :
    (∀ e p, (run agentId ops).sudoBoundPrompt = some (e, p) →
      (run agentId ops).runs p = true ∧ Authorized agentId ops e p) ∧
    ∀ op hold p, op.activates = true → (run agentId ops).sudoWork = some hold →
      (step agentId (run agentId ops) op).activeId = some p → (run agentId ops).activeId = some p ∨ p ∈ hold.prompts := by
  constructor
  · intro e p hbd
    have hst : Loyal agentId [] := by
      intro e p he
      cases he
    have hloyal : Loyal agentId ([] ++ ops) := hst.append hok
    unfold sudoBoundPrompt at hbd
    split at hbd
    · cases hbd
    rename_i hen
    simp only [Option.map_eq_some_iff, Option.filter_eq_some_iff, decide_eq_true_eq] at hbd
    obtain ⟨a, ⟨ha, hr⟩, hpa⟩ := hbd
    cases hpa
    exact ⟨runs_iff.2 ⟨a, ha, rfl, hr⟩, hloyal _ _ hen (by simp [activeId, ha])⟩
  · intro op hold p hac hh hp
    cases step_turn agentId (run agentId ops) op with
    | kept hid => exact .inl (hid.symm.trans hp)
    | ended h => simp [activeId, h] at hp
    | started q hi ha had =>
      right
      have hq : q.id = p := by simpa [activeId, ha] using hp
      simpa [sudoAdmits, hh, hq] using had hac
    | written q ha hop => simp [hop] at hac
    | bound q e hop =>
      subst hop
      cases hac

/-- A submission of the prompt, which a queue policy may force into the queue. -/
def submission (id : String) (forceQueue : Bool) : Operation :=
  .submit { id := id, targetAgentId := "agent", status := .queued, durableOperationId := some id } forceQueue true
    { nextPendingPromptId := "pending" }

def boundRun : List Operation := [submission "turn" false, .bindSudoTurn "turn" "window"]

theorem sudo_authority_bound : (run "agent" boundRun).runs "turn" = true ∧ Authorized "agent" boundRun "window" "turn" :=
  (sudo_authority "agent" boundRun (by decide)).1 "window" "turn" (by decide)

/-- The follow-up of a workflow turn replaces the active prompt. -/
def followUp : PromptQueueItem := { id := "follow-up", targetAgentId := "agent", status := .running }

def followUpRun : List Operation :=
  boundRun ++ ((run "agent" boundRun).activePrompt.map (fun active => Operation.replaceActive active followUp)).toList

/-- The follow-up inherits the authority of the turn it replaces. -/
theorem follow_up_inherits_authority : (run "agent" followUpRun).sudoBoundPrompt = some ("window", "follow-up") ∧
    ¬ Authorized "agent" followUpRun "window" "follow-up" := by
  refine ⟨by decide, ?_⟩
  intro h
  obtain ⟨b, op, lr, heq, hg, -⟩ := h
  rcases hg with ⟨rfl, -⟩ | ⟨-, -, ho, hw, -⟩
  · have hmem : Operation.bindSudoTurn "follow-up" "window" ∈ followUpRun := by simp [heq]
    simp [followUpRun, boundRun, submission] at hmem
  have hnone : ∀ st ∈ followUpRun.inits, (run "agent" st).sudoWork = none := by decide
  rw [hnone b (by simp [heq])] at hw
  cases hw

/-! ### Cancellation -/

theorem step_cancelling (hok : keepsCancelling s op = true) (hp : s.activeId = some p)
    (hst : s.status = some .cancelling) (hid : (step agentId s op).activeId = some p) :
    (step agentId s op).status = some .cancelling := by
  cases step_turn agentId s op with
  | kept _ _ hk => exact hk hok hst
  | ended h => simp [activeId, h] at hid
  | started q hi => simp [activeId, hi] at hp
  | written q ha _ _ hw =>
    have hq : q.id = p := by simpa [activeId, ha] using hid
    simp [status, ha, hw hok (hq ▸ hp)]
  | bound q e hop hr hs =>
    rw [hs]
    exact hst

theorem cancelling_of_steps {lr : List Operation} (hp : s.activeId = some p) (hst : s.status = some .cancelling)
    (hok : everyStep (step agentId) keepsCancelling s lr = true)
    (hs : ∀ old, old <+: lr → (old.foldl (step agentId) s).activeId = some p) :
    (lr.foldl (step agentId) s).status = some .cancelling := by
  induction lr generalizing s with
  | nil => exact hst
  | cons op rest ih =>
    rw [everyStep, Bool.and_eq_true] at hok
    have hid : (step agentId s op).activeId = some p := hs [op] (by simp)
    refine ih hid (step_cancelling hok.1 hp hst hid) hok.2 ?_
    intro old he
    exact hs (op :: old) (cons_prefix_cons.2 ⟨rfl, he⟩)

/-- An accepted cancellation stands as long as its prompt is active and no later operation writes a status over it. -/
theorem cancellation_stands (agentId : String) (before later : List Operation) (expected : Option String)
    (p : PromptQueueItem) (hcancel : ((run agentId before).beginCancellingPromptIfMatches expected).2 = some p)
    (hok : everyStep (step agentId) keepsCancelling (run agentId (before ++ [.beginCancelling expected])) later = true)
    (hstays : ∀ earlier, earlier <+: later →
      (run agentId (before ++ .beginCancelling expected :: earlier)).activeId = some p.id) :
    (run agentId (before ++ .beginCancelling expected :: later)).status = some .cancelling := by
  have hrun : ∀ earlier, run agentId (before ++ .beginCancelling expected :: earlier) =
      earlier.foldl (step agentId) (run agentId (before ++ [.beginCancelling expected])) := by
    simp [run]
  rw [hrun]
  refine cancelling_of_steps (hstays [] (by simp)) ?_ hok fun earlier he => hrun earlier ▸ hstays earlier he
  rw [run_snoc]
  simp only [beginCancellingPromptIfMatches, unbindActivePrompt, editActivePrompt, Option.map_eq_some_iff,
    Option.filter_eq_some_iff] at hcancel
  obtain ⟨a, ⟨ha, ht⟩, -⟩ := hcancel
  simp only [step, beginCancellingPromptIfMatches, unbindActivePrompt, editActivePrompt, status, ha,
    Option.map_some, ht, if_true]
  rfl

def activatedRun : List Operation := [submission "turn" true, .activateNext none false false 0]

theorem cancellation_stands_delivered :
    (run "agent" (activatedRun ++ [.beginCancelling none, .markDelivery "session" "turn" .delivered none none])).status =
      some .cancelling := by
  refine cancellation_stands "agent" activatedRun [.markDelivery "session" "turn" .delivered none none] none
    { id := "turn", targetAgentId := "agent", status := .cancelling, durableOperationId := some "turn",
      durableDeliveryPhase := some .accepted } (by decide) (by decide) ?_
  intro old he
  rw [← mem_inits] at he
  revert old
  decide

/-- A start that was prepared before the cancellation marks the prompt as running after it. -/
theorem cancelled_prompt_runs_again :
    ((run "agent" activatedRun).beginCancellingPromptIfMatches none).2.map (·.id) = some "turn" ∧
      (run "agent" (activatedRun ++ [.beginCancelling none, .markRunning])).runs "turn" = true := by
  decide

/-! ### Held work -/

/-- A queued prompt that the window may start now. -/
def eligible (hold : SudoWorkHold) (reserved : PromptQueueItem → Bool) (now : Nat) (prompt : PromptQueueItem) : Bool :=
  decide (prompt.id ∈ hold.prompts) && !prompt.notificationExpired now && !prompt.remoteSteerReserved (reserved prompt)

/-- The first held prompt is activated exactly when it is at the front of the queue and targets the agent. -/
theorem held_front_activates (agentId : String) (s : OwnedAgentPromptState) (hold : SudoWorkHold)
    (reserved : PromptQueueItem → Bool) (now : Nat) (first : PromptQueueItem) (hidle : s.activePrompt = none)
    (hhold : s.sudoWork = some hold) (hfirst : s.queuedPrompts.find? (eligible hold reserved now) = some first) :
    let called := s.activateNextQueuedPromptForDispatch agentId none false (s.queuedPrompts.head?.any reserved) now
    (∃ active, active.id = first.id ∧ called.2 = .ok (some active) ∧ called.1.activePrompt = some active) ↔
      s.queuedPrompts.head? = some first ∧ first.targetAgentId = agentId := by
  intro called
  obtain ⟨front, rest, hqu⟩ := exists_cons_of_ne_nil (ne_nil_of_mem (mem_of_find?_eq_some hfirst))
  simp only [called, activateNextQueuedPromptForDispatch, activateOwnedQueuedPrompt, hidle, hqu, head?_cons,
    Option.any_some, Option.some_inj, Bool.false_eq_true, if_false]
  constructor
  · -- only the front is ever activated, and a front that is activated is eligible
    rintro ⟨active, hid, ha, -⟩
    split at ha
    · cases ha
    split at ha
    · cases ha
    rename_i hlive hopen
    have helig : eligible hold reserved now front = true := by
      simpa [eligible, sudoAdmits, hhold, hlive, and_comm] using hopen
    rw [hqu, find?_cons_of_pos helig] at hfirst
    obtain rfl := Option.some.inj hfirst
    by_contra hne
    have htarget : front.targetAgentId ≠ agentId := fun h => hne ⟨rfl, h⟩
    simp [validatePromptTargetAgent, htarget] at ha
  · rintro ⟨rfl, htarget⟩
    have helig : eligible hold reserved now front = true := find?_some hfirst
    simp only [eligible, Bool.and_eq_true, Bool.not_eq_true', decide_eq_true_eq] at helig
    refine ⟨{ front with pendingPromptId := none }.setStatus .dispatching, rfl, ?_⟩
    simp [validatePromptTargetAgent, helig, sudoAdmits, hhold, htarget, setActivePrompt, bindSudoWork,
      PromptQueueItem.setStatus]

/-- A prompt of the window with another one behind it. -/
def heldRun : List Operation := [.holdSudoWork "window" "held", submission "held" true, submission "other" false]

theorem held_front_activates_heldRun : (run "agent" heldRun).queuedPrompts.length = 2 ∧
    ∃ active, active.id = "held" ∧ ((run "agent" heldRun).activateNextQueuedPromptForDispatch "agent" none false
      false 0).2 = .ok (some active) := by
  obtain ⟨active, hid, ha, -⟩ := (held_front_activates "agent" (run "agent" heldRun)
    { entryId := "window", prompts := ["held"] } (fun _ => false) 0
    { id := "held", pendingPromptId := some "held", targetAgentId := "agent", status := .queued,
      durableOperationId := some "held", durableDeliveryPhase := some .accepted } (by decide) (by decide)
    (by decide)).2 (by decide)
  exact ⟨by decide, active, hid, ha⟩

/-- A prompt that the window keeps from starting stays in front of the window's own. -/
def blockedRun : List Operation := [.holdSudoWork "window" "held", submission "other" false, submission "held" true]

theorem held_prompt_blocked : (run "agent" blockedRun).activePrompt = none ∧
      ((run "agent" blockedRun).queuedPrompts.find?
        (eligible { entryId := "window", prompts := ["held"] } (fun _ => false) 0)).map (·.id) = some "held" ∧
      (run "agent" blockedRun).sudoWork = some { entryId := "window", prompts := ["held"] } ∧
      (run "agent" blockedRun).activateNextQueuedPromptForDispatch "agent" none false false 0 =
        (run "agent" blockedRun, .ok none) := by
  refine ⟨by decide, by decide, by decide, rfl⟩

end Chariox.PromptState
