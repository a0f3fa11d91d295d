import Chariox.KernelBrowser.Ledger

/-!
# Takeover in the kernel's browser

A takeover is granted when no action of an agent holds the target.  Whether the holder is an agent is looked up among
the actors that are there, and a disconnect takes an actor out while its actions go on.  So the lookup is right as long
as an agent is disconnected only when none of its actions runs, and no actor comes back under another kind.

Since the agents with running actions are still there, the operations, which look at the actors that are there, do what
they would do for everyone who has ever registered.
-/

namespace Chariox

open OrdMap

namespace KernelBrowserActors

open EnvironmentActionLedger

variable {s x : Actors} {actorId : String}

/-! ### What is proved -/

/-- No action that an agent began on the target is still running. -/
def NoAgentRuns (s : Actors) (t : InputTarget) : Prop :=
  ∀ id a, s.ledger.actions.get id = some a → s.begun.get id = some .agent → t ∈ a.targets → a.state ≠ .running

/-- The target whose takeover the operation reports as granted. -/
def granted (s : Actors) : BrowserOp → Option InputTarget
  | .takeover clock actor hostTab generation now =>
    match (s.takeover clock actor hostTab generation now).2 with
    | .ok .granted => (s.tab hostTab).toOption.map .browserTab
    | _ => none
  | .takeoverDesktop clock actor surface generation now =>
    match (s.takeoverDesktop clock actor surface generation now).2 with
    | .ok .granted => some .desktop
    | _ => none
  | _ => none

/-- The actor never registered under another kind. -/
def keepsKind (s : Actors) (actor : EnvironmentActor) : Bool :=
  (s.joined.get actor.actorId).all (fun old => old.kind = actor.kind)

/-- None of the actor's actions runs. -/
def isIdle (s : Actors) (actorId : String) : Bool :=
  s.ledger.actions.values.all (fun action => decide (action.actorId ≠ actorId) || decide (action.state ≠ .running))

/-- An agent is disconnected only when none of its actions runs, and an actor keeps its kind. -/
def keepsActors (s : Actors) : BrowserOp → Bool
  | .disconnect actorId => s.isHuman actorId || s.isIdle actorId
  | .begin actor _ _ => s.keepsKind actor
  | .takeover _ actor _ _ _ => s.keepsKind actor
  | .takeoverDesktop _ actor _ _ _ => s.keepsKind actor
  | .viewerConnected actor _ => s.keepsKind actor
  | _ => true

/-! ### The invariant -/

structure Guarded (s : Actors) : Prop where
  calm : Calm s.joined s.ledger
  listed : ∀ id actor, s.actors.get id = some actor → s.joined.get id = some actor
  orphans : ∀ id, s.orphanedTakeovers.contains id = true → JoinedAs s.joined .human id
  active : ∀ id a, s.ledger.actions.get id = some a → a.state = .running → s.active.contains id = true
  present : ∀ id a, s.ledger.actions.get id = some a → a.state = .running → JoinedAs s.joined .agent a.actorId →
    s.actors.contains a.actorId = true
  begun : ∀ id a kind, s.ledger.actions.get id = some a → s.begun.get id = some kind →
    JoinedAs s.joined kind a.actorId

/-- The actor is no agent with a running action. -/
def Free (s : Actors) (actorId : String) : Prop :=
  ∀ id a, s.ledger.actions.get id = some a → a.state = .running → JoinedAs s.joined .agent a.actorId →
    a.actorId ≠ actorId

theorem new_guarded : Guarded new where
  calm := ⟨new_settled _ _ _, rfl, fun _ _ h => (by cases h), fun _ _ h => (by cases h)⟩
  listed := nofun
  orphans := nofun
  active := fun _ _ h => by cases h
  present := fun _ _ h => by cases h
  begun := fun _ _ _ h => by cases h

theorem free_of_human (h : JoinedAs s.joined .human actorId) : s.Free actorId := by
  rintro id a - - hag rfl
  cases h.unique hag

theorem Free.congr (h : s.Free actorId) (ha : x.ledger.actions = s.ledger.actions)
    (hj : x.joined = s.joined) : x.Free actorId := by
  unfold Free
  rw [ha, hj]
  exact h

namespace Guarded

section

variable (h : Guarded s)

include h

theorem human (hh : s.isHuman actorId = true) : JoinedAs s.joined .human actorId := by
  unfold isHuman at hh
  rw [Option.any_eq_true] at hh
  obtain ⟨ac, hg, hk⟩ := hh
  exact ⟨ac, h.listed actorId ac hg, of_decide_eq_true hk⟩

theorem noAgentRuns {t : InputTarget} {o : String} (ho : s.ledger.inputOwners.get t = some o) : s.NoAgentRuns t :=
  fun id a ha hb ht => h.calm.not_running ho ha (h.begun id a .agent ha hb) ht

/-! ### Elementary changes -/

theorem setLedger {l : Ledger} (hs : Settled s.joined l) (hc : Calms s.ledger l) : Guarded { s with ledger := l } where
  calm := h.calm.calms hs hc
  listed := h.listed
  orphans := h.orphans
  active := by
    intro id a' ha' hr
    obtain ⟨a, ha, hr, -⟩ := hc.live ha' rfl hr
    exact h.active id a ha hr
  present := by
    intro id a' ha' hr hag
    obtain ⟨a, ha, hr, hid⟩ := hc.live ha' rfl hr
    rw [actorId_of_identity hid] at hag ⊢
    exact h.present id a ha hr hag
  begun := by
    intro id a' kind ha' hb
    obtain ⟨a, ha, hid, -⟩ := hc.action id a' ha'
    rw [actorId_of_identity hid]
    exact h.begun id a kind ha hb

/-- An operation of the ledger that looks up no actor. -/
theorem applyLedger (op : LedgerOp) (hop : op.request = none) (ha : op.actors = none)
    (hh : ∀ t o, op.handsOver s.ledger t o → JoinedAs s.joined .human o) :
    Guarded { s with ledger := op.apply s.ledger } := by
  refine h.setLedger (h.calm.settled.apply op ?_ hh) (h.calm.apply_calms op hop)
  intro kn hkn
  rw [ha] at hkn
  cases hkn

theorem removeActor (hf : s.Free actorId) : Guarded (s.removeActor actorId) :=
  { h with
    listed := by
      intro id ac hg
      obtain ⟨-, hg⟩ := of_get_remove hg
      exact h.listed id ac hg
    present := by
      intro id a ha hr hag
      change (s.actors.remove actorId).contains a.actorId = true
      rw [contains_remove, h.present id a ha hr hag]
      simpa using hf id a ha hr hag }

theorem requestCancel (ids : List String) : Guarded (s.requestCancel ids) := by
  refine { h with active := fun id a ha hr => ?_ }
  obtain ⟨asked, hg⟩ := contains_iff.1 (h.active id a ha hr)
  refine contains_iff.2 ⟨asked || ids.contains id, ?_⟩
  change (s.active.mapValues _).get id = _
  rw [get_mapValues, hg]
  rfl

theorem transferTakeover (src : String) {dest : String}
    (hh : JoinedAs s.joined .human dest) : Guarded (s.transferTakeover src dest) :=
  { h.applyLedger (.transferTabOwnership src dest) rfl rfl fun _ _ hha => hha.1 ▸ hh with }

end

end Guarded

/-! ### Registration and leaving -/

namespace Guarded

theorem releaseInput (h : Guarded s) (aid : String) (keepsTakeover : Bool) :
    Guarded (s.releaseInput aid keepsTakeover) := by
  have hfr : Guarded { s with
      desktopViewers := s.desktopViewers.retain fun _ viewer => viewer.1 != aid } :=
    { h with }
  cases keepsTakeover with
  | true => exact (hfr.applyLedger (.releaseActorInputKeepingTabs aid) rfl rfl nofun).requestCancel _
  | false => exact (hfr.applyLedger (.releaseActorInput aid) rfl rfl nofun).requestCancel _

/-- A viewer that leaves is no agent; an agent that leaves has no running action.  Everyone who registered is
remembered. -/
theorem disconnect (h : Guarded s) (hfr : s.Free actorId) :
    Guarded (s.disconnect actorId) ∧ (s.disconnect actorId).joined = s.joined := by
  unfold KernelBrowserActors.disconnect
  split
  · rename_i hh
    rw [Bool.and_eq_true] at hh
    have hrel := h.releaseInput actorId true
    dsimp only
    split
    · rename_i hr
      unfold liveViewerOtherThan at hr
      rw [Option.map_eq_some_iff] at hr
      obtain ⟨e, hf, rfl⟩ := hr
      have hmem := List.mem_of_find?_eq_some hf
      have hviewer := List.find?_some hf
      simp only [Bool.and_eq_true, decide_eq_true_eq] at hviewer
      have hhuman : JoinedAs (s.releaseInput actorId true).joined .human e.1 :=
        ⟨e.2, hrel.listed e.1 e.2 (mem_entries.1 hmem), hviewer.1.2⟩
      exact ⟨(hrel.transferTakeover actorId hhuman).removeActor (hfr.congr rfl rfl), rfl⟩
    · refine ⟨{ hrel with orphans := ?_ }, rfl⟩
      intro id hid
      rw [contains_insert] at hid
      split at hid
      · rename_i hs
        rw [hs]
        exact h.human hh.1
      · exact hrel.orphans id hid
  · have hrel := h.releaseInput actorId false
    have hclrd : Guarded { s.releaseInput actorId false with
        takeoverInput := (s.releaseInput actorId false).takeoverInput.remove actorId } :=
      { hrel with }
    exact ⟨hclrd.removeActor (hfr.congr rfl rfl), rfl⟩

theorem free_of_not_holdsWork (h : Guarded s) (hi : s.holdsWork actorId = false) : s.Free actorId := by
  rintro id a ha hr - rfl
  unfold holdsWork at hi
  rw [Bool.or_eq_false_iff] at hi
  have hmine : id ∈ s.actionsOf a.actorId :=
    mem_actionIdsWhere.2 ⟨(h.calm.settled.wellFormed.ordered id).2 ⟨a, ha⟩, a, ha, by simp⟩
  have hnone := List.any_eq_false.1 hi.2 id hmine
  exact hnone (h.active id a ha hr)

section

variable (h : Guarded s) {actor : EnvironmentActor} (hkind : s.keepsKind actor = true) (now : Nat)

include h hkind

theorem enter : Guarded (s.enter actor now).1 := by
  have hjoin : Joined s.joined (s.joined.insert actor.actorId actor) := by
    apply RoomEnvironment.joined_insert
    intro old ho
    unfold keepsKind at hkind
    rw [ho] at hkind
    exact of_decide_eq_true hkind
  unfold KernelBrowserActors.enter
  split
  · exact h
  refine { calm := ⟨h.calm.settled.join hjoin, h.calm.queueCapacity, h.calm.started, h.calm.mutating⟩,
           listed := ?_, orphans := fun id hid => hjoin _ _ (h.orphans id hid), active := h.active, present := ?_,
           begun := fun id a kind ha hb => hjoin _ _ (h.begun id a kind ha hb) }
  · intro id found hg
    rcases of_get_insert hg with ⟨rfl, rfl⟩ | ⟨hid, hg⟩
    · exact get_insert_self ..
    · exact (get_insert_of_ne _ hid _).trans (h.listed id found hg)
  · intro id a ha hr hag
    rw [contains_insert]
    split
    · rfl
    rename_i hid
    refine h.present id a ha hr ?_
    obtain ⟨found, hg, hf⟩ := hag
    rw [get_insert_of_ne _ hid] at hg
    exact ⟨found, hg, hf⟩

theorem register : Guarded (s.register actor now).1 := by
  unfold KernelBrowserActors.register
  split
  · split
    · exact h
    rename_i hi
    have hmem := List.argmin_mem hi
    rw [List.mem_filter, Bool.not_eq_true'] at hmem
    obtain ⟨hl, hs⟩ := h.disconnect (h.free_of_not_holdsWork hmem.2)
    refine hl.enter ?_ now
    unfold keepsKind
    rw [hs]
    exact hkind
  · exact h.enter hkind now

end

end Guarded

theorem enter_ok {actor : EnvironmentActor} {now : Nat} (hok : (s.enter actor now).2 = .ok ()) :
    (s.enter actor now).1.joined.get actor.actorId = some actor := by
  unfold enter at hok ⊢
  split
  · rename_i hc
    rw [if_pos hc] at hok
    cases hok
  · rw [get_insert_self]

theorem register_ok {actor : EnvironmentActor} {now : Nat} (hok : (s.register actor now).2 = .ok ()) :
    (s.register actor now).1.joined.get actor.actorId = some actor := by
  unfold register at hok ⊢
  split
  · rename_i hf
    rw [if_pos hf] at hok
    cases hidle : s.longestIdle with
    | none =>
      rw [hidle] at hok
      cases hok
    | some =>
      rw [hidle] at hok
      exact enter_ok hok
  · rename_i hr
    rw [if_neg hr] at hok
    exact enter_ok hok

/-! ### Takeovers that end or continue -/

namespace Guarded

section

variable (h : Guarded s)

include h

theorem endTakeoverBookkeeping (aid : String) : Guarded (s.endTakeoverBookkeeping aid) ∧
    (s.endTakeoverBookkeeping aid).joined = s.joined := by
  unfold KernelBrowserActors.endTakeoverBookkeeping
  split
  · exact ⟨h, rfl⟩
  have hend : Guarded { s with
      takeoverInput := s.takeoverInput.remove aid
      orphanedTakeovers := s.orphanedTakeovers.remove aid } :=
    { h with orphans := fun id hid => h.orphans id (contains_of_contains_remove hid) }
  split
  · rename_i ho
    exact ⟨hend.removeActor (free_of_human (h.orphans aid ho)), rfl⟩
  · exact ⟨hend, rfl⟩

theorem adoptOrphan (hh : JoinedAs s.joined .human actorId) (orphan : String) :
    Guarded (adoptOrphan actorId s orphan) ∧ (adoptOrphan actorId s orphan).joined = s.joined :=
  (h.transferTakeover orphan hh).endTakeoverBookkeeping orphan

theorem adoptOrphanedTakeovers (actorId : String) : Guarded (s.adoptOrphanedTakeovers actorId) ∧
    (s.adoptOrphanedTakeovers actorId).joined = s.joined := by
  unfold KernelBrowserActors.adoptOrphanedTakeovers
  split
  · exact ⟨h, rfl⟩
  rename_i hp
  have hhuman : JoinedAs s.joined .human actorId := h.human (by simpa using hp)
  have hreco : Guarded { s with orphanedTakeovers := s.orphanedTakeovers.remove actorId } :=
    { h with orphans := fun id hid => h.orphans id (contains_of_contains_remove hid) }
  -- the adopting viewer stays a person while the takeovers move one by one
  refine List.foldlRecOn _ _ (motive := fun m => Guarded m ∧ m.joined = s.joined)
    ⟨hreco, rfl⟩ ?_
  intro m hm orphan _
  obtain ⟨hg, hs⟩ := hm.1.adoptOrphan (hm.2 ▸ hhuman) orphan
  exact ⟨hg, hs.trans hm.2⟩

theorem prepare (aid : String) (now : Nat) : Guarded (s.prepare aid now) ∧ (s.prepare aid now).joined = s.joined := by
  obtain ⟨ha, hs⟩ := h.adoptOrphanedTakeovers aid
  unfold KernelBrowserActors.prepare notePersonInput
  split
  · exact ⟨{ ha with }, hs⟩
  · exact ⟨ha, hs⟩

theorem reclaimIdleTakeovers (now : Nat) : Guarded (s.reclaimIdleTakeovers now) ∧
    (s.reclaimIdleTakeovers now).joined = s.joined := by
  refine List.foldlRecOn _ _ (motive := fun m => Guarded m ∧ m.joined = s.joined) ⟨h, rfl⟩ ?_
  intro m hm id _
  obtain ⟨hg, hs⟩ := (hm.1.applyLedger (.releaseTabInput id) rfl rfl nofun).endTakeoverBookkeeping id
  exact ⟨hg, hs.trans hm.2⟩

theorem release (aid : String) (t : InputTarget) : Guarded { s with ledger := (s.ledger.release aid t).1 } :=
  h.applyLedger (.release aid t) rfl rfl nofun

theorem retireLapsedDesktopViewers (now : Nat) : Guarded (s.retireLapsedDesktopViewers now) ∧
    (s.retireLapsedDesktopViewers now).joined = s.joined := by
  refine List.foldlRecOn _ _ (motive := fun m => Guarded m ∧ m.joined = s.joined)
    ⟨{ h with }, rfl⟩ ?_
  intro m hm id _
  unfold retireDesktopViewer
  split
  · exact hm
  · exact ⟨(hm.1.requestCancel _).release id .desktop, hm.2⟩

/-! ### Inventories -/

theorem browserRestarted (ck : Clock) (gen : Nat) : Guarded (s.browserRestarted ck gen) := by
  have hldg := h.applyLedger (.invalidateAfterKernelRestart ck s.actors) rfl rfl nofun
  have hend : ∀ id a, (s.browserRestarted ck gen).ledger.actions.get id = some a → a.state ≠ .running := by
    intro id a ha hr
    have hterm := h.calm.settled.invalidated_terminal ck s.actors ha
    rw [hr] at hterm
    cases hterm
  exact { calm := hldg.calm, listed := h.listed, orphans := h.orphans, begun := hldg.begun,
          active := fun id a ha hr => absurd hr (hend id a ha),
          present := fun id a ha hr => absurd hr (hend id a ha) }

theorem reconcile (ck : Clock) (gen : Nat) (ob : Option Nat)
    (tabs : List InventoryTab) : Guarded (s.reconcile ck gen ob tabs).1 := by
  have hobs : Guarded { s with observation := ob.getD 0 } :=
    { h with }
  have hcur : Guarded (if gen ≠ s.generation then
      { s with observation := ob.getD 0 }.browserRestarted ck gen
      else { s with observation := ob.getD 0 }) := by
    split
    · exact hobs.browserRestarted ck gen
    · exact hobs
  unfold KernelBrowserActors.reconcile
  split
  · exact h
  dsimp only
  split
  · exact hcur
  · exact { hcur.applyLedger (.retainInputTargets _) rfl rfl nofun with }

theorem reconcileDesktop (sf gen : String) : Guarded (s.reconcileDesktop sf gen) := by
  unfold KernelBrowserActors.reconcileDesktop
  split
  · have hask := h.requestCancel s.active.keys
    have hclrd : Guarded { s.requestCancel s.active.keys with ledger := s.ledger.clearOwnership.1 } :=
      hask.applyLedger .clearOwnership rfl rfl nofun
    exact { hclrd with }
  · exact { h with }

/-! ### Actions -/

theorem finish (ck : Clock) (actionId : String) (term : EnvironmentActionTerminal) :
    Guarded (s.finish ck actionId term) := by
  have hfin := h.applyLedger (.finish ck actionId term) rfl rfl nofun
  have hcmp := hfin.applyLedger .compactTerminalActions rfl rfl nofun
  have hldg := hcmp.applyLedger (.compactTransientHistory 256) rfl rfl nofun
  refine { hldg with active := ?_ }
  intro id a ha hr
  have hne : id ≠ actionId := by
    rintro rfl
    have hcalms := (hfin.calm.apply_calms .compactTerminalActions rfl).trans
      (hcmp.calm.apply_calms (.compactTransientHistory 256) rfl)
    obtain ⟨b, hb, hru, -⟩ := hcalms.live ha rfl hr
    exact h.calm.finish_ends ck term hb hru
  change (s.active.remove actionId).contains id = true
  rw [contains_remove, if_neg hne]
  exact hldg.active id a ha hr

end

end Guarded

theorem actionRequest_ok {params : BrowserParams} {req : EnvironmentActionRequest}
    (h : s.actionRequest actorId params = .ok req) : req.actorId = actorId ∧ req.mutates = true := by
  unfold actionRequest at h
  split at h
  · cases h
    exact ⟨rfl, rfl⟩
  unfold tabRequest at h
  split at h
  · cases h
  split at h
  · cases h
  split at h <;> cases h
  exact ⟨rfl, rfl⟩

namespace Guarded

variable {actor : EnvironmentActor}

section

variable (h : Guarded s)

include h

theorem admitRequest {req : EnvironmentActionRequest} (now : Nat)
    (hac : req.actorId = actor.actorId) (hm : req.mutates = true)
    (hj : s.joined.get actor.actorId = some actor) : Guarded (s.admitRequest actor req now).1 := by
  unfold KernelBrowserActors.admitRequest
  rcases submit_cases s.ledger req .ready s.generation s.actors s.tabs now with
    ⟨hsame, hnone⟩ | ⟨queued, -, heq, -, hthere, -, -, -, hqu⟩
  · have hkept : Guarded { s with ledger := (s.ledger.submit req .ready s.generation s.actors s.tabs now).1 } := by
      rw [hsame]
      exact h
    dsimp only
    split
    · exact hkept
    · rename_i hok
      cases hnone _ hok
    · exact hkept
    · exact hkept
  · -- nothing can be queued
    cases queued with
    | true =>
      have hlt := hqu rfl
      rw [h.calm.queueCapacity] at hlt
      omega
    | false =>
      have hstl : Settled s.joined (s.ledger.submit req .ready s.generation s.joined s.tabs now).1 :=
        h.calm.settled.apply (.submit req .ready s.generation s.joined s.tabs now)
          (fun _ hkn => Option.some.inj hkn.symm) nofun
      have hkn : s.joined.contains req.actorId = true := by
        rw [hac]
        exact contains_iff.2 ⟨actor, hj⟩
      rw [← submit_actors (hthere.trans hkn.symm), heq] at hstl
      rw [heq]
      refine { calm := h.calm.admitAction hstl hm, listed := h.listed, orphans := h.orphans, active := ?_,
               present := ?_, begun := ?_ }
      · intro id a ha hr
        change (s.active.insert _ false).contains id = true
        rw [contains_insert]
        rcases admitAction_stored ha with ⟨hid, -⟩ | ⟨hid, ho⟩
        · rw [if_pos hid]
        · rw [if_neg hid]
          exact h.active id a ho hr
      · intro id a ha hr hag
        rcases admitAction_stored ha with ⟨-, rfl⟩ | ⟨-, ho⟩
        · exact hthere
        · exact h.present id a ho hr hag
      · intro id a kind ha hb
        change (s.begun.insert _ actor.kind).get id = some kind at hb
        rw [get_insert] at hb
        rcases admitAction_stored ha with ⟨hid, rfl⟩ | ⟨hid, ho⟩
        · rw [if_pos hid] at hb
          cases hb
          change JoinedAs s.joined actor.kind req.actorId
          rw [hac]
          exact ⟨actor, hj, rfl⟩
        · rw [if_neg hid] at hb
          exact h.begun id a kind ho hb

theorem refreshed (hk : s.keepsKind actor = true) (now : Nat) :
    Guarded ((s.retireLapsedDesktopViewers now).reclaimIdleTakeovers now) ∧
      ((s.retireLapsedDesktopViewers now).reclaimIdleTakeovers now).keepsKind actor = true := by
  obtain ⟨hre, hs⟩ := h.retireLapsedDesktopViewers now
  obtain ⟨hr, hs'⟩ := hre.reclaimIdleTakeovers now
  refine ⟨hr, ?_⟩
  unfold keepsKind
  rw [hs', hs]
  exact hk

theorem begin (hk : s.keepsKind actor = true) (params : BrowserParams)
    (now : Nat) : Guarded (s.begin actor params now).1 := by
  obtain ⟨hrf, hk'⟩ := h.refreshed hk now
  have hreg := hrf.register hk' now
  have hjnd := @register_ok ((s.retireLapsedDesktopViewers now).reclaimIdleTakeovers now) actor now
  unfold KernelBrowserActors.begin
  dsimp only
  split
  · exact hreg
  rename_i hok
  obtain ⟨hp, hs⟩ := hreg.prepare actor.actorId now
  split
  · dsimp only
    exact hp
  rename_i hr
  obtain ⟨ha, hm⟩ := actionRequest_ok hr
  refine hp.admitRequest now ha hm ?_
  rw [hs]
  exact hjnd hok

/-! ### Takeovers -/

/-- The agent that holds a target is still there, so it is found. -/
theorem blockingActionIds_eq (t : InputTarget) :
    s.ledger.blockingActionIds t s.actors = s.ledger.blockingActionIds t s.joined := by
  unfold blockingActionIds
  cases hres : s.ledger.reservations.get t with
  | none => rfl
  | some id =>
    cases ha : s.ledger.actions.get id with
    | none => simp [ha]
    | some a =>
      have hfnd : (s.actors.get a.actorId).any fun ac => ac.kind = .agent =
          (s.joined.get a.actorId).any fun ac => ac.kind = .agent := by
        cases hget : s.actors.get a.actorId with
        | some ac => rw [h.listed a.actorId ac hget]
        | none =>
          symm
          rw [Option.any_none, Option.any_eq_false]
          intro ac hj
          rw [decide_eq_false_iff_not]
          intro hag
          have hrun := h.calm.settled.wellFormed.running_of_reserved hres ha
          have hthere := h.present id a ha hrun ⟨ac, hj, hag⟩
          rw [OrdMap.contains, hget] at hthere
          cases hthere
      simp only [Option.bind_some, ha, Option.filter_some, hfnd]

theorem requestTakeover (ck : Clock) (actorId : String) (t : InputTarget) (denied : String) :
    Guarded (s.requestTakeover ck actorId t denied).1 ∧
      ((s.requestTakeover ck actorId t denied).2 = .ok .granted →
        (s.requestTakeover ck actorId t denied).1.ledger.inputOwners.get t = some actorId) := by
  have hcalms := h.calm.apply_calms (.requestTakeover ck actorId t s.actors s.tabs) rfl
  have ha : Settled s.joined (s.ledger.requestTakeover ck actorId t s.actors s.tabs).1 ∧
      ∀ ef, (s.ledger.requestTakeover ck actorId t s.actors s.tabs).2 = .ok ef →
        ef.outcome = .granted →
        (s.ledger.requestTakeover ck actorId t s.actors s.tabs).1.inputOwners.get t = some actorId := by
    cases hget : s.actors.get actorId with
    | none =>
      have href : s.ledger.requestTakeover ck actorId t s.actors s.tabs =
          (s.ledger, .error (.unknownActor actorId)) := by
        unfold EnvironmentActionLedger.requestTakeover
        rw [hget]
      rw [href]
      exact ⟨h.calm.settled, nofun⟩
    | some ac =>
      have hactr : s.actors.get actorId = s.joined.get actorId := by
        rw [hget, h.listed actorId ac hget]
      rw [requestTakeover_actors h.calm.started ck s.tabs hactr (h.blockingActionIds_eq t)]
      obtain ⟨-, ha⟩ := h.calm.settled.requestTakeover ck actorId t s.tabs
      exact ⟨h.calm.settled.apply (.requestTakeover ck actorId t s.joined s.tabs)
        (fun _ hkn => Option.some.inj hkn.symm) nofun, fun ef he => (ha ef he).owns⟩
  have hlat := h.setLedger ha.1 hcalms
  unfold KernelBrowserActors.requestTakeover
  dsimp only
  split
  · exact ⟨hlat, nofun⟩
  rename_i ef he
  refine ⟨hlat.requestCancel _, fun hgr => ha.2 ef he ?_⟩
  exact Except.ok.inj hgr

theorem takeover (ck : Clock) (hk : s.keepsKind actor = true) (hostTab : String) (gen now : Nat) :
    Guarded (s.takeover ck actor hostTab gen now).1 ∧
      ∀ tab, s.tab hostTab = .ok tab → (s.takeover ck actor hostTab gen now).2 = .ok .granted →
        (s.takeover ck actor hostTab gen now).1.ledger.inputOwners.get (.browserTab tab) = some actor.actorId := by
  obtain ⟨hr, hk'⟩ := h.refreshed hk now
  have hreg := hr.register hk' now
  unfold KernelBrowserActors.takeover
  split
  · exact ⟨h, nofun⟩
  split
  · exact ⟨h, nofun⟩
  rename_i found hf
  dsimp only
  generalize ((s.retireLapsedDesktopViewers now).reclaimIdleTakeovers now).register actor now = registered
    at hreg
  split
  · exact ⟨hreg, nofun⟩
  have hadp := (hreg.adoptOrphanedTakeovers actor.actorId).1
  have hnoted : Guarded { registered.1.adoptOrphanedTakeovers actor.actorId with
      takeoverInput := (registered.1.adoptOrphanedTakeovers actor.actorId).takeoverInput.insert actor.actorId now } :=
    { hadp with }
  obtain ⟨hg, ho⟩ := hnoted.requestTakeover ck actor.actorId (.browserTab found)
    "MD-3: browser takeover denied"
  refine ⟨hg, ?_⟩
  intro tab ht hgr
  rw [hf] at ht
  cases ht
  exact ho hgr

theorem takeoverDesktop (ck : Clock) (hk : s.keepsKind actor = true) (sf gen : String) (now : Nat) :
    Guarded (s.takeoverDesktop ck actor sf gen now).1 ∧
      ((s.takeoverDesktop ck actor sf gen now).2 = .ok .granted →
        (s.takeoverDesktop ck actor sf gen now).1.ledger.inputOwners.get .desktop = some actor.actorId) := by
  obtain ⟨hr, hs⟩ := h.retireLapsedDesktopViewers now
  have hkind' : (s.retireLapsedDesktopViewers now).keepsKind actor = true := by
    unfold keepsKind
    rw [hs]
    exact hk
  have hreg := hr.register hkind' now
  unfold KernelBrowserActors.takeoverDesktop
  split
  · exact ⟨h, nofun⟩
  dsimp only
  split
  · exact ⟨hreg, nofun⟩
  · exact hreg.requestTakeover ck actor.actorId .desktop "MP-11: desktop takeover denied"

theorem releaseTab (aid tab : String) (gen now : Nat) : Guarded (s.release aid tab gen now).1 := by
  unfold KernelBrowserActors.release
  split
  · exact h
  split
  · exact h
  have hrel := (h.reclaimIdleTakeovers now).1.release
  dsimp only
  split
  · exact hrel _ _
  · exact ((hrel _ _).endTakeoverBookkeeping _).1

theorem releaseDesktop (aid sf gen : String) : Guarded (s.releaseDesktop aid sf gen).1 := by
  unfold KernelBrowserActors.releaseDesktop
  split
  · exact h
  · exact h.release aid .desktop

theorem viewerConnected (hk : s.keepsKind actor = true) (now : Nat) : Guarded (s.viewerConnected actor now) := by
  have hreg := h.register hk now
  unfold KernelBrowserActors.viewerConnected
  dsimp only
  split
  · exact hreg
  · exact (hreg.adoptOrphanedTakeovers actor.actorId).1

theorem checkDialogTakeover (tab : String) (now : Nat) : Guarded (s.checkDialogTakeover tab now).1 := by
  have hrclm := (h.reclaimIdleTakeovers now).1
  unfold KernelBrowserActors.checkDialogTakeover
  dsimp only
  split
  · exact hrclm
  · split <;> exact hrclm

/-! ### Runs -/

theorem setDesktopViewers (viewers : OrdMap String (String × Nat)) : Guarded { s with desktopViewers := viewers } :=
  { h with }

theorem desktopViewer (aid sub : String) (now : Nat) : Guarded (s.desktopViewer aid sub now) := by
  unfold KernelBrowserActors.desktopViewer
  split
  · exact h.setDesktopViewers _
  · exact h

theorem disconnectOk (hok : (s.isHuman actorId || s.isIdle actorId) = true) : Guarded (s.disconnect actorId) := by
  rw [Bool.or_eq_true] at hok
  rcases hok with hh | hi
  · exact (h.disconnect (free_of_human (h.human hh))).1
  refine (h.disconnect ?_).1
  rintro id a ha hr - rfl
  have hnone := List.all_eq_true.1 hi a (mem_values.2 ⟨id, ha⟩)
  simp [hr] at hnone

theorem step (op : BrowserOp) (hok : s.keepsActors op = true) : Guarded (s.step op) := by
  cases op with
  | reconcile ck gen ob tabs => exact h.reconcile ck gen ob tabs
  | reconcileDesktop sf gen => exact h.reconcileDesktop sf gen
  | «begin» ac params now => exact h.begin hok params now
  | finish ck ai term => exact h.finish ck ai term
  | takeover ck ac tab gen now => exact (h.takeover ck hok tab gen now).1
  | takeoverDesktop ck ac sf gen now => exact (h.takeoverDesktop ck hok sf gen now).1
  | release aid tab gen now => exact h.releaseTab aid tab gen now
  | releaseDesktop aid sf gen => exact h.releaseDesktop aid sf gen
  | disconnect => exact h.disconnectOk hok
  | viewerConnected ac now => exact h.viewerConnected hok now
  | reclaimIdleTakeovers now => exact (h.reclaimIdleTakeovers now).1
  | checkDialogTakeover tab now => exact h.checkDialogTakeover tab now
  | retireLapsedDesktopViewers now => exact (h.retireLapsedDesktopViewers now).1
  | desktopViewer aid sub now => exact h.desktopViewer aid sub now
  | suspendDesktopViewer aid sub now =>
    change Guarded (s.suspendDesktopViewer aid sub now).1
    unfold suspendDesktopViewer
    split
    · exact h
    · exact h.setDesktopViewers _
  | resumeDesktopViewer aid old repl now =>
    change Guarded (s.resumeDesktopViewer aid old repl now).1
    unfold resumeDesktopViewer
    split
    · exact h
    · exact (h.setDesktopViewers _).desktopViewer aid repl now
  | _ => exact h.setDesktopViewers _

theorem owned_of_granted {op : BrowserOp} (hok : s.keepsActors op = true) {t : InputTarget}
    (hgr : s.granted op = some t) : ∃ o, (s.step op).ledger.inputOwners.get t = some o := by
  cases op with
  | takeover ck ac ht gen now =>
    unfold KernelBrowserActors.granted at hgr
    dsimp only at hgr
    split at hgr
    · rename_i hr
      cases htab : s.tab ht with
      | error =>
        rw [htab] at hgr
        cases hgr
      | ok tab =>
        rw [htab] at hgr
        cases hgr
        exact ⟨_, (h.takeover ck hok ht gen now).2 tab htab hr⟩
    · cases hgr
  | takeoverDesktop ck ac sf gen now =>
    unfold KernelBrowserActors.granted at hgr
    dsimp only at hgr
    split at hgr
    · rename_i hr
      cases hgr
      exact ⟨_, (h.takeoverDesktop ck hok sf gen now).2 hr⟩
    · cases hgr
  | _ => cases hgr

end

end Guarded

theorem run_guarded {ops : List BrowserOp} (h : everyStep step keepsActors new ops = true) : Guarded (run ops) :=
  foldl_induction (fun _ op hg hok => hg.step op hok) new_guarded h

/-- Takeover safety.  In a run in which an agent is disconnected only when none of its actions runs and actors keep
their kind, no action of an agent runs on a target that a person owns, nor on one whose takeover is reported as granted
by the next operation. -/
theorem takeover_excludes_agents {ops : List BrowserOp} (h : everyStep step keepsActors new ops = true) :
    (∀ t owner, (run ops).ledger.owner t = some owner → (run ops).NoAgentRuns t) ∧
      ∀ op t, (run ops).keepsActors op = true → (run ops).granted op = some t → (run (ops ++ [op])).NoAgentRuns t := by
  have hgrd := run_guarded h
  refine ⟨fun t owner ho => hgrd.noAgentRuns ho, ?_⟩
  intro op t hok hgr
  obtain ⟨o, ho⟩ := hgrd.owned_of_granted hok hgr
  have hrun : run (ops ++ [op]) = (run ops).step op := List.foldl_concat ..
  rw [hrun]
  exact (hgrd.step op hok).noAgentRuns ho

/-! ### An agent that is disconnected while its action runs -/

def browserAgent : EnvironmentActor := ⟨"agent", .agent, "Agent", .present, .rose⟩

def browserPerson : EnvironmentActor := ⟨"person", .human, "Person", .present, .rose⟩

/-- A tab appears, and an agent begins an action on it. -/
def agentBegins : List BrowserOp :=
  [.reconcile (fun _ => 0) 1 none [⟨some "host-tab", some "document"⟩],
    .begin browserAgent ⟨some "host-tab", some 1, some "tab-click", false, none⟩ 10]

def personTakesOver : BrowserOp := .takeover (fun _ => 0) browserPerson "host-tab" 1 20

/-- The agent's action ends before the agent leaves and the person takes over. -/
theorem takeover_excludes_agents_finished :
    let ops := agentBegins ++ [.finish (fun _ => 0) "action-1" .completed, .disconnect "agent"]
    everyStep step keepsActors new ops = true ∧ (run ops).granted personTakesOver = some (.browserTab "tab-1") ∧
      (run (ops ++ [personTakesOver])).NoAgentRuns (.browserTab "tab-1") :=
  ⟨by decide +kernel, by decide +kernel,
    (takeover_excludes_agents (by decide +kernel)).2 personTakesOver (.browserTab "tab-1") (by decide +kernel)
      (by decide +kernel)⟩

/-- The agent leaves while its action runs: the takeover is granted, and the action is still running. -/
theorem disconnected_agent_runs_on :
    let ops := agentBegins ++ [.disconnect "agent"]
    (run ops).granted personTakesOver = some (.browserTab "tab-1") ∧
      (run (ops ++ [personTakesOver])).ledger.owner (.browserTab "tab-1") = some "person" ∧
      ¬ (run (ops ++ [personTakesOver])).NoAgentRuns (.browserTab "tab-1") := by
  refine ⟨by decide +kernel, by decide +kernel, fun hn => ?_⟩
  have hruns : ((run (agentBegins ++ [.disconnect "agent"] ++ [personTakesOver])).ledger.actions.get "action-1").any
      (fun a => a.targets.contains (.browserTab "tab-1") && decide (a.state = .running)) = true := by
    decide +kernel
  obtain ⟨a, ha, hr⟩ := (Option.any_eq_true _ _).1 hruns
  rw [Bool.and_eq_true, List.contains_iff_mem, decide_eq_true_eq] at hr
  exact hn "action-1" a ha (by decide +kernel) hr.1 hr.2

end KernelBrowserActors

end Chariox
