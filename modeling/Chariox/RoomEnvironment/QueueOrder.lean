import Chariox.RoomEnvironment.Takeover

/-!
# First-come order of the queue

The promotion loop scans the actions in submission order and starts every queued action whose own targets are free.
It does not look at the targets that earlier queued actions wait for: an action that needs two targets can be
overtaken on the free one while the other is busy (`overtaken_click`).  The order is kept in every run in which a new
request that meets a queued action asks for all targets of that action (`first_come_order`).
-/

namespace Chariox

open OrdMap List

namespace EnvironmentActionLedger

variable {l l' : Ledger}

/-- Every action that runs now and did not run before: no earlier action still waits for one of its targets. -/
def KeepsOrder (l l' : Ledger) : Prop :=
  ∀ id b, l'.actions.get id = some b → b.state = .running →
    (∀ b₀, l.actions.get id = some b₀ → b₀.state ≠ .running) →
    ∀ id' a, l'.actions.get id' = some a → a.state = .queued → a.sequence < b.sequence →
      ∀ t ∈ a.targets, t ∉ b.targets

instance : Decidable (KeepsOrder l l') :=
  decidable_of_iff
    (∀ e ∈ l'.actions.entries, e.2.state = .running →
      (∀ b₀ ∈ l.actions.get e.1, b₀.state ≠ .running) →
      ∀ e' ∈ l'.actions.entries, e'.2.state = .queued → e'.2.sequence < e.2.sequence →
        ∀ t ∈ e'.2.targets, t ∉ e.2.targets) (by
    unfold KeepsOrder
    constructor
    · intro h id b hb hrun hnew id' a ha
      exact h (id, b) (mem_entries.2 hb) hrun hnew (id', a) (mem_entries.2 ha)
    · intro h e he hrun hnew e' he'
      exact h e.1 e.2 (mem_entries.1 he) hrun hnew e'.1 e'.2 (mem_entries.1 he'))

/-- A queued action waits for reservations only, and a later one that meets it has all of its targets. -/
structure Ordered (l : Ledger) : Prop where
  wellFormed : l.WellFormed
  sorted : l.order.Pairwise (fun i j => ∀ a b, l.actions.get i = some a → l.actions.get j = some b →
    a.sequence < b.sequence)
  exclusive : ∀ t o p, l.inputOwners.get t = some o → l.pendingTakeovers.get t = some p → False
  unheld : ∀ id a t o, l.actions.get id = some a → a.state = .queued → t ∈ a.targets → l.HeldBy t o → o = a.actorId
  nested : ∀ id a id' b t, l.actions.get id = some a → a.state = .queued → l.actions.get id' = some b →
    b.state = .queued → a.sequence < b.sequence → t ∈ a.targets → t ∈ b.targets → ∀ t' ∈ a.targets, t' ∈ b.targets

theorem new_ordered (tcap qcap : Nat) : (new tcap qcap).Ordered where
  wellFormed := new_wellFormed _ _
  sorted := List.Pairwise.nil
  exclusive := by intro t o p h; simp [new] at h
  unheld := by intro id a t o h; simp [new] at h
  nested := by intro id a id' b t h; simp [new] at h

/-! ### Queued actions wait for reservations -/

/-- A queued action does not wait for an owner or a takeover. -/
structure Waits (l : Ledger) : Prop where
  wellFormed : l.WellFormed
  exclusive : l.Exclusive
  unheld : ∀ id a t o, l.actions.get id = some a → a.state = .queued → t ∈ a.targets → l.HeldBy t o → o = a.actorId

theorem Ordered.waits (h : l.Ordered) : l.Waits := ⟨h.wellFormed, h.exclusive, h.unheld⟩

theorem Calms.keepsOrder (h : Calms l l') : KeepsOrder l l' := by
  intro id b hb hru hn
  obtain ⟨a, ha, hr, -⟩ := h.live hb rfl hru
  exact absurd hr (hn a ha)

/-- Only what a later part starts is new when the earlier part starts nothing. -/
theorem KeepsOrder.of_calms {m : Ledger} (h : Calms l m) (h' : KeepsOrder m l') : KeepsOrder l l' := by
  intro id b hb hru hn
  apply h' id b hb hru
  intro b₀ hb₀ hr₀
  obtain ⟨a, ha, hr, -⟩ := h.live hb₀ rfl hr₀
  exact hn a ha hr

/-- The actions of the later ledger are actions of the earlier one, and none is queued anew. -/
structure Thins (l l' : Ledger) : Prop where
  order : l'.order.Sublist l.order
  action : ∀ id a', l'.actions.get id = some a' →
    ∃ a, l.actions.get id = some a ∧ a'.identity = a.identity ∧ (a'.state = .queued → a.state = .queued)

theorem Calms.thins (h : Calms l l') : Thins l l' where
  order := h.order
  action := by
    intro id a' ha'
    obtain ⟨a, ha, hid, -⟩ := h.action id a' ha'
    refine ⟨a, ha, hid, fun hq => ?_⟩
    obtain ⟨a₀, ha₀, hq₀, -⟩ := h.live ha' rfl hq
    rw [ha] at ha₀
    cases ha₀
    exact hq₀

variable {a : Action} {id : String} {p : Allowed}

section

variable (h : l.Waits)

include h

theorem Waits.of_same_input (hwf : l'.WellFormed) (ht : Thins l l') (how : l'.inputOwners = l.inputOwners)
    (hp : l'.pendingTakeovers = l.pendingTakeovers) : l'.Waits where
  wellFormed := hwf
  exclusive := by
    unfold Exclusive
    rw [how, hp]
    exact h.exclusive
  unheld := by
    intro id a t o ha hq hm ho
    unfold HeldBy at ho
    rw [how, hp] at ho
    obtain ⟨a₀, ha₀, hid, hq₀⟩ := ht.action id a ha
    rw [actorId_of_identity hid]
    rw [targets_of_identity hid] at hm
    exact h.unheld id a₀ t o ha₀ (hq₀ hq) hm ho

theorem Waits.calm (hm : CalmMove p l l')
    (hh : ∀ t o, p.hands t o → ∀ id a, l.actions.get id = some a → a.state = .queued → t ∉ a.targets) : l'.Waits := by
  have hwf := h.wellFormed.calm hm
  have hthins := hm.calms.thins
  cases hm with
  | input ows pend rcv hr hexclusive how hpe =>
    refine ⟨hwf, hexclusive h.exclusive, fun id a t o ha hq ht ho => ?_⟩
    rcases ho with ho | hp
    · cases how t o ho with
      | kept ho => exact h.unheld id a t o ha hq ht (.inl ho)
      | granted hp => exact h.unheld id a t o ha hq ht (.inr hp)
      | handed _ _ hha => exact absurd ht (hh t o hha id a ha hq)
      | taken _ _ has => exact has.alone id a ha hq ht
    · cases hpe t o hp with
      | kept hp => exact h.unheld id a t o ha hq ht (.inr hp)
      | asked _ _ has => exact has.alone id a ha hq ht
  | asked => exact h.of_same_input hwf hthins (by simp) (by simp)
  | ended =>
    exact h.of_same_input hwf hthins (updateActions_inputOwners _ _ _) (updateActions_pendingTakeovers _ _ _)
  | evicted => exact h.of_same_input hwf hthins rfl rfl
  | forgot n a hg =>
    rw [forgetHistoryRecord_eq hg] at hwf hthins ⊢
    exact h.of_same_input hwf hthins rfl rfl

theorem Waits.calms (hm : CalmMoves p l l')
    (hh : ∀ t o, p.hands t o → ∀ id a, l.actions.get id = some a → a.state = .queued → t ∉ a.targets) : l'.Waits := by
  induction hm with
  | refl => exact h
  | tail hm hmo ih =>
    refine ih.calm hmo fun t o hha id a ha hq => ?_
    obtain ⟨a₀, ha₀, hq₀, hid⟩ := (CalmMoves.calms hm).live ha rfl hq
    rw [targets_of_identity hid]
    exact hh t o hha id a₀ ha₀ hq₀

theorem Waits.startAction (ck : Clock) {act : Action} (hg : l.actions.get id = some act)
    (hp : l.Promotable act) : Thins l (l.startAction ck id act) ∧ (l.startAction ck id act).Waits := by
  have hthins : Thins l (l.startAction ck id act) :=
    ⟨List.Sublist.refl _, forall_insert ⟨act, hg, rfl, nofun⟩ fun i a ha => ⟨a, ha, rfl, fun hq => hq⟩⟩
  exact ⟨hthins, h.of_same_input (h.wellFormed.startAction ck hg hp) hthins rfl rfl⟩

/-- The holder of a target of a request that was not rejected is the actor itself. -/
theorem Waits.holder_of_not_rejected {actorId : String} {tgs : List InputTarget}
    (hr : l.takeoverRejection actorId tgs = none) {t : InputTarget} (ht : t ∈ tgs) {o : String}
    (ho : l.HeldBy t o) : o = actorId := by
  rcases ho with ho | hp
  · apply not_rejected hr ht ho
    cases hp : l.pendingTakeovers.get t with
    | none => rfl
    | some p => exact absurd hp (h.exclusive t o p ho)
  · unfold takeoverRejection at hr
    rw [findSome?_eq_none_iff] at hr
    have hnone := hr t ht
    rw [hp] at hnone
    simpa using hnone

theorem Waits.admitAction {req : Request} {q : Bool} (had : l.Admits req q)
    (now : Nat) : (l.admitAction req q now).Waits := by
  refine ⟨h.wellFormed.move (p := .all) (.admitted req q now had trivial), ?_, ?_⟩
  · unfold Exclusive
    rw [admitAction_inputOwners, admitAction_pendingTakeovers]
    exact h.exclusive
  intro i a t o ha hq ht ho
  unfold HeldBy at ho
  rw [admitAction_inputOwners, admitAction_pendingTakeovers] at ho
  rcases of_get_insert ha with ⟨-, rfl⟩ | ⟨-, hol⟩
  · have hwts := had.waits
    cases q with
    | true => exact h.holder_of_not_rejected (had.unheld (Bool.and_eq_true_iff.1 hwts.symm).1) ht ho
    | false => cases hq
  · exact h.unheld i a t o hol hq ht ho

end

/-! ### Promotion -/

/-- Each of the actions that still waits does so for a reserved target. -/
def Blocked (l : Ledger) (ids : List String) : Prop :=
  ∀ id ∈ ids, ∀ a, l.actions.get id = some a → a.state = .queued → ∃ t ∈ a.targets, l.reservations.get t ≠ none

/-- A queued action that the loop passes over waits for a reserved target. -/
theorem Waits.reserved_of_not_promotable (h : l.Waits)
    (hg : l.actions.get id = some a) (hq : a.state = .queued) (hn : ¬ l.Promotable a) :
    ∃ t ∈ a.targets, l.reservations.get t ≠ none := by
  by_contra hfree
  push Not at hfree
  apply hn
  refine ⟨hq, fun t ht => not_blocked_iff.2 ⟨hfree t ht, ?_, ?_⟩⟩
  · exact fun o ho => h.unheld id a t o hg hq ht (.inl ho)
  · exact fun o ho => h.unheld id a t o hg hq ht (.inr ho)

/-- An invariant of the rounds of the promotion loop; `done` is the part of the order that was scanned. -/
theorem promote_scan (ck : Clock) {I : List String → Ledger → Prop}
    (hst : ∀ done id rest s, l.order = done ++ id :: rest → I done s.1 → I (done ++ [id]) (promoteStep ck s id).1)
    (h : I [] l) (hr : l.controllerRecovering = false) : I l.order (l.promoteQueuedActions ck).1 := by
  have key : ∀ (rest done : List String) (s : Ledger × List String), l.order = done ++ rest →
      I done s.1 → I l.order (rest.foldl (promoteStep ck) s).1 := by
    intro rest
    induction rest with
    | nil =>
      intro done s ho hs
      rw [ho, append_nil]
      exact hs
    | cons id rest ih =>
      intro done s ho hs
      exact ih (done ++ [id]) (promoteStep ck s id) (by simpa using ho) (hst done id rest s ho hs)
  unfold promoteQueuedActions
  rw [hr]
  exact key l.order [] (l, []) rfl h

theorem Waits.promoteStep (ck : Clock) {s : Ledger × List String} (h : s.1.Waits)
    {done : List String} (hb : s.1.Blocked done) (id : String) :
    (promoteStep ck s id).1.Waits ∧ (promoteStep ck s id).1.Blocked (done ++ [id]) := by
  rcases promoteStep_cases ck s id with ⟨heq, hn⟩ | ⟨act, hg, hp, heq⟩
  · -- the action is passed over
    rw [heq]
    refine ⟨h, fun i hi a ha hq => ?_⟩
    rw [mem_append, mem_singleton] at hi
    rcases hi with hi | rfl
    · exact hb i hi a ha hq
    · exact h.reserved_of_not_promotable ha hq (hn a ha)
  · -- the action starts
    rw [heq]
    refine ⟨(h.startAction ck hg hp).2, fun i hi a ha hq => ?_⟩
    rcases of_get_insert ha with ⟨-, rfl⟩ | ⟨hne, ha⟩
    · cases hq
    rw [mem_append, mem_singleton] at hi
    obtain ⟨t, ht, hr⟩ := hb i (hi.resolve_right hne) a ha hq
    refine ⟨t, ht, ?_⟩
    have hrsrv := reserveTargets_get s.1 act.targets id t
    change (s.1.reserveTargets act.targets id).reservations.get t ≠ none
    rw [hrsrv]
    split
    · exact Option.some_ne_none id
    · exact hr

/-! ### Order -/

/-- The order survives a step that queues nothing. -/
theorem Ordered.change (h : l.Ordered) (hw : l'.Waits) (ht : Thins l l') : l'.Ordered where
  wellFormed := hw.wellFormed
  sorted := by
    refine (h.sorted.sublist ht.order).imp ?_
    intro i j hij a b ha hb
    obtain ⟨a₀, ha₀, hi, -⟩ := ht.action i a ha
    obtain ⟨b₀, hb₀, hid, -⟩ := ht.action j b hb
    rw [sequence_of_identity hi, sequence_of_identity hid]
    exact hij a₀ b₀ ha₀ hb₀
  exclusive := hw.exclusive
  unheld := hw.unheld
  nested := by
    intro id a id' b t ha hqa hb hqb hlt hta htb
    obtain ⟨a₀, ha₀, hi, hqa₀⟩ := ht.action id a ha
    obtain ⟨b₀, hb₀, hid, hqb₀⟩ := ht.action id' b hb
    rw [sequence_of_identity hi, sequence_of_identity hid] at hlt
    rw [targets_of_identity hi] at hta ⊢
    rw [targets_of_identity hid] at htb ⊢
    exact h.nested id a₀ id' b₀ t ha₀ (hqa₀ hqa) hb₀ (hqb₀ hqb) hlt hta htb

/-- An action that starts next overtakes nobody, when the earlier ones that wait do so for reserved targets. -/
theorem Ordered.not_overtaken (h : l.Ordered) {done rest : List String}
    (ho : l.order = done ++ id :: rest) (hb : l.Blocked done) {act : Action}
    (hg : l.actions.get id = some act) (hp : l.Promotable act) {id' : String}
    (ha : l.actions.get id' = some a) (hq : a.state = .queued) (hlt : a.sequence < act.sequence)
    {t : InputTarget} (ht : t ∈ a.targets) : t ∉ act.targets := by
  intro htb
  have hmem : id' ∈ done := by
    have hin : id' ∈ l.order := (h.wellFormed.ordered id').2 ⟨a, ha⟩
    have hsrt := h.sorted
    rw [ho, pairwise_append] at hsrt
    rw [ho, mem_append, mem_cons] at hin
    rcases hin with hd | rfl | hr
    · exact hd
    · rw [hg] at ha
      cases ha
      omega
    · have hcons := (pairwise_cons.1 hsrt.2.1).1 id' hr act a hg ha
      omega
  obtain ⟨t', ht', hre⟩ := hb id' hmem a ha hq
  have hin := h.nested id' a id act t ha hq hg hp.1 hlt ht htb t' ht'
  exact hre (not_blocked_iff.1 (hp.2 t' hin)).1

/-- The scan keeps the order: what it left queued waits for a reserved target. -/
theorem Ordered.promote (h : l.Ordered) (ck : Clock) :
    (l.promoteQueuedActions ck).1.Ordered ∧ KeepsOrder l (l.promoteQueuedActions ck).1 := by
  have hrefl : KeepsOrder l l := (Calms.refl l).keepsOrder
  cases hrec : l.controllerRecovering with
  | true =>
    unfold promoteQueuedActions
    rw [hrec]
    exact ⟨h, hrefl⟩
  | false =>
    refine And.imp_right And.left (promote_scan ck (I := fun done m => m.Ordered ∧ KeepsOrder l m ∧
      m.order = l.order ∧ m.Blocked done) ?_ ⟨h, hrefl, rfl, nofun⟩ hrec)
    rintro done id rest s ho ⟨h, hkp, hsame, hblk⟩
    obtain ⟨hw, hb'⟩ := h.waits.promoteStep ck hblk id
    rcases promoteStep_cases ck s id with ⟨heq, -⟩ | ⟨act, hg, hp, heq⟩
    · rw [heq] at hb' ⊢
      exact ⟨h, hkp, hsame, hb'⟩
    rw [heq] at hw hb' ⊢
    refine ⟨h.change hw (h.waits.startAction ck hg hp).1, ?_, hsame, hb'⟩
    intro i b hb hr hn i' a ha hq hlt t ht
    rcases of_get_insert ha with ⟨-, rfl⟩ | ⟨-, ha⟩
    · cases hq
    rcases of_get_insert hb with ⟨-, rfl⟩ | ⟨-, hb⟩
    · exact h.not_overtaken (hsame.trans ho) hblk hg hp ha hq hlt ht
    · exact hkp i b hb hr hn i' a ha hq hlt t ht

/-- No queued action that must wait for a target holds back a new action on that target. -/
theorem not_queued_of_not_mustQueue {tgts : List InputTarget} (h : l.mustQueue tgts = false) {t : InputTarget}
    (ht : t ∈ tgts) (ha : l.actions.get id = some a) (hq : a.state = .queued) : t ∉ a.targets := by
  intro hta
  have hvl : a ∈ l.actions.values := mem_values.2 ⟨id, ha⟩
  unfold mustQueue at h
  rw [any_eq_false] at h
  apply h t ht
  rw [Bool.or_eq_true, any_eq_true]
  right
  refine ⟨a, hvl, ?_⟩
  simp [hq, hta]

end EnvironmentActionLedger

open EnvironmentActionLedger

/-- The operation does not set up an overtaking: a request that meets a queued action mutates and asks for all of its
targets, and no tab changes hands while a queued action waits for it. -/
def LedgerOp.RespectsQueue (l : Ledger) : LedgerOp → Prop
  | .submit request _ _ _ _ _ => ∀ id a, l.actions.get id = some a → a.state = .queued →
      (∃ t ∈ a.targets, t ∈ request.targets) → request.mutates = true ∧ ∀ t ∈ a.targets, t ∈ request.targets
  | .transferTabOwnership source _ => ∀ id a, l.actions.get id = some a → a.state = .queued →
      ∀ t ∈ a.targets, t.isBrowserTab = true → l.inputOwners.get t ≠ some source
  | _ => True

namespace EnvironmentActionLedger

variable {l l' : Ledger} {p : Allowed}

variable {request : Request} {now : Nat}

theorem Ordered.admitAction (h : l.Ordered) {q : Bool} (had : l.Admits request q)
    (hre : ∀ id a, l.actions.get id = some a → a.state = .queued →
      (∃ t ∈ a.targets, t ∈ request.targets) → request.mutates = true ∧ ∀ t ∈ a.targets, t ∈ request.targets) :
    (l.admitAction request q now).Ordered ∧ KeepsOrder l (l.admitAction request q now) := by
  have hact : ∀ i a, (l.admitAction request q now).actions.get i = some a →
      i = actionIdOf l.nextSequence ∧ a = l.newAction request q now ∨
        l.actions.get i = some a ∧ a.sequence < l.nextSequence := by
    intro i a ha
    exact (of_get_insert ha).imp_right fun hol => ⟨hol.2, (h.wellFormed.stored i a hol.2).2.2⟩
  have hol : ∀ i ∈ l.order, ∀ a, (l.admitAction request q now).actions.get i = some a →
      l.actions.get i = some a ∧ a.sequence < l.nextSequence := by
    intro i hi a ha
    refine (hact i a ha).resolve_left fun hn => ?_
    obtain ⟨a₀, ha₀⟩ := (h.wellFormed.ordered i).1 hi
    rw [hn.1, h.wellFormed.fresh] at ha₀
    cases ha₀
  have htgts : ∀ t, t ∈ (l.newAction request q now).targets ↔ t ∈ request.targets :=
    fun t => mem_sortedTargets
  have hwts := h.waits.admitAction had now
  refine ⟨⟨hwts.wellFormed, ?_, hwts.exclusive, hwts.unheld, ?_⟩, ?_⟩
  · show (l.order ++ [actionIdOf l.nextSequence]).Pairwise _
    rw [pairwise_append]
    refine ⟨?_, pairwise_singleton _ _, ?_⟩
    · refine List.Pairwise.imp_of_mem ?_ h.sorted
      intro i j hi hj hij a b ha hb
      exact hij a b (hol i hi a ha).1 (hol j hj b hb).1
    intro i hi j hj a b ha hb
    rw [mem_singleton.1 hj, admitAction_actions, get_insert_self] at hb
    rw [← Option.some.inj hb]
    exact (hol i hi a ha).2
  · intro i a j b t ha hqa hb hqb hlt hta htb t' ht'
    rcases hact i a ha with ⟨-, rfl⟩ | ⟨ho, -⟩
    · rcases hact j b hb with ⟨-, rfl⟩ | ⟨-, hl⟩
      · exact ht'
      · change l.nextSequence < b.sequence at hlt
        omega
    · rcases hact j b hb with ⟨-, rfl⟩ | ⟨holdb, -⟩
      · rw [htgts] at htb ⊢
        exact (hre i a ho hqa ⟨t, hta, htb⟩).2 t' ht'
      · exact h.nested i a j b t ho hqa holdb hqb hlt hta htb t' ht'
  · intro i b hb hr hn j a ha hqa hlt t ht htb
    rcases hact i b hb with ⟨-, rfl⟩ | ⟨hb, -⟩
    · rcases hact j a ha with ⟨-, rfl⟩ | ⟨ho, -⟩
      · rw [hqa] at hr
        cases hr
      -- the new action runs at once, so no queued action waits for its targets
      rw [htgts] at htb
      have hmut := (hre j a ho hqa ⟨t, ht, htb⟩).1
      have hnot : q = false := by
        cases q with
        | true => cases hr
        | false => rfl
      have hmust := had.waits
      rw [hnot, hmut] at hmust
      exact not_queued_of_not_mustQueue hmust.symm (mem_sortedTargets.2 htb) ho hqa ht
    · exact absurd hr (hn b hb)

theorem Ordered.phases (h : l.Ordered) (hp : Phases p l l')
    (hh : ∀ t o, p.hands t o → ∀ id a, l.actions.get id = some a → a.state = .queued → t ∉ a.targets)
    (hr : ∀ req, p.submits req → ∀ id a, l.actions.get id = some a → a.state = .queued →
      (∃ t ∈ a.targets, t ∈ req.targets) → req.mutates = true ∧ ∀ t ∈ a.targets, t ∈ req.targets) :
    l'.Ordered ∧ KeepsOrder l l' := by
  cases hp with
  | calm hm => exact ⟨h.change (h.waits.calms hm hh) hm.calms.thins, hm.calms.keepsOrder⟩
  | promoted ck hm =>
    obtain ⟨ho, hkp⟩ := (h.change (h.waits.calms hm hh) hm.calms.thins).promote ck
    exact ⟨ho, hkp.of_calms hm.calms⟩
  | admitted req q now ha hs => exact h.admitAction ha (hr req hs)

theorem Ordered.apply (h : l.Ordered) (op : LedgerOp) (hr : op.RespectsQueue l) :
    (op.apply l).Ordered ∧ KeepsOrder l (op.apply l) := by
  refine h.phases (h.wellFormed.apply_phases op) ?_ ?_
  · intro t o hh id a ha hq ht
    cases op with
    | transferTabOwnership => exact hr id a ha hq t ht hh.2.1 hh.2.2
    | _ => exact hh
  · intro req hs
    cases op with
    | submit =>
      cases hs.1
      exact hr
    | _ => cases hs.1

/-! ### Runs -/

/-- Every operation of the run respects the queue that it finds. -/
def RespectsQueues (l : Ledger) : List LedgerOp → Prop
  | [] => True
  | op :: ops => op.RespectsQueue l ∧ RespectsQueues (op.apply l) ops

theorem respectsQueues_append (l : Ledger) (ops : List LedgerOp) (op : LedgerOp) :
    l.RespectsQueues (ops ++ [op]) ↔ l.RespectsQueues ops ∧ op.RespectsQueue (l.run ops) := by
  induction ops generalizing l with
  | nil => simp [RespectsQueues, run]
  | cons first ops ih =>
    show first.RespectsQueue l ∧ (first.apply l).RespectsQueues (ops ++ [op]) ↔ _
    rw [ih, ← and_assoc]
    exact Iff.rfl

theorem Ordered.run (h : l.Ordered) (ops : List LedgerOp) (hr : l.RespectsQueues ops) : (l.run ops).Ordered := by
  induction ops generalizing l with
  | nil => exact h
  | cons op ops ih => exact ih (h.apply op hr.1).1 hr.2

/-- In a run whose operations all respect the queue, no operation starts an action past an earlier one that still
waits for one of its targets. -/
theorem first_come_order (terminalCapacity queueCapacity : Nat) (ops : List LedgerOp) (op : LedgerOp)
    (hresp : (new terminalCapacity queueCapacity).RespectsQueues (ops ++ [op])) :
    KeepsOrder ((new terminalCapacity queueCapacity).run ops)
      (op.apply ((new terminalCapacity queueCapacity).run ops)) := by
  rw [respectsQueues_append] at hresp
  exact (((new_ordered terminalCapacity queueCapacity).run ops hresp.1).apply op hresp.2).2

/-- Whether a submission respects the queue can be read off the stored actions. -/
theorem respectsQueue_submit {life : EnvironmentLifecycle} {gen : Nat} {acs : ActorMap} {tabs : TabRegistry}
    (h : ∀ e ∈ l.actions.entries, e.2.state = .queued → (∃ t ∈ e.2.targets, t ∈ request.targets) →
      request.mutates = true ∧ ∀ t ∈ e.2.targets, t ∈ request.targets) :
    (LedgerOp.submit request life gen acs tabs now).RespectsQueue l :=
  fun id a ha => h (id, a) (mem_entries.2 ha)

/-- The room of the two runs below has one agent and two tabs. -/
def queueActors : ActorMap := OrdMap.ofList [("agent", {
  actorId := "agent", kind := .agent, displayLabel := "Agent", presence := .present, presentationColor := .rose })]

def queueTabs : TabRegistry :=
  (((TabRegistry.new.registerOrReconcile "target-a" "https" "A").1).registerOrReconcile "target-b" "https" "B").1

def queueSubmit (request : Request) : LedgerOp := .submit request .ready 1 queueActors queueTabs 5

/-- Two clicks wait one behind the other for the desktop and the second tab. -/
def alignedClicks : List LedgerOp :=
  [queueSubmit (.computerMutation "agent" 1 "key-press" none),
    queueSubmit (.computerMutation "agent" 1 "pointer-click" (some "tab-2")),
    queueSubmit (.computerMutation "agent" 1 "pointer-click" (some "tab-2"))]

theorem first_come_order_alignedClicks : KeepsOrder ((new 8 8).run alignedClicks)
        ((LedgerOp.finish (fun _ => 9) "action-1" .completed).apply ((new 8 8).run alignedClicks)) ∧
      (((new 8 8).run (alignedClicks ++ [.finish (fun _ => 9) "action-1" .completed])).actions.values.map
        EnvironmentAction.state) = [.completed, .running, .queued] :=
  ⟨first_come_order 8 8 alignedClicks (.finish (fun _ => 9) "action-1" .completed)
    ⟨respectsQueue_submit (by decide), respectsQueue_submit (by decide), respectsQueue_submit (by decide), trivial,
      trivial⟩, by decide⟩

/-- A key press runs on the desktop and a click on the first tab.  A pointer click waits for the desktop and the second
tab, and a later click waits behind it for the second tab alone. -/
def waitingClicks : List LedgerOp :=
  [queueSubmit (.computerMutation "agent" 1 "key-press" none),
    queueSubmit (.browserMutation "agent" 1 "tab-click" "tab-1" 1),
    queueSubmit (.computerMutation "agent" 1 "pointer-click" (some "tab-2")),
    queueSubmit (.browserMutation "agent" 1 "tab-click" "tab-2" 1)]

/-- The end of the click on the first tab, which neither waiting action is about, starts the later one. -/
theorem overtaken_click : ¬ KeepsOrder ((new 8 8).run waitingClicks)
        ((LedgerOp.finish (fun _ => 9) "action-2" .completed).apply ((new 8 8).run waitingClicks)) ∧
      (((new 8 8).run (waitingClicks ++ [.finish (fun _ => 9) "action-2" .completed])).actions.get "action-3").map
          (fun a => (a.sequence, a.state, a.targets)) = some (3, .queued, [.desktop, .browserTab "tab-2"]) ∧
      (((new 8 8).run (waitingClicks ++ [.finish (fun _ => 9) "action-2" .completed])).actions.get "action-4").map
          (fun a => (a.sequence, a.state, a.targets)) = some (4, .running, [.browserTab "tab-2"]) := by
  decide

end EnvironmentActionLedger

end Chariox
