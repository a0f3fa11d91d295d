import Chariox.RoomEnvironment.LedgerSteps

/-!
# Document references of tabs

A reference to a tab names the tab and the revision of its document.  Within one runtime generation a revision of a
tab must not come back after it was passed.  A tab that the registry holds only rises, but an App tab can leave and be
given its saved identity back, and it then gets the revision after the saved one.  When the tab went on after it was
saved, that is a revision it already had (`reclaimed_revision`).  References stay refused in every run in which what
is given back was saved at the latest revision of its tab (`passed_reference_refused`).
-/

namespace Chariox

open OrdMap List

def tabIdOf (sequence : Nat) : String := "tab-" ++ toString sequence

variable {n : Nat}

theorem tabIdOf_injective {m : Nat} (h : tabIdOf m = tabIdOf n) : m = n := numbered_injective h

theorem satSucc_eq (h : n < u64Max) : satSucc n = n + 1 := by
  unfold satSucc
  omega

namespace TabRegistry

variable {latest : String → Nat} {r m q : TabRegistry}

def revisionOf (r : TabRegistry) (tabId : String) : Option Nat :=
  (r.tabs.get tabId).map (fun state => state.tab.documentRevision)

/-- The id was given to a tab before. -/
def Issued (r : TabRegistry) (tabId : String) : Prop := ∃ n < r.nextSequence, tabId = tabIdOf n

theorem validateReference_ok_iff {gen : Nat} {tid : String} {revision : Nat} :
    r.validateReference gen gen tid revision = .ok () ↔ r.revisionOf tid = some revision := by
  unfold validateReference revisionOf
  cases r.tabs.get tid with
  | none => simp
  | some st =>
    by_cases h : revision = st.tab.documentRevision
    · simp [h]
    · simp [h, Ne.symm h]

/-- Ids belong to their tabs and were issued, saved tabs are told apart by their ids, and an id that was not issued has
no revision yet. -/
structure Sound (latest : String → Nat) (r : TabRegistry) : Prop where
  named : ∀ id s, r.tabs.get id = some s → s.tab.tabId = id
  issued : ∀ id s, r.tabs.get id = some s → r.Issued id
  bounded : ∀ id s, r.tabs.get id = some s → s.tab.documentRevision ≤ u64Max
  savedIssued : ∀ i t, r.restoringApps.get i = some t → r.Issued t.tabId
  savedDistinct : ∀ i j t t', r.restoringApps.get i = some t → r.restoringApps.get j = some t' →
    t.tabId = t'.tabId → i = j
  unused : ∀ n, r.nextSequence ≤ n → latest (tabIdOf n) = 0

/-- A tab that stays only rises, and one that appears is past every revision its id had. -/
structure Rises (latest : String → Nat) (r q : TabRegistry) : Prop where
  kept : ∀ id v v', r.revisionOf id = some v → q.revisionOf id = some v' → v ≤ v'
  back : ∀ id v', r.revisionOf id = none → q.revisionOf id = some v' → latest id < v'

/-- The registry stays sound while its revisions rise. -/
structure Goes (latest : String → Nat) (r q : TabRegistry) : Prop extends Sound latest q, Rises latest r q

theorem Sound.goes (h : Sound latest r) : Goes latest r r :=
  { h with
    kept := by
      intro id v v' hv hv'
      rw [hv] at hv'
      cases hv'
      exact le_refl v
    back := by
      intro id v' hv hv'
      rw [hv] at hv'
      cases hv' }

theorem Goes.trans (hc : ∀ id v, r.revisionOf id = some v → v ≤ latest id) (h : Goes latest r m)
    (h' : Goes latest m q) : Goes latest r q :=
  { h'.toSound with
    kept := by
      intro id v v' hv hv'
      cases hm : m.revisionOf id with
      | none =>
        have h1 := hc id v hv
        have h2 := h'.back id v' hm hv'
        omega
      | some w =>
        have h1 := h.kept id v w hv hm
        have h2 := h'.kept id w v' hm hv'
        omega
    back := by
      intro id v' hv hv'
      cases hm : m.revisionOf id with
      | none => exact h'.back id v' hm hv'
      | some w =>
        have h1 := h.back id w hv hm
        have h2 := h'.kept id w v' hm hv'
        omega }

variable {id : String}

theorem revisionOf_eq_some {v : Nat} (h : r.revisionOf id = some v) :
    ∃ s, r.tabs.get id = some s ∧ s.tab.documentRevision = v := Option.map_eq_some_iff.1 h

theorem revisionOf_of_get {s : TabState} (h : r.tabs.get id = some s) :
    r.revisionOf id = some s.tab.documentRevision := by
  unfold revisionOf
  rw [h]
  rfl

theorem revisionOf_eq_none (h : r.revisionOf id = none) : r.tabs.get id = none := Option.map_eq_none_iff.1 h

/-! ### Three kinds of changes -/

/-- Tabs are dropped, or changed in place to a revision that is not lower. -/
theorem Sound.shrink (h : Sound latest r) (hn : q.nextSequence = r.nextSequence)
    (hsa : ∀ i t, q.restoringApps.get i = some t → ∃ t₀, r.restoringApps.get i = some t₀ ∧ t₀.tabId = t.tabId)
    (hta : ∀ id s', q.tabs.get id = some s' → ∃ s, r.tabs.get id = some s ∧ s'.tab.tabId = s.tab.tabId ∧
      s.tab.documentRevision ≤ s'.tab.documentRevision ∧ s'.tab.documentRevision ≤ u64Max) :
    Goes latest r q := by
  refine ⟨⟨?_, ?_, ?_, ?_, ?_, ?_⟩, ⟨?_, ?_⟩⟩
  · intro id s' hs'
    obtain ⟨s, hs, hid, -⟩ := hta id s' hs'
    rw [hid]
    exact h.named id s hs
  · intro id s' hs'
    obtain ⟨s, hs, -⟩ := hta id s' hs'
    unfold Issued
    rw [hn]
    exact h.issued id s hs
  · intro id s' hs'
    obtain ⟨s, -, -, -, hbd⟩ := hta id s' hs'
    exact hbd
  · intro i t ht
    obtain ⟨t₀, ht₀, hid⟩ := hsa i t ht
    unfold Issued
    rw [hn, ← hid]
    exact h.savedIssued i t₀ ht₀
  · intro i j t t' ht ht' heq
    obtain ⟨t₀, ht₀, hid⟩ := hsa i t ht
    obtain ⟨t₀', ht₀', hid'⟩ := hsa j t' ht'
    exact h.savedDistinct i j t₀ t₀' ht₀ ht₀' (by rw [hid, hid', heq])
  · rw [hn]
    exact h.unused
  · intro id v v' hv hv'
    obtain ⟨s', hs', rfl⟩ := revisionOf_eq_some hv'
    obtain ⟨s, hs, -, hle, -⟩ := hta id s' hs'
    rw [revisionOf_of_get hs] at hv
    cases hv
    exact hle
  · intro id v' hv hv'
    obtain ⟨s', hs', rfl⟩ := revisionOf_eq_some hv'
    obtain ⟨s, hs, -⟩ := hta id s' hs'
    rw [revisionOf_eq_none hv] at hs
    cases hs

/-- A tab appears under an issued id, past every revision the id had. -/
theorem Sound.put (h : Sound latest r) {s : TabState} (ha : r.tabs.get id = none)
    (hna : s.tab.tabId = id) (hi : r.Issued id) (hp : latest id < s.tab.documentRevision)
    (hbd : s.tab.documentRevision ≤ u64Max) (hn : q.nextSequence = r.nextSequence)
    (hs : q.restoringApps = r.restoringApps) (ht : q.tabs = r.tabs.insert id s) : Goes latest r q := by
  have hget : ∀ i s', q.tabs.get i = some s' → i = id ∧ s' = s ∨ i ≠ id ∧ r.tabs.get i = some s' := by
    intro i s' hs'
    rw [ht] at hs'
    exact of_get_insert hs'
  refine ⟨⟨?_, ?_, ?_, ?_, ?_, ?_⟩, ⟨?_, ?_⟩⟩
  · rw [ht]
    exact forall_insert hna h.named
  · unfold Issued
    rw [ht, hn]
    exact forall_insert hi h.issued
  · rw [ht]
    exact forall_insert hbd h.bounded
  · unfold Issued
    rw [hn, hs]
    exact h.savedIssued
  · rw [hs]
    exact h.savedDistinct
  · rw [hn]
    exact h.unused
  · intro i v v' hv hv'
    obtain ⟨s', hs', rfl⟩ := revisionOf_eq_some hv'
    rcases hget i s' hs' with ⟨rfl, rfl⟩ | ⟨-, ho⟩
    · obtain ⟨s₀, hs₀, -⟩ := revisionOf_eq_some hv
      rw [ha] at hs₀
      cases hs₀
    rw [revisionOf_of_get ho] at hv
    cases hv
    exact le_refl _
  · intro i v' hv hv'
    obtain ⟨s', hs', rfl⟩ := revisionOf_eq_some hv'
    rcases hget i s' hs' with ⟨rfl, rfl⟩ | ⟨-, ho⟩
    · exact hp
    · rw [revisionOf_eq_none hv] at ho
      cases ho

/-- The next sequence number is used up; the id it stands for is issued from now on. -/
theorem Sound.issue (h : Sound latest r) : Goes latest r { r with nextSequence := r.nextSequence + 1 } ∧
      Issued { r with nextSequence := r.nextSequence + 1 } (tabIdOf r.nextSequence) ∧
      r.tabs.get (tabIdOf r.nextSequence) = none ∧ latest (tabIdOf r.nextSequence) = 0 := by
  have hmono : ∀ id, r.Issued id → Issued { r with nextSequence := r.nextSequence + 1 } id := by
    intro id hid
    obtain ⟨n, hn, heq⟩ := hid
    exact ⟨n, Nat.lt_succ_of_lt hn, heq⟩
  refine ⟨⟨⟨h.named, ?_, h.bounded, ?_, h.savedDistinct, ?_⟩, h.goes.kept, h.goes.back⟩, ?_, ?_, ?_⟩
  · exact fun id s hs => hmono id (h.issued id s hs)
  · exact fun i t ht => hmono _ (h.savedIssued i t ht)
  · intro n hn
    exact h.unused n (Nat.le_of_succ_le hn)
  · exact ⟨r.nextSequence, Nat.lt_succ_self _, rfl⟩
  · cases hget : r.tabs.get (tabIdOf r.nextSequence) with
    | none => rfl
    | some s =>
      obtain ⟨n, hn, heq⟩ := h.issued _ s hget
      have := tabIdOf_injective heq
      omega
  · exact h.unused _ (le_refl _)

/-! ### Reconciliation -/

theorem observe_revision (s : TabState) (o : EnvironmentTabObservation) (h : s.tab.documentRevision ≤ u64Max) :
    s.tab.documentRevision ≤ (s.observe o).tab.documentRevision ∧ (s.observe o).tab.documentRevision ≤ u64Max := by
  unfold TabState.observe
  dsimp only
  split
  · unfold satSucc
    omega
  · exact ⟨le_refl _, h⟩

/-- The tab that an observation of an unknown target creates. -/
def observedTab (o : EnvironmentTabObservation) (tabId : String) : TabState where
  controllerTargetId := o.runtimeTargetId
  documentId := some o.documentId
  tab := { tabId, url := o.url, title := o.title, documentRevision := 1, focused := false, app := none }

/-- One observation: the bound tab changes in place, or a new tab appears under a new id. -/
theorem Sound.reconcileObservation {s : ReconcileState} (h : Sound latest s.registry) (o : EnvironmentTabObservation)
    (hbd : s.registry.nextSequence < u64Max) : Goes latest s.registry (reconcileObservation s o).registry ∧
      (reconcileObservation s o).registry.nextSequence ≤ s.registry.nextSequence + 1 := by
  unfold TabRegistry.reconcileObservation
  split
  · exact ⟨h.goes, Nat.le_succ _⟩
  dsimp only
  split
  · rename_i tid st hb
    obtain ⟨bound, -, hm⟩ := Option.bind_eq_some_iff.1 hb
    obtain ⟨st', hst', heq⟩ := Option.map_eq_some_iff.1 hm
    cases heq
    refine ⟨h.shrink rfl (fun i t ht => ⟨t, ht, rfl⟩) ?_, Nat.le_succ _⟩
    exact forall_insert ⟨st, hst', rfl, observe_revision st o (h.bounded tid st hst')⟩
      fun id s' hs' => ⟨s', hs', rfl, le_refl _, h.bounded id s' hs'⟩
  · obtain ⟨hg, hi, ha, hu⟩ := h.issue
    have hput := hg.toSound.put (s := observedTab o (tabIdOf s.registry.nextSequence))
      (q := { s.registry.forgetRetiredControllerTarget o.runtimeTargetId with
        nextSequence := satSucc s.registry.nextSequence
        tabs := s.registry.tabs.insert (tabIdOf s.registry.nextSequence)
          (observedTab o (tabIdOf s.registry.nextSequence))
        tabIdByControllerTarget :=
          s.registry.tabIdByControllerTarget.insert o.runtimeTargetId (tabIdOf s.registry.nextSequence)
        order := s.registry.order ++ [tabIdOf s.registry.nextSequence] })
      ha rfl hi (by rw [hu]; exact Nat.one_pos) (show 1 ≤ u64Max by decide) (satSucc_eq hbd) rfl rfl
    exact ⟨{ hput with }, (satSucc_eq hbd).le⟩

theorem Sound.retireTab (h : Sound latest r) (tid : String) : Goes latest r (r.retireTab tid) := by
  unfold TabRegistry.retireTab
  split
  · exact h.goes
  refine h.shrink rfl (fun i t ht => ⟨t, ht, rfl⟩) ?_
  intro id s hs
  obtain ⟨-, hs⟩ := of_get_remove hs
  exact ⟨s, hs, rfl, le_refl _, h.bounded id s hs⟩

theorem Sound.reconcileControllerTabs (h : Sound latest r) (hc : ∀ id v, r.revisionOf id = some v → v ≤ latest id)
    (obs : List EnvironmentTabObservation) (fo : Option String) (hbd : r.nextSequence + obs.length ≤ u64Max) :
    Goes latest r (r.reconcileControllerTabs obs fo).1 := by
  have hobse : ∀ (os : List EnvironmentTabObservation) (s : ReconcileState), Goes latest r s.registry →
      s.registry.nextSequence + os.length ≤ u64Max →
      Goes latest r (os.foldl TabRegistry.reconcileObservation s).registry := by
    intro os
    induction os with
    | nil => exact fun s hs _ => hs
    | cons o os ih =>
      intro s hs hle
      rw [length_cons] at hle
      obtain ⟨hs', hn⟩ := hs.toSound.reconcileObservation o (by omega)
      exact ih _ (hs.trans hc hs') (by omega)
  have hretire : ∀ (ids : List String) (m : TabRegistry), Goes latest r m →
      Goes latest r (ids.foldl TabRegistry.retireTab m) := fun ids m hm =>
    foldlRecOn ids _ hm fun q hq id _ => hq.trans hc (hq.toSound.retireTab id)
  obtain ⟨hsn, hr⟩ := hretire _ _ (hobse obs ⟨r, false, []⟩ h.goes hbd)
  -- what follows only chooses the focus
  unfold TabRegistry.reconcileControllerTabs
  dsimp only
  split <;> exact ⟨{ hsn with }, { hr with }⟩

/-! ### App tabs -/

/-- The registry after the App views are marked and before saved identities are claimed. -/
def withApps (r : TabRegistry) (apps : OrdMap String EnvironmentTabApp) : TabRegistry :=
  { r with tabs := r.tabs.mapValues (fun _ state =>
    { state with tab := { state.tab with app := apps.get state.controllerTargetId } }) }

theorem Sound.withApps (h : Sound latest r) (apps : OrdMap String EnvironmentTabApp) :
    Goes latest r (r.withApps apps) := by
  refine h.shrink rfl (fun i t ht => ⟨t, ht, rfl⟩) ?_
  intro id s' hs'
  change (r.tabs.mapValues _).get id = some s' at hs'
  rw [get_mapValues, Option.map_eq_some_iff] at hs'
  obtain ⟨s, hs, rfl⟩ := hs'
  exact ⟨s, hs, rfl, le_refl _, h.bounded id s hs⟩

/-- A saved tab that may be given its id back: the id is free, and it was saved at the latest revision of the id. -/
def Claimable (latest : String → Nat) (r : TabRegistry) (installation : String) : Prop :=
  ∀ previous, r.restoringApps.get installation = some previous → r.tabs.get previous.tabId = none ∧
    latest previous.tabId ≤ previous.documentRevision ∧ previous.documentRevision < u64Max

/-- A tab that takes over the identity of a saved one. -/
def reclaimed (state : TabState) (previous : EnvironmentTab) : TabState :=
  { state with tab := { state.tab with
    tabId := previous.tabId
    documentRevision := max state.tab.documentRevision (satSucc previous.documentRevision) } }

theorem claimRestoringApp_cases (s : TabRegistry × Bool) (cl : String × String) : (claimRestoringApp s cl).1 = s.1 ∨
      ∃ prev, s.1.restoringApps.get cl.2 = some prev ∧
        (claimRestoringApp s cl).1.nextSequence = s.1.nextSequence ∧
        (claimRestoringApp s cl).1.restoringApps = s.1.restoringApps.remove cl.2 ∧
        ((claimRestoringApp s cl).1.tabs = s.1.tabs ∨
          ∃ st, s.1.tabs.get cl.1 = some st ∧ (claimRestoringApp s cl).1.tabs =
            (s.1.tabs.remove cl.1).insert prev.tabId (reclaimed st prev)) := by
  unfold claimRestoringApp
  dsimp only
  split
  · exact .inl rfl
  rename_i prev hp
  refine .inr ⟨prev, hp, ?_⟩
  split
  · exact ⟨rfl, rfl, .inl rfl⟩
  rename_i st hs
  refine ⟨?_, ?_, .inr ⟨st, hs, ?_⟩⟩
  all_goals
    split <;> rfl

/-- Another saved tab that is not there stays away. -/
theorem absent_after_claim {s : TabRegistry × Bool} {cl : String × String}
    (hd : ∀ i j t t', s.1.restoringApps.get i = some t → s.1.restoringApps.get j = some t' →
      t.tabId = t'.tabId → i = j) {i : String} {t : EnvironmentTab}
    (ht : (claimRestoringApp s cl).1.restoringApps.get i = some t) :
    s.1.restoringApps.get i = some t ∧
      (s.1.tabs.get t.tabId = none → (claimRestoringApp s cl).1.tabs.get t.tabId = none) := by
  rcases claimRestoringApp_cases s cl with heq | ⟨prev, hp, -, hr, hc⟩
  · rw [heq] at ht ⊢
    exact ⟨ht, id⟩
  rw [hr] at ht
  obtain ⟨hne, ht⟩ := of_get_remove ht
  refine ⟨ht, fun ha => ?_⟩
  rcases hc with hta | ⟨st, -, hta⟩
  · rw [hta, ha]
  · have hoth : t.tabId ≠ prev.tabId := fun heq => hne (hd i cl.2 t prev ht hp heq)
    rw [hta, get_insert_of_ne _ hoth, get_remove, ha, ite_self]

/-- One claim: a tab moves to the saved id, past every revision the id had. -/
theorem Goes.claimRestoringApp {s : TabRegistry × Bool} (h : Goes latest r s.1)
    (hcu : ∀ id v, r.revisionOf id = some v → v ≤ latest id) (cl : String × String)
    (hcl : Claimable latest s.1 cl.2) : Goes latest r (claimRestoringApp s cl).1 := by
  rcases claimRestoringApp_cases s cl with heq | ⟨prev, hp, hn, hr, hc⟩
  · rw [heq]
    exact h
  generalize (TabRegistry.claimRestoringApp s cl).1 = q at hn hr hc ⊢
  have hsav : ∀ i t, (s.1.restoringApps.remove cl.2).get i = some t →
      ∃ t₀, s.1.restoringApps.get i = some t₀ ∧ t₀.tabId = t.tabId :=
    fun i t ht => ⟨t, (of_get_remove ht).2, rfl⟩
  rcases hc with hta | ⟨st, hs, hta⟩
  · refine h.trans hcu (h.toSound.shrink hn (hr ▸ hsav) ?_)
    rw [hta]
    exact fun id s' hs' => ⟨s', hs', rfl, le_refl _, h.bounded id s' hs'⟩
  obtain ⟨ha, hl, hbd⟩ := hcl prev hp
  -- first the temporary tab leaves, then the saved id comes back
  have hgoes := h.toSound.shrink (q := { s.1 with
      tabs := s.1.tabs.remove cl.1, restoringApps := s.1.restoringApps.remove cl.2 }) rfl hsav (by
      intro id s' hs'
      obtain ⟨-, hs'⟩ := of_get_remove hs'
      exact ⟨s', hs', rfl, le_refl _, h.bounded id s' hs'⟩)
  have hfree : (s.1.tabs.remove cl.1).get prev.tabId = none := by
    rw [get_remove, ha, ite_self]
  have hrev : (reclaimed st prev).tab.documentRevision = max st.tab.documentRevision (prev.documentRevision + 1) := by
    show max _ (satSucc prev.documentRevision) = _
    rw [satSucc_eq hbd]
  have hstateBound := h.bounded cl.1 st hs
  have hput := hgoes.toSound.put (q := q) hfree (s := reclaimed st prev) rfl (h.savedIssued _ _ hp)
    (by rw [hrev]; omega) (by rw [hrev]; omega) hn hr hta
  exact (h.trans hcu hgoes).trans hcu hput

theorem claimable_of_mem_restorableTabs {cl : String × String} (h : cl ∈ r.restorableTabs)
    {prev : EnvironmentTab} (hp : r.restoringApps.get cl.2 = some prev) : r.tabs.get prev.tabId = none := by
  unfold restorableTabs at h
  rw [mem_filterMap] at h
  obtain ⟨e, -, he⟩ := h
  simp only [bind, Option.bind_eq_some_iff] at he
  obtain ⟨app, -, prev', hp', hc⟩ := he
  split at hc
  · rename_i hf
    cases hc
    rw [hp] at hp'
    cases hp'
    rw [Bool.and_eq_true, Bool.not_eq_true'] at hf
    exact contains_eq_false.1 hf.2
  · cases hc

theorem Sound.setApps (h : Sound latest r) (hcu : ∀ id v, r.revisionOf id = some v → v ≤ latest id)
    (apps : OrdMap String EnvironmentTabApp)
    (hcl : ∀ cl ∈ (r.withApps apps).restorableTabs, ∀ prev, r.restoringApps.get cl.2 = some prev →
      latest prev.tabId ≤ prev.documentRevision ∧ prev.documentRevision < u64Max) :
    Goes latest r (r.setApps apps).1 := by
  have hgoes := h.withApps apps
  have hfold : Goes latest r (r.setApps apps).1 ∧ ∀ cl ∈ (r.withApps apps).restorableTabs,
      Claimable latest (r.setApps apps).1 cl.2 := by
    refine foldlRecOn (motive := fun s : TabRegistry × Bool => Goes latest r s.1 ∧
      ∀ cl ∈ (r.withApps apps).restorableTabs, Claimable latest s.1 cl.2) _ _ ⟨hgoes, ?_⟩ ?_
    · intro cl hc prev hp
      exact ⟨claimable_of_mem_restorableTabs hc hp, hcl cl hc prev hp⟩
    -- a claim leaves the others possible
    intro s hs cl hc
    refine ⟨hs.1.claimRestoringApp hcu cl (hs.2 cl hc), fun o ho t ht => ?_⟩
    have hkeep := absent_after_claim hs.1.savedDistinct ht
    have hold := hs.2 o ho t hkeep.1
    exact ⟨hkeep.2 hold.1, hold.2⟩
  exact hfold.1

theorem mem_prepareAppRecovery {i : String} {t : EnvironmentTab} (h : r.prepareAppRecovery.restoringApps.get i = some t) :
    ∃ id s app, r.tabs.get id = some s ∧ s.tab.app = some app ∧ app.installationId = i ∧ t.tabId = s.tab.tabId := by
  refine foldlRecOn (motive := fun sv : OrdMap String EnvironmentTab => ∀ i t, sv.get i = some t →
    ∃ id s app, r.tabs.get id = some s ∧ s.tab.app = some app ∧ app.installationId = i ∧ t.tabId = s.tab.tabId)
    r.tabs.values _ (fun i t ht => by cases ht) ?_ i t h
  intro sv hs st hst i t ht
  obtain ⟨id, hid⟩ := mem_values.1 hst
  split at ht
  · exact hs i t ht
  rename_i app ha
  dsimp only at ht
  split at ht
  · rcases of_get_insert ht with ⟨hi, rfl⟩ | ⟨-, ht⟩
    · exact ⟨id, st, app, hid, ha, hi.symm, rfl⟩
    · exact hs i t ht
  rw [get_insertIfAbsent] at ht
  split at ht
  · rename_i hi
    subst hi
    cases hold : sv.get app.installationId with
    | none =>
      rw [hold] at ht
      cases ht
      exact ⟨id, st, app, hid, ha, rfl, rfl⟩
    | some =>
      rw [hold] at ht
      cases ht
      exact hs _ _ hold
  · exact hs i t ht

/-- What is saved has issued ids, and different installations have different ones. -/
theorem saved_prepareAppRecovery (hn : ∀ id s, r.tabs.get id = some s → s.tab.tabId = id)
    (his : ∀ id s, r.tabs.get id = some s → r.Issued id) :
    (∀ i t, r.prepareAppRecovery.restoringApps.get i = some t → r.Issued t.tabId) ∧
      ∀ i j t t', r.prepareAppRecovery.restoringApps.get i = some t →
        r.prepareAppRecovery.restoringApps.get j = some t' → t.tabId = t'.tabId → i = j := by
  refine ⟨?_, ?_⟩
  · intro i t ht
    obtain ⟨id, s, app, hs, -, -, hid⟩ := mem_prepareAppRecovery ht
    rw [hid, hn id s hs]
    exact his id s hs
  · intro i j t t' ht ht' heq
    obtain ⟨id, s, app, hs, ha, hi, hid⟩ := mem_prepareAppRecovery ht
    obtain ⟨id', s', app', hs', ha', hj, hid'⟩ := mem_prepareAppRecovery ht'
    have hsame : id = id' := by rw [← hn id s hs, ← hn id' s' hs', ← hid, ← hid', heq]
    subst hsame
    rw [hs] at hs'
    cases hs'
    rw [ha] at ha'
    cases ha'
    rw [← hi, ← hj]

theorem Sound.prepareAppRecovery (h : Sound latest r) : Goes latest r r.prepareAppRecovery := by
  obtain ⟨hi, hd⟩ := saved_prepareAppRecovery h.named h.issued
  exact { h.goes with savedIssued := hi, savedDistinct := hd }

/-- The tab that a restored App gets: the saved one, past its saved and its present revision. -/
def restoredTab (r : TabRegistry) (saved : EnvironmentTab) (target : String) : TabState where
  controllerTargetId := target
  documentId := none
  tab := { saved with documentRevision := satSucc (max saved.documentRevision ((r.revisionOf saved.tabId).getD 0)) }

/-- The temporary tab that shows the target goes. -/
def releaseTarget (r : TabRegistry) (savedId target : String) : TabRegistry :=
  match r.tabIdByControllerTarget.get target with
  | none => r
  | some temporaryId =>
    { r with
      tabIdByControllerTarget := r.tabIdByControllerTarget.remove target
      tabs := r.tabs.remove temporaryId
      order := r.order.filter (fun id => id ≠ temporaryId)
      focusedTabId := if r.focusedTabId = some temporaryId then some savedId else r.focusedTabId }

/-- The saved tab leaves the target that it is still bound to. -/
def releaseSaved (r : TabRegistry) (savedId : String) : TabRegistry :=
  match r.tabs.get savedId with
  | none => r
  | some old =>
    { r with
      tabs := r.tabs.remove savedId
      tabIdByControllerTarget := r.tabIdByControllerTarget.remove old.controllerTargetId }
      |>.rememberRetiredControllerTarget old.controllerTargetId savedId

def bindTab (r : TabRegistry) (state : TabState) : TabRegistry :=
  { r with
    tabIdByControllerTarget := r.tabIdByControllerTarget.insert state.controllerTargetId state.tab.tabId
    order := if state.tab.tabId ∈ r.order then r.order else r.order ++ [state.tab.tabId]
    tabs := r.tabs.insert state.tab.tabId state }

theorem releaseTarget_tabs {savedId tg : String} (h : r.tabIdByControllerTarget.get tg ≠ some savedId) :
    (r.releaseTarget savedId tg).tabs.get savedId = r.tabs.get savedId ∧
      ∀ id s, (r.releaseTarget savedId tg).tabs.get id = some s → r.tabs.get id = some s := by
  unfold releaseTarget
  split
  · exact ⟨rfl, fun _ _ hs => hs⟩
  rename_i temporaryId ht
  have hne : savedId ≠ temporaryId := fun heq => h (heq ▸ ht)
  exact ⟨by rw [get_remove_of_ne _ hne], fun _ _ hs => (of_get_remove hs).2⟩

theorem releaseSaved_tabs (r : TabRegistry) (savedId : String) :
    (r.releaseSaved savedId).tabs = r.tabs.remove savedId := by
  unfold releaseSaved
  split
  · rename_i hn
    exact (remove_of_none hn).symm
  · rfl

theorem restoreAppTab_eq {sv : EnvironmentTab} {tg : String} (h : r.tabIdByControllerTarget.get tg ≠ some sv.tabId) :
    (r.restoreAppTab sv tg).1 = (((r.releaseTarget sv.tabId tg).releaseSaved
      sv.tabId).forgetRetiredControllerTarget tg).bindTab (r.restoredTab sv tg) := by
  unfold restoredTab revisionOf releaseSaved bindTab
  rw [← (releaseTarget_tabs h).1]
  unfold restoreAppTab releaseTarget
  rw [if_neg h]
  cases htgt : r.tabIdByControllerTarget.get tg with
  | none => cases hold : r.tabs.get sv.tabId <;> simp [hold]
  | some temporaryId => cases hold : (r.tabs.remove temporaryId).get sv.tabId <;> simp [hold]

theorem Sound.restoreAppTab (h : Sound latest r) (hc : ∀ id v, r.revisionOf id = some v → latest id = v)
    (sv : EnvironmentTab) (tg : String) (hsa : r.tabIdByControllerTarget.get tg ≠ some sv.tabId → r.Issued sv.tabId ∧
      (r.revisionOf sv.tabId = none → latest sv.tabId ≤ sv.documentRevision) ∧
      max sv.documentRevision (latest sv.tabId) < u64Max) :
    Goes latest r (r.restoreAppTab sv tg).1 := by
  by_cases hbd : r.tabIdByControllerTarget.get tg = some sv.tabId
  · rw [TabRegistry.restoreAppTab, if_pos hbd]
    exact h.goes
  obtain ⟨hi, ha, hm⟩ := hsa hbd
  rw [restoreAppTab_eq hbd]
  have hkept : ∀ id s, ((r.releaseTarget sv.tabId tg).releaseSaved sv.tabId).tabs.get id = some s →
      r.tabs.get id = some s := by
    intro id s hs
    rw [releaseSaved_tabs] at hs
    exact (releaseTarget_tabs hbd).2 id s (of_get_remove hs).2
  have hfree : ((r.releaseTarget sv.tabId tg).releaseSaved sv.tabId).tabs.get sv.tabId = none := by
    rw [releaseSaved_tabs, get_remove_self]
  have hfields : ((r.releaseTarget sv.tabId tg).releaseSaved sv.tabId).nextSequence = r.nextSequence ∧
      ((r.releaseTarget sv.tabId tg).releaseSaved sv.tabId).restoringApps = r.restoringApps := by
    unfold releaseSaved releaseTarget
    split <;> split <;> exact ⟨rfl, rfl⟩
  generalize (r.releaseTarget sv.tabId tg).releaseSaved sv.tabId = q at hkept hfree hfields
  have hgoes := h.shrink hfields.1 (fun i t ht => ⟨t, hfields.2 ▸ ht, rfl⟩)
    fun id s hs => ⟨s, hkept id s hs, rfl, le_refl _, h.bounded id s (hkept id s hs)⟩
  -- the restored revision is past the latest one, whether the tab is still there or not
  have hlst : latest sv.tabId ≤ max sv.documentRevision ((r.revisionOf sv.tabId).getD 0) ∧
      max sv.documentRevision ((r.revisionOf sv.tabId).getD 0) < u64Max := by
    cases hv : r.revisionOf sv.tabId with
    | none =>
      have hle := ha hv
      simp only [Option.getD_none]
      omega
    | some v =>
      have heq := hc _ v hv
      simp only [Option.getD_some]
      omega
  have hrev : (r.restoredTab sv tg).tab.documentRevision =
      max sv.documentRevision ((r.revisionOf sv.tabId).getD 0) + 1 := satSucc_eq hlst.2
  have hput := hgoes.toSound.put hfree (s := r.restoredTab sv tg)
    (q := (q.forgetRetiredControllerTarget tg).bindTab (r.restoredTab sv tg)) rfl
    (by unfold Issued; rw [hfields.1]; exact hi) (by omega) (by omega) rfl rfl rfl
  exact hgoes.trans (fun id v hv => (hc id v hv).ge) hput

theorem Sound.recordNavigation (h : Sound latest r) (tid url title : String)
    (hbd : ∀ v, r.revisionOf tid = some v → v < u64Max) : Goes latest r (r.recordNavigation tid url title).1 := by
  unfold TabRegistry.recordNavigation
  split
  · exact h.goes
  rename_i st hst
  have hlt := hbd _ (revisionOf_of_get hst)
  have hmod : (st.tab.documentRevision + 1) % 2 ^ 64 = st.tab.documentRevision + 1 := by
    unfold u64Max at hlt
    omega
  rw [hmod]
  exact h.shrink rfl (fun i t ht => ⟨t, ht, rfl⟩) (forall_insert ⟨st, hst, rfl, Nat.le_succ _, hlt⟩
    fun id s hs => ⟨s, hs, rfl, le_refl _, h.bounded id s hs⟩)

theorem Sound.close (h : Sound latest r) (tid : String) : Goes latest r (r.close tid).1 := by
  unfold TabRegistry.close
  split
  · exact h.goes
  · exact { h.retireTab tid with }

end TabRegistry

/-! ### Runs -/

/-- The operations of the registry; `clear` begins the next runtime generation. -/
inductive TabOp
  | reconcileControllerTabs (observations : List EnvironmentTabObservation) (focusedControllerTargetId : Option String)
  | recordNavigation (tabId url title : String)
  | setApps (apps : OrdMap String EnvironmentTabApp)
  | prepareAppRecovery
  | restoreAppTab (saved : EnvironmentTab) (target : String)
  | close (tabId : String)
  | clear

def TabOp.apply (r : TabRegistry) : TabOp → TabRegistry
  | reconcileControllerTabs observations focused => (r.reconcileControllerTabs observations focused).1
  | recordNavigation tabId url title => (r.recordNavigation tabId url title).1
  | setApps apps => (r.setApps apps).1
  | prepareAppRecovery => r.prepareAppRecovery
  | restoreAppTab saved target => (r.restoreAppTab saved target).1
  | close tabId => (r.close tabId).1
  | clear => r.clear

namespace TabRegistry

def run (r : TabRegistry) (ops : List TabOp) : TabRegistry := ops.foldl TabOp.apply r

/-- The latest revision that each tab had in this generation. -/
def latestAfter (latest : String → Nat) (q : TabRegistry) : TabOp → String → Nat
  | .clear, _ => 0
  | _, id => max (latest id) ((q.revisionOf id).getD 0)

theorem latestAfter_of_ne {lt : String → Nat} {q : TabRegistry} {op : TabOp} (h : op ≠ .clear) :
    latestAfter lt q op = fun id => max (lt id) ((q.revisionOf id).getD 0) := by
  cases op with
  | clear => exact absurd rfl h
  | _ => rfl

end TabRegistry

open TabRegistry

/-- What is given back was saved at the latest revision of its tab, under an id that was issued, and no counter is
exhausted. -/
def TabOp.GivesBackLatest (latest : String → Nat) (r : TabRegistry) : TabOp → Prop
  | reconcileControllerTabs observations _ => r.nextSequence + observations.length ≤ u64Max
  | recordNavigation tabId _ _ => ∀ v, r.revisionOf tabId = some v → v < u64Max
  | setApps apps => ∀ claim ∈ (r.withApps apps).restorableTabs, ∀ previous,
      r.restoringApps.get claim.2 = some previous →
      latest previous.tabId ≤ previous.documentRevision ∧ previous.documentRevision < u64Max
  | restoreAppTab saved target => r.tabIdByControllerTarget.get target ≠ some saved.tabId → r.Issued saved.tabId ∧
      (r.revisionOf saved.tabId = none → latest saved.tabId ≤ saved.documentRevision) ∧
      max saved.documentRevision (latest saved.tabId) < u64Max
  | _ => True

namespace TabRegistry

variable {latest : String → Nat} {r : TabRegistry}

/-- Every operation of the run gives back only what was saved at the latest revision. -/
def GivesBackLatest (latest : String → Nat) (r : TabRegistry) : List TabOp → Prop
  | [] => True
  | op :: ops => op.GivesBackLatest latest r ∧ GivesBackLatest (latestAfter latest (op.apply r) op) (op.apply r) ops

/-- The invariant between operations: a tab that is there has the latest revision of its id. -/
structure Fenced (latest : String → Nat) (r : TabRegistry) : Prop extends Sound latest r where
  current : ∀ id v, r.revisionOf id = some v → latest id = v

theorem new_fenced : Fenced (fun _ => 0) new where
  named := nofun
  issued := nofun
  bounded := nofun
  savedIssued := nofun
  savedDistinct := fun _ _ _ _ h => by cases h
  unused := fun _ _ => rfl
  current := nofun

theorem Fenced.advance (h : Fenced latest r) {q : TabRegistry} (hg : Goes latest r q) :
    Fenced (fun id => max (latest id) ((q.revisionOf id).getD 0)) q :=
  { hg with
    unused := by
      intro n hn
      have hnone : q.revisionOf (tabIdOf n) = none := by
        cases hv : q.revisionOf (tabIdOf n) with
        | none => rfl
        | some =>
          obtain ⟨s, hs', -⟩ := revisionOf_eq_some hv
          obtain ⟨m, hm, heq⟩ := hg.issued _ s hs'
          have := tabIdOf_injective heq
          omega
      simp [hg.unused n hn, hnone]
    current := by
      intro id v' hv'
      simp only [hv', Option.getD_some]
      cases hv : r.revisionOf id with
      | none =>
        have := hg.back id v' hv hv'
        omega
      | some v =>
        have h1 := h.current id v hv
        have h2 := hg.kept id v v' hv hv'
        omega }

variable {id : String} {op : TabOp} {v : Nat}

section

variable (h : Fenced latest r)

include h

theorem Fenced.goes (hop : op.GivesBackLatest latest r) (hc : op ≠ .clear) : Goes latest r (op.apply r) := by
  have hcur : ∀ id v, r.revisionOf id = some v → v ≤ latest id := fun id v hv => (h.current id v hv).ge
  cases op with
  | reconcileControllerTabs obs fo =>
    exact h.toSound.reconcileControllerTabs hcur obs fo hop
  | recordNavigation tid url title => exact h.toSound.recordNavigation tid url title hop
  | setApps apps => exact h.toSound.setApps hcur apps hop
  | prepareAppRecovery => exact h.toSound.prepareAppRecovery
  | restoreAppTab sv tg => exact h.toSound.restoreAppTab h.current sv tg hop
  | close tid => exact h.toSound.close tid
  | clear => exact absurd rfl hc

theorem Fenced.clear : Fenced (fun _ => 0) r.clear where
  named := nofun
  issued := nofun
  bounded := nofun
  savedIssued := h.toSound.prepareAppRecovery.savedIssued
  savedDistinct := h.toSound.prepareAppRecovery.savedDistinct
  unused := fun _ _ => rfl
  current := nofun

theorem Fenced.apply (hop : op.GivesBackLatest latest r) :
    Fenced (latestAfter latest (op.apply r) op) (op.apply r) := by
  by_cases hclr : op = .clear
  · subst hclr
    exact h.clear
  · rw [latestAfter_of_ne hclr]
    exact h.advance (h.goes hop hclr)

/-- A reference that was passed stays refused by every operation of the generation. -/
theorem Fenced.passed (hle : v ≤ latest id)
    (hr : r.revisionOf id ≠ some v) (hop : op.GivesBackLatest latest r) (hc : op ≠ .clear) :
    v ≤ latestAfter latest (op.apply r) op id ∧ (op.apply r).revisionOf id ≠ some v := by
  have hgoes := h.goes hop hc
  constructor
  · rw [latestAfter_of_ne hc]
    exact le_max_of_le_left hle
  intro hv'
  cases hv : r.revisionOf id with
  | none =>
    have := hgoes.back id v hv hv'
    omega
  | some w =>
    have h1 := h.current id w hv
    have h2 := hgoes.kept id w v hv hv'
    have h3 : w = v := by omega
    rw [h3] at hv
    exact hr hv

theorem Fenced.passed_run (hle : v ≤ latest id)
    (hr : r.revisionOf id ≠ some v) (ops : List TabOp) (ho : GivesBackLatest latest r ops)
    (hc : TabOp.clear ∉ ops) : (r.run ops).revisionOf id ≠ some v := by
  induction ops generalizing latest r with
  | nil => exact hr
  | cons op ops ih =>
    rw [mem_cons, not_or] at hc
    obtain ⟨hle', hr'⟩ := h.passed hle hr ho.1 (Ne.symm hc.1)
    exact ih (h.apply ho.1) hle' hr' ho.2 hc.2

/-- A tab that is accepted at a revision and later refused was passed. -/
theorem Fenced.passed_of_accepted (hle : v ≤ latest id)
    (lr last : List TabOp) (ho : GivesBackLatest latest r (lr ++ last)) (hc : TabOp.clear ∉ lr ++ last)
    (hr : (r.run lr).revisionOf id ≠ some v) : (r.run (lr ++ last)).revisionOf id ≠ some v := by
  induction lr generalizing latest r with
  | nil => exact h.passed_run hle hr last ho hc
  | cons op lr ih =>
    rw [cons_append, mem_cons, not_or] at hc
    have hle' : v ≤ latestAfter latest (op.apply r) op id := by
      rw [latestAfter_of_ne (Ne.symm hc.1)]
      exact le_max_of_le_left hle
    exact ih (h.apply ho.1) hle' ho.2 hc.2 hr

end

theorem givesBackLatest_append (ops later : List TabOp) (ho : GivesBackLatest latest r (ops ++ later))
    (h : Fenced latest r) : ∃ lt', Fenced lt' (r.run ops) ∧ GivesBackLatest lt' (r.run ops) later := by
  induction ops generalizing latest r with
  | nil => exact ⟨latest, h, ho⟩
  | cons op ops ih => exact ih ho.2 (h.apply ho.1)

/-- In a run whose operations give back only what was saved at the latest revision of its tab: a reference that was
accepted and then refused in one generation is refused for the rest of the generation. -/
theorem passed_reference_refused (ops later last : List TabOp)
    (hops : GivesBackLatest (fun _ => 0) new (ops ++ (later ++ last))) (hclear : TabOp.clear ∉ later ++ last)
    (generation : Nat) (tabId : String) (revision : Nat)
    (haccepted : (new.run ops).validateReference generation generation tabId revision = .ok ())
    (hrefused : (new.run (ops ++ later)).validateReference generation generation tabId revision ≠ .ok ()) :
    (new.run (ops ++ (later ++ last))).validateReference generation generation tabId revision ≠ .ok () := by
  obtain ⟨lt, hf, hr⟩ := givesBackLatest_append ops (later ++ last) hops new_fenced
  rw [validateReference_ok_iff] at haccepted
  rw [Ne, validateReference_ok_iff, run, foldl_append] at hrefused
  rw [Ne, validateReference_ok_iff, run, foldl_append]
  exact hf.passed_of_accepted (hf.current tabId revision haccepted).ge later last hr hclear hrefused

/-- An App view in its own tab, saved for recovery at its first revision. -/
def savedView : List TabOp :=
  [.reconcileControllerTabs [{ runtimeTargetId := "old", documentId := "before", url := "app", title := "App" }] none,
    .setApps (OrdMap.ofList [("old", { installationId := "app_1", panel := none })]), .prepareAppRecovery]

/-- The view is gone, its page opens in a new target, and the target is marked as the same App. -/
def reclaimedView : List TabOp :=
  [.reconcileControllerTabs [{ runtimeTargetId := "new", documentId := "after", url := "app", title := "App" }] none,
    .setApps (OrdMap.ofList [("new", { installationId := "app_1", panel := none })])]

/-- Whether the claims of `setApps` give back the latest revisions can be read off the saved tabs. -/
theorem givesBackLatest_setApps {apps : OrdMap String EnvironmentTabApp}
    (h : ∀ cl ∈ (r.withApps apps).restorableTabs, (r.restoringApps.get cl.2).all (fun prev =>
      decide (latest prev.tabId ≤ prev.documentRevision ∧ prev.documentRevision < u64Max)) = true) :
    (TabOp.setApps apps).GivesBackLatest latest r := by
  intro cl hc prev hp
  have hall := h cl hc
  rw [hp, Option.all_some, decide_eq_true_eq] at hall
  exact hall

theorem passed_reference_refused_reclaimedView : (new.run savedView).validateReference 1 1 "tab-1" 1 = .ok () ∧
      (new.run (savedView ++ ([.close "tab-1"] ++ reclaimedView))).validateReference 1 1 "tab-1" 2 = .ok () ∧
      (new.run (savedView ++ ([.close "tab-1"] ++ reclaimedView))).validateReference 1 1 "tab-1" 1 ≠ .ok () :=
  ⟨by decide, by decide, passed_reference_refused savedView [.close "tab-1"] reclaimedView
    ⟨show _ ≤ u64Max by decide, givesBackLatest_setApps (by decide), trivial, trivial, show _ ≤ u64Max by decide,
      givesBackLatest_setApps (by decide), trivial⟩
    (by simp [reclaimedView]) 1 "tab-1" 1 (by decide) (by decide)⟩

/-- The view moves on to its second revision after it was saved, and is then reclaimed at that same revision. -/
theorem reclaimed_revision :
    let moved := savedView ++ [.recordNavigation "tab-1" "app" "App"]
    (new.run moved).validateReference 1 1 "tab-1" 2 = .ok () ∧
      (new.run (moved ++ [.close "tab-1"])).validateReference 1 1 "tab-1" 2 ≠ .ok () ∧
      (new.run (moved ++ [.close "tab-1"] ++ reclaimedView)).validateReference 1 1 "tab-1" 2 = .ok () := by
  decide

end TabRegistry

end Chariox
