import Chariox.SessionStore.System

/-!
# What a restart keeps

A session carries the first `n` changes of its history when every field that one of them wrote has the value it was
given, or is written by a later change.  The store carries all changes, and a snapshot those that had been made when it
was taken.  If the events of each session are appended in the order in which their snapshots were taken, the latest
event of a session carries every change that an appended snapshot carried; a checkpoint carries them too unless a later
event does.  So a restart keeps every change whose call has returned.

Without that order a call that took its snapshot early and appends it late overwrites, in the replay, what other calls
have written and acknowledged in the meantime.
-/

namespace Chariox.SessionStore

open SequencedLog OrdMap

/-! ### Carried changes -/

/-- A change of the session after the `i`-th one wrote the field. -/
def WrittenAfter (changes : List Change) (i : Nat) (sessionId : String) (f : Field) : Prop :=
  ∃ j c, i < j ∧ changes[j]? = some c ∧ c.sessionId = sessionId ∧ f ∈ c.fields

/-- The session has what the `i`-th change wrote, except in fields that were written later. -/
def HasChange (changes : List Change) (i : Nat) (c : Change) (session : RuntimeSession) : Prop :=
  ∀ f ∈ c.fields, f.SameIn c.after session ∨ WrittenAfter changes i c.sessionId f

/-- The session is there and has its changes among the first `n` changes. -/
def Carries (changes : List Change) (sessionId : String) (n : Nat) (session : Option RuntimeSession) : Prop :=
  ∀ i c, i < n → changes[i]? = some c → c.sessionId = sessionId → ∃ x, session = some x ∧ HasChange changes i c x

theorem WrittenAfter.append {chs : List Change} {i : Nat} {sid : String} {f : Field}
    (h : WrittenAfter chs i sid f) (c : Change) : WrittenAfter (chs ++ [c]) i sid f := by
  obtain ⟨j, c', hj, hc', hr⟩ := h
  refine ⟨j, c', hj, ?_, hr⟩
  rw [List.getElem?_append_left (List.getElem?_eq_some_iff.1 hc').1]
  exact hc'

namespace Carries

variable {changes : List Change} {sessionId : String} {n : Nat} {session : Option RuntimeSession}

theorem zero : Carries changes sessionId 0 session := fun i _ hi => absurd hi (Nat.not_lt_zero i)

theorem mono (h : Carries changes sessionId n session) {m : Nat} (hm : m ≤ n) : Carries changes sessionId m session :=
  fun i c hi => h i c (Nat.lt_of_lt_of_le hi hm)

theorem congr {a b : RuntimeSession} (h : Carries changes sessionId n (some a)) (hab : ∀ f : Field, f.SameIn a b) :
    Carries changes sessionId n (some b) := by
  intro i c hi hc hid
  obtain ⟨x, hx, hh⟩ := h i c hi hc hid
  cases hx
  refine ⟨b, rfl, ?_⟩
  intro f hf
  rcases hh f hf with hs | hl
  · exact .inl (hs.trans (hab f))
  · exact .inr hl

theorem append (h : Carries changes sessionId n session) (hn : n ≤ changes.length) (c : Change) :
    Carries (changes ++ [c]) sessionId n session := by
  intro i c' hi hc' hid
  rw [List.getElem?_append_left (Nat.lt_of_lt_of_le hi hn)] at hc'
  obtain ⟨x, hx, hh⟩ := h i c' hi hc' hid
  refine ⟨x, hx, ?_⟩
  intro f hf
  rcases hh f hf with hs | hl
  · exact .inl hs
  · exact .inr (hl.append c)

/-- A new change of the session itself: it is carried, and so are the changes before it. -/
theorem change {b : RuntimeSession} {c : Change} (h : Carries changes c.sessionId changes.length (some b))
    (hfr : ∀ f, f ∉ c.fields → f.SameIn b c.after) :
    Carries (changes ++ [c]) c.sessionId (changes.length + 1) (some c.after) := by
  intro i c' hi hc' hid
  refine ⟨c.after, rfl, ?_⟩
  by_cases hlast : i = changes.length
  · subst hlast
    rw [List.getElem?_concat_length] at hc'
    cases hc'
    exact fun f _ => .inl (Field.SameIn.refl ..)
  · have hlt : i < changes.length := by omega
    rw [List.getElem?_append_left hlt] at hc'
    obtain ⟨x, hx, hh⟩ := h i c' hlt hc' hid
    cases hx
    intro f hf
    by_cases hwrn : f ∈ c.fields
    · exact .inr ⟨changes.length, c, hlt, List.getElem?_concat_length, hid.symm, hwrn⟩
    rcases hh f hf with hs | hl
    · exact .inl (hs.trans (hfr f hwrn))
    · exact .inr (hl.append c)

theorem other (h : Carries changes sessionId changes.length session) {c : Change} (hne : c.sessionId ≠ sessionId) :
    Carries (changes ++ [c]) sessionId (changes.length + 1) session := by
  intro i c' hi hc' hid
  by_cases hlast : i = changes.length
  · subst hlast
    rw [List.getElem?_concat_length] at hc'
    cases hc'
    exact absurd hid hne
  · exact h.append le_rfl c i c' (by omega) hc' hid

end Carries

/-! ### Snapshots and replayed events -/

theorem RuntimeSession.sameIn_durableRuntimeSnapshot (ses : RuntimeSession) (f : Field) :
    f.SameIn ses ses.durableRuntimeSnapshot := by
  have hfind : ∀ id, ses.durableRuntimeSnapshot.findTrigger id = (ses.findTrigger id).map AgentTrigger.serialized := by
    intro id
    unfold findTrigger durableRuntimeSnapshot
    rw [List.find?_map]
    rfl
  have hmap : ∀ {β : Type} (g : AgentTrigger → β) (id : TriggerId), (∀ t, g t.serialized = g t) →
      (ses.findTrigger id).map g = (ses.durableRuntimeSnapshot.findTrigger id).map g := by
    intro β g id hg
    rw [hfind, Option.map_map]
    congr 1
    exact funext fun t => (hg t).symm
  cases f with
  | pinned => exact ⟨rfl, rfl⟩
  | trigger id =>
    refine ⟨?_, hmap _ id fun _ => rfl⟩
    unfold durableRuntimeSnapshot
    rw [List.countP_map]
    rfl
  | busyPolicy id | prompt id | enabled id => exact hmap _ id fun _ => rfl

/-- A replayed event gives the session the fields that the event carries. -/
theorem sameIn_restoreSessionUpdated (cur : Option RuntimeSession) (e : SessionUpdated) (f : Field) :
    f.SameIn e.session (restoreSessionUpdated cur e) := by
  cases cur with
  | none => exact Field.SameIn.refl ..
  | some => exact Field.sameIn_of_eq rfl rfl rfl f

namespace DurableStateStore

theorem latestSequence_le (d : DurableStateStore) {sq : Nat}
    (h : sq ≤ d.events.lastSequence) : d.latestSequence sq ≤ d.events.lastSequence := by
  unfold latestSequence
  have hents : ∀ e ∈ d.events.after sq, e.sequence ≤ d.events.lastSequence :=
    fun e he => d.events.bounded e (mem_after.1 he).1
  generalize d.events.after sq = ents at hents
  induction ents generalizing sq with
  | nil => exact h
  | cons e ents ih =>
    refine ih (Nat.max_le.2 ⟨h, hents e List.mem_cons_self⟩) ?_
    exact fun e' he' => hents e' (List.mem_cons_of_mem _ he')

/-- The base of a restart is a checkpoint, or nothing where there is none of this kernel. -/
theorem base_saveEntityCheckpoint (d : DurableStateStore) (cp : Checkpoint) :
    (d.saveEntityCheckpoint cp).base.2 ≤ cp.sequence ∧
      ∀ id, (d.saveEntityCheckpoint cp).base.1.get id = cp.sessions.get id := by
  unfold base saveEntityCheckpoint
  simp only
  split
  · rename_i he
    rw [Bool.and_eq_true] at he
    refine ⟨Nat.zero_le _, fun id => ?_⟩
    have hnil : cp.sessions.entries = [] := List.isEmpty_iff.1 he.1
    rw [get_empty, OrdMap.get, hnil]
    rfl
  · exact ⟨le_rfl, fun _ => rfl⟩

end DurableStateStore

/-! ### The invariant -/

namespace KernelState

/-- An event of the session is after the sequence, or the stored session carries what was published of it. -/
def Covered (s : KernelState) (sessions : OrdMap String RuntimeSession) (sequence : Nat) : Prop :=
  ∀ id, (∃ e ∈ s.durable.events.entries, e.key = id ∧ sequence < e.sequence) ∨
    Carries s.changes id (s.publishedAt id) (sessions.get id)

/-- The numbers a tick has read are not ahead of the events, and what it captured covers what was published. -/
def TickCovered (s : KernelState) : Tick → Prop
  | .idle => True
  | .capturing sequence _ | .measuring sequence _ => sequence ≤ s.durable.events.lastSequence
  | .saving checkpoint _ =>
    checkpoint.sequence ≤ s.durable.events.lastSequence ∧ s.Covered checkpoint.sessions checkpoint.sequence

/-- What a call that is under way has taken or published includes its own change. -/
def CallCovered (s : KernelState) (n : Nat) (call : Call) : Prop :=
  (∃ c, s.changes[n]? = some c ∧ c.sessionId = call.sessionId) ∧
    match call.stage with
    | .subscribing | .snapshotting => True
    | .appending session taken =>
      n < taken ∧ taken ≤ s.changes.length ∧ Carries s.changes call.sessionId taken (some session)
    | .starting => n < s.publishedAt call.sessionId

structure Kept (s : KernelState) : Prop where
  store : ∀ id, Carries s.changes id s.changes.length (s.service.sessions.get id)
  call : ∀ n call, s.calls.get n = some call → s.CallCovered n call
  returned : ∀ n ∈ s.returned, ∃ c, s.changes[n]? = some c ∧ n < s.publishedAt c.sessionId
  published_le : ∀ id, s.publishedAt id ≤ s.changes.length
  latest : ∀ e, s.durable.events.Latest e → Carries s.changes e.key (s.publishedAt e.key) (some e.payload.session)
  base : s.Covered s.durable.base.1 s.durable.base.2
  base_le : s.durable.base.2 ≤ s.durable.events.lastSequence
  checkpoint_le : s.durable.checkpointMarker ≤ s.durable.events.lastSequence
  marker_le : ∀ marker, s.checkpointMarker = some marker → marker ≤ s.durable.events.lastSequence
  tick : s.TickCovered s.tick

/-- A restart finds every session with all that was published of it. -/
theorem Kept.restored {s : KernelState} (h : s.Kept) (id : String) :
    Carries s.changes id (s.publishedAt id) (s.durable.restoreDurableState.get id) := by
  unfold DurableStateStore.restoreDurableState
  rcases get_replay_after restoreSessionUpdated s.durable.events s.durable.base.1 s.durable.base.2 id with
    ⟨hnone, hget⟩ | ⟨e, old, hlst, hk, hget⟩
  · rw [hget]
    rcases h.base id with ⟨e, he, hk, hlt⟩ | hc
    · have hle := hnone e he hk
      omega
    · exact hc
  · rw [hget]
    subst hk
    exact (h.latest e hlst).congr (sameIn_restoreSessionUpdated old e.payload)

theorem kept_start (d : StoredState) (sched : String) : (start d sched).Kept where
  store := fun _ => Carries.zero
  call := nofun
  returned := nofun
  published_le := fun _ => le_rfl
  latest := fun _ _ => Carries.zero
  base := fun _ => .inr Carries.zero
  base_le := by
    have hseq := d.sequenced
    unfold DurableStateStore.checkpointMarker at hseq
    unfold start DurableStateStore.base
    split
    · exact Nat.zero_le _
    rename_i hc
    rw [hc] at hseq
    split
    · exact Nat.zero_le _
    · exact hseq
  checkpoint_le := d.sequenced
  marker_le := nofun
  tick := trivial

/-! ### The steps of a call -/

variable {s : KernelState} {n : Nat} {call : Call}

theorem Covered.record {ses : OrdMap String RuntimeSession} {sequence : Nat} (h : s.Covered ses sequence)
    (hle : ∀ id, s.publishedAt id ≤ s.changes.length) (svc : SessionService) (c : Change) :
    ({ s with service := svc, changes := s.changes ++ [c] } : KernelState).Covered ses sequence := by
  intro id
  rcases h id with hev | hc
  · exact .inl hev
  · exact .inr (hc.append (hle id) c)

theorem CallCovered.record (h : s.CallCovered n call) (svc : SessionService) (c : Change) :
    ({ s with service := svc, changes := s.changes ++ [c] } : KernelState).CallCovered n call := by
  obtain ⟨⟨c', hc', hid⟩, hs⟩ := h
  have hlt := (List.getElem?_eq_some_iff.1 hc').1
  refine ⟨⟨c', by rw [List.getElem?_append_left hlt]; exact hc', hid⟩, ?_⟩
  cases hcall : call.stage with
  | starting =>
    rw [hcall] at hs
    exact hs
  | appending =>
    rw [hcall] at hs
    obtain ⟨hn, hle, hc⟩ := hs
    refine ⟨hn, ?_, hc.append hle c⟩
    rw [List.length_append]
    omega
  | _ => trivial

/-- A tick stays covered while the events grow and what it captured stays covered. -/
theorem TickCovered.imp {s' : KernelState} {tick : Tick} (h : s.TickCovered tick)
    (hle : s.durable.events.lastSequence ≤ s'.durable.events.lastSequence)
    (hc : ∀ ses seq, seq ≤ s.durable.events.lastSequence → s.Covered ses seq →
      s'.Covered ses seq) : s'.TickCovered tick := by
  cases tick with
  | idle => trivial
  | saving cp => exact ⟨h.1.trans hle, hc _ _ h.1 h.2⟩
  | _ => exact Nat.le_trans h hle

section

variable (h : s.Kept)

include h

theorem Kept.record {svc : SessionService} {sid : String} {fds : List Field}
    {b after : RuntimeSession} (hch : s.service.Changes svc sid fds b after) :
    (s.record svc sid fds).Kept ∧ (s.record svc sid fds).changes = s.changes ++ [⟨sid, fds, after⟩] := by
  have haft : svc.sessions.get sid = some after := by
    rw [hch.after_eq, get_insert_self]
  have hrcd : s.record svc sid fds = { s with service := svc, changes := s.changes ++ [⟨sid, fds, after⟩] } := by
    rw [KernelState.record, haft]
  rw [hrcd]
  refine ⟨?_, rfl⟩
  have hsto : ∀ id, Carries (s.changes ++ [⟨sid, fds, after⟩]) id (s.changes.length + 1)
      (svc.sessions.get id) := by
    intro id
    rw [hch.after_eq, get_insert]
    split
    · rename_i hid
      subst hid
      have hbef := h.store id
      rw [hch.before_eq] at hbef
      exact @Carries.change s.changes b ⟨id, fds, after⟩ hbef hch.outside
    · rename_i hid
      exact (h.store id).other fun heq => hid heq.symm
  exact
    { store := by
        intro id
        have hid := hsto id
        rw [← List.length_singleton (a := (⟨sid, fds, after⟩ : Change)), ← List.length_append] at hid
        exact hid
      call := fun n call hca => (h.call n call hca).record svc _
      returned := by
        intro n hn
        obtain ⟨c, hc, hlt⟩ := h.returned n hn
        refine ⟨c, ?_, hlt⟩
        rw [List.getElem?_append_left (List.getElem?_eq_some_iff.1 hc).1]
        exact hc
      published_le := by
        intro id
        rw [List.length_append]
        exact Nat.le_add_right_of_le (h.published_le id)
      latest := fun e he => (h.latest e he).append (h.published_le e.key) _
      base := h.base.record h.published_le svc _
      base_le := h.base_le
      checkpoint_le := h.checkpoint_le
      marker_le := h.marker_le
      tick := h.tick.imp le_rfl fun _ _ _ hco => hco.record h.published_le svc _ }

theorem Kept.putCall (hc : s.CallCovered n call) : (s.putCall n call).Kept :=
  { h with
    call := forall_insert hc h.call }

theorem Kept.fail (n : Nat) : (s.fail n).Kept :=
  { h with
    call := fun m o hm => h.call m o (of_get_remove hm).2 }

theorem Kept.acknowledge (hn : ∃ c, s.changes[n]? = some c ∧ n < s.publishedAt c.sessionId) : (s.acknowledge n).Kept :=
  { h.fail n with
    returned := List.forall_mem_append.2 ⟨h.returned, List.forall_mem_singleton.2 hn⟩ }

theorem Kept.withdraw {sid : String} {tid : TriggerId} {s' : KernelState} (hs' : s.withdraw sid tid = some s') :
    s'.Kept ∧ ∃ c, s'.changes = s.changes ++ [c] := by
  unfold KernelState.withdraw at hs'
  split at hs'
  · cases hs'
  rename_i hd
  cases hs'
  obtain ⟨b, aft, hch⟩ := SessionService.deleteAgentTrigger_changes hd
  obtain ⟨hk, hc⟩ := h.record hch
  exact ⟨hk, _, hc⟩

theorem Kept.withdraw_getD (sid : String) (tid : TriggerId) : ((s.withdraw sid tid).getD s).Kept := by
  cases hs' : s.withdraw sid tid with
  | none => exact h
  | some => exact (h.withdraw hs').1

theorem Kept.persistFailed (n : Nat) (call : Call) : (s.persistFailed n call).Kept := by
  unfold KernelState.persistFailed
  split
  · exact (h.withdraw_getD ..).fail n
  · exact h.fail n
  · exact h.fail n
  · exact h.fail n

theorem Kept.begin (sid : String) (op : Operation) (uid : String) (now : Nat) : (s.begin sid op uid now).Kept := by
  unfold KernelState.begin
  split
  · exact h
  rename_i hp
  obtain ⟨b, aft, hch⟩ := SessionService.perform_changes hp
  obtain ⟨hk, hc⟩ := h.record hch
  refine hk.putCall ⟨⟨_, by rw [hc, List.getElem?_concat_length], rfl⟩, ?_⟩
  cases op with
  | createAgentTrigger aid src => cases src <;> trivial
  | _ => trivial

theorem Kept.takeSnapshot (hca : s.CallCovered n call)
    (pj : Option (OrdMap String AgentPromptState)) : (s.takeSnapshot n call pj).Kept := by
  unfold KernelState.takeSnapshot
  split
  · rename_i pj ses hs
    obtain ⟨c, hc, hid⟩ := hca.1
    refine h.putCall ⟨⟨c, hc, hid⟩, (List.getElem?_eq_some_iff.1 hc).1, le_rfl, ?_⟩
    have hsto := h.store call.sessionId
    rw [hs] at hsto
    refine hsto.congr fun f => ?_
    exact (Field.sameIn_of_eq rfl rfl rfl f).trans
      (RuntimeSession.sameIn_durableRuntimeSnapshot { ses with promptStates := pj } f)
  · exact h.persistFailed n call

end

theorem publishedAt_publish (s : KernelState) (call : Call) (ses : RuntimeSession) (tkn : Nat) (id : String) :
    (s.publish call ses tkn).publishedAt id = if id = call.sessionId then tkn else s.publishedAt id := by
  unfold publishedAt publish
  simp only [get_insert]
  split <;> rfl

theorem Covered.publish {sss : OrdMap String RuntimeSession} {sequence : Nat} (h : s.Covered sss sequence)
    (hle : sequence ≤ s.durable.events.lastSequence) (call : Call) (ses : RuntimeSession) (tkn : Nat) :
    (s.publish call ses tkn).Covered sss sequence := by
  intro id
  by_cases hid : id = call.sessionId
  · exact .inl ⟨_, mem_append.2 (.inr rfl), hid.symm, Nat.lt_succ_of_le hle⟩
  rw [publishedAt_publish, if_neg hid]
  rcases h id with ⟨e, he, hk, hlt⟩ | hc
  · exact .inl ⟨e, mem_append.2 (.inl he), hk, hlt⟩
  · exact .inr hc

section

variable (h : s.Kept)

include h

/-- An event that is appended in order is the latest of its session and carries what was published before. -/
theorem Kept.publish {ses : RuntimeSession} {tkn : Nat} (hg : s.calls.get n = some call)
    (hs : call.stage = .appending ses tkn) (hor : s.publishedAt call.sessionId ≤ tkn) : (s.publish call ses tkn).Kept ∧
      ∃ c, s.changes[n]? = some c ∧ c.sessionId = call.sessionId ∧
        n < (s.publish call ses tkn).publishedAt call.sessionId := by
  obtain ⟨⟨c, hc, hid⟩, hco⟩ := h.call n call hg
  rw [hs] at hco
  obtain ⟨hn, ht, hca⟩ := hco
  have hraise : ∀ id, s.publishedAt id ≤ (s.publish call ses tkn).publishedAt id := by
    intro id
    rw [publishedAt_publish]
    split
    · rename_i heq
      subst heq
      exact hor
    · exact le_rfl
  refine ⟨?_, c, hc, hid, by rw [publishedAt_publish, if_pos rfl]; exact hn⟩
  exact
    { store := h.store
      call := by
        intro m o hm
        obtain ⟨how, ho⟩ := h.call m o hm
        refine ⟨how, ?_⟩
        cases hcase : o.stage with
        | appending =>
          rw [hcase] at ho
          exact ho
        | starting =>
          rw [hcase] at ho
          exact Nat.lt_of_lt_of_le ho (hraise _)
        | _ => trivial
      returned := by
        intro m hm
        obtain ⟨c', hc', hlt⟩ := h.returned m hm
        exact ⟨c', hc', Nat.lt_of_lt_of_le hlt (hraise _)⟩
      published_le := by
        intro id
        rw [publishedAt_publish]
        split
        · exact ht
        · exact h.published_le id
      latest := by
        intro e he
        rcases he.of_append with rfl | ⟨hne, hl⟩
        · rw [publishedAt_publish, if_pos rfl]
          exact hca
        · rw [publishedAt_publish, if_neg hne]
          exact h.latest e hl
      base := h.base.publish h.base_le call ses tkn
      base_le := Nat.le_succ_of_le h.base_le
      checkpoint_le := Nat.le_succ_of_le h.checkpoint_le
      marker_le := fun marker hmk => Nat.le_succ_of_le (h.marker_le marker hmk)
      tick := h.tick.imp (Nat.le_succ _) fun _ _ hle hco => hco.publish hle call ses tkn }

theorem Kept.gatewayFailed (hca : s.CallCovered n call) : (s.gatewayFailed n call).Kept := by
  unfold KernelState.gatewayFailed
  split
  · split
    · rename_i hs'
      obtain ⟨hk, c', hch⟩ := h.withdraw hs'
      obtain ⟨c, hc, hid⟩ := hca.1
      refine hk.putCall ⟨⟨c, ?_, hid⟩, trivial⟩
      rw [hch, List.getElem?_append_left (List.getElem?_eq_some_iff.1 hc).1]
      exact hc
    · exact h.fail n
  · exact h
  · exact h
  · exact h

theorem Kept.advance (hg : s.calls.get n = some call) {a : Action} (hcallOf : callOf a = some n)
    (ho : s.appendsInOrder a = true) : (s.advance n call a).Kept := by
  have hcall := h.call n call hg
  cases a with
  | subscribed =>
    simp only [KernelState.advance]
    split
    · split
      · exact h.putCall ⟨hcall.1, trivial⟩
      · exact (h.withdraw_getD ..).fail n
    · exact h
  | snapshot m pj =>
    simp only [KernelState.advance]
    split
    · exact h.takeSnapshot hcall pj
    · exact h
  | append =>
    simp only [KernelState.advance]
    split
    · rename_i ses taken hs
      split
      · rename_i hok
        subst hok
        cases hcallOf
        have hpubl : s.publishedAt call.sessionId ≤ taken := by
          obtain ⟨sid, rsn, og, sg⟩ := call
          subst hs
          simpa [appendsInOrder, hg] using ho
        obtain ⟨hk, c, hc, hid, hn⟩ := h.publish hg hs hpubl
        have hret : ∃ c', (s.publish call ses taken).changes[n]? = some c' ∧
            n < (s.publish call ses taken).publishedAt c'.sessionId := ⟨c, hc, by rw [hid]; exact hn⟩
        unfold KernelState.appended
        split
        · exact hk.acknowledge hret
        · exact hk.acknowledge hret
        · exact hk.putCall ⟨hcall.1, hn⟩
        · exact hk.fail n
      · exact h.persistFailed n call
    · exact h
  | gateway =>
    simp only [KernelState.advance]
    split
    · rename_i hs
      split
      · obtain ⟨⟨c, hc, hid⟩, hn⟩ := hcall
        rw [hs] at hn
        exact h.acknowledge ⟨c, hc, by rw [hid]; exact hn⟩
      · exact h.gatewayFailed hcall
    · exact h
  | _ => exact h

/-! ### The steps of the checkpoint scheduler -/

theorem Kept.setTick {tick : Tick} (ht : s.TickCovered tick) : ({ s with tick := tick } : KernelState).Kept :=
  { h with tick := ht.imp le_rfl fun _ _ _ hc => hc }

theorem Kept.setMarker {marker : Nat} (hm : marker ≤ s.durable.events.lastSequence) :
    ({ s with checkpointMarker := some marker } : KernelState).Kept :=
  { h with
    marker_le := by
      intro o heq
      cases heq
      exact hm
    tick := h.tick.imp le_rfl fun _ _ _ hc => hc }

/-- What a tick captures covers everything, since the store carries all changes. -/
theorem Kept.covered_store (sequence : Nat) :
    s.Covered (s.service.sessions.mapValues (fun _ ses => ses.durableRuntimeSnapshot)) sequence := by
  intro id
  right
  rw [get_mapValues]
  have hsto := (h.store id).mono (h.published_le id)
  cases hget : s.service.sessions.get id with
  | none =>
    rw [hget] at hsto
    exact hsto
  | some ses =>
    rw [hget] at hsto
    exact hsto.congr ses.sameIn_durableRuntimeSnapshot

theorem Kept.save {cp : Checkpoint} {second : Bool} (hs : s.tick = .saving cp second) : ({ s with
        durable := s.durable.saveEntityCheckpoint cp
        tick := .measuring cp.sequence second } : KernelState).Kept := by
  have htick := h.tick
  rw [hs] at htick
  obtain ⟨hle, hco⟩ := htick
  obtain ⟨hb, hg⟩ := s.durable.base_saveEntityCheckpoint cp
  exact
    { h with
      latest := by
        intro e he
        refine h.latest e (he.of_discard ?_)
        -- a deleted event is at or below the sequence of the checkpoint, and the kept one of its session is above
        intro e' _ hk hd
        have hkept := (mem_discard.1 he.1).2
        rw [hk] at hd
        simp only [Bool.and_eq_true, decide_eq_true_eq] at hd
        simp only [hd.1.1, hd.2, Bool.true_and, Bool.and_true, decide_eq_false_iff_not] at hkept
        omega
      base := by
        intro id
        rcases hco id with ⟨e, he, hk, hlt⟩ | hc
        · refine .inl ⟨e, mem_discard.2 ⟨he, ?_⟩, hk, Nat.lt_of_le_of_lt hb hlt⟩
          have hnot : ¬ e.sequence ≤ cp.sequence := by omega
          simp [hnot]
        right
        rw [hg id]
        exact hc
      base_le := Nat.le_trans hb hle
      checkpoint_le := hle
      tick := hle }

theorem Kept.advanceTick (a : Action) : (s.advanceTick a).Kept := by
  cases a with
  | tickRead =>
    simp only [KernelState.advanceTick]
    split
    · have hmkr : s.checkpointMarker.getD s.durable.checkpointMarker ≤ s.durable.events.lastSequence := by
        cases hcached : s.checkpointMarker with
        | none => exact h.checkpoint_le
        | some marker => exact h.marker_le marker hcached
      refine (h.setMarker hmkr).setTick ?_
      split
      · exact s.durable.latestSequence_le hmkr
      · trivial
    · exact h
  | tickCapture =>
    simp only [KernelState.advanceTick]
    split
    · rename_i seq second hc
      have htick := h.tick
      rw [hc] at htick
      exact h.setTick ⟨htick, h.covered_store seq⟩
    · exact h
  | tickSave =>
    simp only [KernelState.advanceTick]
    split
    · rename_i hs
      split
      · exact h.save hs
      · exact h.setTick trivial
    · exact h
  | tickMeasure =>
    simp only [KernelState.advanceTick]
    split
    · rename_i hm
      have htick := h.tick
      rw [hm] at htick
      split
      · refine h.setTick ?_
        split
        · trivial
        · exact s.durable.latestSequence_le htick
      · exact (h.setMarker htick).setTick trivial
    · exact h
  | _ => exact h

theorem Kept.step {a : Action} (ho : s.appendsInOrder a = true) : (s.step a).Kept := by
  cases a with
  | start sid op uid now => exact h.begin sid op uid now
  | tickRead due => exact h.advanceTick (.tickRead due)
  | tickCapture hasSlices => exact h.advanceTick (.tickCapture hasSlices)
  | tickSave ok => exact h.advanceTick (.tickSave ok)
  | tickMeasure aboveLimit => exact h.advanceTick (.tickMeasure aboveLimit)
  | _ =>
    simp only [KernelState.step, callOf]
    split
    · rename_i hg
      exact h.advance hg rfl ho
    · exact h

end

theorem run_kept (d : StoredState) (sched : String) {acts : List Action}
    (h : everyStep KernelState.step appendsInOrder (start d sched) acts = true) : ((start d sched).run acts).Kept := by
  exact foldl_induction (P := Kept) (fun _ _ hk ho => hk.step ho) (kept_start d sched) h

/-- In every run whose events are appended in the order of their snapshots, a restart after the run keeps every change
whose call has returned, in each field that no later change of the session wrote. -/
theorem restart_keeps_returned (d : StoredState) (scheduleContinuation : String) (actions : List Action)
    (h : everyStep KernelState.step appendsInOrder (start d scheduleContinuation) actions = true) :
    let s := (start d scheduleContinuation).run actions
    ∀ n ∈ s.returned, ∃ c session, s.changes[n]? = some c ∧
      s.durable.restoreDurableState.get c.sessionId = some session ∧
      ∀ f ∈ c.fields, f.SameIn c.after session ∨ WrittenAfter s.changes n c.sessionId f := by
  intro s n hn
  have hkept : s.Kept := run_kept d scheduleContinuation h
  obtain ⟨c, hc, hlt⟩ := hkept.returned n hn
  obtain ⟨session, hs, hh⟩ := hkept.restored c.sessionId n c hlt hc rfl
  exact ⟨c, session, hc, hs, hh⟩

/-! ### Two calls whose snapshots are appended in the other order -/

/-- A stored Room without triggers that is not pinned. -/
def sampleRoom : RuntimeSession := ⟨"ana", false, none, 0, [], .empty⟩

/-- A checkpoint with the Room, and no events after it. -/
def sampleStored : StoredState where
  events := .empty
  checkpoint := some ⟨0, OrdMap.empty.insert "room" sampleRoom, false⟩
  migrationVerified := true
  sequenced := by decide

def samplePin : Action := .start "room" (.setRoomPinned true) "ana" 5

def sampleTrigger : Action :=
  .start "room" (.createAgentTrigger "agent" (.schedule 60 .every) none (some "go on")) "ana" 6

/-- The pin's event is appended before the trigger's snapshot is appended. -/
def orderedRun : List Action :=
  [samplePin, .snapshot 0 (some .empty), sampleTrigger, .append 0 true, .snapshot 1 (some .empty), .append 1 true]

theorem restart_keeps_returned_orderedRun :
    let s := (start sampleStored "continue").run orderedRun
    s.returned = [0, 1] ∧
      ∀ n ∈ s.returned, ∃ c session, s.changes[n]? = some c ∧
        s.durable.restoreDurableState.get c.sessionId = some session ∧
        ∀ f ∈ c.fields, f.SameIn c.after session ∨ WrittenAfter s.changes n c.sessionId f :=
  ⟨by decide +kernel, restart_keeps_returned sampleStored "continue" orderedRun (by decide +kernel)⟩

/-- The pin's snapshot is taken before the trigger is created and appended after the trigger's. -/
def overtakenRun : List Action :=
  [samplePin, .snapshot 0 (some .empty), sampleTrigger, .snapshot 1 (some .empty), .append 1 true, .append 0 true]

/-- Both calls return, no change follows that of the trigger, and a restart finds the Room without the trigger. -/
theorem restart_loses_trigger :
    let s := (start sampleStored "continue").run overtakenRun
    s.returned = [1, 0] ∧ s.changes.length = 2 ∧
      ∃ c session, s.changes[1]? = some c ∧ s.durable.restoreDurableState.get c.sessionId = some session ∧
        c.after.agentTriggers.length = 1 ∧ session.agentTriggers = [] ∧
        ∃ f ∈ c.fields, ¬ f.SameIn c.after session ∧ ¬ WrittenAfter s.changes 1 c.sessionId f := by
  refine ⟨by decide +kernel, by decide +kernel, ?_⟩
  refine ⟨⟨"room", Field.ofTrigger 393217, ⟨"ana", true, some 5, 0, [.schedule 393217 "agent" "ana" 60 .every .queue
    "go on" 6], .empty⟩⟩, ⟨"ana", true, some 5, 0, [], .empty⟩, by decide +kernel, by decide +kernel, rfl, rfl, ?_⟩
  refine ⟨.trigger 393217, by decide, by decide, ?_⟩
  rintro ⟨j, c, hj, hc, -⟩
  have hlt := (List.getElem?_eq_some_iff.1 hc).1
  have hlen : ((start sampleStored "continue").run overtakenRun).changes.length = 2 := by decide +kernel
  omega

end KernelState

end Chariox.SessionStore
