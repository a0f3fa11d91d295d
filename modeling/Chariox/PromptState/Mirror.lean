import Chariox.PromptState.Turns

/-!
# The mirror of the prompts

A thread changes the owner's prompts of an agent, reads them with `state_parts` and passes what it read to
`mirror_prompt_owner_agent_state`, which writes the session store and appends the event under one lock.  The read happens
before that lock is taken, so other threads run between the three sections.
-/

namespace Chariox.PromptState

/-- The active prompt and the queue. -/
abbrev Parts := Option PromptQueueItem × List PromptQueueItem

def OwnedAgentPromptState.stateParts (s : OwnedAgentPromptState) : Parts := (s.activePrompt, s.queuedPrompts)

/-- Where a thread is.  What it read is kept with the number of changes before the read. -/
inductive Phase
  | idle
  | changed
  | copied (seen : Nat) (parts : Parts)

/-- The owner; the prompts of the store and those of the last `session.prompt_state.updated` event, with the number of
changes before they were read; and the threads. -/
structure MirrorState where
  owner : OwnedAgentPromptState := {}
  changes : Nat := 0
  seen : Nat := 0
  store : Parts := (none, [])
  event : Parts := (none, [])
  threads : Nat → Phase := fun _ => .idle

inductive MirrorStep
  | change (thread : Nat) (op : Operation)
  | copy (thread : Nat)
  | mirror (thread : Nat)

namespace MirrorState

def step (agentId : String) (m : MirrorState) : MirrorStep → MirrorState
  | .change thread op =>
    match m.threads thread with
    | .copied _ _ => m
    | _ =>
      { m with
        owner := PromptState.step agentId m.owner op
        changes := m.changes + 1
        threads := Function.update m.threads thread .changed }
  | .copy thread =>
    match m.threads thread with
    | .changed => { m with threads := Function.update m.threads thread (.copied m.changes m.owner.stateParts) }
    | _ => m
  | .mirror thread =>
    match m.threads thread with
    | .copied seen parts =>
      { m with seen := seen, store := parts, event := parts, threads := Function.update m.threads thread .idle }
    | _ => m

/-- A thread mirrors only prompts that were read no earlier than the mirrored ones. -/
def inOrder (m : MirrorState) : MirrorStep → Bool
  | .mirror thread =>
    match m.threads thread with
    | .copied seen _ => decide (m.seen ≤ seen)
    | _ => true
  | _ => true

/-- What was read after the last change is what the owner has, and it has been mirrored or some thread is still to mirror
it. -/
structure Follows (m : MirrorState) : Prop where
  copies : ∀ thread seen parts, m.threads thread = .copied seen parts →
    seen ≤ m.changes ∧ (seen = m.changes → parts = m.owner.stateParts)
  bound : m.seen ≤ m.changes
  mirrored : m.seen = m.changes → m.store = m.owner.stateParts
  logged : m.event = m.store
  pending : m.seen = m.changes ∨
    ∃ thread, m.threads thread = .changed ∨ ∃ parts, m.threads thread = .copied m.changes parts

variable {agentId : String} {m : MirrorState} {act : MirrorStep}

theorem Follows.step (h : m.Follows) (hok : m.inOrder act = true) : (m.step agentId act).Follows := by
  obtain ⟨hc, hbd, hm, hl, hp⟩ := h
  cases act with
  | change th op =>
    simp only [MirrorState.step]
    split
    · exact ⟨hc, hbd, hm, hl, hp⟩
    refine ⟨?_, by simp only; omega, by simp only; omega, hl, .inr ⟨th, .inl (by simp)⟩⟩
    intro o seen pts hph
    by_cases hoth : o = th
    · simp [hoth] at hph
    have hcopy := hc o seen pts (by simpa [hoth] using hph)
    simp only
    omega
  | copy th =>
    simp only [MirrorState.step]
    split
    · refine ⟨?_, hbd, hm, hl, .inr ⟨th, .inr ⟨m.owner.stateParts, by simp⟩⟩⟩
      intro o seen pts hph
      by_cases hoth : o = th
      · simp only [hoth, Function.update_self, Phase.copied.injEq] at hph
        exact ⟨by simp only; omega, fun _ => hph.2.symm⟩
      · exact hc o seen pts (by simpa [hoth] using hph)
    · exact ⟨hc, hbd, hm, hl, hp⟩
  | mirror th =>
    simp only [MirrorState.step]
    split
    · rename_i seen pts hph
      have hlat : m.seen ≤ seen := by simpa [inOrder, hph] using hok
      have hread := hc th seen pts hph
      refine ⟨?_, hread.1, hread.2, rfl, ?_⟩
      · intro o seen' pts' hco
        by_cases hoth : o = th
        · simp [hoth] at hco
        · exact hc o seen' pts' (by simpa [hoth] using hco)
      · rcases hp with hs | ⟨o, hph'⟩
        · exact .inl (by simp only; omega)
        by_cases hoth : o = th
        · rw [hoth, hph] at hph'
          rcases hph' with hph' | ⟨pts', hph'⟩
          · cases hph'
          · exact .inl (Phase.copied.inj hph').1
        · exact .inr ⟨o, by simpa [hoth] using hph'⟩
    · exact ⟨hc, hbd, hm, hl, hp⟩

/-- When no thread mirrors prompts read before the mirrored ones, the store and the last event have the owner's prompts
as soon as every call has returned. -/
theorem mirror_follows_owner (agentId : String) (actions : List MirrorStep)
    (hok : everyStep (step agentId) inOrder {} actions = true)
    (hdone : ∀ thread, (actions.foldl (step agentId) {}).threads thread = .idle) :
    (actions.foldl (step agentId) {}).store = (actions.foldl (step agentId) {}).owner.stateParts ∧
      (actions.foldl (step agentId) {}).event = (actions.foldl (step agentId) {}).owner.stateParts := by
  have hst : Follows {} := ⟨by simp, Nat.le_refl 0, fun _ => rfl, rfl, .inl rfl⟩
  have h : Follows (actions.foldl (step agentId) {}) :=
    foldl_induction (P := Follows) (fun _ _ h hok => h.step hok) hst hok
  have hseen := h.pending
  simp only [hdone, reduceCtorEq, exists_const, or_false] at hseen
  exact ⟨h.mirrored hseen, h.logged.trans (h.mirrored hseen)⟩

def orderedCalls : List MirrorStep :=
  [.change 0 (submission "first" false), .copy 0, .change 1 (submission "second" false), .mirror 0, .copy 1, .mirror 1]

theorem mirror_follows_ordered_calls :
    (orderedCalls.foldl (step "agent") {}).store = (orderedCalls.foldl (step "agent") {}).owner.stateParts ∧
      (orderedCalls.foldl (step "agent") {}).event = (orderedCalls.foldl (step "agent") {}).owner.stateParts :=
  mirror_follows_owner "agent" orderedCalls (by decide) fun
    | 0 => rfl
    | 1 => rfl
    | _ + 2 => rfl

/-- The first thread reads before the second change and mirrors after it. -/
def overtakenCalls : List MirrorStep :=
  [.change 0 (submission "first" false), .copy 0, .change 1 (submission "second" false), .copy 1, .mirror 1, .mirror 0]

theorem mirror_loses_prompt :
    let m := overtakenCalls.foldl (step "agent") {}
    (∀ thread, m.threads thread = .idle) ∧ m.owner.queuedPrompts.map (·.id) = ["second"] ∧
      m.store.2 = [] ∧ m.event.2 = [] :=
  ⟨fun
    | 0 => rfl
    | 1 => rfl
    | _ + 2 => rfl, by decide, by decide, by decide⟩

end MirrorState

end Chariox.PromptState
