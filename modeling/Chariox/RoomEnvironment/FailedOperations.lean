import Chariox.RoomEnvironment.Runs
import Chariox.Lib.Except

/-!
# A failed operation changes nothing

Every operation of the room makes its checks before its first change: when it returns an error, the whole room is as it
was before the call.  The operations of the ledger and of the element references do the same, so an operation of the
room that fails because of one of them fails before its own changes.
-/

namespace Chariox

/-- The error that the operation returns. -/
def RoomOp.error (e : RoomEnvironment) : RoomOp → Option EnvironmentError
  | transitionTo next => failure (e.transitionTo next)
  | startRuntime clock => failure (e.startRuntime clock)
  | resetRuntime clock => failure (e.resetRuntime clock)
  | invalidateRuntimeAfterProcessLoss clock => failure (e.invalidateRuntimeAfterProcessLoss clock)
  | recordNavigation tabId url title => failure (e.recordNavigation tabId url title)
  | closeTab tabId => failure (e.closeTab tabId)
  | registerElementReferences tabId generation revision refs =>
    failure (e.registerElementReferences tabId generation revision refs)
  | registerActor actor => failure (e.registerActor actor)
  | reconcileActors actors => failure (e.reconcileActors actors)
  | setActorPresence actorId presence => failure (e.setActorPresence actorId presence)
  | updatePointer actorId generation revision position => failure (e.updatePointer actorId generation revision position)
  | updatePointerAsActor actor generation revision position =>
    failure (e.updatePointerAsActor actor generation revision position)
  | updateViewport actorId revision replacement => failure (e.updateViewport actorId revision replacement)
  | updateViewportAsActor actor revision replacement => failure (e.updateViewportAsActor actor revision replacement)
  | setBrowserBarVisibleAsActor actor visible => failure (e.setBrowserBarVisibleAsActor actor visible)
  | submitAction request now => failure (e.submitAction request now)
  | finishAction clock actionId terminal => failure (e.finishAction clock actionId terminal)
  | cancelAction clock actorId actionId => failure (e.cancelAction clock actorId actionId)
  | cancelActionAsActor clock actor actionId => failure (e.cancelActionAsActor clock actor actionId)
  | requestTakeover clock actorId target => failure (e.requestTakeover clock actorId target)
  | requestTakeoverAsActor clock actor target => failure (e.requestTakeoverAsActor clock actor target)
  | releaseInput actorId target => failure (e.releaseInput actorId target)
  | _ => none

open Atomic

/-! ### The ledger -/

namespace EnvironmentActionLedger

variable {l : Ledger} {clock : Clock} {actorId actionId : String} {target : InputTarget}
  {actors : ActorMap} {tabs : TabRegistry}

theorem submit_atomic {req : Request} {life : EnvironmentLifecycle} {gen now : Nat} :
    Atomic l (l.submit req life gen actors tabs now) := by
  rcases submit_cases l req life gen actors tabs now with ⟨hs, -⟩ | ⟨q, -, ha, -⟩
  · exact fun _ _ => hs
  · rw [ha]
    exact done

theorem finish_atomic {term : EnvironmentActionTerminal} : Atomic l (l.finish clock actionId term) := by
  unfold finish
  split
  · exact refused
  dsimp only
  repeat' split <;> simp

theorem cancelAsActor_atomic : Atomic l (l.cancelAsActor clock actorId actionId actors) := by
  unfold cancelAsActor
  (repeat' split) <;> simp

theorem requestTakeover_atomic : Atomic l (l.requestTakeover clock actorId target actors tabs) := by
  unfold requestTakeover
  (repeat' split) <;> simp

theorem release_atomic : Atomic l (l.release actorId target) := by
  unfold release
  (repeat' split) <;> simp

end EnvironmentActionLedger

/-! ### The tabs -/

theorem TabRegistry.recordNavigation_atomic (r : TabRegistry) {tabId url title : String} :
    Atomic r (r.recordNavigation tabId url title) := by
  unfold recordNavigation
  split <;> simp

theorem TabRegistry.close_atomic (r : TabRegistry) {tabId : String} : Atomic r (r.close tabId) := by
  unfold close
  split <;> simp

/-! ### The room -/

namespace RoomEnvironment

open EnvironmentActionLedger

variable (e : Room)

theorem registerActor_atomic (ac : EnvironmentActor) : Atomic e (e.registerActor ac) := by
  unfold registerActor
  (repeat' split) <;> simp

variable {e} {α β : Type} {error : EnvironmentError}

theorem join_refused {ac : EnvironmentActor} (h : (e.registerActor ac).2 = .error error) :
    Atomic e ((e.registerActor ac).1, (.error error : Except EnvironmentError β)) := by
  rw [registerActor_atomic e ac error h]
  exact refused

/-- A call of the ledger that fails leaves the ledger as it was, and with it the room. -/
theorem ledger_refused {r : Ledger × Except EnvironmentError α} (ha : Atomic e.actionLedger r)
    (h : r.2 = .error error) :
    Atomic e ({ e with actionLedger := r.1 }, (.error error : Except EnvironmentError β)) := by
  rw [ha error h]
  exact refused

/-- So does a call of the tab registry. -/
theorem tabs_refused {r : TabRegistry × Except EnvironmentError α} (ha : Atomic e.tabs r) (h : r.2 = .error error) :
    Atomic e ({ e with tabs := r.1 }, (.error error : Except EnvironmentError β)) := by
  rw [ha error h]
  exact refused

/-- In every room, an operation that returns an error leaves the room as it was. -/
theorem failed_operation_changes_nothing (op : RoomOp) (h : op.error e = some error) : op.apply e = e := by
  cases op with
  | transitionTo =>
    refine Atomic.eq ?_ h
    unfold transitionTo
    split <;> simp
  | startRuntime =>
    refine Atomic.eq ?_ h
    unfold startRuntime
    repeat' split <;> simp
  | resetRuntime =>
    refine Atomic.eq ?_ h
    unfold resetRuntime
    split <;> simp
  | recordNavigation =>
    refine Atomic.eq ?_ h
    unfold recordNavigation
    dsimp only
    split
    · exact tabs_refused e.tabs.recordNavigation_atomic ‹_›
    · exact done
  | closeTab =>
    refine Atomic.eq ?_ h
    unfold closeTab
    dsimp only
    split
    · exact tabs_refused e.tabs.close_atomic ‹_›
    · exact done
  | registerElementReferences =>
    refine Atomic.eq ?_ h
    unfold registerElementReferences ElementReferenceRegistry.register
    split <;> simp
  | registerActor ac => exact (registerActor_atomic e ac).eq h
  | reconcileActors =>
    refine Atomic.eq ?_ h
    unfold reconcileActors
    repeat' split <;> simp
  | setActorPresence =>
    refine Atomic.eq ?_ h
    unfold setActorPresence
    split <;> simp
  | updatePointer =>
    refine Atomic.eq ?_ h
    unfold updatePointer
    (repeat' split) <;> simp
  | updatePointerAsActor =>
    refine Atomic.eq ?_ h
    unfold updatePointerAsActor
    dsimp only
    (repeat' split) <;> simp [join_refused, *]
  | updateViewport =>
    refine Atomic.eq ?_ h
    unfold updateViewport
    (repeat' split) <;> simp
  | updateViewportAsActor =>
    refine Atomic.eq ?_ h
    unfold updateViewportAsActor
    dsimp only
    (repeat' split) <;> simp [join_refused, *]
  | setBrowserBarVisibleAsActor =>
    refine Atomic.eq ?_ h
    unfold setBrowserBarVisibleAsActor
    dsimp only
    (repeat' split) <;> simp [join_refused, *]
  | submitAction =>
    refine Atomic.eq ?_ h
    unfold submitAction
    dsimp only
    split
    · exact ledger_refused submit_atomic ‹_›
    · exact done
  | finishAction =>
    refine Atomic.eq ?_ h
    unfold finishAction
    dsimp only
    split
    · exact ledger_refused finish_atomic ‹_›
    · exact done
  | cancelAction =>
    refine Atomic.eq ?_ h
    unfold cancelAction
    dsimp only
    split
    · exact ledger_refused cancelAsActor_atomic ‹_›
    · exact done
  | cancelActionAsActor =>
    refine Atomic.eq ?_ h
    unfold cancelActionAsActor
    dsimp only
    (repeat' split) <;> simp
  | requestTakeover =>
    refine Atomic.eq ?_ h
    unfold requestTakeover
    dsimp only
    split
    · exact ledger_refused requestTakeover_atomic ‹_›
    · exact done
  | requestTakeoverAsActor =>
    refine Atomic.eq ?_ h
    unfold requestTakeoverAsActor
    dsimp only
    (repeat' split) <;> simp
  | releaseInput =>
    refine Atomic.eq ?_ h
    unfold releaseInput
    dsimp only
    split
    · exact ledger_refused release_atomic ‹_›
    · exact done
  | _ => cases h

/-- An agent asks for the desktop that a person awaits. -/
theorem failed_takeover_changes_nothing : ∃ room,
    newWithCapacities "session" "environment" ⟨1280, 720, 1, 1280, 720, 1, none⟩ 16 4 = .ok room ∧
      let e := room.run awaitedDesktop
      let op := RoomOp.requestTakeover (fun _ => 9) "agent" .desktop
      op.error e = some (.humanActorRequired "agent") ∧ op.apply e = e := by
  refine ⟨_, rfl, ?_, ?_⟩
  · decide +kernel
  · exact failed_operation_changes_nothing _ (show _ = some (.humanActorRequired "agent") by decide +kernel)

end RoomEnvironment

end Chariox
