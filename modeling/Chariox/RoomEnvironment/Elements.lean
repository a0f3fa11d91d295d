import Chariox.RoomEnvironment.Tabs

/-!
# Element references

Ids handed out for the elements of a page.  A reference belongs to the tab, runtime generation, document revision
and controller node it was registered for, and is dropped as soon as that document is not current any more.
-/

namespace Chariox

structure EnvironmentElementTarget where
  tabId : String
  runtimeGeneration : Nat
  documentRevision : Nat
  controllerNodeRef : String
  deriving DecidableEq, Repr

/-- The derived order of `ElementIdentity`: field by field. -/
abbrev ElementIdentity := String ×ₗ Nat ×ₗ Nat ×ₗ String

def EnvironmentElementTarget.toIdentity (target : EnvironmentElementTarget) : ElementIdentity :=
  toLex (target.tabId, toLex (target.runtimeGeneration, toLex (target.documentRevision, target.controllerNodeRef)))

structure ElementReferenceRegistry where
  targetByReference : OrdMap String EnvironmentElementTarget
  referenceByIdentity : OrdMap ElementIdentity String
  nextSequence : Nat
  deriving DecidableEq

namespace ElementReferenceRegistry

def new : ElementReferenceRegistry := ⟨.empty, .empty, 1⟩

def isCurrent (tabs : TabRegistry) (currentGeneration : Nat) (target : EnvironmentElementTarget) : Bool :=
  (tabs.validateReference target.runtimeGeneration currentGeneration target.tabId target.documentRevision).isOk

/-- Drop one reference together with the entry of its identity. -/
def dropReference (r : ElementReferenceRegistry) (referenceId : String) : ElementReferenceRegistry :=
  match r.targetByReference.get referenceId with
  | none => r
  | some target =>
    { r with
      targetByReference := r.targetByReference.remove referenceId
      referenceByIdentity := r.referenceByIdentity.remove target.toIdentity }

def retainCurrent (r : ElementReferenceRegistry) (tabs : TabRegistry) (currentGeneration : Nat) :
    ElementReferenceRegistry :=
  ((r.targetByReference.entries.filter (fun e => !isCurrent tabs currentGeneration e.2)).map Prod.fst).foldl
    dropReference r

/-- Register one node of the current document, or find the reference it already has. -/
def registerNode (tabId : String) (runtimeGeneration documentRevision : Nat)
    (s : ElementReferenceRegistry × OrdMap String String) (controllerNodeRef : String) :
    ElementReferenceRegistry × OrdMap String String :=
  let target : EnvironmentElementTarget := { tabId, runtimeGeneration, documentRevision, controllerNodeRef }
  match s.1.referenceByIdentity.get target.toIdentity with
  | some existing => (s.1, s.2.insert controllerNodeRef existing)
  | none =>
    let referenceId := "element-" ++ toString s.1.nextSequence
    ({ targetByReference := s.1.targetByReference.insert referenceId target
       referenceByIdentity := s.1.referenceByIdentity.insert target.toIdentity referenceId
       nextSequence := satSucc s.1.nextSequence },
      s.2.insert controllerNodeRef referenceId)

def register (r : ElementReferenceRegistry) (tabs : TabRegistry) (currentGeneration : Nat) (tabId : String)
    (runtimeGeneration documentRevision : Nat) (controllerNodeRefs : List String) :
    ElementReferenceRegistry × Except EnvironmentError (OrdMap String String) :=
  match tabs.validateReference runtimeGeneration currentGeneration tabId documentRevision with
  | .error e => (r, .error e)
  | .ok () =>
    let registered := controllerNodeRefs.foldl (registerNode tabId runtimeGeneration documentRevision)
      (r.retainCurrent tabs currentGeneration, .empty)
    (registered.1, .ok registered.2)

def clear (r : ElementReferenceRegistry) : ElementReferenceRegistry :=
  { r with targetByReference := .empty, referenceByIdentity := .empty }

end ElementReferenceRegistry

end Chariox
