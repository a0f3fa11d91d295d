import Chariox.Lib.OrdMap
import Chariox.Lib.Runs

/-!
# Event id allocators on one counter file

An allocator reserves blocks of event ids by raising the counter in a file, and hands out the ids of its own position.
Its construction reserves a first block without the lock of the path; a further block is reserved under the lock of the
path in its process.  A reservation reads the counter, writes a temporary file next to it and renames that file.  The
allocators and the calls of all processes take these steps in any order, and a process may crash at any point.

The position of an allocator does not follow the block it reserves: when the counter was raised by another allocator in
the meantime, the position walks on through the ids that the other one reserved.  Ids are distinct as long as no two
reservations overlap and an allocator reserves a further block only while the counter is the one it wrote itself.
-/

namespace Chariox.EventLog

open OrdMap List

structure BlockSize where
  size : Nat
  pos : 1 ≤ size

/-- An allocator: the process it lives in, its block size, its position and the end of its last block.  The id before
its first block, the end of the last block it wrote to the file and whether its process runs are history. -/
structure EventIdAllocator where
  process : Nat
  block : BlockSize
  nextEventId : Nat
  reservedUntil : Nat
  first : Nat
  claimed : Nat
  alive : Bool

structure CounterFiles where
  counter : Option Nat
  tmp : Option Nat
  deriving DecidableEq, Repr

def CounterFiles.high (files : CounterFiles) : Nat := files.counter.getD 0

/-- A step of `reserve_after`. -/
inductive Reservation
  | read (minimumPreviousEventId : Nat)
  | write (next : Nat)
  | rename (next : Nat)
  deriving DecidableEq, Repr

inductive ReservationProgress
  | going (reservation : Reservation)
  | done (next : Nat)
  | failed
  deriving DecidableEq, Repr

/-- The next step of `reserve_after`; `ok` is false when the file operation fails. -/
def Reservation.step (block : BlockSize) (files : CounterFiles) (ok : Bool) :
    Reservation → CounterFiles × ReservationProgress
  | .read minimumPreviousEventId =>
    let next := max files.high minimumPreviousEventId + block.size
    if ok && decide (next < 2 ^ 64) then (files, .going (.write next)) else (files, .failed)
  | .write next => if ok then ({ files with tmp := some next }, .going (.rename next)) else (files, .failed)
  | .rename next =>
    match ok, files.tmp with
    | true, some value => (⟨some value, none⟩, .done next)
    | _, _ => (files, .failed)

/-- Where a call of `next` is. -/
inductive NextStage
  | fetch
  | check (eventId : Nat)
  | lock (eventId : Nat)
  | recheck (eventId : Nat)
  | reserve (eventId : Nat) (reservation : Reservation)
  | store (reservedUntil : Nat)
  deriving DecidableEq, Repr

inductive IdTask
  | construct (process : Nat) (block : BlockSize) (reservation : Reservation)
  | next (allocator : Nat) (stage : NextStage)

/-- All processes on one counter path.  An allocator has the number of the task that constructed it.  The ids that were
returned, with the allocator that returned them, are history. -/
structure IdSystem where
  files : CounterFiles
  allocators : OrdMap Nat EventIdAllocator
  tasks : OrdMap Nat IdTask
  locks : OrdMap Nat Nat
  created : Nat
  returned : List (Nat × Nat)

inductive IdAction
  | construct (process : Nat) (block : BlockSize)
  | call (allocator : Nat)
  | step (task : Nat) (ok : Bool)
  | crash (process : Nat)

namespace IdSystem

/-- No allocator yet; the counter may have been left by earlier runs. -/
def new (counter : Option Nat) : IdSystem := ⟨⟨counter, none⟩, .empty, .empty, .empty, 0, []⟩

variable (s : IdSystem)

def setTask (n : Nat) (task : IdTask) : IdSystem := { s with tasks := s.tasks.insert n task }

def dropTask (n : Nat) : IdSystem := { s with tasks := s.tasks.remove n }

def setAllocator (a : Nat) (allocator : EventIdAllocator) : IdSystem :=
  { s with allocators := s.allocators.insert a allocator }

def setFiles (files : CounterFiles) : IdSystem := { s with files := files }

def unlock (process : Nat) : IdSystem := { s with locks := s.locks.remove process }

/-- The call returns an id. -/
def give (n a eventId : Nat) : IdSystem := { s.dropTask n with returned := s.returned ++ [(a, eventId)] }

/-- The next step of `EventIdAllocator::persistent`. -/
def advanceConstruct (n process : Nat) (block : BlockSize) (reservation : Reservation) (ok : Bool) : IdSystem :=
  match reservation.step block s.files ok with
  | (files, .going reservation) => (s.setFiles files).setTask n (.construct process block reservation)
  | (files, .failed) => (s.setFiles files).dropTask n
  | (files, .done next) =>
    ((s.setFiles files).dropTask n).setAllocator n
      { process := process
        block := block
        nextEventId := next - block.size + 1
        reservedUntil := next
        first := next - block.size
        claimed := next
        alive := true }

/-- The next step of `EventIdAllocator::next` on the allocator `a`. -/
def advanceNext (n a : Nat) (allocator : EventIdAllocator) (ok : Bool) : NextStage → IdSystem
  | .fetch =>
    (s.setAllocator a { allocator with nextEventId := (allocator.nextEventId + 1) % 2 ^ 64 }).setTask n
      (.next a (.check allocator.nextEventId))
  | .check eventId =>
    if eventId ≤ allocator.reservedUntil then s.give n a eventId else s.setTask n (.next a (.lock eventId))
  | .lock eventId =>
    if s.locks.contains allocator.process then s
    else { s with locks := s.locks.insert allocator.process n }.setTask n (.next a (.recheck eventId))
  | .recheck eventId =>
    if eventId ≤ allocator.reservedUntil then (s.unlock allocator.process).give n a eventId
    else s.setTask n (.next a (.reserve eventId (.read (eventId - 1))))
  | .reserve eventId reservation =>
    match reservation.step allocator.block s.files ok with
    | (files, .going reservation) => (s.setFiles files).setTask n (.next a (.reserve eventId reservation))
    | (files, .failed) => ((s.setFiles files).unlock allocator.process).dropTask n
    | (files, .done next) =>
      ((s.setFiles files).setAllocator a { allocator with claimed := next }).setTask n (.next a (.store next))
  | .store reservedUntil =>
    ((s.setAllocator a { allocator with reservedUntil := reservedUntil }).unlock allocator.process).setTask n
      (.next a .fetch)

def processOf : IdTask → Option Nat
  | .construct process _ _ => some process
  | .next a _ => (s.allocators.get a).map EventIdAllocator.process

def step (s : IdSystem) : IdAction → IdSystem
  | .construct process block =>
    { s.setTask s.created (.construct process block (.read 0)) with created := s.created + 1 }
  | .call a =>
    match s.allocators.get a with
    | some allocator =>
      if allocator.alive then { s.setTask s.created (.next a .fetch) with created := s.created + 1 } else s
    | none => s
  | .step n ok =>
    match s.tasks.get n with
    | some (.construct process block reservation) => s.advanceConstruct n process block reservation ok
    | some (.next a stage) =>
      match s.allocators.get a with
      | some allocator => s.advanceNext n a allocator ok stage
      | none => s
    | none => s
  | .crash process =>
    { s with
      allocators := s.allocators.mapValues (fun _ allocator =>
        if allocator.process = process then { allocator with alive := false } else allocator)
      tasks := s.tasks.retain (fun _ task => s.processOf task != some process)
      locks := s.locks.remove process }

def run (counter : Option Nat) (actions : List IdAction) : IdSystem := actions.foldl step (new counter)

end IdSystem

/-! ### The condition -/

/-- The value that a reservation has computed and not yet put into the counter file. -/
def Reservation.pending : Reservation → Option Nat
  | .read _ => none
  | .write next | .rename next => some next

namespace IdTask

def reservation : IdTask → Option Reservation
  | .construct _ _ reservation => some reservation
  | .next _ (.reserve _ reservation) => some reservation
  | .next _ _ => none

/-- The task has read the counter and not yet replaced it. -/
def isWriting (task : IdTask) : Bool := (task.reservation.bind Reservation.pending).isSome

/-- The id that the call has taken and not returned, with its allocator. -/
def holds : IdTask → Option (Nat × Nat)
  | .next a (.check eventId) | .next a (.lock eventId) | .next a (.recheck eventId) | .next a (.reserve eventId _) =>
    some (a, eventId)
  | .next _ .fetch | .next _ (.store _) | .construct .. => none

theorem eq_of_holds {a b eid : Nat} {sg : NextStage} (h : (next a sg).holds = some (b, eid)) : b = a := by
  cases sg <;> cases h <;> rfl

end IdTask

namespace IdSystem

/-- No reservation is between its read of the counter and its rename. -/
def noneWriting (s : IdSystem) : Bool := s.tasks.values.all (fun task => !task.isWriting)

/-- A reservation reads the counter only when no other reservation is under way, an allocator reserves a further block
only when the counter is at most what it has reserved itself, and no position passes the last 64-bit number. -/
def orderly (s : IdSystem) : IdAction → Bool
  | .step n _ =>
    match s.tasks.get n with
    | some (.construct _ _ (.read _)) => s.noneWriting
    | some (.next a (.reserve _ (.read _))) =>
      s.noneWriting && (s.allocators.get a).any (fun allocator => decide (s.files.high ≤ allocator.claimed))
    | some (.next a .fetch) => (s.allocators.get a).all (fun allocator => decide (allocator.nextEventId + 1 < 2 ^ 64))
    | _ => true
  | _ => true

/-- A call of the allocator begins only when no other call of it is under way. -/
def oneAtATime (a : Nat) (s : IdSystem) : IdAction → Bool
  | .call b => b != a || s.tasks.values.all (fun task =>
      match task with
      | .next c _ => c != a
      | .construct .. => true)
  | _ => true

/-! ### The invariant -/

/-- What is known of a reservation: it will raise the counter, and the temporary file is its own. -/
def Reserving (s : IdSystem) (next : Nat) (reservation : Reservation) : Prop :=
  reservation.pending = some next → s.files.high < next ∧ (reservation = .rename next → s.files.tmp = some next)

/-- What is known of a task. -/
def TaskOk (s : IdSystem) (n : Nat) : IdTask → Prop
  | .construct _ block reservation =>
    s.allocators.get n = none ∧ (∀ minimum, reservation = .read minimum → minimum = 0) ∧
      ∀ next, s.Reserving next reservation ∧ (reservation.pending = some next → s.files.high + block.size = next)
  | .next a stage =>
    ∃ allocator, s.allocators.get a = some allocator ∧
      (∀ eventId, (IdTask.next a stage).holds = some (a, eventId) →
        allocator.first < eventId ∧ eventId < allocator.nextEventId ∧ (a, eventId) ∉ s.returned) ∧
      (∀ reservedUntil, stage = .store reservedUntil → reservedUntil ≤ allocator.claimed) ∧
      ∀ eventId reservation next, stage = .reserve eventId reservation →
        s.Reserving next reservation ∧ (reservation.pending = some next → s.files.high ≤ allocator.claimed)

structure Distinct (s : IdSystem) : Prop where
  allocator : ∀ a x, s.allocators.get a = some x →
    x.first < x.nextEventId ∧ x.first < x.claimed ∧ x.reservedUntil ≤ x.claimed ∧ x.claimed ≤ s.files.high
  apart : ∀ a b x y, s.allocators.get a = some x → s.allocators.get b = some y → a ≠ b →
    x.claimed ≤ y.first ∨ y.claimed ≤ x.first
  task : ∀ n task, s.tasks.get n = some task → s.TaskOk n task
  holds : ∀ n m t t' x, s.tasks.get n = some t → s.tasks.get m = some t' → t.holds = some x → t'.holds = some x → n = m
  writing : ∀ n m t t', s.tasks.get n = some t → s.tasks.get m = some t' → t.isWriting = true → t'.isWriting = true →
    n = m
  returned : ∀ a i, (a, i) ∈ s.returned → ∃ x, s.allocators.get a = some x ∧ x.first < i ∧ i ≤ x.claimed ∧
    i < x.nextEventId
  nodup : s.returned.Nodup
  created : ∀ n, s.created ≤ n → s.allocators.get n = none ∧ s.tasks.get n = none

theorem distinct_new (counter : Option Nat) : (new counter).Distinct where
  allocator := nofun
  apart := nofun
  task := nofun
  holds := nofun
  writing := nofun
  returned := nofun
  nodup := nodup_nil
  created := fun _ _ => ⟨rfl, rfl⟩

variable {s : IdSystem} {n : Nat}

theorem noneWriting_iff : s.noneWriting = true ↔ ∀ n task, s.tasks.get n = some task → task.isWriting = false := by
  simp only [noneWriting, all_eq_true, mem_values]
  constructor
  · intro h n task hg
    simpa using h task ⟨n, hg⟩
  · rintro h task ⟨n, hg⟩
    simpa using h n task hg

/-! ### Changes of one task -/

variable {x : EventIdAllocator} {task : IdTask} {reservation : Reservation} {sg : NextStage} {eventId : Nat}

section

variable (h : s.Distinct)

include h

/-- A task goes on: it takes only an id that no other task holds, and writes only where it wrote before or where nobody
else does. -/
theorem Distinct.setTask {old : IdTask} (ho : s.tasks.get n = some old) (hok : s.TaskOk n task)
    (hh : ∀ x, task.holds = some x → old.holds = some x ∨ ∀ m t, s.tasks.get m = some t → t.holds ≠ some x)
    (hwr : task.isWriting = true → old.isWriting = true ∨ s.noneWriting = true) : (s.setTask n task).Distinct := by
  refine { h with
    task := ?_
    holds := fun m k t t' x => sole_insert (fun m k t t' => h.holds m k t t' x) ?_
    writing := fun m k t t' => sole_insert h.writing ?_
    created := ?_ }
  · exact forall_insert hok h.task
  · exact fun hx => (hh x hx).imp_left fun hwa => ⟨old, ho, hwa⟩
  · exact fun hw => (hwr hw).imp (fun hwa => ⟨old, ho, hwa⟩)
      fun hn m t hm => Bool.not_eq_true _ ▸ noneWriting_iff.1 hn m t hm
  · intro m hm
    obtain ⟨ha, ht⟩ := h.created m hm
    have hne : m ≠ n := by
      rintro rfl
      exact nomatch ho ▸ ht
    exact ⟨ha, (get_insert_of_ne _ hne _).trans ht⟩

theorem Distinct.shrink {tasks : OrdMap Nat IdTask}
    (hs : ∀ m t, tasks.get m = some t → s.tasks.get m = some t) : ({ s with tasks := tasks } : IdSystem).Distinct :=
  { h with
    task := fun m t hm => h.task m t (hs m t hm)
    holds := fun m k t t' x hm hk => h.holds m k t t' x (hs m t hm) (hs k t' hk)
    writing := fun m k t t' hm hk => h.writing m k t t' (hs m t hm) (hs k t' hk)
    created := by
      intro m hm
      obtain ⟨ha, ht⟩ := h.created m hm
      refine ⟨ha, ?_⟩
      cases hget : tasks.get m with
      | none => rfl
      | some t =>
        rw [hs m t hget] at ht
        cases ht }

theorem Distinct.dropTask (n : Nat) : (s.dropTask n).Distinct :=
  h.shrink fun _ _ hm => (of_get_remove hm).2

theorem Distinct.setLocks (locks : OrdMap Nat Nat) : ({ s with locks := locks } : IdSystem).Distinct :=
  { h with }

theorem Distinct.create (hok : s.TaskOk s.created task) (hh : task.holds = none) (hw : task.isWriting = false) :
    ({ s.setTask s.created task with created := s.created + 1 } : IdSystem).Distinct := by
  refine { h with
    task := ?_
    holds := fun m k t t' x => sole_insert (fun m k t t' => h.holds m k t t' x) (by simp [hh])
    writing := fun m k t t' => sole_insert h.writing (by simp [hw])
    created := ?_ }
  · exact forall_insert hok h.task
  intro m hm
  have hle : s.created + 1 ≤ m := hm
  obtain ⟨ha, ht⟩ := h.created m (by omega)
  exact ⟨ha, (get_insert_of_ne _ (by omega) _).trans ht⟩

/-! ### Changes of one allocator -/

/-- Allocators keep their first blocks and go forward, and none appears where a task may still construct one. -/
theorem Distinct.replaceAllocators {als : OrdMap Nat EventIdAllocator}
    (hf : ∀ b y, s.allocators.get b = some y → ∃ y', als.get b = some y' ∧ y'.first = y.first ∧
      y.claimed ≤ y'.claimed ∧ y.nextEventId ≤ y'.nextEventId)
    (hn : ∀ m, s.allocators.get m = none → s.created ≤ m ∨ (s.tasks.get m).isSome → als.get m = none)
    (ha : ∀ b y, als.get b = some y →
      y.first < y.nextEventId ∧ y.first < y.claimed ∧ y.reservedUntil ≤ y.claimed ∧ y.claimed ≤ s.files.high)
    (hap : ∀ b c y z, als.get b = some y → als.get c = some z → b ≠ c →
      y.claimed ≤ z.first ∨ z.claimed ≤ y.first) : ({ s with allocators := als } : IdSystem).Distinct :=
  { h with
    allocator := ha
    apart := hap
    task := by
      intro m t hm
      have hok := h.task m t hm
      cases t with
      | construct => exact ⟨hn m hok.1 (.inr (by rw [hm]; rfl)), hok.2⟩
      | next b =>
        obtain ⟨y, hb, hid, hs, hr⟩ := hok
        obtain ⟨y', hb', hyf, hyc, hyn⟩ := hf b y hb
        refine ⟨y', hb', ?_, ?_, ?_⟩
        · intro eid heq
          obtain ⟨h1, h2, h3⟩ := hid eid heq
          exact ⟨by omega, by omega, h3⟩
        · intro ru heq
          exact Nat.le_trans (hs ru heq) hyc
        · intro eid rsv next heq
          obtain ⟨hrs, hle⟩ := hr eid rsv next heq
          exact ⟨hrs, fun hp => Nat.le_trans (hle hp) hyc⟩
    returned := by
      intro b i hi
      obtain ⟨y, hb, h1, h2, h3⟩ := h.returned b i hi
      obtain ⟨y', hb', hyf, hyc, hyn⟩ := hf b y hb
      exact ⟨y', hb', by omega, by omega, by omega⟩
    created := fun m hm => ⟨hn m (h.created m hm).1 (.inl hm), (h.created m hm).2⟩ }

variable {a : Nat}

/-- An allocator keeps its first block and goes forward; it reserves more only while all others are below it. -/
theorem Distinct.setAllocator {x' : EventIdAllocator} (hx : s.allocators.get a = some x)
    (hf : x'.first = x.first) (hn : x.nextEventId ≤ x'.nextEventId) (hcl : x.claimed ≤ x'.claimed)
    (hh : x'.claimed ≤ s.files.high) (hr : x'.reservedUntil ≤ x'.claimed)
    (hbe : x'.claimed = x.claimed ∨ ∀ b y, s.allocators.get b = some y → b ≠ a → y.claimed ≤ x.first) :
    (s.setAllocator a x').Distinct := by
  have hap : ∀ b y, s.allocators.get b = some y → b ≠ a → x'.claimed ≤ y.first ∨ y.claimed ≤ x'.first := by
    intro b y hb hne
    rcases hbe with heq | hbe
    · rw [heq, hf]
      exact h.apart a b x y hx hb (Ne.symm hne)
    · rw [hf]
      exact .inr (hbe b y hb hne)
  refine h.replaceAllocators ?_ ?_ ?_ ?_
  · intro b y hb
    by_cases heq : b = a
    · subst heq
      rw [hx] at hb
      cases hb
      exact ⟨x', get_insert_self .., hf, hcl, hn⟩
    · exact ⟨y, (get_insert_of_ne _ heq _).trans hb, rfl, le_rfl, le_rfl⟩
  · intro m hm _
    exact (get_insert_of_ne _ (by rintro rfl; exact nomatch hm ▸ hx) _).trans hm
  · intro b y hb
    rcases of_get_insert hb with ⟨rfl, rfl⟩ | ⟨-, hb⟩
    · obtain ⟨h1, h2, -⟩ := h.allocator b x hx
      exact ⟨by omega, by omega, hr, hh⟩
    · exact h.allocator b y hb
  · intro b c y z hb hc hne
    rcases of_get_insert hb with ⟨rfl, rfl⟩ | ⟨hba, hb'⟩ <;>
      rcases of_get_insert hc with ⟨rfl, rfl⟩ | ⟨hca, hc'⟩
    · exact absurd rfl hne
    · exact hap c z hc' hca
    · exact (hap b y hb' hba).symm
    · exact h.apart b c y z hb' hc' hne

theorem Distinct.addAllocator (hno : s.allocators.get n = none)
    (ht : s.tasks.get n = none) (hn : n < s.created) (hnext : x.first < x.nextEventId)
    (hf : x.first < x.claimed) (hr : x.reservedUntil ≤ x.claimed) (hh : x.claimed ≤ s.files.high)
    (ha : ∀ b y, s.allocators.get b = some y → y.claimed ≤ x.first) : (s.setAllocator n x).Distinct := by
  refine h.replaceAllocators ?_ ?_ ?_ ?_
  · intro b y hb
    exact ⟨y, (get_insert_of_ne _ (by rintro rfl; exact nomatch hno ▸ hb) _).trans hb, rfl, le_rfl, le_rfl⟩
  · intro m hm hu
    refine (get_insert_of_ne _ ?_ _).trans hm
    rintro rfl
    rw [ht] at hu
    rcases hu with hle | hs
    · omega
    · cases hs
  · exact forall_insert ⟨hnext, hf, hr, hh⟩ h.allocator
  · intro b c y z hb hc hne
    rcases of_get_insert hb with ⟨rfl, rfl⟩ | ⟨-, hb'⟩ <;>
      rcases of_get_insert hc with ⟨rfl, rfl⟩ | ⟨-, hc'⟩
    · exact absurd rfl hne
    · exact .inr (ha c z hc')
    · exact .inl (ha b y hb')
    · exact h.apart b c y z hb' hc' hne

/-! ### Changes of the files -/

theorem Distinct.setFiles (hn : s.noneWriting = true) {files : CounterFiles}
    (hh : s.files.high ≤ files.high) : (s.setFiles files).Distinct := by
  have hp : ∀ m t rsv next, s.tasks.get m = some t → t.reservation = some rsv → rsv.pending ≠ some next := by
    intro m t rsv next hm hr hp
    have hf := noneWriting_iff.1 hn m t hm
    rw [IdTask.isWriting, hr, Option.bind_some, hp] at hf
    cases hf
  exact
    { h with
      allocator := by
        intro a x hx
        obtain ⟨h1, h2, h3, h4⟩ := h.allocator a x hx
        exact ⟨h1, h2, h3, Nat.le_trans h4 hh⟩
      task := by
        intro m t hm
        have hok := h.task m t hm
        cases t with
        | construct pc bk rsv =>
          refine ⟨hok.1, hok.2.1, fun next => ?_⟩
          have hnot := hp m _ rsv next hm rfl
          exact ⟨fun heq => absurd heq hnot, fun heq => absurd heq hnot⟩
        | next =>
          obtain ⟨y, hb, hid, hs, -⟩ := hok
          refine ⟨y, hb, hid, hs, ?_⟩
          rintro eid rsv next rfl
          have hnot := hp m _ rsv next hm rfl
          exact ⟨fun heq => absurd heq hnot, fun heq => absurd heq hnot⟩ }

/-- The task that writes the temporary file is the only one that relies on it. -/
theorem Distinct.writeTmp {next : Nat} (hg : s.tasks.get n = some task) (hw : task.reservation = some (.write next)) :
    (s.setFiles { s.files with tmp := some next }).Distinct := by
  have hself : task.isWriting = true := by simp [IdTask.isWriting, hw, Reservation.pending]
  have hoth : ∀ m t v, s.tasks.get m = some t → t.reservation ≠ some (.rename v) := by
    intro m t v hm hr
    have hwrg : t.isWriting = true := by simp [IdTask.isWriting, hr, Reservation.pending]
    have heq := h.writing m n t task hm hg hwrg hself
    subst heq
    rw [hm] at hg
    cases hg
    rw [hr] at hw
    cases hw
  have hrsvg : ∀ m t reservation v, s.tasks.get m = some t → t.reservation = some reservation →
      s.Reserving v reservation → (s.setFiles { s.files with tmp := some next }).Reserving v reservation := by
    intro m t reservation v hm hrsv ho hp
    refine ⟨(ho hp).1, ?_⟩
    rintro rfl
    exact absurd hrsv (hoth m t v hm)
  exact
    { h with
      task := by
        intro m t hm
        have hok := h.task m t hm
        cases t with
        | construct pc bk reservation =>
          obtain ⟨hn, hmi, hre⟩ := hok
          refine ⟨hn, hmi, fun v => ?_⟩
          exact ⟨hrsvg m _ reservation v hm rfl (hre v).1, (hre v).2⟩
        | next =>
          obtain ⟨y, hb, hid, hs, hrs⟩ := hok
          refine ⟨y, hb, hid, hs, ?_⟩
          rintro eid reservation v rfl
          obtain ⟨ho, hle⟩ := hrs eid reservation v rfl
          exact ⟨hrsvg m _ reservation v hm rfl ho, hle⟩ }

/-- An id is returned once: it was taken by the call and is in the blocks of the allocator. -/
theorem Distinct.give
    (hg : s.tasks.get n = some task) (hh : task.holds = some (a, eventId)) (hx : s.allocators.get a = some x)
    (hle : eventId ≤ x.claimed) (hf : x.first < eventId) (hn : eventId < x.nextEventId)
    (hne : (a, eventId) ∉ s.returned) : (s.give n a eventId).Distinct :=
  { h.dropTask n with
    task := by
      intro m t hm
      obtain ⟨hmn, hm'⟩ := of_get_remove hm
      have hok := h.task m t hm'
      cases t with
      | construct => exact hok
      | next =>
        obtain ⟨y, hb, hid, hr⟩ := hok
        refine ⟨y, hb, ?_, hr⟩
        intro e he
        obtain ⟨h1, h2, h3⟩ := hid e he
        refine ⟨h1, h2, ?_⟩
        intro hme
        rcases mem_append.1 hme with ho | hl
        · exact h3 ho
        rw [mem_singleton.1 hl] at he
        exact hmn (h.holds m n _ task (a, eventId) hm' hg he hh)
    returned := by
      intro b i hi
      rcases mem_append.1 hi with ho | hl
      · exact h.returned b i ho
      cases mem_singleton.1 hl
      exact ⟨x, hx, hf, hle, hn⟩
    nodup := by
      change (s.returned ++ [(a, eventId)]).Nodup
      rw [nodup_append]
      refine ⟨h.nodup, nodup_singleton _, ?_⟩
      intro p hp q hq heq
      rw [heq, mem_singleton.1 hq] at hp
      exact hne hp }

/-! ### The steps -/

/-- The task that writes is the only one. -/
theorem Distinct.not_writing (hg : s.tasks.get n = some task) (hw : task.isWriting = true) {m : Nat} {t : IdTask}
    (hne : m ≠ n) (hm : s.tasks.get m = some t) : t.isWriting = false := by
  by_contra hm'
  exact hne (h.writing m n t task hm hg (by simpa using hm') hw)

theorem Distinct.advanceConstruct {pc : Nat} {bk : BlockSize}
    (hg : s.tasks.get n = some (.construct pc bk reservation)) (ok : Bool)
    (ho : ∀ min, reservation = .read min → s.noneWriting = true) :
    (s.advanceConstruct n pc bk reservation ok).Distinct := by
  obtain ⟨hno, hmi, hrs⟩ := h.task n _ hg
  have hn : n < s.created := by
    by_contra hle
    have htask := (h.created n (by omega)).2
    rw [hg] at htask
    cases htask
  cases reservation with
  | read min =>
    have hzero := hmi min rfl
    subst hzero
    simp only [IdSystem.advanceConstruct, Reservation.step]
    by_cases hok : (ok && decide (max s.files.high 0 + bk.size < 2 ^ 64)) = true
    · rw [if_pos hok]
      refine h.setTask hg ⟨hno, nofun, ?_⟩ nofun fun _ => .inr (ho 0 rfl)
      intro next
      have hsize := bk.pos
      refine ⟨fun heq => ?_, fun heq => ?_⟩
      · cases heq
        exact ⟨by omega, nofun⟩
      · cases heq
        rw [Nat.max_zero]
    · rw [if_neg hok]
      exact h.dropTask n
  | write next =>
    cases ok with
    | false => exact h.dropTask n
    | true =>
      have ht : (s.setFiles { s.files with tmp := some next }).Distinct := h.writeTmp hg rfl
      refine ht.setTask hg ⟨hno, nofun, ?_⟩ nofun fun _ => .inl rfl
      intro v
      obtain ⟨hr, hs⟩ := hrs v
      refine ⟨fun heq => ⟨(hr heq).1, ?_⟩, hs⟩
      intro heq'
      cases heq'
      rfl
  | rename next =>
    obtain ⟨hr, hs⟩ := hrs next
    obtain ⟨hlt, ht⟩ := hr rfl
    have hvl := ht rfl
    cases ok with
    | false => exact h.dropTask n
    | true =>
      have heq : s.files.high + bk.size = next := hs rfl
      have hdrop := h.dropTask n
      have hfree : (s.dropTask n).noneWriting = true := by
        refine noneWriting_iff.2 fun m t hm => ?_
        obtain ⟨hne, hm⟩ := of_get_remove hm
        exact h.not_writing hg rfl hne hm
      have hfiles : ((s.dropTask n).setFiles ⟨some next, none⟩).Distinct := hdrop.setFiles hfree (Nat.le_of_lt hlt)
      simp only [IdSystem.advanceConstruct, Reservation.step, hvl]
      refine hfiles.addAllocator hno (get_remove_self _ _) hn ?_ ?_ ?_ ?_ ?_
      · exact Nat.lt_succ_self _
      · change next - bk.size < next
        omega
      · exact le_rfl
      · exact le_rfl
      · intro b y hb
        have hclmd := (h.allocator b y hb).2.2.2
        change y.claimed ≤ next - bk.size
        omega

/-- An allocator whose blocks reach the counter is above all others. -/
theorem Distinct.claimed_le_first {b : Nat} {y : EventIdAllocator}
    (hx : s.allocators.get a = some x) (hy : s.allocators.get b = some y) (hne : b ≠ a)
    (hh : s.files.high ≤ x.claimed) : y.claimed ≤ x.first := by
  have hyh := (h.allocator b y hy).2.2.2
  have hyf := (h.allocator b y hy).2.1
  rcases h.apart a b x y hx hy (Ne.symm hne) with hle | hle
  · omega
  · exact hle

theorem Distinct.advanceReserve
    (hg : s.tasks.get n = some (.next a (.reserve eventId reservation))) (hx : s.allocators.get a = some x) (ok : Bool)
    (ho : ∀ min, reservation = .read min → s.noneWriting = true ∧ s.files.high ≤ x.claimed) :
    (s.advanceNext n a x ok (.reserve eventId reservation)).Distinct := by
  obtain ⟨y, hy, hid, -, hrs⟩ := h.task n _ hg
  rw [hx] at hy
  cases hy
  cases reservation with
  | read min =>
    obtain ⟨hn, hclmd⟩ := ho min rfl
    simp only [IdSystem.advanceNext, Reservation.step]
    by_cases hok : (ok && decide (max s.files.high min + x.block.size < 2 ^ 64)) = true
    · rw [if_pos hok]
      refine h.setTask hg ⟨x, hx, hid, nofun, ?_⟩ (fun _ heq => .inl heq) fun _ => .inr hn
      rintro e r next heq
      cases heq
      have hsize := x.block.pos
      refine ⟨fun heq => ?_, fun _ => hclmd⟩
      cases heq
      exact ⟨by omega, nofun⟩
    · rw [if_neg hok]
      exact (h.setLocks _).dropTask n
  | write next =>
    cases ok with
    | false => exact (h.setLocks _).dropTask n
    | true =>
      have ht : (s.setFiles { s.files with tmp := some next }).Distinct := h.writeTmp hg rfl
      refine ht.setTask hg ⟨x, hx, hid, nofun, ?_⟩ (fun _ heq => .inl heq) fun _ => .inl rfl
      rintro e r v heq
      cases heq
      obtain ⟨hr, hle⟩ := hrs eventId (.write next) v rfl
      refine ⟨fun heq => ⟨(hr heq).1, ?_⟩, hle⟩
      intro heq'
      cases heq'
      rfl
  | rename next =>
    obtain ⟨hr, hle⟩ := hrs eventId (.rename next) next rfl
    obtain ⟨hlt, ht⟩ := hr rfl
    have hvl := ht rfl
    have hclmd := hle rfl
    cases ok with
    | false => exact (h.setLocks _).dropTask n
    | true =>
      -- the call is put back to its start, the counter rises, the allocator's blocks grow, and the call goes on
      have hidle : (s.setTask n (.next a .fetch)).Distinct := h.setTask hg ⟨x, hx, nofun, nofun, nofun⟩
        nofun nofun
      have hfree : (s.setTask n (.next a .fetch)).noneWriting = true := by
        refine noneWriting_iff.2 fun m t hm => ?_
        rcases of_get_insert hm with ⟨-, rfl⟩ | ⟨hne, hm⟩
        · rfl
        · exact h.not_writing hg rfl hne hm
      have hfiles : ((s.setTask n (.next a .fetch)).setFiles ⟨some next, none⟩).Distinct :=
        hidle.setFiles hfree (Nat.le_of_lt hlt)
      obtain ⟨h1, h2, h3, h4⟩ := h.allocator a x hx
      let grown := ((s.setTask n (.next a .fetch)).setFiles ⟨some next, none⟩).setAllocator a { x with claimed := next }
      have hgrown : grown.Distinct := hfiles.setAllocator hx rfl le_rfl
        (Nat.le_of_lt (Nat.lt_of_le_of_lt h4 hlt)) le_rfl
        (Nat.le_of_lt (Nat.lt_of_le_of_lt (Nat.le_trans h3 h4) hlt))
        (.inr fun b y hb hne => h.claimed_le_first hx hb hne hclmd)
      have hold : (s.setTask n (.next a .fetch)).tasks.get n = some (.next a .fetch) := get_insert_self ..
      have hput : (grown.setTask n (.next a (.store next))).Distinct := hgrown.setTask hold
        ⟨{ x with claimed := next }, get_insert_self .., nofun, fun u heq => by cases heq; exact le_rfl,
          nofun⟩ nofun nofun
      simp only [IdSystem.advanceNext, Reservation.step, hvl]
      simpa only [grown, IdSystem.setTask, IdSystem.setFiles, IdSystem.setAllocator, insert_insert] using hput

theorem Distinct.advanceNext (hg : s.tasks.get n = some (.next a sg)) (hx : s.allocators.get a = some x) (ok : Bool)
    (ho : ∀ eid min, sg = .reserve eid (.read min) → s.noneWriting = true ∧ s.files.high ≤ x.claimed)
    (hw : sg = .fetch → x.nextEventId + 1 < 2 ^ 64) : (s.advanceNext n a x ok sg).Distinct := by
  obtain ⟨y, hy, hid, hs, -⟩ := h.task n _ hg
  rw [hx] at hy
  cases hy
  obtain ⟨h1, h2, h3, h4⟩ := h.allocator a x hx
  cases sg with
  | fetch =>
    have hnext := hw rfl
    have hmod : (x.nextEventId + 1) % 2 ^ 64 = x.nextEventId + 1 := Nat.mod_eq_of_lt hnext
    have hmoved : (s.setAllocator a { x with nextEventId := (x.nextEventId + 1) % 2 ^ 64 }).Distinct :=
      h.setAllocator hx rfl (by rw [hmod]; exact Nat.le_succ _) le_rfl h4 h3 (.inl rfl)
    refine hmoved.setTask hg ⟨{ x with nextEventId := (x.nextEventId + 1) % 2 ^ 64 },
      get_insert_self .., ?_, nofun, nofun⟩ ?_ nofun
    · intro eid heq
      cases heq
      refine ⟨h1, by rw [hmod]; exact Nat.lt_succ_self _, ?_⟩
      intro hme
      obtain ⟨y, hy, -, -, hlt⟩ := h.returned a x.nextEventId hme
      rw [hx] at hy
      cases hy
      exact absurd hlt (Nat.lt_irrefl _)
    · -- every id that a call holds is below the position
      intro p heq
      cases heq
      right
      intro m t hm hh
      have hok := h.task m t hm
      cases t with
      | construct => cases hh
      | next b sg =>
        obtain ⟨y, hy, hid', -⟩ := hok
        obtain rfl := IdTask.eq_of_holds hh
        rw [hx] at hy
        cases hy
        exact absurd (hid' _ hh).2.1 (Nat.lt_irrefl _)
  | check eid =>
    obtain ⟨hf, hnext, hne⟩ := hid eid rfl
    simp only [IdSystem.advanceNext]
    split
    · exact h.give hg rfl hx (by omega) hf hnext hne
    · exact h.setTask hg ⟨x, hx, hid, nofun, nofun⟩ (fun _ heq => .inl heq) nofun
  | lock =>
    simp only [IdSystem.advanceNext]
    split
    · exact h
    · exact (h.setLocks _).setTask hg ⟨x, hx, hid, nofun, nofun⟩ (fun _ heq => .inl heq) nofun
  | recheck eid =>
    obtain ⟨hf, hnext, hne⟩ := hid eid rfl
    simp only [IdSystem.advanceNext]
    split
    · exact (h.setLocks _).give hg rfl hx (by omega) hf hnext hne
    refine h.setTask hg ⟨x, hx, hid, nofun, ?_⟩ (fun _ heq => .inl heq) nofun
    rintro e r next heq
    cases heq
    exact ⟨nofun, nofun⟩
  | reserve eid =>
    exact h.advanceReserve hg hx ok fun min heq => ho eid min (by rw [heq])
  | store ru =>
    have hle := hs ru rfl
    have hraised : (s.setAllocator a { x with reservedUntil := ru }).Distinct :=
      h.setAllocator hx rfl le_rfl le_rfl h4 hle (.inl rfl)
    exact (hraised.setLocks (s.locks.remove x.process)).setTask hg ⟨{ x with reservedUntil := ru },
      get_insert_self .., nofun, nofun, nofun⟩ nofun nofun

theorem Distinct.crash (pc : Nat) : (s.step (.crash pc)).Distinct := by
  have hsm : ({ s with tasks := s.tasks.retain fun _ task => s.processOf task != some pc } :
      IdSystem).Distinct := h.shrink fun _ _ => get_of_get_retain
  -- a crash changes no number of an allocator
  have hback : ∀ b y, (s.step (.crash pc)).allocators.get b = some y → ∃ y', s.allocators.get b = some y' ∧
      y = if y'.process = pc then { y' with alive := false } else y' := by
    intro b y hb
    change (s.allocators.mapValues _).get b = some y at hb
    rw [get_mapValues, Option.map_eq_some_iff] at hb
    obtain ⟨y', hy', rfl⟩ := hb
    exact ⟨y', hy', rfl⟩
  suffices hmoved : ({ s with
      allocators := (s.step (.crash pc)).allocators
      tasks := s.tasks.retain fun _ task => s.processOf task != some pc } : IdSystem).Distinct from { hmoved with }
  refine hsm.replaceAllocators ?_ ?_ ?_ ?_
  · intro b y hb
    refine ⟨if y.process = pc then { y with alive := false } else y, ?_, ?_⟩
    · change (s.allocators.mapValues _).get b = _
      rw [get_mapValues, hb]
      rfl
    · split <;> exact ⟨rfl, le_rfl, le_rfl⟩
  · intro b hb _
    change (s.allocators.mapValues _).get b = none
    rw [get_mapValues, hb]
    rfl
  · intro b y hb
    obtain ⟨y', hy', rfl⟩ := hback b y hb
    split <;> exact h.allocator b y' hy'
  · intro b c y z hb hc hne
    obtain ⟨y', hy', rfl⟩ := hback b y hb
    obtain ⟨z', hz', rfl⟩ := hback c z hc
    split <;> split <;> exact h.apart b c y' z' hy' hz' hne

theorem Distinct.step {a : IdAction} (ho : s.orderly a = true) : (s.step a).Distinct := by
  cases a with
  | construct =>
    exact h.create ⟨(h.created _ le_rfl).1, fun min heq => by cases heq; rfl,
      fun next => ⟨nofun, nofun⟩⟩ rfl rfl
  | call =>
    simp only [IdSystem.step]
    split
    · rename_i x hx
      split
      · exact h.create ⟨x, hx, nofun, nofun, nofun⟩ rfl rfl
      · exact h
    · exact h
  | step n ok =>
    simp only [IdSystem.step]
    split
    · rename_i hg
      refine h.advanceConstruct hg ok ?_
      rintro min rfl
      simpa [orderly, hg] using ho
    · rename_i hg
      split
      · rename_i hx
        refine h.advanceNext hg hx ok ?_ ?_
        · rintro eid min rfl
          simpa [orderly, hg, hx] using ho
        · rintro rfl
          simpa [orderly, hg, hx] using ho
      · exact h
    · exact h
  | crash pc => exact h.crash pc

/-- Ids of different allocators are in different blocks, and an allocator returns an id once. -/
theorem Distinct.nodup_ids : (s.returned.map Prod.snd).Nodup := by
  refine List.Nodup.map_on ?_ h.nodup
  rintro ⟨a, i⟩ hi ⟨b, j⟩ hj heq
  subst heq
  by_cases hab : a = b
  · rw [hab]
  obtain ⟨x, hx, hx1, hx2, -⟩ := h.returned a i hi
  obtain ⟨y, hy, hy1, hy2, -⟩ := h.returned b i hj
  rcases h.apart a b x y hx hy hab with hle | hle <;> omega

end

/-! ### The order of the ids of one allocator -/

/-- The allocator has one call at a time, and the id of the call is above those returned before. -/
structure Increasing (a : Nat) (s : IdSystem) : Prop where
  sorted : ((s.returned.filter (fun p => p.1 == a)).map Prod.snd).Pairwise (fun i j => i < j)
  alone : ∀ n m t t', s.tasks.get n = some (.next a t) → s.tasks.get m = some (.next a t') → n = m
  below : ∀ n t e, s.tasks.get n = some t → t.holds = some (a, e) → ∀ i, (a, i) ∈ s.returned → i < e

theorem increasing_new (a : Nat) (counter : Option Nat) : Increasing a (new counter) where
  sorted := List.Pairwise.nil
  alone := nofun
  below := nofun

variable {a : Nat}

section

variable (h : Increasing a s)

include h

/-- A task goes on: it takes only an id above those returned.  The files, the allocators and the locks may change. -/
theorem Increasing.setTask {old : IdTask} {files : CounterFiles} {allocators : OrdMap Nat EventIdAllocator}
    {locks : OrdMap Nat Nat} (ho : s.tasks.get n = some old) (hc : ∀ sg, task = .next a sg → ∃ sg', old = .next a sg')
    (hh : ∀ e, task.holds = some (a, e) → old.holds = some (a, e) ∨ ∀ i, (a, i) ∈ s.returned → i < e) :
    Increasing a ({ s with files, allocators, locks }.setTask n task) := by
  have hcallAt : ∀ m sg, (s.setTask n task).tasks.get m = some (.next a sg) →
      ∃ sg', s.tasks.get m = some (.next a sg') := by
    intro m sg hm
    rcases of_get_insert hm with ⟨rfl, heq⟩ | ⟨-, hm⟩
    · obtain ⟨sg', ho'⟩ := hc sg heq.symm
      exact ⟨sg', by rw [ho, ho']⟩
    · exact ⟨sg, hm⟩
  refine ⟨h.sorted, ?_, ?_⟩
  · intro m k t t' hm hk
    obtain ⟨t₀, hm₀⟩ := hcallAt m t hm
    obtain ⟨t₁, hk₁⟩ := hcallAt k t' hk
    exact h.alone m k t₀ t₁ hm₀ hk₁
  · intro m t e hm he
    rcases of_get_insert hm with ⟨rfl, rfl⟩ | ⟨-, hm⟩
    · rcases hh e he with hw | hf
      · exact h.below _ old e ho hw
      · exact hf
    · exact h.below m t e hm he

theorem Increasing.shrink {tasks : OrdMap Nat IdTask} (hs : ∀ m t, tasks.get m = some t → s.tasks.get m = some t) :
    Increasing a ({ s with tasks := tasks } : IdSystem) where
  sorted := h.sorted
  alone := fun m k t t' hm hk => h.alone m k t t' (hs m _ hm) (hs k _ hk)
  below := fun m t e hm => h.below m t e (hs m t hm)

theorem Increasing.dropTask (n : Nat) : Increasing a (s.dropTask n) :=
  h.shrink fun _ _ hm => (of_get_remove hm).2

theorem Increasing.create
    (hc : ∀ sg, task = .next a sg → ∀ m t, s.tasks.get m ≠ some (.next a t)) (hh : task.holds = none) :
    Increasing a ({ s.setTask s.created task with created := s.created + 1 } : IdSystem) := by
  refine ⟨h.sorted, ?_, ?_⟩
  · intro m k t t' hm hk
    rcases of_get_insert hm with ⟨hm', heq⟩ | ⟨-, hm⟩ <;>
      rcases of_get_insert hk with ⟨hk', heq'⟩ | ⟨-, hk⟩
    · rw [hm', hk']
    · exact absurd hk (hc t heq.symm k t')
    · exact absurd hm (hc t' heq'.symm m t)
    · exact h.alone m k t t' hm hk
  · intro m t e hm he
    rcases of_get_insert hm with ⟨-, rfl⟩ | ⟨-, hm⟩
    · rw [hh] at he
      cases he
    · exact h.below m t e hm he

theorem Increasing.give {b : Nat}
    (hg : s.tasks.get n = some (.next b sg)) (hh : (IdTask.next b sg).holds = some (b, eventId)) :
    Increasing a (s.give n b eventId) := by
  have hdrop := h.dropTask n
  refine ⟨?_, hdrop.alone, ?_⟩
  · change (((s.returned ++ [(b, eventId)]).filter fun p => p.1 == a).map Prod.snd).Pairwise _
    rw [filter_append, map_append, pairwise_append]
    refine ⟨h.sorted, ?_, ?_⟩
    · by_cases hb : b = a <;> simp [hb]
    intro i hi j hj
    obtain ⟨⟨c, i'⟩, hc, rfl⟩ := mem_map.1 hi
    obtain ⟨⟨d, j'⟩, hl, rfl⟩ := mem_map.1 hj
    obtain ⟨hr, hca⟩ := mem_filter.1 hc
    obtain ⟨hn, hda⟩ := mem_filter.1 hl
    cases mem_singleton.1 hn
    simp only [beq_iff_eq] at hca hda
    subst hda
    subst hca
    exact h.below n _ _ hg hh _ hr
  · intro m t e hm he i hi
    have hm' : m ≠ n ∧ s.tasks.get m = some t := of_get_remove hm
    rcases mem_append.1 hi with ho | hl
    · exact h.below m t e hm'.2 he i ho
    -- another call of the same allocator cannot be under way
    cases mem_singleton.1 hl
    cases t with
    | construct => cases he
    | next c sg' =>
      obtain rfl := IdTask.eq_of_holds he
      exact absurd (h.alone m n sg' sg hm'.2 hg) hm'.1

theorem Increasing.advanceConstruct {pc : Nat} {bk : BlockSize}
    (hg : s.tasks.get n = some (.construct pc bk reservation)) (ok : Bool) :
    Increasing a (s.advanceConstruct n pc bk reservation ok) := by
  unfold IdSystem.advanceConstruct
  split
  · exact h.setTask hg nofun nofun
  · exact { h.dropTask n with }
  · exact { h.dropTask n with }

theorem Increasing.advanceNext (hd : s.Distinct) {b : Nat}
    (hg : s.tasks.get n = some (.next b sg)) (hx : s.allocators.get b = some x) (ok : Bool) :
    Increasing a (s.advanceNext n b x ok sg) := by
  have hcall : ∀ {sg' : NextStage} (sg'' : NextStage), IdTask.next b sg' = .next a sg'' →
      ∃ t, IdTask.next b sg = .next a t := by
    intro sg' sg'' heq
    cases heq
    exact ⟨sg, rfl⟩
  cases sg with
  | fetch =>
    refine h.setTask hg hcall ?_
    intro e heq
    cases heq
    right
    intro i hi
    obtain ⟨y, hy, -, -, hlt⟩ := hd.returned _ i hi
    rw [hx] at hy
    cases hy
    exact hlt
  | check =>
    simp only [IdSystem.advanceNext]
    split
    · exact h.give hg rfl
    · exact h.setTask hg hcall fun e heq => .inl heq
  | lock =>
    simp only [IdSystem.advanceNext]
    split
    · exact h
    · exact h.setTask hg hcall fun e heq => .inl heq
  | recheck =>
    simp only [IdSystem.advanceNext]
    split
    · have hfr : Increasing a (s.unlock x.process) := { h with }
      exact hfr.give hg rfl
    · exact h.setTask hg hcall fun e heq => .inl heq
  | reserve =>
    simp only [IdSystem.advanceNext]
    split
    · exact h.setTask hg hcall fun e heq => .inl heq
    · exact { h.dropTask n with }
    · exact h.setTask hg hcall nofun
  | store => exact h.setTask hg hcall nofun

theorem Increasing.step (hd : s.Distinct) {act : IdAction}
    (ho : oneAtATime a s act = true) : Increasing a (s.step act) := by
  cases act with
  | construct => exact h.create nofun rfl
  | call =>
    simp only [IdSystem.step]
    split
    · split
      · refine h.create ?_ rfl
        intro sg heq m t hm
        cases heq
        simp only [oneAtATime, bne_self_eq_false, Bool.false_or, all_eq_true] at ho
        have hfree := ho _ (mem_values.2 ⟨m, hm⟩)
        simp at hfree
      · exact h
    · exact h
  | step n ok =>
    simp only [IdSystem.step]
    split
    · rename_i hg
      exact h.advanceConstruct hg ok
    · rename_i hg
      split
      · rename_i hx
        exact h.advanceNext hd hg hx ok
      · exact h
    · exact h
  | crash pc =>
    have hsm : Increasing a
        { s with tasks := s.tasks.retain fun _ task => s.processOf task != some pc } :=
      h.shrink fun _ _ => get_of_get_retain
    exact { hsm with }

end

/-! ### Runs -/

/-- In every orderly run no id is returned twice, and the ids of an allocator whose calls do not overlap increase. -/
theorem event_ids_unique (counter : Option Nat) (actions : List IdAction)
    (h : everyStep IdSystem.step orderly (new counter) actions = true) :
    ((run counter actions).returned.map Prod.snd).Nodup ∧
      ∀ a, everyStep IdSystem.step (fun s action => s.orderly action && oneAtATime a s action) (new counter) actions
          = true →
        (((run counter actions).returned.filter (fun p => p.1 == a)).map Prod.snd).Pairwise (fun i j => i < j) := by
  constructor
  · have hdis : (run counter actions).Distinct :=
      foldl_induction (P := Distinct) (fun _ _ hs hor => hs.step hor) (distinct_new counter) h
    exact hdis.nodup_ids
  intro a ho
  have hboth : (run counter actions).Distinct ∧ Increasing a (run counter actions) := by
    refine foldl_induction (P := fun s => s.Distinct ∧ Increasing a s) ?_
      ⟨distinct_new counter, increasing_new a counter⟩ ho
    rintro s action ⟨hd, hi⟩ hok
    rw [Bool.and_eq_true] at hok
    exact ⟨hd.step hok.1, hi.step hd hok.2⟩
  exact hboth.2.sorted

/-- A step of the task that succeeds, `k` times. -/
def steps (n k : Nat) : List IdAction := List.replicate k (.step n true)

def blockOfTwo : BlockSize := ⟨2, by decide⟩

/-- One allocator returns three ids, its process crashes, and the allocator of the next process returns one. -/
def successiveRun : List IdAction :=
  .construct 0 blockOfTwo :: steps 0 3 ++ .call 0 :: steps 1 2 ++ .call 0 :: steps 2 2 ++ .call 0 :: steps 3 10 ++
    .crash 0 :: .construct 1 blockOfTwo :: steps 4 3 ++ .call 4 :: steps 5 2

theorem event_ids_unique_successiveRun : (run none successiveRun).returned = [(0, 1), (0, 2), (0, 4), (4, 5)] ∧
      ((run none successiveRun).returned.map Prod.snd).Nodup ∧
      (((run none successiveRun).returned.filter (fun p => p.1 == 0)).map Prod.snd).Pairwise (fun i j => i < j) := by
  have h := event_ids_unique none successiveRun (by decide +kernel)
  exact ⟨by decide +kernel, h.1, h.2 0 (by decide +kernel)⟩

/-- Two allocators are constructed one after the other; the first reserves a further block after the second one was
constructed.  No two operations overlap. -/
def twoAllocators : List IdAction :=
  .construct 0 blockOfTwo :: steps 0 3 ++ .construct 0 blockOfTwo :: steps 1 3 ++ .call 0 :: steps 2 2 ++
    .call 0 :: steps 3 2 ++ .call 0 :: steps 4 10 ++ .call 1 :: steps 5 2 ++ .call 1 :: steps 6 2

/-- The first allocator walks into the block of the second: both return the id 4. -/
theorem event_id_returned_twice : (run none twoAllocators).returned = [(0, 1), (0, 2), (0, 4), (1, 3), (1, 4)] ∧
      ¬ ((run none twoAllocators).returned.map Prod.snd).Nodup := by
  decide +kernel

end IdSystem

end Chariox.EventLog
