import Chariox.Lib.Except
import Chariox.Lib.OrdMap
import Chariox.Lib.Reserve

/-!
# Admission of commands

A heavy command waits for room instead of growing into a full machine.  One pass reads what the running commands still
have ahead of them, holds new commands without room for their expected peak, pauses one when memory is short, and lets
the first command of the owners' fair line continue that fits.
-/

namespace Chariox.Admission

open OrdMap

def mib : Nat := 1024 * 1024
def diskFloor : Nat := 10 * 1024 * mib
def ahead : Nat := 2
def growing : Nat := mib

inductive WaitReason
  | memory | disk
  deriving DecidableEq, Repr

inductive Wait
  | held (reason : WaitReason)
  | paused (reason : WaitReason)

def Wait.reason : Wait → WaitReason
  | .held reason | .paused reason => reason

/-- The names of a path, the last one first. -/
abbrev Path := List String

structure Space where
  id : Nat
  free : Nat
  total : Nat

structure Disk where
  id : Nat
  free : Nat
  floor : Nat

def Disk.aboveFloor (disk : Disk) : Nat := disk.free - disk.floor

abbrev Volume := Path → Option Space

def diskRoom (volume : Volume) (path : Path) : Option Disk :=
  (volume path).map (fun space => ⟨space.id, space.free, max (space.total / 20) diskFloor⟩)

structure ReceivingVolume where
  path : Path
  id : Nat

/-- The volume of the nearest ancestor that can be measured. -/
def ReceivingVolume.disk (receiving : ReceivingVolume) (volume : Volume) : Option Disk :=
  (receiving.path.tails.findSome? (diskRoom volume)).filter (fun disk => disk.id = receiving.id)

structure Peak where
  memory : Nat
  volume : Option ReceivingVolume
  volumeWrites : Nat
  exact : Nat

structure Entry where
  arrived : Nat
  wait : Option Wait
  admitted : Bool
  forced : Bool
  holdable : Bool
  /-- The exact command line of the command that was seen. -/
  seen : Option Nat
  expected : Option Peak
  pausedRate : Nat
  resident : Nat
  writes : Nat
  refused : Option Nat

/-- A command as it was sampled, with the memory it gained in a second. -/
structure CommandUse where
  pid : Nat
  growth : Nat

structure Observation where
  unit : String
  commands : List CommandUse
  admission : OrdMap Nat Entry

def entryAt (members : List Observation) (member pid : Nat) : Option Entry :=
  members[member]?.bind (fun observation => observation.admission.get pid)

structure Reservation where
  memory : Nat
  writes : Nat
  volume : Nat

structure Room where
  memory : Nat
  tight : Bool
  light : Nat
  growthRoom : Nat
  capacity : Nat
  volume : Volume
  launches : OrdMap String Reservation
  launchMemory : OrdMap String Nat

/-! ### Commands -/

namespace Entry

variable (entry : Entry) (room : Room)

def disk : Option Disk := do
  let expected ← entry.expected
  let exact ← entry.seen
  if exact ≠ expected.exact then none else (← expected.volume).disk room.volume

def writesAhead : Nat :=
  match entry.expected with
  | some peak => if peak.volume.isSome ∧ room.light ≤ peak.volumeWrites then peak.volumeWrites - entry.writes else 0
  | none => 0

def memoryAhead : Nat :=
  match entry.expected with
  | some peak => if room.light ≤ peak.memory then peak.memory - entry.resident else 0
  | none => 0

/-- What a waiting command still needs to continue. -/
def need (reason : WaitReason) : Nat :=
  let expected := entry.expected.map (fun peak =>
    match reason with
    | .memory => peak.memory - entry.resident
    | .disk => peak.volumeWrites - entry.writes)
  match entry.wait with
  | some (.held _) => expected.getD room.growthRoom
  | _ => max ((expected.filter (0 < ·)).getD room.growthRoom) (min (entry.pausedRate * ahead) u64Max)

/-- An admitted command that runs. -/
def counted : Bool := entry.admitted && entry.wait.isNone

end Entry

/-! ### The reading of a pass -/

structure State where
  reserved : Nat
  oldest : Option Nat
  heavyRunning : Bool
  disk : OrdMap Nat Nat
  memoryByUnit : OrdMap String Nat
  writesByUnit : OrdMap (String ×ₗ Nat) Nat

/-- `*map.entry(key).or_default()` raised by `bytes`. -/
def addTo {K : Type} [LinearOrder K] (map : OrdMap K Nat) (key : K) (bytes : Nat) : OrdMap K Nat :=
  map.insert key (saturatingAdd ((map.get key).getD 0) bytes)

/-- A map of sums, filled in the order of the list. -/
def addAll {K : Type} [LinearOrder K] (amounts : List (K × Nat)) : OrdMap K Nat :=
  amounts.foldl (fun map amount => addTo map amount.1 amount.2) OrdMap.empty

namespace State

variable (state : State) (unit : String) (room : Room)

def memoryCredit : Nat := (room.launchMemory.get unit).getD 0 - (state.memoryByUnit.get unit).getD 0

def memoryRoom : Nat := room.memory - (state.reserved - state.memoryCredit unit room)

/-- The writes that the launch of a unit declared for a volume. -/
def launchWrites (room : Room) (volume : Nat) (unit : String) : Nat :=
  ((room.launches.get unit).filter (fun launch => launch.volume = volume)).elim 0 Reservation.writes

def diskCredit (volume : Nat) : Nat :=
  launchWrites room volume unit - (state.writesByUnit.get (toLex (unit, volume))).getD 0

def spare (disk : Disk) : Nat :=
  disk.aboveFloor - ((state.disk.get disk.id).getD 0 - state.diskCredit unit room disk.id)

def reserveMemory (bytes : Nat) : State :=
  { state with
    reserved := saturatingAdd state.reserved (bytes - state.memoryCredit unit room)
    memoryByUnit := addTo state.memoryByUnit unit bytes }

def reserveDisk (disk : Disk) (bytes : Nat) : State :=
  { state with
    disk := addTo state.disk disk.id (bytes - state.diskCredit unit room disk.id)
    writesByUnit := addTo state.writesByUnit (toLex (unit, disk.id)) bytes }

/-- Note a command that runs now. -/
def running (entry : Entry) : State :=
  if room.light ≤ entry.resident ∨ entry.admitted = true ∧ entry.expected.any (fun peak => room.light ≤ peak.memory) then
    { state with heavyRunning := true, oldest := some (state.oldest.elim entry.arrived (min · entry.arrived)) }
  else state

def readEntry (visit : String × Entry) : State :=
  let entry := visit.2
  if entry.wait.isSome then state
  else
    let reserved :=
      if entry.admitted then
        let state := state.reserveMemory visit.1 room (entry.memoryAhead room)
        match (entry.disk room).filter (fun _ => 0 < entry.writesAhead room) with
        | some disk => state.reserveDisk visit.1 room disk (entry.writesAhead room)
        | none => state
      else state
    reserved.running room entry

/-- The commands of all units, in the order in which they are visited. -/
def visits (members : List Observation) : List (String × Entry) :=
  members.flatMap (fun member => member.admission.values.map (fun entry => (member.unit, entry)))

def read (members : List Observation) (room : Room) : State :=
  let state : State := {
    reserved := room.launchMemory.values.foldl saturatingAdd 0
    oldest := none
    heavyRunning := room.launches.values.any (fun launch => room.light ≤ launch.memory)
    disk := addAll (room.launches.values.map (fun launch => (launch.volume, launch.writes)))
    memoryByUnit := OrdMap.empty
    writesByUnit := OrdMap.empty }
  (visits members).foldl (fun state visit => state.readEntry room visit) state

/-- Reserve what a command that starts or continues has ahead. -/
def start (entry : Entry) : State :=
  let state := state.reserveMemory unit room (entry.memoryAhead room)
  let state :=
    match entry.disk room with
    | some disk => state.reserveDisk unit room disk (entry.writesAhead room)
    | none => state
  state.running room { entry with wait := none, admitted := true }

end State

/-! ### The reservations that a launch sees -/

/-- What the running commands have ahead, by unit; every unit gets an entry. -/
def memoryAmounts (members : List Observation) (room : Room) : List (String × Nat) :=
  members.flatMap (fun member => (member.unit, 0) ::
    (member.admission.values.filter Entry.counted).map (fun entry => (member.unit, entry.memoryAhead room)))

/-- `Ledger::reserved_memory`, with the light memory and the launches of the room: growth beyond what the launches of
each unit declared. -/
def reservedMemory (members : List Observation) (room : Room) : Nat :=
  ((addAll (memoryAmounts members room)).entries.map (fun unit =>
    unit.2 - (room.launchMemory.get unit.1).getD 0)).foldl saturatingAdd 0

/-- What a command adds for its unit and volume. -/
def diskAmount (room : Room) (unit : String) (entry : Entry) : Option ((String ×ₗ Nat) × Nat) :=
  let writes := (entry.expected.filter (fun peak => room.light ≤ peak.volumeWrites)).elim 0
    (fun peak => peak.volumeWrites - entry.writes)
  if writes = 0 then none else (entry.disk room).map (fun disk => (toLex (unit, disk.id), writes))

def diskAmounts (members : List Observation) (room : Room) : List ((String ×ₗ Nat) × Nat) :=
  members.flatMap (fun member => (member.admission.values.filter Entry.counted).filterMap (diskAmount room member.unit))

def reservedDisk (members : List Observation) (room : Room) : OrdMap Nat Nat :=
  addAll ((addAll (diskAmounts members room)).entries.map (fun unit =>
    ((ofLex unit.1).2, unit.2 - State.launchWrites room (ofLex unit.1).2 (ofLex unit.1).1)))

/-! ### Holding new commands -/

/-- A command that starts or continues, with the reading before and after. -/
structure Start where
  unit : String
  entry : Entry
  before : State
  after : State

/-- A pass in progress: the commands, the reading, and the commands that started so far. -/
structure Pass where
  members : List Observation
  state : State
  starts : List Start

def Pass.update (pass : Pass) (member pid : Nat) (entry : Entry) (start : Option Start) : Pass where
  members := pass.members.modify member (fun m => { m with admission := m.admission.insert pid entry })
  state := start.elim pass.state Start.after
  starts := pass.starts ++ start.toList

def heldFor (unit : String) (room : Room) (state : State) (entry : Entry) (expected : Peak) : Option Wait :=
  if !entry.holdable then none
  else if room.light ≤ expected.memory ∧ state.memoryRoom unit room < entry.memoryAhead room ∧ state.heavyRunning then
    some (.held .memory)
  else if (entry.disk room).any (fun disk => state.spare unit room disk < entry.writesAhead room) then
    some (.held .disk)
  else none

/-- The decision about one command, and the start if it starts with what it has ahead reserved. -/
def holdEntry (unit : String) (room : Room) (state : State) (entry : Entry) : Entry × Option Start :=
  if entry.admitted || entry.forced || entry.wait.isSome then (entry, none)
  else
    match entry.expected with
    | none => ({ entry with admitted := room.light ≤ entry.resident }, none)
    | some expected =>
      if entry.holdable && room.capacity < expected.memory then
        if entry.seen = some expected.exact then
          ({ entry with refused := some expected.memory, admitted := true }, none)
        else ({ entry with expected := none }, none)
      else
        match heldFor unit room state entry expected with
        | some wait => ({ entry with wait := some wait }, none)
        | none => ({ entry with admitted := true }, some ⟨unit, entry, state, state.start unit room entry⟩)

def hold (current : Nat) (room : Room) (pass : Pass) : Pass :=
  match pass.members[current]? with
  | none => pass
  | some member => member.admission.entries.foldl (fun pass command =>
      let decided := holdEntry member.unit room pass.state command.2
      pass.update current command.1 decided.1 decided.2) pass

/-! ### Pausing -/

/-- A running command that can be paused, and its rate. -/
structure Growing where
  arrived : Nat
  member : Nat
  pid : Nat
  rate : Nat

/-- The running commands that may wait and that `pausable` gives a rate. -/
def pausables (members : List Observation) (pausable : Entry → CommandUse → Option Nat) : List Growing :=
  members.zipIdx.flatMap (fun member => member.1.commands.filterMap (fun command => do
    let entry ← member.1.admission.get command.pid
    if !entry.holdable || entry.wait.isSome || entry.forced then none
    else return ⟨entry.arrived, member.2, command.pid, ← pausable entry command⟩))

def newest (commands : List Growing) : Option Growing :=
  commands.foldl (fun newest command =>
    if newest.all (fun other => other.arrived < command.arrived) then some command else newest) none

/-- Pause the newest of the commands that can be paused. -/
def pause (reason : WaitReason) (pausable : Entry → CommandUse → Option Nat) (pass : Pass) : Pass :=
  match newest (pausables pass.members pausable) with
  | none => pass
  | some command =>
    match entryAt pass.members command.member command.pid with
    | none => pass
    | some entry =>
      pass.update command.member command.pid { entry with wait := some (.paused reason), pausedRate := command.rate } none

/-! ### The fair line -/

/-- A waiting command: its owner, when it arrived, and where it is found. -/
structure Waiting where
  unit : String
  arrived : Nat
  member : Nat
  pid : Nat
  deriving DecidableEq

def waiting (members : List Observation) (reason : WaitReason) : List Waiting :=
  members.zipIdx.flatMap (fun member => member.1.admission.entries.filterMap (fun command =>
    if command.2.wait.any (fun wait => wait.reason = reason) then
      some ⟨member.1.unit, command.2.arrived, member.2, command.1⟩
    else none))

def byOwner (commands : List Waiting) : OrdMap String (List Waiting) :=
  commands.foldl (fun owners command =>
    owners.insert command.unit ((owners.get command.unit).getD [] ++ [command])) OrdMap.empty

abbrev Queue := String × List Waiting

def Queue.firstArrived (queue : Queue) : Nat := queue.2.head?.elim 0 Waiting.arrived

/-- The place of the owner after the one last served, or of the one waiting longest. -/
def firstOwner (queues : List Queue) : Option String → Option Nat
  | some served => queues.findIdx? (fun queue => served < queue.1)
  | none => (queues.map Queue.firstArrived).min?.bind (fun least => queues.findIdx? (fun queue => queue.firstArrived = least))

/-- The owners in the order of their turns, each with its commands by arrival. -/
def turns (commands : List Waiting) (served : Option String) : List Queue :=
  let queues : List Queue := (byOwner commands).entries.map (fun queue =>
    (queue.1, queue.2.mergeSort (fun a b => a.arrived ≤ b.arrived)))
  queues.rotate ((firstOwner queues served).getD 0)

/-- One command of each owner in every round. -/
def rounds (queues : List Queue) : List Waiting :=
  (List.range ((queues.map (fun queue => queue.2.length)).max?.getD 0)).flatMap (fun turn =>
    queues.filterMap (fun queue => queue.2[turn]?))

def line (members : List Observation) (reason : WaitReason) (served : Option String) : List Waiting :=
  rounds (turns (waiting members reason) served)

/-! ### Continuing -/

def findEntry (members : List Observation) (command : Waiting) : Option Entry :=
  entryAt members command.member command.pid

/-- Both resources have room: what it waited for, and the other one for the peak it is known to reach. -/
def fits (unit : String) (room : Room) (state : State) (reason : WaitReason) (entry : Entry) : Bool :=
  let (memory, disk) :=
    match reason with
    | .memory => (entry.need room reason, entry.writesAhead room)
    | .disk => (entry.memoryAhead room, entry.need room reason)
  (memory ≤ state.memoryRoom unit room || !state.heavyRunning) &&
    (entry.disk room).all (fun volume => disk ≤ state.spare unit room volume)

/-- The first command that fits; a command that is gone ends the search. -/
def firstFitting (room : Room) (reason : WaitReason) (pass : Pass) : List Waiting → Option (Waiting × Entry)
  | [] => none
  | command :: rest =>
    match findEntry pass.members command with
    | none => none
    | some entry =>
      if fits command.unit room pass.state reason entry then some (command, entry)
      else firstFitting room reason pass rest

/-- With the owner that was served; `settling` says that a command continued just now. -/
def resume (room : Room) (reason : WaitReason) (served : Option String) (settling : Bool) (pass : Pass) :
    Pass × Option String :=
  if settling then (pass, served)
  else
    match firstFitting room reason pass (line pass.members reason served) with
    | none => (pass, served)
    | some (command, entry) =>
      (pass.update command.member command.pid { entry with wait := none, admitted := true }
        (some ⟨command.unit, entry, pass.state, pass.state.start command.unit room entry⟩), some command.unit)

/-- A growing command other than the oldest, with its rate. -/
def growingRate (room : Room) (oldest : Option Nat) (entry : Entry) (command : CommandUse) : Option Nat :=
  if room.light ≤ entry.resident ∧ growing ≤ command.growth ∧ some entry.arrived ≠ oldest then some command.growth
  else none

/-- A pass after a sample of the member `current`. -/
def pass (members : List Observation) (current : Nat) (room : Room) (served : WaitReason → Option String)
    (settling : WaitReason → Bool) : Pass :=
  let held := hold current room ⟨members, State.read members room, []⟩
  let paused := if room.tight then pause .memory (growingRate room held.state.oldest) held else held
  let resumed :=
    if !room.tight || !paused.state.heavyRunning then
      (resume room .memory (served .memory) (settling .memory) paused).1
    else paused
  (resume room .disk (served .disk) (settling .disk) resumed).1

end Chariox.Admission
