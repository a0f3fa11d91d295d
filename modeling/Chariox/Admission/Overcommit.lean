import Chariox.Admission.Accounting
import Chariox.Admission.Line

/-!
# Commands start within the room

A new command that may wait starts, and a waiting one continues, only with room for what it still has ahead.  What it
has ahead is reserved at once, so the next decision of the pass sees it.  No command with growth ahead runs after a pass
that did not run before it, or start in it.
-/

namespace Chariox.Admission

open OrdMap Account List

variable {room : Room}

/-! ### What a start reserves -/

namespace State

variable (s : State) (unit : String) (room : Room) {entry : Entry}

theorem memory_start : (s.start unit room entry).memory =
    s.memory.reserve (launchBytes room) u64Max (unit, entry.memoryAhead room) := by
  refine (memory_running ..).trans ?_
  rw [← memory_reserveMemory]
  rcases entry.disk room with _ | disk <;> rfl

theorem volume_start {disk : Disk} (h : entry.disk room = some disk) : (s.start unit room entry).volume disk.id =
    (s.volume disk.id).reserve (launchWrites room disk.id) u64Max (unit, entry.writesAhead room) := by
  refine (volume_running ..).trans ?_
  rw [h]
  exact (volume_reserveDisk ..).trans (if_pos rfl)

end State

/-- There was room for what a command has ahead when it started. -/
def Start.HasRoom (start : Start) (room : Room) : Prop :=
  (start.before.heavyRunning = true → start.entry.memoryAhead room ≤ start.before.memoryRoom start.unit room) ∧
    ∀ disk, start.entry.disk room = some disk →
      start.entry.writesAhead room ≤ start.before.spare start.unit room disk

/-- A start reserves what the command has ahead, and one that may wait had the room for it. -/
def Start.Sound (start : Start) (room : Room) : Prop :=
  start.after = start.before.start start.unit room start.entry ∧ (start.entry.holdable = true → start.HasRoom room)

/-- Every start finds the reading that the one before it left. -/
def Linked : State → List Start → State → Prop
  | first, [], last => first = last
  | first, start :: starts, last => start.before = first ∧ Linked start.after starts last

variable {sts : List Start}

theorem Linked.concat {first : State} {st : Start} (h : Linked first sts st.before) :
    Linked first (sts ++ [st]) st.after := by
  induction sts generalizing first with
  | nil => exact ⟨h.symm, rfl⟩
  | cons x sts ih => exact ⟨h.1, ih h.2⟩

/-- A command that runs with growth ahead, and was not refused, ran before the pass or is one of the starts. -/
def Covered (members : List Observation) (room : Room) (starts : List Start) (member pid : Nat) (entry : Entry) : Prop :=
  entry.counted = true → entry.refused = none → 0 < entry.memoryAhead room ∨ 0 < entry.writesAhead room →
    entryAt members member pid = some entry ∨ ∃ start ∈ starts, members[member]?.map Observation.unit = some start.unit ∧
      entry = { start.entry with wait := none, admitted := true }

structure Pass.Sound (members : List Observation) (room : Room) (pass : Pass) : Prop where
  linked : Linked (State.read members room) pass.starts pass.state
  starts : ∀ start ∈ pass.starts, start.Sound room
  units : pass.members.map Observation.unit = members.map Observation.unit
  covered : ∀ member pid entry, entryAt pass.members member pid = some entry →
    Covered members room pass.starts member pid entry

variable {ms : List Observation} {p : Pass} {s : State} {unit : String} {entry : Entry} {rsn : WaitReason}

theorem Covered.append {i k : Nat} (h : Covered ms room sts i k entry) (more : List Start) :
    Covered ms room (sts ++ more) i k entry := fun hc hr hg =>
  (h hc hr hg).imp_right fun ⟨x, hx, hs⟩ => ⟨x, mem_append_left _ hx, hs⟩

theorem Pass.Sound.update (h : p.Sound ms room) {member pid : Nat} {e : Entry} {st : Option Start}
    (hs : ∀ x ∈ st, x.before = p.state ∧ x.Sound room) (hc : Covered ms room (p.starts ++ st.toList) member pid e) :
    (p.update member pid e st).Sound ms room := by
  refine ⟨?_, fun x hx => ?_, (map_unit_update ..).trans h.units, fun i k e' he => ?_⟩
  · rcases st with _ | x
    · simpa [Pass.update] using h.linked
    · exact Linked.concat ((hs x rfl).1 ▸ h.linked)
  · rcases mem_append.1 hx with hx | hx
    · exact h.starts x hx
    · exact (hs x (Option.mem_toList.1 hx)).2
  · rw [entryAt_update] at he
    split at he
    · rename_i hik
      obtain ⟨rfl, rfl⟩ := hik
      obtain ⟨_, -, rfl⟩ := Option.map_eq_some_iff.1 he
      exact hc
    · exact (h.covered i k e' he).append _

/-- A new command that is not held has room. -/
theorem heldFor_eq_none {exp : Peak} (he : entry.expected = some exp) (hho : entry.holdable = true)
    (h : heldFor unit room s entry exp = none) : Start.HasRoom ⟨unit, entry, s, s.start unit room entry⟩ room := by
  simp only [heldFor, hho, Bool.not_true, Bool.false_eq_true, ↓reduceIte] at h
  split at h
  · cases h
  rename_i hm
  refine ⟨fun hh => ?_, fun disk hd => ?_⟩
  · by_cases hl : room.light ≤ exp.memory
    · exact Nat.le_of_not_lt fun hlt => hm ⟨hl, hlt, hh⟩
    · simp [Entry.memoryAhead, he, hl]
  · simp only [ite_eq_right_iff, reduceCtorEq, imp_false] at h
    simpa [hd] using h

theorem holdEntry_start {x : Start} (h : x ∈ (holdEntry unit room s entry).2) : x.before = s ∧ x.Sound room := by
  unfold holdEntry at h
  split at h
  · cases h
  split at h
  · cases h
  rename_i exp he
  split at h
  · split at h <;> cases h
  split at h
  · cases h
  rename_i hh
  obtain rfl := Option.some.inj h
  exact ⟨rfl, rfl, fun hho => heldFor_eq_none he hho hh⟩

/-- A new command runs with growth ahead only if it starts. -/
theorem holdEntry_covered {i k : Nat} (hm : ms[i]?.map Observation.unit = some unit) (he : entryAt ms i k = some entry)
    (sts : List Start) : Covered ms room (sts ++ (holdEntry unit room s entry).2.toList) i k
      (holdEntry unit room s entry).1 := by
  unfold holdEntry
  split
  · exact fun _ _ _ => .inl he
  rename_i hskip
  simp only [Bool.or_eq_true, not_or, Bool.not_eq_true, Option.isSome_eq_false_iff, Option.isNone_iff_eq_none] at hskip
  split
  · rename_i hex
    intro _ _ hg
    simp [hex, Entry.memoryAhead, Entry.writesAhead] at hg
  split
  · split
    · intro _ hr
      cases hr
    · intro hc
      simp [Entry.counted, hskip] at hc
  split
  · intro hc
    simp [Entry.counted] at hc
  · refine fun _ _ _ => .inr ⟨_, mem_append_right _ (mem_singleton.2 rfl), hm, ?_⟩
    rw [← hskip.2]

theorem Pass.Sound.hold (h : p.Sound ms room) (hms : p.members = ms) (cur : Nat) : (hold cur room p).Sound ms room := by
  unfold Admission.hold
  split
  · exact h
  rename_i m hm
  rw [hms] at hm
  refine foldlRecOn m.admission.entries _ h fun p hp command hc => ?_
  have he : entryAt ms cur command.1 = some command.2 := by
    rw [entryAt, hm]
    exact mem_entries.1 hc
  exact hp.update (fun x hx => holdEntry_start hx) (holdEntry_covered (by rw [hm]; rfl) he _)

/-- A paused command does not run. -/
theorem Pass.Sound.pause (h : p.Sound ms room) (rsn : WaitReason) (pausable : Entry → CommandUse → Option Nat) :
    (pause rsn pausable p).Sound ms room := by
  unfold Admission.pause
  split
  · exact h
  split
  · exact h
  · refine h.update (fun x hx => by cases hx) fun hc => ?_
    simp [Entry.counted] at hc

/-- What a waiting command needs covers what it has ahead. -/
theorem le_need {peak : Peak} (h : entry.expected = some peak) :
    peak.memory - entry.resident ≤ entry.need room .memory ∧ peak.volumeWrites - entry.writes ≤ entry.need room .disk := by
  have hmax : ∀ n m : Nat, n ≤ max (((some n).filter (0 < ·)).getD room.growthRoom) m := by
    intro n m
    by_cases hn : 0 < n
    · simp [Option.filter, hn]
    · omega
  unfold Entry.need
  rw [h]
  rcases entry.wait with _ | (w | w)
  · exact ⟨hmax _ _, hmax _ _⟩
  · exact ⟨le_refl _, le_refl _⟩
  · exact ⟨hmax _ _, hmax _ _⟩

theorem memoryAhead_le_need : entry.memoryAhead room ≤ entry.need room .memory := by
  unfold Entry.memoryAhead
  split
  · split
    · exact (le_need ‹_›).1
    · exact Nat.zero_le _
  · exact Nat.zero_le _

theorem writesAhead_le_need : entry.writesAhead room ≤ entry.need room .disk := by
  unfold Entry.writesAhead
  split
  · split
    · exact (le_need ‹_›).2
    · exact Nat.zero_le _
  · exact Nat.zero_le _

/-- A waiting command that fits has room. -/
theorem hasRoom_of_fits (h : fits unit room s rsn entry = true) :
    Start.HasRoom ⟨unit, entry, s, s.start unit room entry⟩ room := by
  cases rsn with
  | memory =>
    simp only [fits, Bool.and_eq_true, Bool.or_eq_true, decide_eq_true_eq, Option.all_eq_true] at h
    refine ⟨fun hh => ?_, h.2⟩
    rcases h.1 with hm | hm
    · exact memoryAhead_le_need.trans hm
    · exact absurd hh (by simpa using hm)
  | disk =>
    simp only [fits, Bool.and_eq_true, Bool.or_eq_true, decide_eq_true_eq, Option.all_eq_true] at h
    refine ⟨fun hh => ?_, fun disk hd => writesAhead_le_need.trans (h.2 disk hd)⟩
    rcases h.1 with hm | hm
    · exact hm
    · exact absurd hh (by simpa using hm)

theorem of_firstFitting {l : List Waiting} {c : Waiting × Entry} (h : firstFitting room rsn p l = some c) :
    c.1 ∈ l ∧ fits c.1.unit room p.state rsn c.2 = true := by
  fun_induction firstFitting room rsn p l with
  | case1 => cases h
  | case2 => cases h
  | case3 cmd rest e hg hf =>
    cases h
    exact ⟨mem_cons_self, hf⟩
  | case4 cmd rest e hg hf ih => exact ⟨mem_cons_of_mem _ (ih h).1, (ih h).2⟩

theorem Pass.Sound.resume (h : p.Sound ms room) (rsn : WaitReason) (served : Option String) (settling : Bool) :
    (resume room rsn served settling p).1.Sound ms room := by
  unfold Admission.resume
  split
  · exact h
  split
  · exact h
  · rename_i command e hf
    obtain ⟨hl, hfit⟩ := of_firstFitting hf
    refine h.update (fun x hx => ?_) fun _ _ _ => .inr ⟨_, mem_append_right _ (mem_singleton.2 rfl), ?_, rfl⟩
    · obtain rfl := Option.some.inj hx
      exact ⟨rfl, rfl, fun _ => hasRoom_of_fits hfit⟩
    · rw [← getElem?_map, ← h.units, getElem?_map]
      exact (exists_of_waiting ((line_perm _ served).mem_iff.1 hl)).1

theorem pass_sound (ms : List Observation) (cur : Nat) (room : Room) (sv : WaitReason → Option String)
    (settling : WaitReason → Bool) : (pass ms cur room sv settling).Sound ms room := by
  have hread : Pass.Sound ms room ⟨ms, State.read ms room, []⟩ :=
    ⟨rfl, fun st h => absurd h not_mem_nil, rfl, fun i k e he _ _ _ => .inl he⟩
  have hheld := hread.hold rfl cur
  unfold pass
  refine Pass.Sound.resume ?_ ..
  generalize hold cur room _ = held at hheld ⊢
  have hpaused : (if room.tight then pause .memory (growingRate room held.state.oldest) held else held).Sound ms room := by
    split
    · exact hheld.pause ..
    · exact hheld
  generalize (if room.tight then pause .memory (growingRate room held.state.oldest) held else held) = paused at hpaused ⊢
  split
  · exact hpaused.resume ..
  · exact hpaused

/-! ### No overcommitment -/

theorem reserved_le {x : Start} (h : x.Sound room) (hho : x.entry.holdable = true)
    (hh : x.before.heavyRunning = true) : x.after.reserved ≤ max x.before.reserved room.memory := by
  change x.after.memory.total ≤ _
  rw [h.1, State.memory_start]
  exact reserve_total_le ((h.2 hho).1 hh)

theorem writes_le {x : Start} {disk : Disk} (h : x.Sound room) (hh : x.entry.holdable = true)
    (hd : x.entry.disk room = some disk) :
    (x.after.volume disk.id).total ≤ max (x.before.volume disk.id).total disk.aboveFloor := by
  rw [h.1, State.volume_start _ _ _ hd]
  exact reserve_total_le ((h.2 hh).2 disk hd)

theorem Linked.reserved_le {first last : State} (h : Linked first sts last)
    (hle : ∀ x ∈ sts, x.after.reserved ≤ max x.before.reserved room.memory) :
    last.reserved ≤ max first.reserved room.memory := by
  induction sts generalizing first with
  | nil => exact h ▸ le_max_left _ _
  | cons x sts ih =>
    obtain ⟨hx, hle⟩ := forall_mem_cons.1 hle
    have hlast := ih h.2 hle
    rw [h.1] at hx
    omega

/-- In every pass, a command that may wait and starts or continues while something heavy runs leaves the reserved memory
within the room or where it was, and does not take a volume it writes below its floor.  Every start reserves what its
command has ahead, the starts of a pass follow one another, and every command that runs after the pass with growth ahead,
and was not refused, ran before it or is one of the starts. -/
theorem pass_within_room (members : List Observation) (current : Nat) (room : Room) (served : WaitReason → Option String)
    (settling : WaitReason → Bool) :
    let p := pass members current room served settling
    Linked (State.read members room) p.starts p.state ∧
      (∀ x ∈ p.starts, x.after = x.before.start x.unit room x.entry ∧
        (x.entry.holdable = true → x.before.heavyRunning = true →
          x.after.reserved ≤ max x.before.reserved room.memory ∧
            ∀ disk, x.entry.disk room = some disk →
              (x.before.disk.get disk.id).getD 0 + disk.floor ≤ disk.free →
              (x.after.disk.get disk.id).getD 0 + disk.floor ≤ disk.free)) ∧
      ((∀ x ∈ p.starts, x.entry.holdable = true ∧ x.before.heavyRunning = true) →
        p.state.reserved ≤ max (State.read members room).reserved room.memory) ∧
      p.members.map Observation.unit = members.map Observation.unit ∧
      ∀ member pid entry, entryAt p.members member pid = some entry →
        Covered members room p.starts member pid entry := by
  intro p
  have hp : p.Sound members room := pass_sound ..
  refine ⟨hp.linked, fun x hx => ⟨(hp.starts x hx).1, fun hh hhe => ⟨reserved_le (hp.starts x hx) hh hhe, ?_⟩⟩,
    fun ha => hp.linked.reserved_le fun x hx => reserved_le (hp.starts x hx) (ha x hx).1 (ha x hx).2, hp.units, hp.covered⟩
  intro disk hd hf
  have hle := writes_le (hp.starts x hx) hh hd
  simp only [State.volume, Disk.aboveFloor] at hle
  omega

end Chariox.Admission
