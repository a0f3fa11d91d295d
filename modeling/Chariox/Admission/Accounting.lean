import Chariox.Admission.Model

/-!
# What a reading reserves

A reading keeps one account of memory and one of each volume, by unit.  Every admitted command that runs is a
reservation against what the launches of its unit declared, so the sums are the larger of what was declared and what is
measured, unit by unit.
-/

namespace Chariox.Admission

open OrdMap Account List

/-! ### The accounts of a reading -/

namespace State

def memory (state : State) : Account String := ⟨state.reserved, fun unit => (state.memoryByUnit.get unit).getD 0⟩

def volume (state : State) (id : Nat) : Account String :=
  ⟨(state.disk.get id).getD 0, fun unit => (state.writesByUnit.get (toLex (unit, id))).getD 0⟩

/-- The memory that the launches of a unit declared. -/
def launchBytes (room : Room) (unit : String) : Nat := (room.launchMemory.get unit).getD 0

variable (s : State) (unit : String) (room : Room)

theorem getD_addTo {K : Type} [LinearOrder K] (m : OrdMap K Nat) (k k' : K) (n : Nat) :
    ((addTo m k n).get k').getD 0 = if k' = k then saturatingAdd ((m.get k).getD 0) n else (m.get k').getD 0 := by
  rw [addTo, get_insert]
  split <;> rfl

theorem memory_reserveMemory (n : Nat) :
    (s.reserveMemory unit room n).memory = s.memory.reserve (launchBytes room) u64Max (unit, n) := by
  refine congrArg (Account.mk _) (funext fun u => ?_)
  rw [Function.update_apply]
  exact getD_addTo ..

theorem volume_reserveDisk (disk : Disk) (n v : Nat) : (s.reserveDisk unit room disk n).volume v =
      if disk.id = v then (s.volume v).reserve (launchWrites room v) u64Max (unit, n) else s.volume v := by
  split
  · rename_i hv
    subst hv
    refine congrArg₂ Account.mk ?_ (funext fun u => ?_)
    · exact (getD_addTo ..).trans (if_pos rfl)
    · rw [Function.update_apply]
      refine (getD_addTo ..).trans ?_
      simp only [EmbeddingLike.apply_eq_iff_eq, Prod.mk.injEq, and_true]
      rfl
  · rename_i hv
    refine congrArg₂ Account.mk ?_ (funext fun u => ?_)
    · exact (getD_addTo ..).trans (if_neg (Ne.symm hv))
    · refine (getD_addTo ..).trans (if_neg fun h => hv ?_)
      exact (congrArg Prod.snd (toLex.injective h)).symm

@[simp] theorem memory_running (e : Entry) : (s.running room e).memory = s.memory := by
  unfold running
  split <;> rfl

@[simp] theorem volume_running (e : Entry) (v : Nat) : (s.running room e).volume v = s.volume v := by
  unfold running
  split <;> rfl

/-! ### The reservations of the commands -/

end State

/-- An admitted command that runs and has writes ahead on a volume. -/
def Entry.writesTo (entry : Entry) (room : Room) (volume : Nat) : Bool :=
  entry.counted && ((entry.disk room).filter (fun _ => 0 < entry.writesAhead room)).any (fun disk => disk.id = volume)

/-- The reservations of the commands that count, by unit. -/
def reservations (members : List Observation) (counts : Entry → Bool) (bytes : Entry → Nat) : List (String × Nat) :=
  ((State.visits members).filter (fun visit => counts visit.2)).map (fun visit => (visit.1, bytes visit.2))

/-- The memory that the running commands of a unit have ahead. -/
def measuredMemory (members : List Observation) (room : Room) : String → Nat :=
  amount (reservations members Entry.counted (Entry.memoryAhead · room))

/-- The writes that the running commands of a unit have ahead on a volume. -/
def measuredWrites (members : List Observation) (room : Room) (volume : Nat) : String → Nat :=
  amount (reservations members (Entry.writesTo · room volume) (Entry.writesAhead · room))

/-- The units that declared something or have commands. -/
def units (members : List Observation) (room : Room) : Finset String :=
  (room.launchMemory.keys ++ room.launches.keys ++ members.map Observation.unit).toFinset

variable {members members' : List Observation} {room : Room}

namespace State

theorem memory_readEntry (s : State) (vi : String × Entry) : (s.readEntry room vi).memory = if vi.2.counted then
      s.memory.reserve (launchBytes room) u64Max (vi.1, vi.2.memoryAhead room) else s.memory := by
  obtain ⟨unit, e⟩ := vi
  rcases hw : e.wait with _ | w
  · by_cases ha : e.admitted
    · simp only [readEntry, Entry.counted, hw, ha, ← memory_reserveMemory]
      refine (memory_running ..).trans ?_
      rcases (e.disk room).filter (fun _ => decide (0 < e.writesAhead room)) with _ | disk <;> rfl
    · simp [readEntry, Entry.counted, hw, ha]
  · simp [readEntry, Entry.counted, hw]

theorem volume_readEntry (v : Nat) (s : State) (vi : String × Entry) :
    (s.readEntry room vi).volume v = if vi.2.writesTo room v then
      (s.volume v).reserve (launchWrites room v) u64Max (vi.1, vi.2.writesAhead room) else s.volume v := by
  obtain ⟨unit, e⟩ := vi
  rcases hw : e.wait with _ | w
  · by_cases ha : e.admitted
    · simp only [readEntry, Entry.writesTo, Entry.counted, hw, ha]
      refine (volume_running ..).trans ?_
      rcases (e.disk room).filter (fun _ => decide (0 < e.writesAhead room)) with _ | disk
      · rfl
      · refine (volume_reserveDisk ..).trans ?_
        simp only [Option.any_some, decide_eq_true_eq, Option.isNone_none, Bool.and_self, Bool.true_and]
        rfl
    · simp [readEntry, Entry.writesTo, Entry.counted, hw, ha]
  · simp [readEntry, Entry.writesTo, Entry.counted, hw]

/-- An account of the reading is made by the reservations of the commands that count for it. -/
theorem account_foldl {acc : State → Account String} {dcl : String → Nat} {cn : Entry → Bool}
    {bs : Entry → Nat} (hs : ∀ s vi, acc (s.readEntry room vi) = if cn vi.2 then
      (acc s).reserve dcl u64Max (vi.1, bs vi.2) else acc s) (s : State) :
    acc ((visits members).foldl (fun s vi => s.readEntry room vi) s) =
      (reservations members cn bs).foldl (reserve dcl u64Max) (acc s) := by
  rw [reservations, foldl_map, foldl_filter]
  exact (foldl_hom acc fun s vi => (hs s vi).symm).symm

end State

/-! ### Sums -/

theorem foldl_saturatingAdd {l : List Nat} {n : Nat} (h : n + l.sum ≤ u64Max) : l.foldl saturatingAdd n = n + l.sum := by
  induction l generalizing n with
  | nil => rfl
  | cons b l ih =>
    rw [sum_cons, ← Nat.add_assoc] at h ⊢
    have hb : saturatingAdd n b = n + b := Nat.min_eq_left (by omega)
    rw [foldl_cons, hb]
    exact ih h

section

variable {K : Type} [LinearOrder K]

theorem amount_cons (r : K × Nat) (l : List (K × Nat)) (k : K) :
    amount (r :: l) k = (if r.1 = k then r.2 else 0) + amount l k := rfl

theorem amount_append (l l' : List (K × Nat)) (k : K) : amount (l ++ l') k = amount l k + amount l' k := by
  simp [amount]

variable {l : List (K × Nat)}

theorem getD_foldl_addTo {m : OrdMap K Nat} {k : K} (h : (m.get k).getD 0 + amount l k ≤ u64Max) :
    ((l.foldl (fun m r => addTo m r.1 r.2) m).get k).getD 0 = (m.get k).getD 0 + amount l k := by
  induction l generalizing m with
  | nil => rfl
  | cons r l ih =>
    have hget : ((addTo m r.1 r.2).get k).getD 0 = (m.get k).getD 0 + if r.1 = k then r.2 else 0 := by
      rw [State.getD_addTo]
      by_cases hk : r.1 = k
      · subst hk
        rw [amount_cons, if_pos rfl] at h
        rw [if_pos rfl, if_pos rfl]
        exact Nat.min_eq_left (by omega)
      · rw [if_neg (Ne.symm hk), if_neg hk, Nat.add_zero]
    rw [amount_cons, ← Nat.add_assoc, ← hget] at h ⊢
    exact ih h

theorem getD_addAll {k : K} (h : amount l k ≤ u64Max) : ((addAll l).get k).getD 0 = amount l k := by
  have hsum := getD_foldl_addTo (m := OrdMap.empty) (k := k) (l := l) (by simpa using h)
  rwa [get_empty, Option.getD_none, Nat.zero_add] at hsum

theorem exists_of_mem_keys_addAll {k : K} (h : k ∈ (addAll l).keys) : ∃ r ∈ l, r.1 = k := by
  have hfold : ∀ m : OrdMap K Nat, k ∈ (l.foldl (fun m r => addTo m r.1 r.2) m).keys → k ∈ m.keys ∨ ∃ r ∈ l, r.1 = k := by
    clear h
    induction l with
    | nil => exact fun m h => .inl h
    | cons r l ih =>
      intro m h
      rcases ih _ h with h | ⟨x, hx, rfl⟩
      · obtain ⟨n, hn⟩ := OrdMap.mem_keys.1 h
        rcases of_get_insert hn with ⟨rfl, -⟩ | ⟨-, hn⟩
        · exact .inr ⟨r, mem_cons_self, rfl⟩
        · exact .inl (OrdMap.mem_keys.2 ⟨n, hn⟩)
      · exact .inr ⟨x, mem_cons_of_mem _ hx, rfl⟩
  rcases hfold _ h with h | h
  · obtain ⟨n, hn⟩ := OrdMap.mem_keys.1 h
    cases hn
  · exact h

/-- A sum over the entries of a map is one over any keys outside of which nothing is counted. -/
theorem sum_entries {V : Type} {m : OrdMap K V} {t : Finset K} {g : K → Option V → Nat} (hn : ∀ k, g k none = 0)
    (h : ∀ k ∈ m.keys, k ∉ t → g k (m.get k) = 0) :
    (m.entries.map (fun e => g e.1 (some e.2))).sum = ∑ k ∈ t, g k (m.get k) := by
  have hkeys : (m.entries.map (fun e => g e.1 (some e.2))).sum = ∑ k ∈ m.keys.toFinset, g k (m.get k) := by
    rw [sum_toFinset _ m.keys_nodup, OrdMap.keys, map_map]
    refine congrArg sum (map_congr_left fun e he => ?_)
    simp only [Function.comp_apply, mem_entries.1 he]
  rw [hkeys]
  refine Finset.sum_congr_of_eq_on_inter (fun k hk => h k (mem_toFinset.1 hk)) (fun k _ hk => ?_) fun _ _ _ => rfl
  rcases hget : m.get k with _ | v
  · exact hn k
  · exact absurd (mem_toFinset.2 (OrdMap.mem_keys.2 ⟨v, hget⟩)) hk

end

/-! ### What was declared -/

theorem launchMemory_units {k : String} (h : k ∈ room.launchMemory.keys) : k ∈ units members room :=
  mem_toFinset.2 (mem_append_left _ (mem_append_left _ h))

theorem launches_units {k : String} (h : k ∈ room.launches.keys) : k ∈ units members room :=
  mem_toFinset.2 (mem_append_left _ (mem_append_right _ h))

theorem reservations_unit {cn : Entry → Bool} {bs : Entry → Nat} {r : String × Nat}
    (h : r ∈ reservations members cn bs) : r.1 ∈ units members room := by
  obtain ⟨vi, hv, rfl⟩ := mem_map.1 h
  obtain ⟨m, hm, hv⟩ := mem_flatMap.1 (mem_filter.1 hv).1
  obtain ⟨e, -, rfl⟩ := mem_map.1 hv
  exact mem_toFinset.2 (mem_append_right _ (mem_map_of_mem hm))

theorem amount_perm (h : members' ~ members) (cn : Entry → Bool) (bs : Entry → Nat) :
    amount (reservations members' cn bs) = amount (reservations members cn bs) :=
  funext fun _ => ((((h.flatMap_right _).filter _).map _).map _).sum_eq

theorem units_perm (h : members' ~ members) : units members' room = units members room :=
  toFinset_eq_of_perm _ _ (((h.map _).append_left _))

/-- An account that starts with what the units declared ends with the larger of that and what they use. -/
theorem account_read (acc : State → Account String) {dcl : String → Nat} {cn : Entry → Bool}
    {bs : Entry → Nat} (hst : ∀ s vi, acc (s.readEntry room vi) = if cn vi.2 then
      (acc s).reserve dcl u64Max (vi.1, bs vi.2) else acc s) {s : State}
    (hu : (acc s).used = fun _ => 0) (hs : ∑ unit ∈ units members room, dcl unit ≤ u64Max →
      (acc s).total = ∑ unit ∈ units members room, dcl unit)
    (h : ∑ unit ∈ units members room, max (dcl unit) (amount (reservations members cn bs) unit) ≤ u64Max) :
    (acc ((State.visits members).foldl (fun s vi => s.readEntry room vi) s)).total =
      ∑ unit ∈ units members room, max (dcl unit) (amount (reservations members cn bs) unit) := by
  have hzero : claimed dcl (units members room) (acc s).used = ∑ unit ∈ units members room, dcl unit := by
    rw [hu]
    exact Finset.sum_congr rfl fun unit _ => Nat.max_zero _
  have hle := (Finset.sum_le_sum fun unit _ => le_max_left (dcl unit) _).trans h
  rw [State.account_foldl hst, foldl_reserve (fun _ => reservations_unit) ((hs hle).trans hzero.symm)]
  · simp only [hu, Nat.zero_add, claimed]
  · simpa only [hu, Nat.zero_add, claimed] using h

theorem launchMemory_foldl (h : ∑ unit ∈ units members room, State.launchBytes room unit ≤ u64Max) :
    room.launchMemory.values.foldl saturatingAdd 0 = ∑ unit ∈ units members room, State.launchBytes room unit := by
  have hsum : room.launchMemory.values.sum = ∑ unit ∈ units members room, State.launchBytes room unit :=
    sum_entries (g := fun _ bs => bs.getD 0) (fun _ => rfl) fun k hk hno => absurd (launchMemory_units hk) hno
  rw [← hsum] at h ⊢
  exact (foldl_saturatingAdd (by simpa using h)).trans (Nat.zero_add _)

theorem launches_addAll {v : Nat} (h : ∑ unit ∈ units members room, State.launchWrites room v unit ≤ u64Max) :
    ((addAll (room.launches.values.map (fun la => (la.volume, la.writes)))).get v).getD 0 =
      ∑ unit ∈ units members room, State.launchWrites room v unit := by
  have hsum : amount (room.launches.values.map (fun la => (la.volume, la.writes))) v =
      ∑ unit ∈ units members room, State.launchWrites room v unit := by
    refine Eq.trans ?_ (sum_entries (m := room.launches)
      (g := fun _ la => (la.filter (fun l => l.volume = v)).elim 0 Reservation.writes) (fun _ => rfl)
      fun k hk hno => absurd (launches_units hk) hno)
    rw [amount, OrdMap.values, map_map, map_map]
    refine congrArg sum (map_congr_left fun e _ => ?_)
    by_cases hv : e.2.volume = v <;> simp [Option.filter, hv]
  rw [← hsum] at h ⊢
  exact getD_addAll h

/-! ### What goes beyond it -/

theorem reservations_cons (m : Observation) (ms : List Observation) (cn : Entry → Bool) (bs : Entry → Nat) :
    reservations (m :: ms) cn bs = (m.admission.values.filter cn).map (fun e => (m.unit, bs e)) ++ reservations ms cn bs := by
  simp [reservations, State.visits, filter_map, Function.comp_def]

theorem amount_memory (unit : String) : amount (memoryAmounts members room) unit = measuredMemory members room unit := by
  unfold measuredMemory memoryAmounts
  induction members with
  | nil => rfl
  | cons m ms ih =>
    rw [flatMap_cons, amount_append, ih, reservations_cons, amount_append]
    simp [amount]

theorem diskAmount_eq (unit : String) (e : Entry) : diskAmount room unit e =
    ((e.disk room).filter (fun _ => 0 < e.writesAhead room)).map (fun d => (toLex (unit, d.id), e.writesAhead room)) := by
  unfold diskAmount
  rcases hd : e.disk room with _ | d
  · simp
  have hahead : (e.expected.filter (fun peak => room.light ≤ peak.volumeWrites)).elim 0
      (fun peak => peak.volumeWrites - e.writes) = e.writesAhead room := by
    obtain ⟨peak, hp, hd⟩ := Option.bind_eq_some_iff.1 hd
    obtain ⟨_, -, hd⟩ := Option.bind_eq_some_iff.1 hd
    split at hd
    · cases hd
    obtain ⟨rv, hv, -⟩ := Option.bind_eq_some_iff.1 hd
    by_cases hl : room.light ≤ peak.volumeWrites <;> simp [Entry.writesAhead, Option.filter, hp, hv, hl]
  rw [hahead]
  by_cases hz : e.writesAhead room = 0
  · simp [hz]
  · simp [hz, Nat.pos_of_ne_zero hz]

theorem amount_disk (unit : String) (v : Nat) :
    amount (diskAmounts members room) (toLex (unit, v)) = measuredWrites members room v unit := by
  unfold measuredWrites diskAmounts
  induction members with
  | nil => rfl
  | cons m ms ih =>
    rw [flatMap_cons, amount_append, ih, reservations_cons, amount_append]
    congr 1
    -- command by command: one with a volume has the same writes ahead in both
    induction m.admission.values with
    | nil => rfl
    | cons e es ihe =>
      rw [filter_cons, filter_cons]
      by_cases hc : e.counted
      · rw [if_pos hc, filterMap_cons, diskAmount_eq]
        rcases hd : (e.disk room).filter (fun _ => decide (0 < e.writesAhead room)) with _ | d
        · rw [if_neg (by simp [Entry.writesTo, hd])]
          exact ihe
        by_cases hv : d.id = v
        · rw [if_pos (by simp [Entry.writesTo, hc, hd, hv])]
          simp [amount_cons, ihe, hv]
        · rw [if_neg (by simp [Entry.writesTo, hd, hv])]
          simp [amount_cons, ihe, hv]
      · rw [if_neg hc, if_neg (by simp [Entry.writesTo, hc])]
        exact ihe

section

variable {declared used : String → Nat}

theorem sum_max_eq (ks : Finset String) :
    ∑ k ∈ ks, max (declared k) (used k) = ∑ k ∈ ks, declared k + ∑ k ∈ ks, (used k - declared k) := by
  rw [← Finset.sum_add_distrib]
  exact Finset.sum_congr rfl fun k _ => by omega

theorem used_le {ks : Finset String} (h : ∑ k ∈ ks, max (declared k) (used k) ≤ u64Max) {k : String} (hk : k ∈ ks) :
    used k ≤ u64Max :=
  (le_claimed hk used).trans h

end

/-- What a launch sees reserved is what the units use beyond what their launches declared. -/
theorem reservedMemory_eq
    (h : ∑ unit ∈ units members room, max (State.launchBytes room unit) (measuredMemory members room unit) ≤ u64Max) :
    reservedMemory members room =
      ∑ unit ∈ units members room, (measuredMemory members room unit - State.launchBytes room unit) := by
  have hkeys : ∀ k ∈ (addAll (memoryAmounts members room)).keys, k ∈ units members room := by
    intro k hk
    obtain ⟨r, hr, rfl⟩ := exists_of_mem_keys_addAll hk
    obtain ⟨m, hm, hr⟩ := mem_flatMap.1 hr
    have hu : r.1 = m.unit := by
      rcases mem_cons.1 hr with rfl | hr
      · rfl
      · obtain ⟨e, -, rfl⟩ := mem_map.1 hr
        rfl
    exact hu ▸ mem_toFinset.2 (mem_append_right _ (mem_map_of_mem hm))
  have hsum := sum_entries (g := fun k n => n.getD 0 - State.launchBytes room k) (fun _ => Nat.zero_sub _)
    fun k hk hno => absurd (hkeys k hk) hno
  have hget := fun k hk => getD_addAll ((amount_memory k).trans_le (used_le h hk))
  rw [Finset.sum_congr rfl fun k hk => by rw [hget k hk, amount_memory]] at hsum
  rw [sum_max_eq] at h
  refine (foldl_saturatingAdd ?_).trans ((Nat.zero_add _).trans hsum)
  rw [Nat.zero_add]
  exact hsum.trans_le (by omega)

theorem reservedDisk_eq {v : Nat} (h : ∑ unit ∈ units members room,
    max (State.launchWrites room v unit) (measuredWrites members room v unit) ≤ u64Max) :
    ((reservedDisk members room).get v).getD 0 =
      ∑ unit ∈ units members room, (measuredWrites members room v unit - State.launchWrites room v unit) := by
  have hkeys : ∀ k ∈ (addAll (diskAmounts members room)).keys, (ofLex k).1 ∈ units members room := by
    intro k hk
    obtain ⟨r, hr, rfl⟩ := exists_of_mem_keys_addAll hk
    obtain ⟨m, hm, hr⟩ := mem_flatMap.1 hr
    obtain ⟨e, -, hr⟩ := mem_filterMap.1 hr
    rw [diskAmount_eq] at hr
    obtain ⟨d, -, rfl⟩ := Option.map_eq_some_iff.1 hr
    exact mem_toFinset.2 (mem_append_right _ (mem_map_of_mem hm))
  have hget := fun k hk => getD_addAll ((amount_disk k v).trans_le (used_le h hk))
  have hsum : amount ((addAll (diskAmounts members room)).entries.map (fun u =>
      ((ofLex u.1).2, u.2 - State.launchWrites room (ofLex u.1).2 (ofLex u.1).1))) v =
        ∑ unit ∈ units members room, (measuredWrites members room v unit - State.launchWrites room v unit) := by
    rw [amount, map_map]
    refine (sum_entries (t := (units members room).image (fun u => toLex (u, v))) (g := fun k n => if (ofLex k).2 = v then
      n.getD 0 - State.launchWrites room (ofLex k).2 (ofLex k).1 else 0) (fun _ => by simp) fun k hk hno => ?_).trans ?_
    · refine if_neg fun hv => hno (Finset.mem_image.2 ⟨_, hkeys k hk, ?_⟩)
      rw [← hv]
      rfl
    · rw [Finset.sum_image fun a _ b _ hab => congrArg Prod.fst (toLex.injective hab)]
      refine Finset.sum_congr rfl fun u hu => ?_
      rw [hget u hu, amount_disk]
      exact if_pos rfl
  rw [sum_max_eq] at h
  exact (getD_addAll (hsum.trans_le (by omega))).trans hsum

/-- The reserved memory, and the reserved writes of every volume, are the sums over the units of the larger of what the
launches declared and what the commands have ahead, in whatever order the units are visited.  They are what the launches
declared and what the ledger tells a new launch. -/
theorem read_reserved (hperm : members' ~ members)
    (hmem : ∑ unit ∈ units members room, max (State.launchBytes room unit) (measuredMemory members room unit) ≤ u64Max)
    (hdisk : ∀ v, ∑ unit ∈ units members room,
      max (State.launchWrites room v unit) (measuredWrites members room v unit) ≤ u64Max) :
    (State.read members' room).reserved =
        ∑ unit ∈ units members room, max (State.launchBytes room unit) (measuredMemory members room unit) ∧
      (∀ v, ((State.read members' room).disk.get v).getD 0 =
        ∑ unit ∈ units members room, max (State.launchWrites room v unit) (measuredWrites members room v unit)) ∧
      (State.read members' room).reserved =
        ∑ unit ∈ units members room, State.launchBytes room unit + reservedMemory members' room ∧
      ∀ v, ((State.read members' room).disk.get v).getD 0 =
        ∑ unit ∈ units members room, State.launchWrites room v unit + ((reservedDisk members' room).get v).getD 0 := by
  simp only [measuredMemory, measuredWrites, ← units_perm hperm, ← amount_perm hperm] at hmem hdisk ⊢
  have hread : (State.read members' room).memory.total = _ :=
    account_read State.memory State.memory_readEntry rfl launchMemory_foldl hmem
  have hvolume : ∀ v, ((State.read members' room).volume v).total = _ := fun v =>
    account_read (State.volume · v) (State.volume_readEntry v) rfl launches_addAll (hdisk v)
  refine ⟨hread, hvolume, hread.trans ?_, fun v => (hvolume v).trans ?_⟩
  · rw [reservedMemory_eq hmem, sum_max_eq]
    rfl
  · rw [reservedDisk_eq (hdisk v), sum_max_eq]
    rfl

/-- A compiler that was admitted and runs, with memory and writes on volume 1 ahead. -/
def compiler (memory writes : Nat) : Entry where
  arrived := 1
  wait := none
  admitted := true
  forced := false
  holdable := true
  seen := some 0
  expected := some ⟨memory, some ⟨[], 1⟩, writes, 0⟩
  pausedRate := 0
  resident := 0
  writes := 0
  refused := none

/-- A room with one volume in which one launch declared 10 bytes. -/
def smallRoom : Room where
  memory := 100
  tight := false
  light := 1
  growthRoom := 0
  capacity := 100
  volume := fun _ => some ⟨1, 2 ^ 40, 2 ^ 40⟩
  launches := OrdMap.empty
  launchMemory := OrdMap.ofList [("build", 10)]

def buildUnit : Observation := ⟨"build", [], OrdMap.ofList [(7, compiler 15 20)]⟩

def testUnit : Observation := ⟨"test", [], OrdMap.ofList [(9, compiler 7 3)]⟩

theorem read_reserved_compiler : (State.read [testUnit, buildUnit] smallRoom).reserved = 22 ∧
    ((State.read [testUnit, buildUnit] smallRoom).disk.get 1).getD 0 = 23 := by
  have hdisk : ∀ v, ∑ unit ∈ units [buildUnit, testUnit] smallRoom, max (State.launchWrites smallRoom v unit)
      (measuredWrites [buildUnit, testUnit] smallRoom v unit) ≤ u64Max := by
    intro v
    rcases v with _ | _ | v
    · decide +kernel
    · decide +kernel
    · have h : ∀ unit, max (State.launchWrites smallRoom (v + 2) unit)
          (measuredWrites [buildUnit, testUnit] smallRoom (v + 2) unit) = 0 := fun unit => rfl
      simp only [h, Finset.sum_const_zero, Nat.zero_le]
  have hread := read_reserved (Perm.swap buildUnit testUnit []) (by decide +kernel) hdisk
  exact ⟨hread.1.trans (by decide +kernel), (hread.2.1 1).trans (by decide +kernel)⟩

end Chariox.Admission
