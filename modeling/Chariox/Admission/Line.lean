import Chariox.Admission.Model

/-!
# The fair line

The line takes one command of every owner in each round, an owner's commands by arrival, and the owners in name order
from the one after the owner served last.  It holds every waiting command once, and the first one that fits continues.
-/

namespace Chariox.Admission

open OrdMap List

variable {cs : List Waiting} {served : Option String} {o : String} {c : Waiting}

def ofOwner (commands : List Waiting) (owner : String) : List Waiting :=
  commands.filter (fun command => command.unit = owner)

def byArrival (commands : List Waiting) (owner : String) : List Waiting :=
  (ofOwner commands owner).mergeSort (fun a b => a.arrived ≤ b.arrived)

def queueOf (commands : List Waiting) (owner : String) : Queue := (owner, byArrival commands owner)

theorem ofOwner_cons (c : Waiting) (cs : List Waiting) (o : String) :
    ofOwner (c :: cs) o = (if c.unit = o then [c] else []) ++ ofOwner cs o := by
  by_cases hu : c.unit = o <;> simp [ofOwner, hu]

theorem mem_byArrival : c ∈ byArrival cs o ↔ c ∈ cs ∧ c.unit = o := by
  rw [byArrival, (mergeSort_perm ..).mem_iff, ofOwner, mem_filter, decide_eq_true_eq]

theorem get_foldl_byOwner (m : OrdMap String (List Waiting)) (cs : List Waiting) (o : String) :
    (cs.foldl (fun ows cmd =>
      ows.insert cmd.unit ((ows.get cmd.unit).getD [] ++ [cmd])) m).get o =
      if ofOwner cs o = [] then m.get o else some ((m.get o).getD [] ++ ofOwner cs o) := by
  induction cs generalizing m with
  | nil => rfl
  | cons c cs ih =>
    rw [foldl_cons, ih, ofOwner_cons]
    by_cases hu : c.unit = o
    · subst hu
      by_cases hnil : ofOwner cs c.unit = [] <;> simp [hnil]
    · simp [hu, get_insert_of_ne _ (Ne.symm hu)]

theorem get_byOwner (cs : List Waiting) (o : String) : (byOwner cs).get o =
    if ofOwner cs o = [] then none else some (ofOwner cs o) :=
  get_foldl_byOwner OrdMap.empty cs o

theorem mem_keys_byOwner : o ∈ (byOwner cs).keys ↔ ∃ c ∈ cs, c.unit = o := by
  rw [OrdMap.mem_keys, get_byOwner]
  split
  · rename_i hn
    simp_all [ofOwner, filter_eq_nil_iff]
  · rename_i hn
    simp_all [ofOwner, filter_eq_nil_iff]

/-- Every owner with its commands by arrival, in name order. -/
theorem queues_eq (cs : List Waiting) : (byOwner cs).entries.map (fun q =>
    ((q.1, q.2.mergeSort (fun a b => a.arrived ≤ b.arrived)) : Queue)) =
      (byOwner cs).keys.map (queueOf cs) := by
  rw [OrdMap.keys, map_map]
  refine map_congr_left fun q hq => ?_
  have hget := mem_entries.1 hq
  rw [get_byOwner] at hget
  split at hget
  · cases hget
  · rw [← Option.some.inj hget]
    rfl

def turnOrder (commands : List Waiting) (served : Option String) : List String :=
  (byOwner commands).keys.rotate
    ((firstOwner ((byOwner commands).keys.map (queueOf commands)) served).getD 0)

theorem turns_eq (cs : List Waiting) (sv : Option String) : turns cs sv = (turnOrder cs sv).map (queueOf cs) := by
  rw [turns, queues_eq, turnOrder, map_rotate]

theorem mem_turnOrder : o ∈ turnOrder cs served ↔ ∃ c ∈ cs, c.unit = o := by
  rw [turnOrder, mem_rotate, mem_keys_byOwner]

theorem filterMap_range_getElem? {α : Type} {l : List α} {n : Nat} (h : l.length ≤ n) :
    (range n).filterMap (fun i => l[i]?) = l := by
  induction l generalizing n with
  | nil => simp
  | cons x l ih =>
    obtain ⟨n, rfl⟩ := Nat.exists_eq_add_one.2 (Nat.lt_of_lt_of_le (Nat.zero_lt_succ _) h)
    rw [range_succ_eq_map, filterMap_cons, getElem?_cons_zero, filterMap_map]
    exact congrArg (cons x) (ih (Nat.le_of_succ_le_succ h))

theorem mem_round {turn : Nat} (h : c ∈ (turns cs served).filterMap (fun q => q.2[turn]?)) :
    (byArrival cs c.unit)[turn]? = some c := by
  rw [turns_eq, filterMap_map] at h
  obtain ⟨ow, -, hg⟩ := mem_filterMap.1 h
  rwa [(mem_byArrival.1 (mem_of_getElem? hg)).2]

/-- A round has at most one command of an owner. -/
theorem filter_round {ows : List String} (hnd : ows.Nodup) (ho : o ∈ ows) (turn : Nat) :
    ((ows.map (queueOf cs)).filterMap (fun q => q.2[turn]?)).filter (fun c => c.unit = o) =
      (byArrival cs o)[turn]?.toList := by
  have hrest : ∀ l : List String, o ∉ l →
      ((l.map (queueOf cs)).filterMap (fun q => q.2[turn]?)).filter (fun c => c.unit = o) = [] := by
    refine fun l hl => filter_eq_nil_iff.2 fun c hc hu => hl ?_
    rw [filterMap_map] at hc
    obtain ⟨ow, how, hg⟩ := mem_filterMap.1 hc
    rwa [← of_decide_eq_true hu, (mem_byArrival.1 (mem_of_getElem? hg)).2]
  obtain ⟨l₁, l₂, rfl⟩ := append_of_mem ho
  obtain ⟨-, hnd, hd⟩ := nodup_append.1 hnd
  rw [map_append, map_cons, filterMap_append, filter_append, hrest l₁ fun hm => hd _ hm _ mem_cons_self rfl,
    nil_append, filterMap_cons]
  have hlast := hrest l₂ (nodup_cons.1 hnd).1
  rcases hg : (byArrival cs o)[turn]? with _ | c
  · simp only [queueOf, hg]
    exact hlast
  · have hu : decide (c.unit = o) = true := decide_eq_true (mem_byArrival.1 (mem_of_getElem? hg)).2
    simp only [queueOf, hg]
    rw [filter_cons, if_pos hu, hlast]
    rfl

theorem turnOrder_nodup (cs : List Waiting) (sv : Option String) : (turnOrder cs sv).Nodup :=
  nodup_rotate.2 (byOwner cs).keys_nodup

/-- The commands of an owner stand in the line by arrival, and are all there. -/
theorem filter_line (cs : List Waiting) (sv : Option String) (o : String) :
    (rounds (turns cs sv)).filter (fun c => c.unit = o) = byArrival cs o := by
  by_cases ho : o ∈ turnOrder cs sv
  · rw [rounds, filter_flatMap, turns_eq]
    simp only [filter_round (turnOrder_nodup cs sv) ho]
    rw [← filterMap_eq_flatMap_toList]
    exact filterMap_range_getElem? (le_max?_getD_of_mem (mem_map.2 ⟨queueOf cs o, mem_map_of_mem ho, rfl⟩))
  · have hnot : ∀ c ∈ cs, c.unit ≠ o := fun c hc hu => ho (mem_turnOrder.2 ⟨c, hc, hu⟩)
    have hnil : byArrival cs o = [] :=
      eq_nil_iff_forall_not_mem.2 fun c hc => hnot c (mem_byArrival.1 hc).1 (mem_byArrival.1 hc).2
    rw [hnil, filter_eq_nil_iff]
    intro c hc hu
    obtain ⟨turn, -, hr⟩ := mem_flatMap.1 hc
    exact hnot c (mem_byArrival.1 (mem_of_getElem? (mem_round hr))).1 (of_decide_eq_true hu)

theorem line_perm (cs : List Waiting) (sv : Option String) : rounds (turns cs sv) ~ cs := by
  refine perm_iff_count.2 fun c => ?_
  have hself : decide (c.unit = c.unit) = true := decide_eq_true rfl
  rw [← count_filter (p := fun d => decide (d.unit = c.unit)) hself, filter_line, byArrival,
    (mergeSort_perm ..).count_eq]
  exact count_filter hself

theorem exists_of_waiting {ms : List Observation} {rsn : WaitReason} (h : c ∈ waiting ms rsn) :
    ms[c.member]?.map Observation.unit = some c.unit ∧ ∃ entry, findEntry ms c = some entry := by
  obtain ⟨⟨m, i⟩, hm, hc⟩ := mem_flatMap.1 h
  obtain ⟨⟨pid, entry⟩, he, hc⟩ := mem_filterMap.1 hc
  have hi := mem_zipIdx_iff_getElem?.1 hm
  split at hc
  · obtain rfl := Option.some.inj hc
    refine ⟨congrArg _ hi, entry, ?_⟩
    simp only [findEntry, entryAt, hi]
    exact mem_entries.1 he
  · cases hc

variable {room : Room} {reason : WaitReason} {p : Pass} {l : List Waiting}

@[simp] theorem map_unit_update (p : Pass) (member pid : Nat) (e : Entry) (st : Option Start) :
    (p.update member pid e st).members.map Observation.unit = p.members.map Observation.unit := by
  refine ext_getElem? fun i => ?_
  rw [getElem?_map, getElem?_map, Pass.update, getElem?_modify]
  rcases p.members[i]? with _ | m
  · rfl
  · by_cases hi : member = i <;> simp [hi]

/-- The decision about a command changes its entry and no other. -/
theorem entryAt_update (p : Pass) (member pid : Nat) (e : Entry) (st : Option Start) (i k : Nat) :
    entryAt (p.update member pid e st).members i k =
      if member = i ∧ pid = k then p.members[i]?.map (fun _ => e) else entryAt p.members i k := by
  unfold entryAt Pass.update
  rw [getElem?_modify]
  rcases p.members[i]? with _ | m
  · simp
  · by_cases hi : member = i
    · by_cases hk : pid = k
      · simp [hi, hk]
      · simp [hi, hk, get_insert_of_ne _ (Ne.symm hk)]
    · simp [hi]

end Chariox.Admission
