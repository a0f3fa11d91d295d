import Mathlib

/-!
# Ordered finite maps

A finite map stored as the list of its entries in strictly increasing key order, so that iterating over the map
visits the keys in order and two maps with the same bindings are equal.  Every operation is described by what it
does to `get` (`get_insert`, `get_remove`, `get_retain`, `get_modify`, `get_mapValues`), and `mem_entries` passes
between bindings and entries.
-/

/-- A finite map with keys in increasing order. -/
structure OrdMap (K V : Type) [LinearOrder K] where
  entries : List (K × V)
  sorted : entries.Pairwise (fun p q => p.1 < q.1)

namespace OrdMap

open List

variable {K V W : Type} [LinearOrder K]

instance [DecidableEq V] : DecidableEq (OrdMap K V) := fun m m' =>
  decidable_of_iff (m.entries = m'.entries) (by cases m; cases m'; simp)

/-! ### Operations -/

def empty : OrdMap K V := ⟨[], List.Pairwise.nil⟩

def get (m : OrdMap K V) (k : K) : Option V := m.entries.lookup k

def contains (m : OrdMap K V) (k : K) : Bool := (m.get k).isSome

def keys (m : OrdMap K V) : List K := m.entries.map Prod.fst

def values (m : OrdMap K V) : List V := m.entries.map Prod.snd

def len (m : OrdMap K V) : Nat := m.entries.length

def isEmpty (m : OrdMap K V) : Bool := m.entries.isEmpty

/-- Ordered insertion into a list of entries; an entry of the same key is replaced. -/
def insertEntry (k : K) (v : V) : List (K × V) → List (K × V)
  | [] => [(k, v)]
  | (a, w) :: l => if k < a then (k, v) :: (a, w) :: l else if k = a then (k, v) :: l else (a, w) :: insertEntry k v l

variable {m : OrdMap K V} {l : List (K × V)} {weight : K → V → Nat} {k k' : K} {v : V}

theorem mem_insertEntry {p : K × V} (h : p ∈ insertEntry k v l) : p = (k, v) ∨ p ∈ l := by
  induction l with
  | nil => simpa [insertEntry] using h
  | cons q l ih =>
    unfold insertEntry at h
    split at h
    · simpa using h
    split at h
    · exact (mem_cons.1 h).imp_right (mem_cons_of_mem _)
    · rcases mem_cons.1 h with rfl | h
      · exact .inr mem_cons_self
      · exact (ih h).imp_right (mem_cons_of_mem _)

theorem insertEntry_sorted (k : K) (v : V) (h : l.Pairwise (fun p q => p.1 < q.1)) :
    (insertEntry k v l).Pairwise (fun p q => p.1 < q.1) := by
  induction l with
  | nil => simp [insertEntry]
  | cons q l ih =>
    rw [pairwise_cons] at h
    unfold insertEntry
    split
    · rename_i hlt
      rw [pairwise_cons, pairwise_cons]
      refine ⟨?_, h.1, h.2⟩
      intro p hp
      rcases mem_cons.1 hp with rfl | hp
      · exact hlt
      · exact hlt.trans (h.1 p hp)
    · split
      · rename_i heq
        subst heq
        exact pairwise_cons.2 ⟨h.1, h.2⟩
      rename_i hlt hne
      rw [pairwise_cons]
      refine ⟨?_, ih h.2⟩
      intro p hp
      rcases mem_insertEntry hp with rfl | hp
      · exact lt_of_le_of_ne (not_lt.1 hlt) (Ne.symm hne)
      · exact h.1 p hp

def insert (m : OrdMap K V) (k : K) (v : V) : OrdMap K V :=
  ⟨insertEntry k v m.entries, insertEntry_sorted k v m.sorted⟩

def retain (m : OrdMap K V) (p : K → V → Bool) : OrdMap K V :=
  ⟨m.entries.filter (fun e => p e.1 e.2), m.sorted.filter _⟩

def remove (m : OrdMap K V) (k : K) : OrdMap K V := m.retain (fun k' _ => decide (k' ≠ k))

def mapValues (m : OrdMap K V) (f : K → V → W) : OrdMap K W :=
  ⟨m.entries.map (fun e => (e.1, f e.1 e.2)), List.pairwise_map.2 m.sorted⟩

/-- Change the value of one key in place; nothing happens when the key is absent. -/
def modify (m : OrdMap K V) (k : K) (f : V → V) : OrdMap K V :=
  m.mapValues (fun k' v => if k' = k then f v else v)

/-- Insert `v` unless `k` already has a value. -/
def insertIfAbsent (m : OrdMap K V) (k : K) (v : V) : OrdMap K V :=
  if m.contains k then m else m.insert k v

/-- Collect a list of pairs; a later pair of the same key wins. -/
def ofList (l : List (K × V)) : OrdMap K V := l.foldl (fun m e => m.insert e.1 e.2) empty

/-! ### Bindings and entries -/

private theorem lookup_cons (k : K) (q : K × V) (l : List (K × V)) :
    (q :: l).lookup k = if k = q.1 then some q.2 else l.lookup k := by
  rw [List.lookup_cons]
  by_cases h : k = q.1
  · simp [h]
  · simp [h, beq_eq_false_iff_ne.2 h]

private theorem lookup_eq_some_iff_mem (h : l.Pairwise (fun p q => p.1 < q.1)) : l.lookup k = some v ↔ (k, v) ∈ l := by
  induction l with
  | nil => simp
  | cons q l ih =>
    obtain ⟨a, w⟩ := q
    rw [pairwise_cons] at h
    rw [lookup_cons]
    by_cases hka : k = a
    · subst hka
      have hnot : (k, v) ∉ l := fun hm => lt_irrefl _ (h.1 (k, v) hm)
      simp [hnot, eq_comm]
    · simp [hka, ih h.2]

theorem mem_entries : (k, v) ∈ m.entries ↔ m.get k = some v :=
  (lookup_eq_some_iff_mem m.sorted).symm

theorem mem_keys : k ∈ m.keys ↔ ∃ v, m.get k = some v := by
  simp [keys, mem_entries]

theorem mem_values : v ∈ m.values ↔ ∃ k, m.get k = some v := by
  simp [values, mem_entries]

theorem contains_iff : m.contains k = true ↔ ∃ v, m.get k = some v :=
  Option.isSome_iff_exists

theorem contains_eq_false : m.contains k = false ↔ m.get k = none := by
  unfold contains
  cases m.get k <;> simp

theorem not_contains (h : m.get k = none) : ¬ m.contains k = true := Bool.eq_false_iff.1 (contains_eq_false.2 h)

/-! ### What the operations do to `get` -/

@[simp] theorem get_empty (k : K) : (empty : OrdMap K V).get k = none := rfl

private theorem lookup_insertEntry : (insertEntry k v l).lookup k' = if k' = k then some v else l.lookup k' := by
  induction l with
  | nil => exact lookup_cons ..
  | cons q l ih =>
    unfold insertEntry
    split
    · exact lookup_cons ..
    split
    · rename_i heq
      rw [lookup_cons, lookup_cons, ← heq]
      split <;> rfl
    · rename_i hne
      rw [lookup_cons, lookup_cons, ih]
      by_cases h : k' = q.1
      · simp [h, Ne.symm hne]
      · simp [h]

section

variable (m : OrdMap K V)

theorem get_insert (k k' : K) (v : V) : (m.insert k v).get k' = if k' = k then some v else m.get k' :=
  lookup_insertEntry

theorem get_retain (p : K → V → Bool) (k : K) : (m.retain p).get k = (m.get k).filter (p k) := by
  ext w
  rw [← mem_entries, retain, mem_filter, mem_entries]
  exact (Option.filter_eq_some_iff ..).symm

theorem get_remove (k k' : K) : (m.remove k).get k' = if k' = k then none else m.get k' := by
  rw [remove, get_retain]
  by_cases h : k' = k
  · subst h
    cases m.get k' <;> simp
  · cases m.get k' <;> simp [h]

@[simp] theorem get_insert_self (k : K) (v : V) : (m.insert k v).get k = some v := by
  rw [get_insert, if_pos rfl]

@[simp] theorem get_remove_self (k : K) : (m.remove k).get k = none := by
  rw [get_remove, if_pos rfl]

theorem get_insert_of_ne (h : k' ≠ k) (v : V) : (m.insert k v).get k' = m.get k' := by
  rw [get_insert, if_neg h]

theorem get_remove_of_ne (h : k' ≠ k) : (m.remove k).get k' = m.get k' := by
  rw [get_remove, if_neg h]

end

theorem of_get_insert {w : V} (h : (m.insert k v).get k' = some w) :
    (k' = k ∧ w = v) ∨ (k' ≠ k ∧ m.get k' = some w) := by
  rw [get_insert] at h
  split at h
  · rename_i heq
    exact .inl ⟨heq, Option.some.inj h.symm⟩
  · rename_i hne
    exact .inr ⟨hne, h⟩

theorem of_get_remove {w : V} (h : (m.remove k).get k' = some w) : k' ≠ k ∧ m.get k' = some w := by
  rw [get_remove] at h
  split at h
  · cases h
  · rename_i hne
    exact ⟨hne, h⟩

/-- What holds of the new entry and of every old one holds of every entry. -/
theorem forall_insert {P : K → V → Prop} (hn : P k v) (ho : ∀ i x, m.get i = some x → P i x) (i : K) (x : V)
    (hg : (m.insert k v).get i = some x) : P i x := by
  rcases of_get_insert hg with ⟨rfl, rfl⟩ | ⟨-, hg⟩
  · exact hn
  · exact ho i x hg

/-- At most one entry has a property, also after an entry changes: the entry had it before, or none did. -/
theorem sole_insert {p : V → Prop} (h : ∀ i j x y, m.get i = some x → m.get j = some y → p x → p y → i = j)
    (hv : p v → (∃ old, m.get k = some old ∧ p old) ∨ ∀ i x, m.get i = some x → ¬ p x) {i j : K} {x y : V}
    (hi : (m.insert k v).get i = some x) (hj : (m.insert k v).get j = some y) (hx : p x) (hy : p y) : i = j := by
  have hoth : ∀ i x, i ≠ k → m.get i = some x → p v → ¬ p x := by
    intro i x hne hi hpv hx
    rcases hv hpv with ⟨old, ho, hp⟩ | hn
    · exact hne (h i k x old hi ho hx hp)
    · exact hn i x hi hx
  rcases of_get_insert hi with ⟨rfl, rfl⟩ | ⟨hne, hi'⟩ <;> rcases of_get_insert hj with ⟨rfl, rfl⟩ | ⟨hne', hj'⟩
  · rfl
  · exact absurd hy (hoth j y hne' hj' hx)
  · exact absurd hx (hoth i x hne hi' hy)
  · exact h i j x y hi' hj' hx hy

section

variable (m : OrdMap K V)

theorem get_mapValues (f : K → V → W) (k : K) : (m.mapValues f).get k = (m.get k).map (f k) := by
  ext w
  rw [← mem_entries, mapValues, mem_map]
  simp only [Prod.mk.injEq, Option.map_eq_some_iff, ← mem_entries]
  constructor
  · rintro ⟨⟨a, v⟩, hm, rfl, rfl⟩
    exact ⟨v, hm, rfl⟩
  · rintro ⟨v, hm, rfl⟩
    exact ⟨(k, v), hm, rfl, rfl⟩

theorem get_modify (k k' : K) (f : V → V) : (m.modify k f).get k' = if k' = k then (m.get k').map f else m.get k' := by
  rw [modify, get_mapValues]
  split
  · rfl
  · simp

theorem get_insertIfAbsent (k k' : K) (v : V) :
    (m.insertIfAbsent k v).get k' = if k' = k then some ((m.get k).getD v) else m.get k' := by
  unfold insertIfAbsent
  split
  · rename_i h
    obtain ⟨w, hw⟩ := contains_iff.1 h
    split
    · rename_i hk
      subst hk
      simp [hw]
    · rfl
  · rename_i h
    rw [Bool.not_eq_true, contains_eq_false] at h
    rw [get_insert, h]
    rfl

theorem contains_insert (k k' : K) (v : V) : (m.insert k v).contains k' = if k' = k then true else m.contains k' := by
  unfold contains
  rw [get_insert]
  split <;> rfl

theorem contains_remove (k k' : K) : (m.remove k).contains k' = if k' = k then false else m.contains k' := by
  unfold contains
  rw [get_remove]
  split <;> rfl

end

theorem contains_of_contains_remove (h : (m.remove k).contains k' = true) : m.contains k' = true := by
  rw [contains_remove] at h
  split at h
  · cases h
  · exact h

theorem contains_of_contains_insert {v' : V} (hg : m.get k = some v) (h : (m.insert k v').contains k' = true) :
    m.contains k' = true := by
  rw [contains_insert] at h
  split at h
  · rename_i heq
    exact contains_iff.2 ⟨v, heq ▸ hg⟩
  · exact h

theorem get_of_get_retain {p : K → V → Bool} (h : (m.retain p).get k = some v) : m.get k = some v := by
  rw [get_retain, Option.filter_eq_some_iff] at h
  exact h.1

/-- Two maps with the same bindings are equal. -/
theorem ext_get {m' : OrdMap K V} (h : ∀ k, m.get k = m'.get k) : m = m' := by
  have hmem : ∀ e, e ∈ m.entries ↔ e ∈ m'.entries := by
    rintro ⟨k, v⟩
    rw [mem_entries, mem_entries, h]
  have hnd : ∀ n : OrdMap K V, n.entries.Nodup := fun n => n.sorted.imp (fun hlt => by
    intro heq
    rw [heq] at hlt
    exact lt_irrefl _ hlt)
  have hperm : m.entries.Perm m'.entries := (perm_ext_iff_of_nodup (hnd m) (hnd m')).2 hmem
  have heq : m.entries = m'.entries :=
    hperm.eq_of_pairwise (fun a b _ _ hab hba => absurd (hab.trans hba) (lt_irrefl _)) m.sorted m'.sorted
  cases m
  cases m'
  simpa using heq

/-! ### Maps collected from a list -/

/-! ### Sums over the bindings -/

/-- The sum of a weight over the bindings. -/
def sumBy (m : OrdMap K V) (weight : K → V → Nat) : Nat := (m.entries.map (fun e => weight e.1 e.2)).sum

theorem len_eq_sumBy (m : OrdMap K V) : m.len = m.sumBy (fun _ _ => 1) := by
  simp [len, sumBy]

theorem eq_insert_remove (h : m.get k = some v) : (m.remove k).insert k v = m := by
  apply ext_get
  intro k'
  rw [get_insert, get_remove]
  split
  · rename_i hk
    rw [hk, h]
  · rfl

theorem insert_remove (m : OrdMap K V) (k : K) (v : V) : (m.remove k).insert k v = m.insert k v := by
  apply ext_get
  intro k'
  rw [get_insert, get_insert, get_remove]
  split <;> rfl

theorem insert_insert (m : OrdMap K V) (k : K) (v w : V) : (m.insert k v).insert k w = m.insert k w := by
  apply ext_get
  intro k'
  simp only [get_insert]
  split <;> rfl

theorem remove_of_none (h : m.get k = none) : m.remove k = m := by
  apply ext_get
  intro k'
  rw [get_remove]
  split
  · rename_i hk
    rw [hk, h]
  · rfl

private theorem insertEntry_perm (h : l.lookup k = none) : insertEntry k v l ~ (k, v) :: l := by
  induction l with
  | nil => exact .refl _
  | cons q l ih =>
    rw [lookup_cons] at h
    unfold insertEntry
    split
    · exact .refl _
    split
    · rename_i heq
      simp [heq] at h
    rename_i hne
    rw [if_neg hne] at h
    exact ((ih h).cons q).trans (.swap ..)

theorem entries_insert_of_none (h : m.get k = none) (v : V) : (m.insert k v).entries ~ (k, v) :: m.entries :=
  insertEntry_perm h

theorem entries_insert (m : OrdMap K V) (k : K) (v : V) : (m.insert k v).entries ~ (k, v) :: (m.remove k).entries := by
  rw [← insert_remove]
  exact entries_insert_of_none (get_remove_self m k) v

theorem entries_of_some (h : m.get k = some v) : m.entries ~ (k, v) :: (m.remove k).entries := by
  conv_lhs => rw [← eq_insert_remove h]
  exact entries_insert_of_none (get_remove_self m k) v

section

variable (weight : K → V → Nat)

theorem sumBy_insert_of_none (h : m.get k = none) (v : V) :
    (m.insert k v).sumBy weight = m.sumBy weight + weight k v := by
  unfold sumBy
  rw [((entries_insert_of_none h v).map _).sum_eq, map_cons, sum_cons, Nat.add_comm]

theorem sumBy_remove_of_some (h : m.get k = some v) : (m.remove k).sumBy weight + weight k v = m.sumBy weight := by
  rw [← sumBy_insert_of_none weight (get_remove_self m k) v, eq_insert_remove h]

theorem sumBy_insert_of_some (h : m.get k = some v) (w : V) :
    (m.insert k w).sumBy weight + weight k v = m.sumBy weight + weight k w := by
  have hold := sumBy_remove_of_some weight h
  rw [← insert_remove m k w, sumBy_insert_of_none weight (get_remove_self m k)]
  omega

end

omit [LinearOrder K] in
private theorem sum_filter_eq {p : K × V → Bool} (h : ∀ e ∈ l, p e = false → weight e.1 e.2 = 0) :
    ((l.filter p).map (fun e => weight e.1 e.2)).sum = (l.map (fun e => weight e.1 e.2)).sum := by
  induction l with
  | nil => rfl
  | cons e l ih =>
    have hrest := ih fun e' he' => h e' (mem_cons_of_mem e he')
    rw [filter_cons]
    split
    · simp only [map_cons, sum_cons]
      omega
    rename_i hp
    have hzero := h e mem_cons_self (by simpa using hp)
    simp only [map_cons, sum_cons]
    omega

theorem sumBy_retain_le (m : OrdMap K V) (p : K → V → Bool) (weight : K → V → Nat) :
    (m.retain p).sumBy weight ≤ m.sumBy weight :=
  (filter_sublist.map _).sum_le_sum fun _ _ => Nat.zero_le _

/-- Dropping bindings without weight keeps the sum. -/
theorem sumBy_retain {p : K → V → Bool}
    (h : ∀ k v, m.get k = some v → p k v = false → weight k v = 0) : (m.retain p).sumBy weight = m.sumBy weight :=
  sum_filter_eq fun e he hp => h e.1 e.2 (mem_entries.1 he) hp

theorem sumBy_congr {weight' : K → V → Nat}
    (h : ∀ k v, m.get k = some v → weight k v = weight' k v) : m.sumBy weight = m.sumBy weight' := by
  unfold sumBy
  congr 1
  exact map_congr_left fun e he => h e.1 e.2 (mem_entries.1 he)

theorem sumBy_eq_zero (h : ∀ k v, m.get k = some v → weight k v = 0) : m.sumBy weight = 0 := by
  have hnone : (m.retain fun _ _ => false).sumBy weight = m.sumBy weight := sumBy_retain fun k v hg _ => h k v hg
  rw [← hnone]
  unfold sumBy retain
  simp

/-! ### The number of bindings -/

theorem len_retain_le (m : OrdMap K V) (p : K → V → Bool) : (m.retain p).len ≤ m.len := by
  rw [len_eq_sumBy, len_eq_sumBy]
  exact sumBy_retain_le m p _

theorem len_remove_le (m : OrdMap K V) (k : K) : (m.remove k).len ≤ m.len := len_retain_le m _

theorem len_insert_of_none (h : m.get k = none) (v : V) : (m.insert k v).len = m.len + 1 := by
  rw [len_eq_sumBy, len_eq_sumBy]
  exact sumBy_insert_of_none (fun _ _ => 1) h v

theorem len_remove_of_some (h : m.get k = some v) : (m.remove k).len + 1 = m.len := by
  rw [len_eq_sumBy, len_eq_sumBy]
  exact sumBy_remove_of_some (fun _ _ => 1) h

theorem len_insert_of_some (h : m.get k = some v) (w : V) : (m.insert k w).len = m.len := by
  have hsum := sumBy_insert_of_some (fun _ _ => 1) h w
  rw [len_eq_sumBy, len_eq_sumBy]
  omega

theorem len_insert_le (m : OrdMap K V) (k : K) (v : V) : (m.insert k v).len ≤ m.len + 1 := by
  cases h : m.get k with
  | none => exact Nat.le_of_eq (len_insert_of_none h v)
  | some =>
    rw [len_insert_of_some h]
    omega

theorem keys_nodup (m : OrdMap K V) : m.keys.Nodup := by
  unfold keys
  rw [List.Nodup, pairwise_map]
  exact m.sorted.imp ne_of_lt

/-- The values with a property are at most those of another map, if only under new keys there is one that it has not. -/
theorem length_filter_values_le {m' : OrdMap K W} {p : V → Bool} {q : W → Bool} (new : List K)
    (h : ∀ k w, m'.get k = some w → q w = true → k ∈ new ∨ ∃ v, m.get k = some v ∧ p v = true) :
    (m'.values.filter q).length ≤ new.length + (m.values.filter p).length := by
  have hnd : ((m'.entries.filter fun e => q e.2).map Prod.fst).Nodup :=
    m'.keys_nodup.sublist (filter_sublist.map _)
  have hsubset : (m'.entries.filter fun e => q e.2).map Prod.fst ⊆
      new ++ (m.entries.filter fun e => p e.2).map Prod.fst := by
    intro k hk
    obtain ⟨⟨k', w⟩, he, rfl⟩ := mem_map.1 hk
    obtain ⟨he, hq⟩ := mem_filter.1 he
    rw [mem_append]
    rcases h k' w (mem_entries.1 he) hq with hn | ⟨v, hv, hp⟩
    · exact .inl hn
    · exact .inr (mem_map.2 ⟨(k', v), mem_filter.2 ⟨mem_entries.2 hv, hp⟩, rfl⟩)
  have hle := (hnd.subperm hsubset).length_le
  unfold values
  rw [filter_map, filter_map, length_map, length_map]
  rw [length_append, length_map, length_map] at hle
  exact hle

/-- The keys of the bindings that satisfy `p` and those of the other bindings make up all keys. -/
theorem count_filter_add_contains (m : OrdMap K V) (p : V → Bool) (k : K) :
    ((m.entries.filter (fun e => p e.2)).map Prod.fst).count k +
      (if (m.retain (fun _ v => !p v)).contains k = true then 1 else 0) = if m.contains k = true then 1 else 0 := by
  have hnd : ((m.entries.filter fun e => p e.2).map Prod.fst).Nodup :=
    m.keys_nodup.sublist (filter_sublist.map _)
  have hmem : k ∈ (m.entries.filter fun e => p e.2).map Prod.fst ↔ ∃ v, m.get k = some v ∧ p v = true := by
    simp only [mem_map, mem_filter, Prod.exists, exists_and_right, exists_eq_right, mem_entries]
  rw [hnd.count]
  unfold contains
  rw [get_retain]
  cases hget : m.get k with
  | none => simp [hmem, hget]
  | some v => cases hp : p v <;> simp [hmem, hget, hp]

end OrdMap
