import Chariox.AppInstallation.Model

/-!
# Versions of structured data

The version of a stored value is the revision of the change that wrote it.  A migration that is given up puts old values
back, but the revision of the data only moves forward; so a version number never comes to stand for a second value, and
the totals that the head row keeps are those of the stored values.
-/

namespace Chariox

open OrdMap List

namespace ManagedState

variable {V : Type} {C : StateCodec V} {s s' : ManagedState}

/-! ### Operations -/

/-- The operations on the data of an installation; what the row of the installation says is arbitrary each time. -/
inductive StateOp
  | apply (installation : Except InstallationError Installation) (scope : StateScope) (changes : StateChanges)
  | beginIn (generation source target : Nat)
  | step (installation : Except InstallationError Installation) (scope : StateScope) (schema : Nat)
  | rewind (installation : Except InstallationError Installation) (scope : StateScope)
  | restoreIn (generation : Nat)
  | finishIn (generation : Nat)

/-- The data after an operation that succeeds. -/
def StateOp.result (C : StateCodec V) (s : ManagedState) : StateOp → Option ManagedState
  | .apply installation scope changes => (s.apply C installation scope changes).toOption.map Prod.fst
  | .beginIn generation source target => (s.beginIn generation source target).toOption
  | .step installation scope schema => (s.step installation scope schema).toOption
  | .rewind installation scope => (s.rewind installation scope).toOption.map Prod.fst
  | .restoreIn generation => (s.restoreIn generation).toOption
  | .finishIn generation => (s.finishIn generation).toOption

def perform (C : StateCodec V) (s : ManagedState) (op : StateOp) : ManagedState := (op.result C s).getD s

def run (C : StateCodec V) (s : ManagedState) (ops : List StateOp) : ManagedState := ops.foldl (perform C) s

def revision (s : ManagedState) : Nat := (s.head.getD ⟨0, 0, 0⟩).revision

def entryBytes (key : String) (value : StateValue) : Nat := key.utf8ByteSize + value.text.utf8ByteSize

/-- The totals of a head row are those of the values, within the limits. -/
structure Counts (values : OrdMap String StateValue) (head : StateHead) : Prop where
  keys : head.keyCount = values.len
  bytes : head.payloadBytes = values.sumBy entryBytes
  keysLimit : head.keyCount ≤ maxKeys
  bytesLimit : head.payloadBytes ≤ maxStateBytes

/-! ### One change -/

theorem get_store (version : Nat) (vs : OrdMap String StateValue) (w : String × Option String) (key : String) :
    (store version vs w).get key = if key = w.1 then w.2.map (fun text => { version, text }) else vs.get key := by
  unfold store
  split
  · rename_i hn
    rw [get_remove, hn]
    rfl
  rename_i hs
  rw [get_insert, hs]
  rfl

variable {installation : Except InstallationError Installation} {values : OrdMap String StateValue}
variable {scope : StateScope} {generation : Nat}

/-- What is stored after the writes was written by one of them or was stored before. -/
theorem get_foldl_store {version : Nat} {ws : List (String × Option String)}
    {key : String} {value : StateValue} (h : (ws.foldl (store version) values).get key = some value) :
    (∃ text, (key, some text) ∈ ws ∧ value = { version, text }) ∨ values.get key = some value := by
  induction ws generalizing values with
  | nil => exact .inr h
  | cons w rest ih =>
    rcases ih h with ⟨text, hm, hvl⟩ | hs
    · exact .inl ⟨text, mem_cons_of_mem _ hm, hvl⟩
    rw [get_store] at hs
    split at hs
    · rename_i hk
      rw [Option.map_eq_some_iff] at hs
      obtain ⟨text, ht, rfl⟩ := hs
      refine .inl ⟨text, ?_, rfl⟩
      rw [hk, ← ht]
      exact mem_cons_self
    · exact .inr hs

theorem footprint_store (version : Nat) {w : String × Option String} (hs : values.get w.1 = s.values.get w.1) :
    s.footprint ((values.len : Int), (values.sumBy entryBytes : Int)) w =
      (((store version values w).len : Int), ((store version values w).sumBy entryBytes : Int)) := by
  unfold footprint store
  rw [← hs]
  cases hold : values.get w.1 with
  | none =>
    cases hnew : w.2 with
    | none =>
      rw [remove_of_none hold]
    | some text =>
      dsimp only
      have hlen := len_insert_of_none hold { version, text }
      have hsum := sumBy_insert_of_none entryBytes hold { version, text }
      have hent : entryBytes w.1 { version, text } = w.1.utf8ByteSize + text.utf8ByteSize := rfl
      refine Prod.ext ?_ ?_
      · omega
      · omega
  | some old =>
    have holdEntry : entryBytes w.1 old = w.1.utf8ByteSize + old.text.utf8ByteSize := rfl
    cases hnew : w.2 with
    | none =>
      dsimp only
      have hlen := len_remove_of_some hold
      have hsum := sumBy_remove_of_some entryBytes hold
      refine Prod.ext ?_ ?_
      · show (values.len : Int) - 1 = _
        omega
      · show (values.sumBy entryBytes : Int) - (w.1.utf8ByteSize + old.text.utf8ByteSize) = _
        omega
    | some text =>
      dsimp only
      have hlen := len_insert_of_some hold { version, text }
      have hsum := sumBy_insert_of_some entryBytes hold { version, text }
      have hent : entryBytes w.1 { version, text } = w.1.utf8ByteSize + text.utf8ByteSize := rfl
      refine Prod.ext ?_ ?_
      · omega
      · omega

/-- The footprints are computed on the values before the change; every key is written once, so they add up. -/
theorem foldl_footprint (ver : Nat) {ws : List (String × Option String)}
    (hd : (ws.map Prod.fst).Nodup) (hs : ∀ w ∈ ws, values.get w.1 = s.values.get w.1) :
    ws.foldl s.footprint ((values.len : Int), (values.sumBy entryBytes : Int)) =
      (((ws.foldl (store ver) values).len : Int), ((ws.foldl (store ver) values).sumBy entryBytes : Int)) := by
  induction ws generalizing values with
  | nil => rfl
  | cons w rest ih =>
    rw [map_cons, nodup_cons] at hd
    rw [foldl_cons, footprint_store ver (hs w mem_cons_self)]
    apply ih hd.2
    intro o ho
    have hne : o.1 ≠ w.1 := by
      intro heq
      exact hd.1 (heq ▸ mem_map_of_mem ho)
    rw [get_store, if_neg hne]
    exact hs o (mem_cons_of_mem _ ho)

theorem apply_spec {chs : StateChanges} {n : Nat} (h : s.apply C installation scope chs = .ok (s', n)) :
    (chs.writes = [] ∧ s' = s) ∨
      ∃ keys bs : Nat, s' = { s with
          head := some { revision := s.revision + 1, keyCount := keys, payloadBytes := bs }
          values := chs.writes.foldl (store (s.revision + 1)) s.values } ∧
        chs.writes.foldl s.footprint
          (((s.head.getD ⟨0, 0, 0⟩).keyCount : Int), ((s.head.getD ⟨0, 0, 0⟩).payloadBytes : Int)) =
          ((keys : Int), (bs : Int)) ∧ keys ≤ maxKeys ∧ bs ≤ maxStateBytes := by
  obtain ⟨sch, -, h⟩ := of_bind_ok h
  have h := of_check h
  have h := of_check h
  have h := of_check h
  split at h
  · rename_i he
    cases h
    exact .inl ⟨he, rfl⟩
  have h := of_check h
  generalize htot : chs.writes.foldl s.footprint
    (((s.head.getD ⟨0, 0, 0⟩).keyCount : Int), ((s.head.getD ⟨0, 0, 0⟩).payloadBytes : Int)) = total at h
  obtain ⟨keys, bs⟩ := total
  obtain ⟨_, hn, h⟩ := of_bind_ok h
  obtain ⟨_, hl, h⟩ := of_bind_ok h
  cases h
  have hneg := not_of_failIf hn
  have hlimit := not_of_failIf hl
  refine .inr ⟨keys.toNat, bs.toNat, rfl, ?_, ?_, ?_⟩
  · refine Prod.ext ?_ ?_
    · omega
    · omega
  · omega
  · omega

/-! ### The invariant -/

/-- The log holds every value that was ever stored, with its key and version.  Versions identify values in it, and none
is past the revision of the data. -/
structure Logged (log : List (String × StateValue)) (s : ManagedState) : Prop where
  counts : Counts s.values (s.head.getD ⟨0, 0, 0⟩)
  saved : ∀ migration, s.migration = some migration →
    Counts s.snapshot (migration.head.getD ⟨0, 0, 0⟩) ∧ (migration.head.getD ⟨0, 0, 0⟩).revision ≤ s.revision
  unique : ∀ key a b, (key, a) ∈ log → (key, b) ∈ log → a.version = b.version → a = b
  bounded : ∀ key a, (key, a) ∈ log → a.version ≤ s.revision
  stored : ∀ key a, s.values.get key = some a → (key, a) ∈ log
  snapshot : ∀ key a, s.snapshot.get key = some a → (key, a) ∈ log

theorem new_logged : Logged [] new where
  counts := ⟨rfl, rfl, Nat.zero_le _, Nat.zero_le _⟩
  saved := nofun
  unique := by simp
  bounded := by simp
  stored := nofun
  snapshot := nofun

variable {log : List (String × StateValue)}

section

variable (h : Logged log s)

include h

/-- A change adds its writes to the log, under a version that no value had before. -/
theorem Logged.apply {chs : StateChanges} {n : Nat} (hap : s.apply C installation scope chs = .ok (s', n)) :
    ∃ log', log ⊆ log' ∧ Logged log' s' ∧ s.revision ≤ s'.revision := by
  rcases apply_spec hap with ⟨-, rfl⟩ | ⟨keys, bs, rfl, hto, hk, hby⟩
  · exact ⟨log, List.Subset.refl _, h, le_refl _⟩
  let written := chs.writes.filterMap (fun w =>
    w.2.map fun text => (w.1, ({ version := s.revision + 1, text } : StateValue)))
  have hw : ∀ key a, (key, a) ∈ written →
      ∃ text, (key, some text) ∈ chs.writes ∧ a = { version := s.revision + 1, text } := by
    intro key a hm
    obtain ⟨w, hw, heq⟩ := mem_filterMap.1 hm
    obtain ⟨text, ht, hp⟩ := Option.map_eq_some_iff.1 heq
    obtain ⟨rfl, rfl⟩ := Prod.mk.inj hp
    exact ⟨text, ht ▸ hw, rfl⟩
  refine ⟨log ++ written, subset_append_left _ _, ⟨?_, ?_, ?_, ?_, ?_, ?_⟩, Nat.le_succ _⟩
  · rw [h.counts.keys, h.counts.bytes, foldl_footprint (s.revision + 1) chs.distinct fun _ _ => rfl] at hto
    obtain ⟨hl, hs⟩ := Prod.mk.inj hto
    exact ⟨Int.ofNat_inj.1 hl.symm, Int.ofNat_inj.1 hs.symm, hk, hby⟩
  · intro mig hmi
    obtain ⟨hc, hle⟩ := h.saved mig hmi
    exact ⟨hc, Nat.le_succ_of_le hle⟩
  · intro key a b ha hb hv
    rcases mem_append.1 ha with ha | ha
    · rcases mem_append.1 hb with hb | hb
      · exact h.unique key a b ha hb hv
      obtain ⟨text, -, rfl⟩ := hw key b hb
      have hle := h.bounded key a ha
      have heq : a.version = s.revision + 1 := hv
      omega
    · obtain ⟨text, ht, rfl⟩ := hw key a ha
      rcases mem_append.1 hb with hb | hb
      · have hle := h.bounded key b hb
        have heq : s.revision + 1 = b.version := hv
        omega
      obtain ⟨text', ht', rfl⟩ := hw key b hb
      -- the key is written once
      have hsame := inj_on_of_nodup_map chs.distinct ht ht' rfl
      cases hsame
      rfl
  · intro key a ha
    rcases mem_append.1 ha with ha | ha
    · exact Nat.le_succ_of_le (h.bounded key a ha)
    · obtain ⟨text, -, rfl⟩ := hw key a ha
      exact le_refl _
  · intro key a ha
    rcases get_foldl_store ha with ⟨text, hm, rfl⟩ | ho
    · exact mem_append_right _ (mem_filterMap.2 ⟨_, hm, rfl⟩)
    · exact mem_append_left _ (h.stored key a ho)
  · intro key a ha
    exact mem_append_left _ (h.snapshot key a ha)

/-- `put_back` keeps the invariant, with the snapshot still there. -/
theorem Logged.putBack (hput : s.putBack generation = .ok (some s')) : Logged log s' ∧ s.revision ≤ s'.revision := by
  unfold ManagedState.putBack at hput
  split at hput
  · cases hput
  rename_i mig hmi
  have hput := of_check hput
  cases hput
  obtain ⟨hm, -⟩ := Option.filter_eq_some_iff.1 hmi
  obtain ⟨hc, hs⟩ := h.saved mig hm
  have hrev : (s.head.map StateHead.revision).getD 0 = s.revision := by
    unfold revision
    cases s.head <;> rfl
  rw [hrev]
  have hle : s.revision ≤ if (mig.head.getD ⟨0, 0, 0⟩).revision < s.revision then s.revision + 1
      else (mig.head.getD ⟨0, 0, 0⟩).revision := by
    split
    · exact Nat.le_succ _
    · omega
  refine ⟨⟨{ hc with }, ?_, h.unique, ?_, h.snapshot, h.snapshot⟩, hle⟩
  · intro o ho
    obtain ⟨hc', hs'⟩ := h.saved o ho
    exact ⟨hc', hs'.trans hle⟩
  · intro key a ha
    exact (h.bounded key a ha).trans hle

/-- The migration may change where it stands and the snapshot may go; the rest of the data stays. -/
theorem Logged.frame (hh : s'.head = s.head) (hv : s'.values = s.values)
    (hm : ∀ mig, s'.migration = some mig → ∃ old, s.migration = some old ∧
      old.head = mig.head ∧ s'.snapshot = s.snapshot)
    (hsn : ∀ key a, s'.snapshot.get key = some a → s.snapshot.get key = some a) : Logged log s' := by
  have hrev : s'.revision = s.revision := by rw [revision, revision, hh]
  refine ⟨?_, ?_, h.unique, ?_, ?_, ?_⟩
  · rw [hh, hv]
    exact h.counts
  · intro mig hso
    obtain ⟨old, ho, hs, hk⟩ := hm mig hso
    rw [← hs, hk, hrev]
    exact h.saved old ho
  · rw [hrev]
    exact h.bounded
  · rw [hv]
    exact h.stored
  · exact fun key a ha => h.snapshot key a (hsn key a ha)

theorem Logged.discard : Logged log s.discard :=
  h.frame rfl rfl (by intro mig hs; cases hs) (by intro key a ha; simp [ManagedState.discard] at ha)

theorem Logged.setMigrated (migrated : Nat) : Logged log (s.setMigrated migrated) := by
  refine h.frame rfl rfl ?_ fun key a ha => ha
  intro mig hs
  obtain ⟨old, ho, rfl⟩ := Option.map_eq_some_iff.1 hs
  exact ⟨old, ho, rfl, rfl⟩

theorem Logged.beginIn {src tg : Nat}
    (hbeg : s.beginIn generation src tg = .ok s') : Logged log s' ∧ s.revision ≤ s'.revision := by
  unfold ManagedState.beginIn at hbeg
  split at hbeg
  · cases hbeg
    exact ⟨h, le_refl _⟩
  have hbeg := of_check hbeg
  cases hbeg
  refine ⟨⟨h.counts, ?_, h.unique, h.bounded, h.stored, h.stored⟩, le_refl _⟩
  intro mig hs
  cases hs
  exact ⟨h.counts, le_refl _⟩

theorem Logged.restoreIn (hr : s.restoreIn generation = .ok s') : Logged log s' ∧ s.revision ≤ s'.revision := by
  obtain ⟨rst, hp, hr⟩ := of_bind_ok hr
  cases rst with
  | none =>
    cases hr
    exact ⟨h, le_refl _⟩
  | some =>
    cases hr
    obtain ⟨hl, hle⟩ := h.putBack hp
    exact ⟨hl.discard, hle⟩

theorem Logged.finishIn (hf : s.finishIn generation = .ok s') : Logged log s' ∧ s.revision ≤ s'.revision := by
  unfold ManagedState.finishIn at hf
  split at hf
  · cases hf
    exact ⟨h, le_refl _⟩
  split at hf <;> cases hf
  exact ⟨h.discard, le_refl _⟩

theorem Logged.rewind {src : Option Nat} (hrew : s.rewind installation scope = .ok (s', src)) :
    Logged log s' ∧ s.revision ≤ s'.revision := by
  obtain ⟨admitted, -, hrew⟩ := of_bind_ok hrew
  cases admitted with
  | none =>
    cases hrew
    exact ⟨h, le_refl _⟩
  | some =>
    obtain ⟨ld, -, hrew⟩ := of_bind_ok hrew
    obtain ⟨rst, hp, hrew⟩ := of_bind_ok hrew
    have hrew := of_check hrew
    cases hrew
    cases rst with
    | none => exact ⟨h.setMigrated _, le_refl _⟩
    | some =>
      obtain ⟨hl, hle⟩ := h.putBack (ok_of_mapError hp)
      exact ⟨hl.setMigrated _, hle⟩

theorem Logged.step
    {sch : Nat} (hstep : s.step installation scope sch = .ok s') : Logged log s' ∧ s.revision ≤ s'.revision := by
  obtain ⟨next, -, hstep⟩ := of_bind_ok hstep
  have hstep := of_check hstep
  cases hstep
  exact ⟨h.setMigrated sch, le_refl _⟩

/-! ### Runs -/

theorem Logged.perform (C : StateCodec V) (op : StateOp) :
    ∃ log', log ⊆ log' ∧ Logged log' (s.perform C op) ∧ s.revision ≤ (s.perform C op).revision := by
  have hkeep : ∀ s', Logged log s' ∧ s.revision ≤ s'.revision →
      ∃ log', log ⊆ log' ∧ Logged log' s' ∧ s.revision ≤ s'.revision :=
    fun s' hs' => ⟨log, List.Subset.refl _, hs'.1, hs'.2⟩
  unfold ManagedState.perform
  cases hres : op.result C s with
  | none => exact hkeep s ⟨h, le_refl _⟩
  | some s' =>
    cases op with
    | apply =>
      obtain ⟨⟨s₁, n⟩, ha, rfl⟩ := Option.map_eq_some_iff.1 hres
      exact h.apply (ok_of_toOption ha)
    | beginIn => exact hkeep s' (h.beginIn (ok_of_toOption hres))
    | step => exact hkeep s' (h.step (ok_of_toOption hres))
    | rewind =>
      obtain ⟨⟨s₁, src⟩, hr, rfl⟩ := Option.map_eq_some_iff.1 hres
      exact hkeep _ (h.rewind (ok_of_toOption hr))
    | restoreIn => exact hkeep s' (h.restoreIn (ok_of_toOption hres))
    | finishIn => exact hkeep s' (h.finishIn (ok_of_toOption hres))

theorem Logged.run (C : StateCodec V) (ops : List StateOp) :
    ∃ log', log ⊆ log' ∧ Logged log' (s.run C ops) ∧ s.revision ≤ (s.run C ops).revision := by
  induction ops generalizing s log with
  | nil => exact ⟨log, List.Subset.refl _, h, le_refl _⟩
  | cons op ops ih =>
    obtain ⟨log₁, hsub₁, hlogged₁, hle₁⟩ := h.perform C op
    obtain ⟨log₂, hsub₂, hlogged₂, hle₂⟩ := ih hlogged₁
    exact ⟨log₂, List.Subset.trans hsub₁ hsub₂, hlogged₂, hle₁.trans hle₂⟩

end

/-- In every run: where two states have a key under the same version they have the same value for it, the revision never
goes down and goes up with every change that writes, and the totals of the head row are those of the stored values. -/
theorem versions_identify_values (C : StateCodec V) (ops later : List StateOp) :
    (∀ key a b, (new.run C ops).values.get key = some a → (new.run C (ops ++ later)).values.get key = some b →
        a.version = b.version → a.text = b.text) ∧
      (new.run C ops).revision ≤ (new.run C (ops ++ later)).revision ∧
      (∀ installation scope changes s' n, (new.run C ops).apply C installation scope changes = .ok (s', n) →
        changes.writes ≠ [] → (new.run C ops).revision < s'.revision) ∧
      Counts (new.run C ops).values ((new.run C ops).head.getD ⟨0, 0, 0⟩) := by
  obtain ⟨log, -, hl, -⟩ := new_logged.run C ops
  have hspl : new.run C (ops ++ later) = (new.run C ops).run C later := foldl_append
  obtain ⟨log', hs, hl', hle⟩ := hl.run C later
  rw [hspl]
  refine ⟨?_, hle, ?_, hl.counts⟩
  · intro key a b ha hb hv
    rw [hl'.unique key a b (hs (hl.stored key a ha)) (hl'.stored key b hb) hv]
  intro installation scope changes s' n hap hw
  rcases apply_spec hap with ⟨he, -⟩ | ⟨keys, bs, rfl, -⟩
  · exact absurd he hw
  · exact Nat.lt_succ_self _

end ManagedState

end Chariox
