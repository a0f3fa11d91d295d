import Mathlib

/-!
# Files, what a power failure leaves of them, and atomic renames

A reader of a file sees its durable bytes followed by the bytes written since the last sync.  A power failure keeps the
durable bytes and any beginning of what was written after them; a truncation that was not synced may be undone.  A
directory entry is replaced atomically; until the directory is synced, a power failure may bring an earlier version of
the entry back.  The failure of a process alone changes nothing.

Two kinds of facts survive all this: those that hold of the durable bytes of every version and of every extension of
them (`Keeps`), and those that hold of everything a power failure can leave (`Always`).
-/

namespace Chariox

open List

abbrev Bytes := List UInt8

/-- A file: its durable bytes, the bytes after them, and other tails that an unsynced truncation took back. -/
structure DurableFile where
  base : Bytes
  tail : Bytes
  past : List Bytes
  deriving DecidableEq, Repr

namespace DurableFile

def empty : DurableFile := ⟨[], [], []⟩

def synced (bytes : Bytes) : DurableFile := ⟨bytes, [], []⟩

def visible (f : DurableFile) : Bytes := f.base ++ f.tail

def append (f : DurableFile) (bytes : Bytes) : DurableFile := { f with tail := f.tail ++ bytes }

def sync (f : DurableFile) : DurableFile := .synced f.visible

def truncate (f : DurableFile) (n : Nat) : DurableFile :=
  if f.base.length ≤ n then { f with tail := f.tail.take (n - f.base.length), past := f.tail :: f.past }
  else
    { base := f.base.take n
      tail := []
      past := (f.tail :: f.past).map (fun tail => f.base.drop n ++ tail) }

/-- What a power failure may leave. -/
def Leaves (f : DurableFile) (bytes : Bytes) : Prop := ∃ tail ∈ f.tail :: f.past, ∃ n, bytes = f.base ++ tail.take n

end DurableFile

/-- A directory entry: the file under the name, if any, and the versions that a power failure may bring back. -/
structure DirEntry where
  current : Option DurableFile
  olds : List (Option DurableFile)
  deriving DecidableEq, Repr

/-- The choice of a power failure: the version of the entry, the tail of the file, and how much of the tail is kept. -/
structure PowerLoss where
  version : Nat
  tail : Nat
  kept : Nat
  deriving DecidableEq, Repr

namespace DirEntry

def absent : DirEntry := ⟨none, []⟩

variable (d : DirEntry)

def versions : List (Option DurableFile) := d.current :: d.olds

def visible : Bytes := d.current.elim [] DurableFile.visible

/-- Append, creating the file when it is missing. -/
def append (bytes : Bytes) : DirEntry :=
  match d.current with
  | none => { current := some (DurableFile.empty.append bytes), olds := none :: d.olds }
  | some f => { d with current := some (f.append bytes) }

def sync : DirEntry := { d with current := d.current.map DurableFile.sync }

def truncate (n : Nat) : DirEntry := { d with current := d.current.map (fun f => f.truncate n) }

def replace (f : DurableFile) : DirEntry := { current := some f, olds := d.current :: d.olds }

def syncDir : DirEntry := { d with olds := [] }

def afterLoss (loss : PowerLoss) : DirEntry where
  current := (d.versions.getD loss.version d.current).map (fun f =>
    .synced (f.base ++ ((f.tail :: f.past).getD loss.tail f.tail).take loss.kept))
  olds := []

/-- The durable bytes of a version. -/
def baseOf (version : Option DurableFile) : Bytes := version.elim [] DurableFile.base

/-! ### Facts that survive -/

/-- The durable bytes of every version satisfy `K`. -/
def Keeps (K : Bytes → Prop) (d : DirEntry) : Prop := ∀ v ∈ d.versions, K (baseOf v)

/-- Everything that a power failure can leave satisfies `G`. -/
def Always (G : Bytes → Prop) (d : DirEntry) : Prop := G [] ∧ ∀ f, some f ∈ d.versions → ∀ bytes, f.Leaves bytes → G bytes

variable {K G : Bytes → Prop} {d : DirEntry}

section

variable (d : DirEntry)

theorem baseOf_sync : baseOf d.sync.current = d.visible := by
  unfold DirEntry.sync DirEntry.visible
  cases d.current <;> rfl

theorem visible_append (bytes : Bytes) : (d.append bytes).visible = d.visible ++ bytes := by
  unfold DirEntry.append DirEntry.visible
  cases d.current with
  | none => rfl
  | some => exact (append_assoc ..).symm

theorem visible_sync : d.sync.visible = d.visible := by
  unfold DirEntry.sync DirEntry.visible
  cases d.current with
  | none => rfl
  | some => exact append_nil _

theorem visible_truncate (n : Nat) : (d.truncate n).visible = d.visible.take n := by
  unfold DirEntry.truncate DirEntry.visible
  cases d.current with
  | none => simp
  | some f =>
    show (f.truncate n).visible = f.visible.take n
    unfold DurableFile.truncate DurableFile.visible
    split
    · rename_i hle
      rw [take_append, take_of_length_le hle]
    · rw [take_append_of_le_length (by omega)]
      exact append_nil _

theorem baseOf_prefix_visible : baseOf d.current <+: d.visible := by
  unfold DirEntry.visible baseOf
  cases d.current with
  | none => exact prefix_rfl
  | some => exact prefix_append ..

theorem baseOf_append (bs : Bytes) : baseOf (d.append bs).current = baseOf d.current := by
  unfold DirEntry.append
  cases hc : d.current <;> rfl

theorem baseOf_truncate (n : Nat) : baseOf (d.truncate n).current = (baseOf d.current).take n := by
  unfold DirEntry.truncate
  cases d.current with
  | none => simp [baseOf]
  | some f =>
    show (f.truncate n).base = f.base.take n
    unfold DurableFile.truncate
    split
    · rename_i hle
      rw [take_of_length_le hle]
    · rfl

end

theorem getD_mem_cons {α : Type} (a : α) (l : List α) (n : Nat) : (a :: l).getD n a ∈ a :: l := by
  rw [getD_eq_getElem?_getD]
  cases hget : (a :: l)[n]? with
  | none => exact mem_cons_self
  | some => exact mem_of_getElem? hget

theorem Keeps.append (h : Keeps K d) (bs : Bytes) : Keeps K (d.append bs) := by
  have hcur : K (baseOf d.current) := h d.current mem_cons_self
  have holds : ∀ v ∈ d.olds, K (baseOf v) := fun v hv => h v (mem_cons_of_mem _ hv)
  unfold DirEntry.append
  cases hc : d.current with
  | none =>
    rw [hc] at hcur
    exact forall_mem_cons.2 ⟨hcur, forall_mem_cons.2 ⟨hcur, holds⟩⟩
  | some =>
    rw [hc] at hcur
    exact forall_mem_cons.2 ⟨hcur, holds⟩

theorem Keeps.truncate (h : Keeps K d) {n : Nat} (hc : K ((baseOf d.current).take n)) : Keeps K (d.truncate n) := by
  refine forall_mem_cons.2 ⟨?_, (forall_mem_cons.1 h).2⟩
  rw [baseOf_truncate]
  exact hc

/-- Once the directory is synced only the current version can come back. -/
theorem keeps_syncDir (h : K (baseOf d.current)) : Keeps K d.syncDir :=
  forall_mem_singleton.2 h

theorem Keeps.syncDir (h : Keeps K d) : Keeps K d.syncDir := keeps_syncDir (h d.current mem_cons_self)

theorem Keeps.replace (h : Keeps K d) {f : DurableFile} (hf : K f.base) : Keeps K (d.replace f) :=
  forall_mem_cons.2 ⟨hf, h⟩

section Extension

variable (hmono : ∀ b x, K b → K (b ++ x))
include hmono

theorem Keeps.visible (h : Keeps K d) : K d.visible := by
  have hcur := h d.current mem_cons_self
  unfold DirEntry.visible
  cases hc : d.current with
  | none =>
    rw [hc] at hcur
    exact hcur
  | some f =>
    rw [hc] at hcur
    exact hmono f.base f.tail hcur

theorem Keeps.sync (h : Keeps K d) : Keeps K d.sync := by
  refine forall_mem_cons.2 ⟨?_, (forall_mem_cons.1 h).2⟩
  rw [baseOf_sync]
  exact h.visible hmono

theorem Keeps.afterLoss (h : Keeps K d) (loss : PowerLoss) : Keeps K (d.afterLoss loss) := by
  have hbase := h _ (getD_mem_cons d.current d.olds loss.version)
  refine forall_mem_singleton.2 ?_
  show K (baseOf (((d.current :: d.olds).getD loss.version d.current).map _))
  cases hw : (d.current :: d.olds).getD loss.version d.current with
  | none =>
    rw [hw] at hbase
    exact hbase
  | some f =>
    rw [hw] at hbase
    exact hmono f.base _ hbase

end Extension

/-! ### Facts about everything that can be left -/

theorem Always.absent (h : G []) : Always G absent := ⟨h, by simp [DirEntry.absent, versions]⟩

theorem Always.visible (h : Always G d) : G d.visible := by
  unfold DirEntry.visible
  cases hc : d.current with
  | none => exact h.1
  | some f =>
    refine h.2 f (by rw [← hc]; exact mem_cons_self) f.visible ⟨f.tail, mem_cons_self, f.tail.length, ?_⟩
    rw [take_length]
    rfl

variable {bytes : Bytes}

theorem always_synced (h : G bytes) : ∀ c, (DurableFile.synced bytes).Leaves c → G c := by
  intro c hc
  obtain ⟨tail, ht, n, rfl⟩ := hc
  rcases mem_cons.1 ht with rfl | ht
  · simpa [DurableFile.synced] using h
  · cases ht

/-- Appending to a file that was never truncated since its last sync. -/
theorem Always.append (h : Always G d) (he : ∀ c n, G c → G (c ++ bytes.take n)) : Always G (d.append bytes) := by
  have hgrow : ∀ f : DurableFile, (∀ c, f.Leaves c → G c) → ∀ c, (f.append bytes).Leaves c → G c := by
    intro f hf c hc
    obtain ⟨tail, ht, n, rfl⟩ := hc
    rcases mem_cons.1 ht with rfl | ht
    · show G (f.base ++ (f.tail ++ bytes).take n)
      rw [take_append, ← append_assoc]
      by_cases hn : n ≤ f.tail.length
      · have hzero : n - f.tail.length = 0 := by omega
        rw [hzero, take_zero, append_nil]
        exact hf _ ⟨f.tail, mem_cons_self, n, rfl⟩
      · apply he
        exact hf _ ⟨f.tail, mem_cons_self, n, rfl⟩
    · exact hf _ ⟨tail, mem_cons_of_mem _ ht, n, rfl⟩
  refine ⟨h.1, ?_⟩
  intro f hf
  unfold DirEntry.append at hf
  cases hc : d.current with
  | none =>
    rw [hc] at hf
    rcases mem_cons.1 hf with hf | hf
    · cases hf
      exact hgrow _ (always_synced h.1)
    · rcases mem_cons.1 hf with hf | hf
      · cases hf
      · exact h.2 f (mem_cons_of_mem _ hf)
  | some g =>
    rw [hc] at hf
    rcases mem_cons.1 hf with hf | hf
    · cases hf
      exact hgrow g (h.2 g (by rw [← hc]; exact mem_cons_self))
    · exact h.2 f (mem_cons_of_mem _ hf)

theorem Always.sync (h : Always G d) : Always G d.sync := by
  refine ⟨h.1, ?_⟩
  intro f hf
  rcases mem_cons.1 hf with hf | hf
  · obtain ⟨g, hg, rfl⟩ := Option.map_eq_some_iff.1 hf.symm
    have hvis := h.visible
    rw [DirEntry.visible, hg] at hvis
    exact always_synced hvis
  · exact h.2 f (mem_cons_of_mem _ hf)

theorem Always.syncDir (h : Always G d) : Always G d.syncDir :=
  ⟨h.1, fun f hf => h.2 f (mem_cons.2 (.inl (mem_singleton.1 hf)))⟩

theorem Always.replace (h : Always G d) (hb : G bytes) : Always G (d.replace (.synced bytes)) := by
  refine ⟨h.1, ?_⟩
  intro f hf
  rcases mem_cons.1 hf with hf | hf
  · cases hf
    exact always_synced hb
  · exact h.2 f hf

theorem Always.afterLoss (h : Always G d) (loss : PowerLoss) : Always G (d.afterLoss loss) := by
  refine ⟨h.1, ?_⟩
  intro f hf
  obtain ⟨g, hg, rfl⟩ := Option.map_eq_some_iff.1 (mem_singleton.1 hf).symm
  apply always_synced
  refine h.2 g ?_ _ ⟨_, getD_mem_cons .., loss.kept, rfl⟩
  rw [← hg]
  exact getD_mem_cons ..

end DirEntry

end Chariox
