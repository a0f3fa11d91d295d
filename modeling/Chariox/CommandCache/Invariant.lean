import Chariox.CommandCache.Files

/-!
# The invariant of the journal

For every command that was dispatched, one of the two files durably says so (`DiskSafe`), and the running process
refuses it (`Safe`).  Each program of the journal keeps this, whatever fails in it and wherever it crashes.
-/

namespace Chariox.CommandCache

open Prog DirEntry List

section Invariant

/-- How a journal writes its records and which identities its markers have. -/
structure Journal where
  codec : ReceiptCodec
  sha256 : String → Digest

variable (J : Journal) (D : Set String)

/-- The disk durably forbids another dispatch of the commands of `D`. -/
structure DiskSafe (disk : CacheDisk) : Prop where
  fenced : ∀ id ∈ D, Keeps (Marked (J.sha256 id)) disk.markers ∨ Keeps (Recorded J.codec id) disk.receipts
  torn : Always (TornAtMost J.codec) disk.receipts

/-- The running process refuses the commands of `D`, and its marker file stands for the identities it refuses. -/
structure Safe (s : CacheState) : Prop where
  disk : DiskSafe J D s.disk
  known : ∀ id ∈ D, s.cache.results.contains id = true ∨ J.sha256 id ∈ s.cache.expired
  marked : s.cache.appendUnavailable = false → ∀ digest ∈ s.cache.expired, Marked digest s.disk.markers.visible

variable {J D} {s : CacheState} {disk : CacheDisk}

/-! ### The disk -/

section

variable (h : DiskSafe J D disk)

include h

theorem DiskSafe.appendRecord (r : Receipt) (n : Nat) :
    DiskSafe J D { disk with receipts := disk.receipts.append ((J.codec.encode r ++ [newline]).take n) } := by
  refine ⟨?_, ?_⟩
  · intro id hid
    exact (h.fenced id hid).imp_right fun hkp => hkp.append _
  apply h.torn.append
  intro c m hc
  rw [take_take]
  exact hc.append J.codec r _

theorem DiskSafe.syncReceipts : DiskSafe J D { disk with receipts := disk.receipts.sync } where
  fenced := fun id hid => (h.fenced id hid).imp_right (Keeps.sync (Recorded.append J.codec))
  torn := h.torn.sync

theorem DiskSafe.syncDirectory :
    DiskSafe J D { receipts := disk.receipts.syncDir, markers := disk.markers.syncDir } where
  fenced := fun id hid => (h.fenced id hid).imp Keeps.syncDir Keeps.syncDir
  torn := h.torn.syncDir

theorem DiskSafe.appendMarkers (bs : Bytes) : DiskSafe J D { disk with markers := disk.markers.append bs } where
  fenced := fun id hid => (h.fenced id hid).imp_left fun hkp => hkp.append bs
  torn := h.torn

theorem DiskSafe.syncMarkers : DiskSafe J D { disk with markers := disk.markers.sync } where
  fenced := fun id hid => (h.fenced id hid).imp_left (Keeps.sync Marked.append)
  torn := h.torn

end

/-- Every command of `D` is marked for good or has an entry of its own. -/
def Listed (J : Journal) (D : Set String) (entries : List Receipt) (disk : CacheDisk) :
    Prop := ∀ id ∈ D, Keeps (Marked (J.sha256 id)) disk.markers ∨ ∃ entry ∈ entries, entry.commandId = id

variable {ens : List Receipt}

theorem DiskSafe.rewrite (h : DiskSafe J D disk) (hl : Listed J D ens disk) (fc : Bool) : DiskSafe J D
      { disk with receipts := disk.receipts.replace (.synced (rewrittenText J.codec fc ens)) } := by
  refine ⟨?_, h.torn.replace (tornAtMost_rewrittenText J.codec fc ens)⟩
  intro id hid
  rcases hl id hid with hmk | ⟨e, he, rfl⟩
  · exact .inl hmk
  · exact (h.fenced _ hid).imp_right fun hkp => hkp.replace (recorded_rewrittenText J.codec fc he)

theorem DiskSafe.afterLoss (h : DiskSafe J D disk) (rcpts markers : PowerLoss) :
    DiskSafe J D { receipts := disk.receipts.afterLoss rcpts, markers := disk.markers.afterLoss markers } where
  fenced := fun id hid => (h.fenced id hid).imp (fun hkp => hkp.afterLoss Marked.append markers)
    fun hkp => hkp.afterLoss (Recorded.append J.codec) rcpts
  torn := h.torn.afterLoss rcpts

/-! ### Reading and rewriting the receipts -/

/-- Every command that the receipt file holds is among the entries. -/
def ReadBack (J : Journal) (entries : List Receipt) (s : CacheState) : Prop :=
  ∀ id, Recorded J.codec id s.disk.receipts.visible → ∃ entry ∈ entries, entry.commandId = id

theorem DiskSafe.listed (h : DiskSafe J D s.disk) (hr : ReadBack J ens s) : Listed J D ens s.disk :=
  fun id hid => (h.fenced id hid).imp_right fun hkp => hr id (hkp.visible (Recorded.append J.codec))

/-- Entries may be dropped when their digests are marked for good. -/
theorem Listed.filter (h : Listed J D ens disk)
    {exp : Finset Digest} (hmk : ∀ dg ∈ exp, Keeps (Marked dg) disk.markers) :
    Listed J D (ens.filter (fun e => decide (J.sha256 e.commandId ∉ exp))) disk := by
  intro id hid
  rcases h id hid with hkp | ⟨e, he, rfl⟩
  · exact .inl hkp
  by_cases hexpired : J.sha256 e.commandId ∈ exp
  · exact .inl (hmk _ hexpired)
  · exact .inr ⟨e, mem_filter.2 ⟨he, decide_eq_true hexpired⟩, rfl⟩

section Programs

variable {P : CacheState → Prop} {E : CacheError → CacheState → Prop} {C : CacheState → Prop}
  (hE : ∀ e s, P s → E e s) (hC : ∀ s, P s → C s)
include hE hC

theorem fileOperation_ensures : Ensures P fileOperation (fun _ => P) E C :=
  ensures_step (fun _ hs => hs) (fun s _ hs => hE _ s hs) fun s _ hs => hC s hs

theorem readPersistentResults_ensures :
    Ensures P (readPersistentResults J.codec) (fun ld s => ReadBack J ld.entries s ∧ P s) E C := by
  refine ensures_bind (fileOperation_ensures hE hC) fun _ => ?_
  refine ensures_get_bind fun s₀ hs => ?_
  cases hfile : s₀.disk.receipts.current with
  | none =>
    refine ensures_pure_from ⟨fun id hid => ?_, hs⟩
    rw [DirEntry.visible, hfile] at hid
    exact absurd hid (not_recorded_nil J.codec id)
  | some file =>
    have hvis : s₀.disk.receipts.visible = file.visible := by
      rw [DirEntry.visible, hfile]
      rfl
    dsimp only
    split
    · exact ensures_throw_from (hE _ _ hs)
    have hop := fileOperation_ensures (P := fun s => s = s₀) (fun e _ h => h ▸ hE e s₀ hs) fun _ h => h ▸ hC s₀ hs
    refine ensures_bind hop fun _ => ensures_bind hop fun _ => ?_
    cases hscan : scanReceipts J.codec file.visible with
    | error => exact ensures_throw_from (hE _ _ hs)
    | ok =>
      refine ensures_pure_from ⟨fun id hid => ?_, hs⟩
      rw [hvis] at hid
      exact hid.mem_entries J.codec hscan

theorem syncDirectory_ensures {Q : Unit → CacheState → Prop} (hok : ∀ s, P s → Q () { s with disk :=
    { receipts := s.disk.receipts.syncDir, markers := s.disk.markers.syncDir } }) :
    Ensures P syncDirectory Q E C :=
  ensures_step hok (fun s _ hs => hE _ s hs) fun s _ hs => hC s hs

/-- A rewrite keeps what the renamed file and the synced directory keep. -/
theorem rewritePersistentResults_ensures {ents : List Receipt} (hr : ∀ s fc, P s →
      P (s.setReceipts (s.disk.receipts.replace (.synced (rewrittenText J.codec fc ents)))))
    (hsy : ∀ s, P s → P { s with disk :=
      { receipts := s.disk.receipts.syncDir, markers := s.disk.markers.syncDir } }) :
    Ensures P (rewritePersistentResults J.codec ents) (fun _ => P) E C := by
  have hop := fileOperation_ensures hE hC
  refine ensures_bind hop fun _ => ensures_bind hop fun _ => ensures_bind hop fun _ => ?_
  refine ensures_get_bind fun s₀ hs => ?_
  refine ensures_bind (hop.from_state hs) fun _ => ?_
  refine ensures_bind hop fun _ => ?_
  refine ensures_bind (ensures_step (Q := fun _ => P) (fun s hs => hr s _ hs) (fun s _ hs => hE _ s hs) ?_)
    fun _ => ?_
  · intro s n hs
    split
    · exact hC _ (hr s _ hs)
    · exact hC s hs
  · exact ensures_bind hop fun _ => syncDirectory_ensures hE hC hsy

end Programs

/-! ### The process -/

section

variable (h : Safe J D s)

include h

/-- A change of the cache that keeps the results, the expired identities and the state of the marker file. -/
theorem Safe.ofCache {ca : CommandResultCache}
    (hr : ∀ id, s.cache.results.contains id = true → ca.results.contains id = true)
    (hexpired : ca.expired = s.cache.expired) (ha : ca.appendUnavailable = s.cache.appendUnavailable) :
    Safe J D { s with cache := ca } where
  disk := h.disk
  known := fun id hid => (h.known id hid).imp (hr id) fun hm => hexpired ▸ hm
  marked := by
    intro hap dg hd
    exact h.marked (ha ▸ hap) dg (hexpired ▸ hd)

theorem Safe.ofReceipts {rcpts : DirEntry} (hd : DiskSafe J D { s.disk with receipts := rcpts }) :
    Safe J D (s.setReceipts rcpts) :=
  { h with
    disk := hd }

theorem Safe.syncDirectory : Safe J D { s with disk :=
    { receipts := s.disk.receipts.syncDir, markers := s.disk.markers.syncDir } } :=
  { h with
    disk := h.disk.syncDirectory }

end

/-- What a program of the running process keeps: a failure leaves the process safe, a crash the disk. -/
def Keeping (J : Journal) (D : Set String) {α : Type} (P : CacheState → Prop)
    (p : CacheProg α) (Q : α → CacheState → Prop) : Prop :=
  Ensures P p Q (fun _ => Safe J D) (fun s => DiskSafe J D s.disk)

theorem appendPersistentResult_keeping (r : Receipt) : Keeping J D (Safe J D) (appendPersistentResult J.codec r)
      (fun _ s => Recorded J.codec r.commandId s.disk.receipts.visible ∧ Safe J D s) := by
  refine ensures_bind (fileOperation_ensures (fun _ _ h => h) fun _ h => h.disk) fun _ => ?_
  refine ensures_step ?_ ?_ ?_
  · intro s hs
    have hdisk := hs.disk.appendRecord r (J.codec.encode r ++ [newline]).length
    rw [take_length] at hdisk
    refine ⟨?_, hs.ofReceipts hdisk⟩
    show Recorded J.codec r.commandId (s.disk.receipts.append (J.codec.encode r ++ [newline])).visible
    rw [DirEntry.visible_append]
    exact hs.disk.torn.visible.recorded J.codec r
  · intro s n hs
    exact hs.ofReceipts (hs.disk.appendRecord r n)
  · intro s n hs
    exact hs.disk.appendRecord r n

theorem syncReceipts_keeping {K : Bytes → Prop} :
    Keeping J D (fun s => K s.disk.receipts.visible ∧ Safe J D s) syncReceipts
      (fun _ s => K (baseOf s.disk.receipts.current) ∧ Safe J D s) := by
  refine ensures_step ?_ (fun s _ hs => hs.2) fun s _ hs => hs.2.disk
  intro s hs
  refine ⟨?_, hs.2.ofReceipts hs.2.disk.syncReceipts⟩
  show K (baseOf s.disk.receipts.sync.current)
  rw [baseOf_sync]
  exact hs.1

theorem rewritePersistentResults_keeping {F : CommandResultCache → Prop} :
    Keeping J D (fun s => F s.cache ∧ Listed J D ens s.disk ∧ Safe J D s)
      (rewritePersistentResults J.codec ens) (fun _ s => F s.cache ∧ Safe J D s) := by
  refine Ensures.weaken (rewritePersistentResults_ensures
    (P := fun s => F s.cache ∧ Listed J D ens s.disk ∧ Safe J D s)
    (fun _ s h => h.2.2) (fun s h => h.2.2.disk) ?_ ?_) (fun s h => h) (fun _ s h => ⟨h.1, h.2.2⟩) fun _ _ h => h
  · intro s fc ⟨hF, hlstd, hs⟩
    exact ⟨hF, hlstd, hs.ofReceipts (hs.disk.rewrite hlstd fc)⟩
  · intro s ⟨hF, hlstd, hs⟩
    exact ⟨hF, fun id hid => (hlstd id hid).imp_left Keeps.syncDir, hs.syncDirectory⟩

theorem shouldCompactNow_keeping (nab : Nat) : Keeping J D (Safe J D) (shouldCompactNow nab) (fun _ => Safe J D) := by
  refine ensures_bind (ensures_modify (Q := fun _ => Safe J D)
    fun s hs => hs.ofCache (fun _ h => h) rfl rfl) fun _ => ?_
  refine ensures_get_bind fun s₀ hs => ?_
  split
  · exact ensures_pure_from hs
  · refine ensures_bind ((fileOperation_ensures (fun _ _ h => h) fun _ h => h.disk).from_state hs) fun _ => ?_
    exact ensures_pure fun _ hs => hs

theorem compactReceipts_keeping (nab : Nat) : Keeping J D (Safe J D) (compactReceipts J.codec nab)
      (fun _ => Safe J D) := by
  refine ensures_bind (shouldCompactNow_keeping nab) fun compact => ?_
  cases compact with
  | false => exact ensures_pure fun s hs => hs
  | true =>
    refine ensures_bind (readPersistentResults_ensures (fun _ _ h => h) fun _ h => h.disk) fun ld => ?_
    refine ensures_bind (Ensures.weaken (rewritePersistentResults_keeping (F := fun _ => True)) ?_
      (fun _ _ h => h.2) fun _ _ h => h) fun _ => ?_
    · intro s hs
      exact ⟨trivial, hs.2.disk.listed hs.1, hs.2⟩
    · exact ensures_modify fun s hs => hs.ofCache (fun _ h => h) rfl rfl

variable (commandId : String)

theorem persistCompletedResult_keeping (ca : CachedCommandResult) :
    Keeping J D (Safe J D) (persistCompletedResult J.codec commandId ca)
      (fun _ => Safe J D) := by
  unfold persistCompletedResult
  dsimp only
  split
  · exact ensures_pure fun s hs => hs
  refine ensures_bind (fileOperation_ensures (fun _ _ h => h) fun _ h => h.disk) fun _ => ?_
  refine ensures_bind (compactReceipts_keeping _) fun _ => ?_
  refine ensures_bind (appendPersistentResult_keeping _) fun _ => ?_
  refine ensures_bind (fileOperation_ensures (fun _ _ h => h.2) fun _ h => h.2.disk) fun _ => ?_
  exact Ensures.weaken syncReceipts_keeping (fun _ h => h) (fun _ _ h => h.2) fun _ _ h => h

/-! ### Markers -/

theorem Safe.appendMarkers_nil (h : Safe J D s) : Safe J D (s.setMarkers (s.disk.markers.append [])) where
  disk := h.disk.appendMarkers []
  known := h.known
  marked := by
    intro ha dg hd
    show Marked dg (s.disk.markers.append []).visible
    rw [visible_append, append_nil]
    exact h.marked ha dg hd

/-- While the marker of `digest` is written: the process refuses `digest` besides `old`, and the first `before` bytes
of the marker file stand for `old`. -/
structure Marking (J : Journal) (D : Set String) (digest : Digest)
    (old : Finset Digest) (text : Bytes) (s : CacheState) : Prop where
  disk : DiskSafe J D s.disk
  known : ∀ id ∈ D, s.cache.results.contains id = true ∨ J.sha256 id ∈ old
  expired : s.cache.expired = insert digest old
  marked : ∀ digest ∈ old, Marked digest text
  base : (baseOf s.disk.markers.current).length ≤ text.length
  text : s.disk.markers.visible.take text.length = text

variable {digest : Digest} {old : Finset Digest} {text : Bytes}

section

variable (h : Marking J D digest old text s)

include h

theorem Marking.known_insert : ∀ id ∈ D, s.cache.results.contains id = true ∨ J.sha256 id ∈ s.cache.expired := by
  intro id hid
  rw [h.expired]
  exact (h.known id hid).imp_right Finset.mem_insert_of_mem

/-- The marker could not be taken back: nothing more is appended. -/
theorem Marking.giveUp : Safe J D { s with cache := { s.cache with appendUnavailable := true } } where
  disk := h.disk
  known := h.known_insert
  marked := by
    intro ha
    cases ha

theorem Marking.truncate : Marking J D digest old text (s.setMarkers (s.disk.markers.truncate text.length)) := by
  have hcut : (baseOf s.disk.markers.current).take text.length = baseOf s.disk.markers.current :=
    take_of_length_le h.base
  refine ⟨⟨?_, h.disk.torn⟩, h.known, h.expired, h.marked, ?_, ?_⟩
  · intro id hid
    refine (h.disk.fenced id hid).imp_left fun hkp => hkp.truncate ?_
    rw [hcut]
    exact hkp _ mem_cons_self
  · show (baseOf (s.disk.markers.truncate text.length).current).length ≤ text.length
    rw [baseOf_truncate, length_take]
    omega
  · show (s.disk.markers.truncate text.length).visible.take text.length = text
    rw [visible_truncate, h.text, take_length]

theorem Marking.sync (hv : s.disk.markers.visible = text) :
    Marking J D digest old text (s.setMarkers s.disk.markers.sync) :=
  { h with
    disk := h.disk.syncMarkers
    base := by
      show (baseOf s.disk.markers.sync.current).length ≤ text.length
      rw [baseOf_sync, hv]
    text := by
      show s.disk.markers.sync.visible.take text.length = text
      rw [visible_sync]
      exact h.text }

theorem Marking.takenBack (hv : s.disk.markers.visible = text)
    {ca : CommandResultCache} (hr : ca.results = s.cache.results) (hexpired : ca.expired = old) :
    Safe J D { s with cache := ca } where
  disk := h.disk
  known := by
    intro id hid
    rw [hr, hexpired]
    exact h.known id hid
  marked := by
    intro _ d hd
    rw [hv]
    exact h.marked d (hexpired ▸ hd)

end

theorem restoreMarkers_keeping : Keeping J D (Marking J D digest old text)
      (restoreMarkers digest (decide (digest ∉ old)) text.length) (fun _ => Safe J D) := by
  have hrst : Ensures (Marking J D digest old text) do truncateMarkers text.length; syncMarkers
      (fun _ s => Marking J D digest old text s ∧ s.disk.markers.visible = text)
      (fun _ => Marking J D digest old text) fun s => DiskSafe J D s.disk := by
    refine ensures_bind (ensures_step (Q := fun _ s =>
      Marking J D digest old text s ∧ s.disk.markers.visible = text) ?_ (fun s _ hs => hs) ?_) fun _ => ?_
    · intro s hs
      refine ⟨hs.truncate, ?_⟩
      show (s.disk.markers.truncate text.length).visible = text
      rw [visible_truncate, hs.text]
    · intro s n hs
      split
      · exact hs.truncate.disk
      · exact hs.disk
    · refine ensures_step ?_ (fun s _ hs => hs.1) fun s _ hs => hs.1.disk
      intro s ⟨hs, hvis⟩
      exact ⟨hs.sync hvis, (visible_sync _).trans hvis⟩
  refine ensures_bind (ensures_attempt (Q := fun rst s => Marking J D digest old text s ∧
    (rst.isOk → s.disk.markers.visible = text)) (hrst.weaken (fun _ h => h) ?_ ?_)) fun rst => ?_
  · intro _ s hs
    exact ⟨hs.1, fun _ => hs.2⟩
  · intro _ s hs
    exact ⟨hs, nofun⟩
  · cases rst with
    | error => exact ensures_modify fun s hs => hs.1.giveUp
    | ok =>
      by_cases hold : digest ∈ old
      · rw [decide_eq_false (not_not.2 hold)]
        refine ensures_pure fun s hs => ?_
        refine hs.1.takenBack (hs.2 rfl) rfl ?_
        rw [hs.1.expired, Finset.insert_eq_of_mem hold]
      · rw [decide_eq_true hold]
        refine ensures_modify fun s hs => ?_
        refine hs.1.takenBack (hs.2 rfl) rfl ?_
        rw [hs.1.expired, Finset.erase_insert hold]

theorem Marking.append (h : Marking J D digest old text s) (hv : s.disk.markers.visible = text)
    (bs : Bytes) : Marking J D digest old text (s.setMarkers (s.disk.markers.append bs)) :=
  { h with
    disk := h.disk.appendMarkers bs
    base := by
      show (baseOf (s.disk.markers.append bs).current).length ≤ text.length
      rw [baseOf_append]
      exact h.base
    text := by
      show (s.disk.markers.append bs).visible.take text.length = text
      rw [visible_append, hv, take_left] }

/-- The marker is written: the marker file stands for all that the process refuses. -/
theorem Marking.written (h : Marking J D digest old text s) (hv : s.disk.markers.visible = text) :
    ∀ d ∈ s.cache.expired, Marked d (s.disk.markers.append (identity digest ++ [newline])).visible := by
  intro d hd
  rw [visible_append, hv]
  rw [h.expired] at hd
  rcases Finset.mem_insert.1 hd with rfl | hd
  · exact marked_identity text d
  · exact (h.marked d hd).append _ _

theorem syncMarkers_keeping {F : CommandResultCache → Prop} : Keeping J D
    (fun s => F s.cache ∧ (∀ d ∈ s.cache.expired, Marked d s.disk.markers.visible) ∧ Safe J D s) syncMarkers
    (fun _ s => F s.cache ∧ (∀ d ∈ s.cache.expired, Marked d (baseOf s.disk.markers.current)) ∧
      Safe J D s) := by
  refine ensures_step ?_ (fun s _ hs => hs.2.2) fun s _ hs => hs.2.2.disk
  intro s ⟨hF, hmk, hs⟩
  refine ⟨hF, ?_, hs.disk.syncMarkers, hs.known, ?_⟩
  · intro d hd
    show Marked d (baseOf s.disk.markers.sync.current)
    rw [baseOf_sync]
    exact hmk d hd
  · intro _ d hd
    show Marked d s.disk.markers.sync.visible
    rw [visible_sync]
    exact hmk d hd

/-- All that the process refuses is durably marked. -/
def AllMarked (s : CacheState) : Prop := ∀ d ∈ s.cache.expired, Keeps (Marked d) s.disk.markers

theorem writeMarker_keeping : Keeping J D (fun s => Marking J D digest old text s ∧ s.disk.markers.visible = text)
    (writeMarker digest (decide (digest ∉ old)) text.length)
    (fun _ s => digest ∈ s.cache.expired ∧ AllMarked s ∧ Safe J D s) := by
  refine ensures_bind (ensures_attempt (Q := fun wr s => match wr with
    | .error _ => Marking J D digest old text s
    | .ok _ => digest ∈ s.cache.expired ∧ (∀ d ∈ s.cache.expired, Marked d s.disk.markers.visible) ∧
        Safe J D s) (ensures_step ?_ ?_ ?_)) fun wr => ?_
  · intro s ⟨hs, hvis⟩
    have hdi : digest ∈ s.cache.expired := by
      rw [hs.expired]
      exact Finset.mem_insert_self ..
    exact ⟨hdi, hs.written hvis, hs.disk.appendMarkers _, hs.known_insert, fun _ => hs.written hvis⟩
  · intro s n ⟨hs, hvis⟩
    exact hs.append hvis _
  · intro s n ⟨hs, hvis⟩
    exact hs.disk.appendMarkers _
  · cases wr with
    | error => exact ensures_bind restoreMarkers_keeping fun _ => ensures_throw fun s hs => hs
    | ok =>
      refine ensures_bind (syncMarkers_keeping (F := fun ca => digest ∈ ca.expired)) fun _ => ?_
      refine ensures_bind (fileOperation_ensures (fun _ _ h => h.2.2) fun _ h => h.2.2.disk) fun _ => ?_
      refine syncDirectory_ensures (fun _ _ h => h.2.2) (fun _ h => h.2.2.disk) ?_
      intro s ⟨hdi, hmk, hs⟩
      exact ⟨hdi, fun d hd => keeps_syncDir (hmk d hd), hs.syncDirectory⟩

theorem expire_keeping : Keeping J D (Safe J D) (expire J.sha256 commandId)
    (fun _ s => J.sha256 commandId ∈ s.cache.expired ∧ AllMarked s ∧ Safe J D s) := by
  refine ensures_get_bind fun s₀ hs => ?_
  by_cases hapd : s₀.cache.appendUnavailable = true
  · rw [if_pos hapd]
    exact ensures_throw_from hs
  rw [if_neg hapd]
  -- nothing before the marker changes whether the file may be appended to
  have hop := fileOperation_ensures (P := fun s => s.cache.appendUnavailable = false ∧ Safe J D s)
    (E := fun _ => Safe J D) (C := fun s => DiskSafe J D s.disk)
    (fun _ _ h => h.2) fun _ h => h.2.disk
  refine ensures_bind (hop.from_state ⟨Bool.eq_false_iff.2 hapd, hs⟩) fun _ => ?_
  refine ensures_bind (ensures_step (Q := fun _ s => s.cache.appendUnavailable = false ∧ Safe J D s)
    (fun s hs => ⟨hs.1, hs.2.appendMarkers_nil⟩) (fun s _ hs => hs.2) ?_) fun _ => ?_
  · intro s n hs
    split
    · exact hs.2.disk.appendMarkers []
    · exact hs.2.disk
  refine ensures_bind hop fun _ => ?_
  refine ensures_get_bind fun s₁ ⟨ha, hs⟩ => ?_
  split
  · exact ensures_throw_from hs
  refine ensures_bind (ensures_modify_from ?_) fun _ => writeMarker_keeping
  refine ⟨⟨hs.disk, hs.known, rfl, hs.marked ha, ?_, take_length⟩, rfl⟩
  exact (baseOf_prefix_visible _).length_le

/-! ### Operations -/

/-- A completed receipt leaves the results once its identity is refused. -/
theorem Safe.evict (h : Safe J D s) {id : String} (hid : J.sha256 id ∈ s.cache.expired) (ord : List String) :
    Safe J D { s with cache := { s.cache with results := s.cache.results.remove id, order := ord } } :=
  { h with
    known := by
      intro o ho
      by_cases heq : o = id
      · exact .inr (heq ▸ hid)
      refine (h.known o ho).imp_left fun hc => ?_
      rwa [OrdMap.contains_remove, if_neg heq] }

theorem evictExpiredReceipt_keeping (pol : CommandResultRetentionPolicy) (now : Nat) :
    Keeping J D (Safe J D) (evictExpiredReceipt J.codec J.sha256 pol now)
      (fun _ => Safe J D) := by
  refine ensures_get_bind fun s₀ hs => ?_
  split
  · exact ensures_throw_from hs
  rename_i id hf
  refine ensures_bind ((expire_keeping id).from_state hs) fun _ => ?_
  refine ensures_bind (readPersistentResults_ensures (fun _ _ h => h.2.2) fun _ h => h.2.2.disk) fun ld => ?_
  refine ensures_get_bind fun s₁ ⟨hr, hid, hmk, hs⟩ => ?_
  refine ensures_bind (rewritePersistentResults_keeping (F := fun ca => J.sha256 id ∈ ca.expired).from_state
    ⟨hid, (hs.disk.listed hr).filter hmk, hs⟩) fun _ => ?_
  exact ensures_modify fun s hs => hs.2.evict hs.1 _

theorem contains_insert_of_contains {m : OrdMap String CommandResultEntry} {cid id : String}
    {e : CommandResultEntry} (h : id = cid ∨ m.contains id = true) : (m.insert cid e).contains id = true := by
  rw [OrdMap.contains_insert]
  split
  · rfl
  · exact h.resolve_left ‹_›

theorem Safe.insertResult (h : Safe J D s) (cid : String) (e : CommandResultEntry) (ord : List String) : Safe J D
      { s with cache := { s.cache with results := s.cache.results.insert cid e, order := ord } } :=
  h.ofCache (fun _ hid => contains_insert_of_contains (.inr hid)) rfl rfl

/-- The reservation of a command is durable before the command is dispatched. -/
theorem reserveNew_dispatches (fp : CommandFingerprint) (resp : String)
    (now : Nat) : Keeping J D (Safe J D) (reserveNew J.codec commandId fp resp now)
      (fun an s => an = .dispatch ∧ Safe J (insert commandId D) s) := by
  have hop : ∀ {K : CacheState → Prop}, Ensures (fun s => K s ∧ Safe J D s) fileOperation
      (fun _ s => K s ∧ Safe J D s) (fun _ => Safe J D)
      fun s => DiskSafe J D s.disk :=
    fileOperation_ensures (fun _ _ h => h.2) fun _ h => h.2.disk
  refine ensures_bind (ensures_modify (Q := fun _ s => True ∧ Safe J D s)
    fun s hs => ⟨trivial, hs.insertResult _ _ _⟩) fun _ => ?_
  refine ensures_bind hop fun _ => ?_
  refine ensures_bind ((appendPersistentResult_keeping _).requires fun _ h => h.2) fun _ => ?_
  refine ensures_bind hop fun _ => ?_
  refine ensures_bind (syncReceipts_keeping (K := Recorded J.codec commandId)) fun _ => ?_
  refine ensures_bind hop fun _ => ?_
  refine ensures_bind (syncDirectory_ensures (Q := fun _ s =>
    Keeps (Recorded J.codec commandId) s.disk.receipts ∧ Safe J D s) (fun _ _ h => h.2) (fun _ h => h.2.disk)
    fun s hs => ⟨keeps_syncDir hs.1, hs.2.syncDirectory⟩) fun _ => ?_
  refine ensures_bind (ensures_modify (Q := fun _ => Safe J (insert commandId D)) ?_)
    fun _ => ensures_pure fun s hs => ⟨rfl, hs⟩
  intro s ⟨hkp, hs⟩
  refine ⟨⟨?_, hs.disk.torn⟩, ?_, hs.marked⟩
  · intro id hid
    rcases hid with rfl | hid
    · exact .inr hkp
    · exact hs.disk.fenced id hid
  · intro id hid
    rcases hid with rfl | hid
    · exact .inl (contains_insert_of_contains (.inl rfl))
    · exact (hs.known id hid).imp_left fun hc => contains_insert_of_contains (.inr hc)

theorem makeRoom_keeping (pol : CommandResultRetentionPolicy) (ev : Nat) :
    Keeping J D (Safe J D) (makeRoom J.codec J.sha256 pol ev) (fun _ => Safe J D) := by
  refine ensures_get_bind fun s₀ hs => ?_
  split
  · exact (evictExpiredReceipt_keeping pol ev).from_state hs
  · exact ensures_pure_from hs

/-- What an answer to a reservation says: only a command outside `D` is dispatched, and it is then in `D`. -/
def Answered (J : Journal) (D : Set String) (commandId : String) : CommandReservation → CacheState → Prop
  | .dispatch, s => commandId ∉ D ∧ Safe J (insert commandId D) s
  | _, s => Safe J D s

theorem reserveAtMostOnce_keeping (pol : CommandResultRetentionPolicy) (cid : String)
    (fp : CommandFingerprint) (resp : String) (ev now : Nat) :
    Keeping J D (Safe J D) (reserveAtMostOnce J.codec J.sha256 pol cid fp resp ev now)
      (Answered J D cid) := by
  refine ensures_get_bind fun s₀ hs => ?_
  by_cases hexpired : J.sha256 cid ∈ s₀.cache.expired
  · rw [if_pos hexpired]
    exact ensures_throw_from hs
  rw [if_neg hexpired]
  cases hget : s₀.cache.results.get cid with
  | none =>
    -- the process knows every command of `D`
    have hnew : cid ∉ D := by
      intro hm
      rcases hs.known cid hm with hc | hm
      · rw [OrdMap.contains_eq_false.2 hget] at hc
        cases hc
      · exact hexpired hm
    refine ensures_bind ((makeRoom_keeping pol ev).from_state hs) fun _ => ?_
    exact Ensures.weaken (reserveNew_dispatches cid fp resp now) (fun _ h => h)
      (fun an s h => by rw [h.1]; exact ⟨hnew, h.2⟩) fun _ _ h => h
  | some e =>
    cases e with
    | completed ca =>
      dsimp only
      split
      · exact ensures_pure_from hs
      refine ensures_bind ((persistCompletedResult_keeping cid ca).from_state hs) fun _ => ?_
      refine ensures_bind (ensures_modify (Q := fun _ => Safe J D)
        fun s hs => hs.ofCache (fun _ h => h) rfl rfl) fun _ => ?_
      exact ensures_pure fun s hs => hs
    | pending =>
      dsimp only
      split
      · exact ensures_pure_from hs
      exact ensures_modify_bind (ensures_pure_from (hs.insertResult _ _ _))

theorem completeAtMostOnce_keeping (fp : CommandFingerprint) (response resp : String) (now : Nat) :
    Keeping J D (Safe J D) (completeAtMostOnce J.codec commandId fp response resp now)
      (fun _ => Safe J D) := by
  refine ensures_get_bind fun s₀ hs => ?_
  refine ensures_bind (ensures_attempt (Q := fun _ => Safe J D) ?_) fun stl => ?_
  · unfold settle
    split
    · exact ensures_throw_from hs
    · exact (persistCompletedResult_keeping commandId _).from_state hs
  · refine ensures_bind (ensures_modify (Q := fun _ => Safe J D)
      fun s hs => hs.insertResult _ _ _) fun _ => ?_
    cases stl with
    | ok => exact ensures_pure fun s hs => hs
    | error => exact ensures_throw fun s hs => hs

end Invariant

end Chariox.CommandCache
