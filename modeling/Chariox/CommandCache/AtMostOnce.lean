import Chariox.CommandCache.Invariant

/-!
# A command is dispatched at most once

A run starts without files.  The journal is opened, reserves and settles commands, fails and crashes at any file
operation, loses power, and is opened again.  A power failure keeps what is durable and a restart reads it back, so the
invariant holds along every run.
-/

namespace Chariox.CommandCache

open Prog DirEntry List

section Opening

variable {J : Journal} {D : Set String}

theorem not_marked_nil (dg : Digest) : ¬ Marked dg [] := by
  intro h
  have hemp := h [] ∅ rfl
  cases hemp

/-- The markers are loaded: they are durable, and what they do not refuse is in the receipts. -/
structure Loaded (J : Journal) (D : Set String) (expired : Finset Digest) (s : CacheState) : Prop where
  disk : DiskSafe J D s.disk
  marked : ∀ digest ∈ expired, Keeps (Marked digest) s.disk.markers
  recorded : ∀ id ∈ D, J.sha256 id ∈ expired ∨ Keeps (Recorded J.codec id) s.disk.receipts

/-- The complete lines of the marker file, when the last one is cut off. -/
theorem dropTornMarker_ensures {text : Bytes} {expired : Finset Digest}
    (hp : parseMarkers (splitLines text).1 = .ok expired) :
    Ensures (fun s => s.disk.markers.visible = text ∧ DiskSafe J D s.disk) (dropTornMarker text)
      (fun _ s => splitLines s.disk.markers.visible = ((splitLines text).1, []) ∧ DiskSafe J D s.disk)
      (fun _ s => DiskSafe J D s.disk) (fun s => DiskSafe J D s.disk) := by
  obtain ⟨complete, hte, hc⟩ := exists_complete text
  have hmk : ∀ dg ∈ expired, Marked dg complete := by
    intro dg hd
    refine marked_of_parse (by rw [hc]) ?_ hd
    rw [hc]
    exact hp
  have htake : text.take (text.length - (splitLines text).2.length) = complete := by
    have hlen : text.length - (splitLines text).2.length = complete.length := by
      have := congrArg length hte
      rw [length_append] at this
      omega
    rw [hlen]
    conv_lhs => rw [hte]
    exact take_left ..
  -- the cut keeps every marker that is durable
  have hcut : ∀ s : CacheState, s.disk.markers.visible = text ∧ DiskSafe J D s.disk →
      DiskSafe J D { s.disk with
        markers := s.disk.markers.truncate (text.length - (splitLines text).2.length) } := by
    intro s ⟨hv, hs⟩
    refine ⟨?_, hs.torn⟩
    intro id hid
    refine (hs.fenced id hid).imp_left fun hkp => hkp.truncate ?_
    have hbase := hkp _ mem_cons_self
    obtain ⟨tail, ht⟩ := baseOf_prefix_visible s.disk.markers
    rw [hv] at ht
    by_cases hle : (baseOf s.disk.markers.current).length ≤ text.length - (splitLines text).2.length
    · rw [take_of_length_le hle]
      exact hbase
    have hall : J.sha256 id ∈ expired := by
      refine hbase tail expired ?_
      rw [ht]
      exact hp
    have hsame : (baseOf s.disk.markers.current).take (text.length - (splitLines text).2.length) = complete := by
      rw [← htake, ← take_append_of_le_length (by omega : _ ≤ (baseOf s.disk.markers.current).length), ht]
    rw [hsame]
    exact hmk _ hall
  unfold dropTornMarker
  split
  · rename_i hr
    exact ensures_pure fun s hs => ⟨by rw [hs.1, ← hr], hs.2⟩
  refine ensures_step ?_ (fun s _ hs => hs.2) ?_
  · intro s hs
    refine ⟨?_, hcut s hs⟩
    show splitLines (s.disk.markers.truncate _).visible = _
    rw [visible_truncate, hs.1, htake, hc]
  · intro s n hs
    split
    · exact hcut s hs
    · exact hs.2

theorem loadReceiptRetention_ensures : Ensures (fun s => DiskSafe J D s.disk) loadReceiptRetention (Loaded J D)
      (fun _ s => DiskSafe J D s.disk) (fun s => DiskSafe J D s.disk) := by
  refine ensures_bind (fileOperation_ensures (fun _ _ h => h) fun _ h => h) fun _ => ?_
  refine ensures_get_bind fun s₀ hs => ?_
  cases hfile : s₀.disk.markers.current with
  | none =>
    refine ensures_pure_from ⟨hs, by simp, ?_⟩
    intro id hid
    refine .inr ((hs.fenced id hid).resolve_left fun hkp => ?_)
    have hnil := hkp _ mem_cons_self
    rw [hfile] at hnil
    exact not_marked_nil _ hnil
  | some file =>
    have hvis : s₀.disk.markers.visible = file.visible := by
      rw [DirEntry.visible, hfile]
      rfl
    have hop := fileOperation_ensures
      (P := fun s => s.disk.markers.visible = file.visible ∧ DiskSafe J D s.disk)
      (E := fun _ s => DiskSafe J D s.disk) (C := fun s => DiskSafe J D s.disk)
      (fun _ _ h => h.2) fun _ h => h.2
    refine ensures_bind (hop.from_state ⟨hvis, hs⟩) fun _ => ?_
    split
    · exact ensures_throw fun s hs => hs.2
    refine ensures_bind hop fun _ => ?_
    cases hprs : parseMarkers (splitLines file.visible).1 with
    | error => exact ensures_throw fun s hs => hs.2
    | ok expired =>
      refine ensures_bind (dropTornMarker_ensures hprs) fun _ => ?_
      refine ensures_bind (ensures_step (Q := fun _ s =>
        splitLines (baseOf s.disk.markers.current) = ((splitLines file.visible).1, []) ∧
          DiskSafe J D s.disk) ?_ (fun s _ hs => hs.2) fun s _ hs => hs.2) fun _ => ?_
      · rintro s ⟨hl, hs⟩
        refine ⟨?_, hs.syncMarkers⟩
        show splitLines (baseOf s.disk.markers.sync.current) = _
        rw [baseOf_sync, hl]
      refine ensures_bind (fileOperation_ensures (fun _ _ h => h.2) fun _ h => h.2) fun _ => ?_
      refine ensures_bind (syncDirectory_ensures (Q := fun _ => Loaded J D expired) (fun _ _ h => h.2)
        (fun _ h => h.2) ?_) fun _ => ensures_pure fun s hs => hs
      rintro s ⟨hl, hs⟩
      have hbase : parseMarkers (splitLines (baseOf s.disk.markers.current)).1 = .ok expired := by
        rw [hl]
        exact hprs
      refine ⟨hs.syncDirectory, ?_, ?_⟩
      · intro dg hd
        exact keeps_syncDir (marked_of_parse (by rw [hl]) hbase hd)
      intro id hid
      refine (hs.fenced id hid).imp (fun hkp => ?_) Keeps.syncDir
      refine hkp _ mem_cons_self [] expired ?_
      rw [append_nil]
      exact hbase

/-- The loaded entries without the expired ones. -/
def live (J : Journal) (expired : Finset Digest) (entries : List Receipt) :
    List Receipt := entries.filter (fun entry => decide (J.sha256 entry.commandId ∉ expired))

theorem Loaded.listed {exp : Finset Digest} {s : CacheState} (h : Loaded J D exp s)
    {ents : List Receipt} (hr : ReadBack J ents s) :
    ∀ id ∈ D, J.sha256 id ∈ exp ∨ ∃ e ∈ live J exp ents, e.commandId = id := by
  intro id hid
  by_cases hexpired : J.sha256 id ∈ exp
  · exact .inl hexpired
  have hkp := (h.recorded id hid).resolve_left hexpired
  obtain ⟨e, he, rfl⟩ := hr id (hkp.visible (Recorded.append J.codec))
  exact .inr ⟨e, mem_filter.2 ⟨he, decide_eq_true hexpired⟩, rfl⟩

theorem contains_ofEntries (exp : Finset Digest) {ents : List Receipt} {e : Receipt} (h : e ∈ ents) :
    (CommandResultCache.ofEntries exp ents).results.contains e.commandId = true := by
  have hgrow : ∀ rs : OrdMap String CommandResultEntry, e ∈ ents ∨ rs.contains e.commandId = true →
      (ents.foldl (fun rs e => rs.insert e.commandId (.completed e.result))
        rs).contains e.commandId = true := by
    clear h
    induction ents with
    | nil => exact fun rs hm => hm.resolve_left not_mem_nil
    | cons first ents ih =>
      intro rs hm
      apply ih
      rcases hm with hm | hm
      · rcases mem_cons.1 hm with rfl | hm
        · exact .inr (contains_insert_of_contains (.inl rfl))
        · exact .inl hm
      · exact .inr (contains_insert_of_contains (.inr hm))
  exact hgrow .empty (.inl h)

/-- Opening the journal: a process that knows the commands of `D`, or no process. -/
theorem openAtMostOnce_ensures :
    Ensures (fun s => DiskSafe J D s.disk) (openAtMostOnce J.codec J.sha256) (fun _ => Safe J D)
      (fun _ s => DiskSafe J D s.disk) (fun s => DiskSafe J D s.disk) := by
  refine ensures_bind loadReceiptRetention_ensures fun exp => ?_
  refine ensures_bind (readPersistentResults_ensures (fun _ _ h => h.disk) fun _ h => h.disk) fun ld => ?_
  refine Ensures.requires (P := fun s =>
      (∀ id ∈ D, J.sha256 id ∈ exp ∨ ∃ e ∈ live J exp ld.entries, e.commandId = id) ∧
        Loaded J D exp s) ?_ fun s hs => ⟨hs.2.listed hs.1, hs.2⟩
  refine ensures_of_imp fun hl => ?_
  have hents : ∀ disk : CacheDisk, (∀ dg ∈ exp, Keeps (Marked dg) disk.markers) →
      Listed J D (live J exp ld.entries) disk :=
    fun disk hmk id hid => (hl id hid).imp_left (hmk _)
  refine Ensures.requires (P := fun s => (∀ dg ∈ exp, Keeps (Marked dg) s.disk.markers) ∧
    DiskSafe J D s.disk) ?_ fun s hs => ⟨hs.marked, hs.disk⟩
  refine ensures_bind (Q := fun _ s => (∀ dg ∈ exp, Keeps (Marked dg) s.disk.markers) ∧
    DiskSafe J D s.disk) ?_ fun _ => ?_
  · refine ensures_get_bind fun s₀ hs => ?_
    split
    · exact ensures_pure_from hs
    · exact Ensures.from_state (fileOperation_ensures (fun _ _ h => h.2) fun _ h => h.2) hs
  refine ensures_bind (Q := fun _ s => (∀ dg ∈ exp, Keeps (Marked dg) s.disk.markers) ∧
    DiskSafe J D s.disk) ?_ fun _ => ?_
  · unfold compactAfterLoad
    split
    · refine rewritePersistentResults_ensures (fun _ _ h => h.2) (fun _ h => h.2) ?_ ?_
      · intro s fc ⟨hmk, hs⟩
        exact ⟨hmk, hs.rewrite (hents s.disk hmk) fc⟩
      · intro s ⟨hmk, hs⟩
        exact ⟨fun dg hd => (hmk dg hd).syncDir, hs.syncDirectory⟩
    · exact ensures_pure fun s hs => hs
  · refine ensures_modify ?_
    intro s ⟨hmk, hs⟩
    refine ⟨hs, ?_, fun _ dg hd => (hmk dg hd).visible Marked.append⟩
    intro id hid
    rcases hl id hid with hexpired | ⟨e, he, rfl⟩
    · exact .inr hexpired
    · exact .inl (contains_ofEntries exp he)

end Opening

/-! ### Runs -/

/-- A kernel's journal: its files, and what the process holds while it is running. -/
structure JournalNode where
  disk : CacheDisk
  process : Option CommandResultCache

/-- What happens to a journal.  Each program has the script of its file operations; reading the clock is part of the
operation. -/
inductive JournalOp
  | restart (script : List Fate)
  | reserve (script : List Fate) (commandId : String) (fingerprint : CommandFingerprint) (interruptedResponse : String)
      (evictNow now : Nat)
  | complete (script : List Fate) (commandId : String) (fingerprint : CommandFingerprint)
      (response interruptedResponse : String) (now : Nat)
  | crash
  | powerLoss (receipts markers : PowerLoss)
  deriving DecidableEq, Repr

/-- The answer to a reservation, with its command. -/
abbrev Outcome := String × Ending CacheError CommandReservation

def JournalNode.new : JournalNode := { disk := { receipts := .absent, markers := .absent }, process := none }

/-- Run a program of the running process: a crash ends the process, an error does not. -/
def JournalNode.exec (node : JournalNode) {α : Type} (cache : CommandResultCache) (script : List Fate)
    (p : CacheProg α) : JournalNode × Ending CacheError α :=
  match p script { disk := node.disk, cache } with
  | (.crashed, _, s) => ({ disk := s.disk, process := none }, .crashed)
  | (ending, _, s) => ({ disk := s.disk, process := some s.cache }, ending)

section Run

variable (codec : ReceiptCodec) (sha256 : String → Digest) (policy : CommandResultRetentionPolicy)

/-- One step of a run, with the outcome of a reservation.  Nothing is reserved without a process. -/
def JournalNode.apply (node : JournalNode) : JournalOp → JournalNode × List Outcome
  | .restart script =>
    match openAtMostOnce codec sha256 script { disk := node.disk, cache := .ofEntries ∅ [] } with
    | (.value (), _, s) => ({ disk := s.disk, process := some s.cache }, [])
    | (_, _, s) => ({ disk := s.disk, process := none }, [])
  | .reserve script commandId fingerprint interruptedResponse evictNow now =>
    match node.process with
    | none => (node, [])
    | some cache =>
      let (node, ending) := node.exec cache script
        (reserveAtMostOnce codec sha256 policy commandId fingerprint interruptedResponse evictNow now)
      (node, [(commandId, ending)])
  | .complete script commandId fingerprint response interruptedResponse now =>
    match node.process with
    | none => (node, [])
    | some cache =>
      ((node.exec cache script
        (completeAtMostOnce codec commandId fingerprint response interruptedResponse now)).1, [])
  | .crash => ({ node with process := none }, [])
  | .powerLoss receipts markers =>
    ({ disk := { receipts := node.disk.receipts.afterLoss receipts, markers := node.disk.markers.afterLoss markers }
       process := none }, [])

def JournalNode.run (node : JournalNode) : List JournalOp → JournalNode × List Outcome
  | [] => (node, [])
  | op :: ops =>
    let (next, outcomes) := node.apply codec sha256 policy op
    let (last, more) := next.run ops
    (last, outcomes ++ more)

/-- The node refuses the commands of `D`, running or not. -/
structure JournalNode.Safe (J : Journal) (D : Set String) (node : JournalNode) : Prop where
  disk : DiskSafe J D node.disk
  process : ∀ cache, node.process = some cache → CommandCache.Safe J D { disk := node.disk, cache }

def dispatched (outcomes : List Outcome) : Set String := {id | (id, .value .dispatch) ∈ outcomes}

variable {J : Journal} {policy} {D : Set String} {node : JournalNode}

theorem new_safe : JournalNode.new.Safe J ∅ where
  disk := ⟨fun _ hid => absurd hid (Set.notMem_empty _), Always.absent (torn_nil J.codec)⟩
  process := nofun

theorem JournalNode.Safe.down {disk : CacheDisk} (h : DiskSafe J D disk) :
    JournalNode.Safe J D { disk, process := none } where
  disk := h
  process := nofun

variable {s : CacheState}

theorem JournalNode.Safe.up (h : CommandCache.Safe J D s) :
    JournalNode.Safe J D { disk := s.disk, process := some s.cache } where
  disk := h.disk
  process := by
    intro ca hc
    cases hc
    exact h

theorem JournalNode.Safe.exec (h : node.Safe J D) {cache : CommandResultCache}
    (hc : node.process = some cache) {α : Type} {p : CacheProg α} {Q : α → CacheState → Prop}
    (hp : Keeping J D (CommandCache.Safe J D) p Q) (sc : List Fate) :
    (∃ a s, node.exec cache sc p = ({ disk := s.disk, process := some s.cache }, .value a) ∧ Q a s) ∨
      ((node.exec cache sc p).1.Safe J D ∧ ∀ a, (node.exec cache sc p).2 ≠ .value a) := by
  have hrun := hp sc _ (h.process cache hc)
  unfold JournalNode.exec
  cases hres : p sc { disk := node.disk, cache } with
  | mk en rest =>
    obtain ⟨sc', s⟩ := rest
    rw [hres] at hrun
    cases en with
    | value a => exact .inl ⟨a, s, rfl, hrun⟩
    | error => exact .inr ⟨.up hrun, nofun⟩
    | crashed => exact .inr ⟨.down hrun, nofun⟩

/-- What one step does: it keeps refusing, and dispatches at most one command, which was not dispatched before. -/
structure StepSafe (J : Journal) (D : Set String) (result : JournalNode × List Outcome) : Prop where
  safe : result.1.Safe J (D ∪ dispatched result.2)
  fresh : ∀ id ∈ dispatched result.2, id ∉ D
  single : result.2.length ≤ 1

theorem StepSafe.quiet (h : node.Safe J D) {outcomes : List Outcome} (hs : outcomes.length ≤ 1)
    (hqt : ∀ id, (id, .value .dispatch) ∉ outcomes) : StepSafe J D (node, outcomes) := by
  have hnone : dispatched outcomes = ∅ := Set.eq_empty_of_forall_notMem hqt
  refine ⟨?_, fun id hid => absurd hid (hqt id), hs⟩
  rw [hnone, Set.union_empty]
  exact h

theorem StepSafe.silent (h : node.Safe J D) : StepSafe J D (node, []) :=
  .quiet h (Nat.zero_le 1) fun _ => not_mem_nil

theorem StepSafe.declined (h : node.Safe J D) (cid : String)
    {en : Ending CacheError CommandReservation} (he : en ≠ .value .dispatch) : StepSafe J D (node, [(cid, en)]) := by
  refine .quiet h (Nat.le_refl 1) fun id hid => he ?_
  cases mem_singleton.1 hid
  rfl

theorem StepSafe.answered {commandId : String} {an : CommandReservation} (h : Answered J D commandId an s) :
    StepSafe J D ({ disk := s.disk, process := some s.cache }, [(commandId, .value an)]) := by
  cases an with
  | dispatch =>
    have hone : ∀ id, id ∈ dispatched [(commandId, .value .dispatch)] ↔ id = commandId := by
      simp [dispatched]
    have hunion : D ∪ dispatched [(commandId, .value .dispatch)] = insert commandId D := by
      ext id
      simp only [Set.mem_union, hone, Set.mem_insert_iff, or_comm]
    refine ⟨?_, fun id hid => (hone id).1 hid ▸ h.1, Nat.le_refl 1⟩
    rw [hunion]
    exact .up h.2
  | _ => exact .declined (.up h) commandId nofun

theorem JournalNode.Safe.apply (h : node.Safe J D) (op : JournalOp) :
    StepSafe J D (node.apply J.codec J.sha256 policy op) := by
  cases op with
  | restart sc =>
    have hopen := openAtMostOnce_ensures sc { disk := node.disk, cache := .ofEntries ∅ [] } h.disk
    unfold JournalNode.apply
    dsimp only
    cases hres : openAtMostOnce J.codec J.sha256 sc { disk := node.disk, cache := .ofEntries ∅ [] } with
    | mk en rest =>
      rw [hres] at hopen
      cases en with
      | value => exact .silent (.up hopen)
      | _ => exact .silent (.down hopen)
  | reserve sc cid fp resp ev now =>
    unfold JournalNode.apply
    cases hcch : node.process with
    | none => exact .silent h
    | some =>
      have hrsrv : Keeping J D _ _ _ := reserveAtMostOnce_keeping policy cid fp
        resp ev now
      dsimp only
      rcases h.exec hcch hrsrv sc with ⟨an, s, he, hs⟩ | ⟨hsa, hen⟩
      · rw [he]
        exact .answered hs
      · exact .declined hsa cid (hen _)
  | complete sc cid fp response resp now =>
    unfold JournalNode.apply
    cases hcch : node.process with
    | none => exact .silent h
    | some =>
      have hcpl : Keeping J D _ _ _ := completeAtMostOnce_keeping cid fp
        response resp now
      dsimp only
      rcases h.exec hcch hcpl sc with ⟨a, s, he, hs⟩ | ⟨hsa, -⟩
      · rw [he]
        exact .silent (.up hs)
      · exact .silent hsa
  | crash => exact .silent (.down h.disk)
  | powerLoss rcpts markers => exact .silent (.down (h.disk.afterLoss rcpts markers))

/-- The second of two outcomes is no dispatch of a command that the first one dispatched. -/
def NotAgain (first second : Outcome) : Prop :=
  first.2 = .value .dispatch → second.1 = first.1 → second.2 ≠ .value .dispatch

theorem run_notAgain (h : node.Safe J D) (ops : List JournalOp) :
    (node.run J.codec J.sha256 policy ops).2.Pairwise NotAgain ∧
      ∀ id ∈ dispatched (node.run J.codec J.sha256 policy ops).2, id ∉ D := by
  induction ops generalizing node D with
  | nil => exact ⟨List.Pairwise.nil, fun id hid => absurd hid not_mem_nil⟩
  | cons op ops ih =>
    have hstep : StepSafe J D (node.apply J.codec J.sha256 policy op) := h.apply op
    obtain ⟨hpw, hl⟩ := ih hstep.safe
    refine ⟨pairwise_append.2 ⟨?_, hpw, ?_⟩, ?_⟩
    · -- one step has one outcome at most
      match hone : (node.apply J.codec J.sha256 policy op).2 with
      | [] => exact List.Pairwise.nil
      | [outcome] => exact pairwise_singleton ..
      | _ :: _ :: _ =>
        have hsingle := hstep.single
        rw [hone] at hsingle
        simp at hsingle
    · intro first hf second hs hd hsa ha
      obtain ⟨id, en⟩ := first
      obtain ⟨id', en'⟩ := second
      subst hd hsa ha
      exact hl id' hs (.inr hf)
    · intro id hid
      rcases mem_append.1 hid with hid | hid
      · exact hstep.fresh id hid
      · exact fun hm => hl id hid (.inl hm)

variable (policy)

/-- In every run a command is dispatched at most once.  Each later reservation of it waits, gets the stored reply,
conflicts, is refused, or crashes. -/
theorem dispatched_at_most_once (ops : List JournalOp) (commandId : String) :
    (JournalNode.new.run codec sha256 policy ops).2.count (commandId, .value .dispatch) ≤ 1 ∧
      ∀ before after ending,
        (JournalNode.new.run codec sha256 policy ops).2 = before ++ (commandId, .value .dispatch) :: after →
        (commandId, ending) ∈ after →
          (∃ reply, ending = .value (.wait reply)) ∨ ending = .value .conflict ∨ (∃ e, ending = .error e) ∨
            ending = .crashed := by
  have hpw : (JournalNode.new.run codec sha256 policy ops).2.Pairwise NotAgain := (run_notAgain (new_safe (J := ⟨codec, sha256⟩)) ops).1
  refine ⟨?_, ?_⟩
  · by_contra htwice
    have hsubl := replicate_sublist_iff.2 (Nat.lt_of_not_le htwice)
    have hboth := hpw.sublist hsubl
    exact rel_of_pairwise_cons hboth (mem_singleton.2 rfl) rfl rfl rfl
  · intro before after ending hs ha
    rw [hs] at hpw
    have hlat := (pairwise_append.1 hpw).2.1
    have hnot : ending ≠ .value .dispatch := rel_of_pairwise_cons hlat ha rfl rfl
    cases ending with
    | value an =>
      cases an with
      | dispatch => exact absurd rfl hnot
      | wait reply => exact .inl ⟨reply, rfl⟩
      | conflict => exact .inr (.inl rfl)
    | error e => exact .inr (.inr (.inl ⟨e, rfl⟩))
    | crashed => exact .inr (.inr (.inr rfl))

/-- A command is dispatched, the process dies before it is settled, and the next one answers with the stored reply. -/
example :
    let fingerprint : CommandFingerprint := ⟨"app_call", "terminal", some "session-1", none, 7, none, none⟩
    (JournalNode.new.run jsonCodec (fun _ => .replicate 32 0) ⟨16, 1000⟩
      [.restart [], .reserve [] "cmd-1" fingerprint "interrupted" 5 5, .crash, .restart [],
        .reserve [] "cmd-1" fingerprint "interrupted" 9 9]).2 =
      [("cmd-1", .value .dispatch), ("cmd-1", .value (.wait (some ⟨some "interrupted", none, 5, fingerprint⟩)))] := by
  decide +kernel

end Run

end Chariox.CommandCache
