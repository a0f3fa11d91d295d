import Chariox.EventLog.System

/-!
# Retention

The limits of a stream take events from its front.  The byte cap takes the events with the least ids of all streams, and
no more than bring the bytes down to its target: the heap has the oldest event of every stream that still has one.  The
byte counters stay in step with the retained events.
-/

namespace Chariox.EventLog

open List

variable {E : Type}

/-- The recorded sizes are those of the retained events, and the byte counter is their sum. -/
structure EventStream.Counted (jsonlBytes : LoggedEvent E → Option Nat) (stream : EventStream E) : Prop where
  sizes : stream.retained.map jsonlBytes = stream.retainedSizes.map some
  bytes : stream.retainedJsonlBytes = stream.retainedSizes.sum

/-- Retention takes events from the front of a stream and changes nothing else that a replay reads. -/
structure Trimmed (stream trimmed : EventStream E) : Prop where
  retained : ∃ k, trimmed.retained = stream.retained.drop k
  latest : trimmed.latestEventId = stream.latestEventId
  next : trimmed.nextStreamSeq = stream.nextStreamSeq
  counted : ∀ {jsonlBytes}, stream.Counted jsonlBytes → trimmed.Counted jsonlBytes

theorem Trimmed.refl (stream : EventStream E) : Trimmed stream stream := ⟨⟨0, rfl⟩, rfl, rfl, id⟩

theorem Trimmed.trans {a b c : EventStream E} (hab : Trimmed a b) (hbc : Trimmed b c) : Trimmed a c := by
  obtain ⟨k, hk⟩ := hab.retained
  obtain ⟨l, hl⟩ := hbc.retained
  refine ⟨⟨k + l, ?_⟩, hbc.latest.trans hab.latest, hbc.next.trans hab.next, fun hc => hbc.counted (hab.counted hc)⟩
  rw [hl, hk, drop_drop]

variable {e : LoggedEvent E} {sm rest : EventStream E}

theorem dropOldest_eq_some : sm.dropOldest = some (e, rest) ↔ sm.retained = e :: rest.retained ∧ rest = { sm with
      retained := rest.retained
      retainedSizes := sm.retainedSizes.tail
      retainedJsonlBytes := sm.retainedJsonlBytes - sm.retainedSizes.headD 0 } := by
  unfold EventStream.dropOldest
  cases sm.retained with
  | nil => simp
  | cons first es =>
    rw [Option.some.injEq, Prod.mk.injEq, cons.injEq, and_assoc]
    refine and_congr_right fun _ => ⟨?_, ?_⟩
    · rintro rfl
      exact ⟨rfl, rfl⟩
    · rintro ⟨rfl, heq⟩
      exact heq.symm

theorem exists_dropOldest (h : sm.retained.head? = some e) : ∃ rest, sm.dropOldest = some (e, rest) := by
  obtain ⟨es, hr⟩ := head?_eq_some_iff.1 h
  exact ⟨_, by rw [EventStream.dropOldest, hr]⟩

/-- The oldest event takes its size out of the counter. -/
theorem EventStream.Counted.dropOldest {jsonlBytes : LoggedEvent E → Option Nat}
    (hc : sm.Counted jsonlBytes) (h : sm.dropOldest = some (e, rest)) :
    rest.Counted jsonlBytes ∧ ∃ n, jsonlBytes e = some n ∧ sm.retainedJsonlBytes = rest.retainedJsonlBytes + n := by
  obtain ⟨hr, hrest⟩ := dropOldest_eq_some.1 h
  have hs := hc.sizes
  have hb := hc.bytes
  rw [hr] at hs
  rw [hrest]
  cases hsz : sm.retainedSizes with
  | nil => simp [hsz] at hs
  | cons n sizes =>
    rw [hsz, map_cons, map_cons, cons.injEq] at hs
    rw [hsz, sum_cons] at hb
    refine ⟨⟨hs.2, ?_⟩, n, hs.1, ?_⟩
    · simp [hb]
    · simp [hb, Nat.add_comm]

theorem trimmed_dropOldest (h : sm.dropOldest = some (e, rest)) : Trimmed sm rest := by
  obtain ⟨hr, hrest⟩ := dropOldest_eq_some.1 h
  exact ⟨⟨1, by rw [hr]; rfl⟩, by rw [hrest], by rw [hrest], fun hc => (hc.dropOldest h).1⟩

/-- Dropping events while a limit is exceeded takes them from the front. -/
theorem trimmed_dropWhile (exceeds : EventStream E → Bool) (fuel : Nat) (sm : EventStream E) :
    Trimmed sm (sm.dropWhile exceeds fuel).2 := by
  induction fuel generalizing sm with
  | zero => exact .refl sm
  | succ fuel ih =>
    unfold EventStream.dropWhile
    split
    · split
      · exact .refl sm
      · rename_i rest hd
        exact (trimmed_dropOldest hd).trans (ih rest)
    · exact .refl sm

/-- The limits of one stream take events from its front only. -/
theorem trimmed_trim (ret : EventRetentionPolicy) (now : Nat) (sm : EventStream E) :
    Trimmed sm (sm.trim ret now).2 := by
  unfold EventStream.trim
  have hcnt := trimmed_dropWhile (fun s => s.retained.length > ret.maxStreamEvents) sm.retained.length sm
  dsimp only
  split
  · exact hcnt
  · exact hcnt.trans (trimmed_dropWhile ..)

theorem streamOf_of_some {strs : Streams E} {sid : String} (h : strs.get sid = some sm) : streamOf strs sid = sm := by
  rw [streamOf, h, Option.getD_some]

theorem streamOf_insert (strs : Streams E) (sm : EventStream E) (sid o : String) :
    streamOf (strs.insert sid sm) o = if o = sid then sm else streamOf strs o := by
  unfold streamOf
  rw [OrdMap.get_insert]
  split <;> rfl

/-- Every stream is trimmed, none is lost. -/
def TrimmedAll (streams trimmed : Streams E) : Prop :=
  ∀ id, trimmed.contains id = streams.contains id ∧ Trimmed (streamOf streams id) (streamOf trimmed id)

theorem TrimmedAll.refl (streams : Streams E) : TrimmedAll streams streams := fun _ => ⟨rfl, .refl _⟩

theorem TrimmedAll.trans {a b c : Streams E} (hab : TrimmedAll a b) (hbc : TrimmedAll b c) : TrimmedAll a c :=
  fun id => ⟨(hbc id).1.trans (hab id).1, (hab id).2.trans (hbc id).2⟩

theorem trimmedAll_insert {sms : Streams E} {sid : String}
    (hg : sms.get sid = some sm) (h : Trimmed sm rest) : TrimmedAll sms (sms.insert sid rest) := by
  intro o
  rw [streamOf_insert, OrdMap.contains_insert]
  split
  · rename_i heq
    rw [heq, streamOf_of_some hg]
    exact ⟨(OrdMap.contains_iff.2 ⟨sm, hg⟩).symm, h⟩
  · exact ⟨rfl, .refl _⟩

/-- The heap eviction takes events from the fronts of the streams only. -/
theorem trimmedAll_evictOldest (tg fuel tot : Nat) (od : OldestHeap) (strs : Streams E) :
    TrimmedAll strs (evictOldest tg fuel tot od strs).2 := by
  induction fuel generalizing tot od strs with
  | zero => exact .refl strs
  | succ fuel ih =>
    unfold evictOldest
    split
    · split
      · exact .refl strs
      split
      · exact .refl strs
      rename_i hdr
      obtain ⟨found, hg, hm⟩ := Option.bind_eq_some_iff.1 hdr
      obtain ⟨drp, hd, heq⟩ := Option.map_eq_some_iff.1 hm
      cases heq
      exact (trimmedAll_insert hg (trimmed_dropOldest hd)).trans (ih _ _ _)
    · exact .refl strs

/-- Retention takes events from the fronts of the streams only. -/
theorem trimmedAll_applyRetention (strs : Streams E) (ret : EventRetentionPolicy) (now : Nat) :
    TrimmedAll strs (applyRetention strs ret now).2 := by
  have htrim : TrimmedAll strs (strs.mapValues fun _ sm => (sm.trim ret now).2) := by
    intro sid
    unfold streamOf OrdMap.contains
    rw [OrdMap.get_mapValues]
    cases hget : strs.get sid with
    | none => exact ⟨rfl, .refl _⟩
    | some sm => exact ⟨rfl, trimmed_trim ret now sm⟩
  unfold applyRetention
  dsimp only
  split
  · exact htrim
  split
  · exact htrim.trans (trimmedAll_evictOldest _ _ _ _ _)
  · exact htrim

/-! ### The byte cap -/

def ofStream (streamId : String) (events : List (LoggedEvent E)) : List (LoggedEvent E) :=
  events.filter (fun event => event.streamId = streamId)

variable (jsonlBytes : LoggedEvent E → Option Nat)

/-- The retained events are those of the stream, in order and counted. -/
structure EventStream.InStep (streamId : String) (stream : EventStream E) : Prop extends stream.Counted jsonlBytes where
  increasing : stream.retained.Pairwise (fun a b => a.eventId < b.eventId)
  own : ∀ event ∈ stream.retained, event.streamId = streamId

/-- The events in `evicted` were taken from the fronts of the streams, those with the least ids first, and no more than
bring the bytes down to the target. -/
structure Evicts (target : Nat) (streams kept : Streams E) (evicted : List (LoggedEvent E)) : Prop where
  taken : ∀ id, (streamOf streams id).retained = ofStream id evicted ++ (streamOf kept id).retained
  oldest : ∀ id, (evicted ++ (streamOf kept id).retained).Pairwise (fun a b => a.eventId ≤ b.eventId)
  freed : ∃ sizes : List Nat, evicted.map jsonlBytes = sizes.map some ∧
    retainedEventsJsonlBytes streams = retainedEventsJsonlBytes kept + sizes.sum
  within : retainedEventsJsonlBytes kept ≤ target
  needed : ∀ last ∈ evicted.getLast?, ∃ bytes, jsonlBytes last = some bytes ∧
    target < retainedEventsJsonlBytes kept + bytes

/-- The byte cap of a policy, after the limits of the streams. -/
def Capped (retention : EventRetentionPolicy) (nowMs : Nat) (streams : Streams E) : Prop :=
  let kept := (applyRetention streams retention nowMs).2
  let trimmed := (applyRetention streams { retention with maxTotalBytes := none } nowMs).2
  ∀ cap, retention.maxTotalBytes = some cap → (retainedEventsJsonlBytes trimmed ≤ cap → kept = trimmed) ∧
    (cap < retainedEventsJsonlBytes trimmed →
      ∃ evicted, Evicts jsonlBytes (persistentCompactionTargetBytes cap) trimmed kept evicted)

/-- The oldest event of every stream that has one. -/
def heads (streams : Streams E) : OldestHeap :=
  streams.entries.filterMap (fun entry => entry.2.retained.head?.map (fun event => (event.eventId, entry.1)))

theorem peek_eq_none {heap : OldestHeap} (h : heap.peek = none) : heap = [] := by
  cases heap with
  | nil => rfl
  | cons =>
    unfold OldestHeap.peek at h
    split at h
    · cases h
    · split at h <;> cases h

theorem peek_spec {heap : OldestHeap} {least : Nat × String} (h : heap.peek = some least) :
    least ∈ heap ∧ ∀ entry ∈ heap, least.1 ≤ entry.1 := by
  induction heap generalizing least with
  | nil => cases h
  | cons entry heap ih =>
    unfold OldestHeap.peek at h
    split at h
    · rename_i hn
      cases h
      rw [peek_eq_none hn]
      simp
    · rename_i second hs
      obtain ⟨hm, hle⟩ := ih hs
      by_cases ho : oldestLe entry second
      · rw [if_pos ho] at h
        cases h
        have hfst : entry.1 ≤ second.1 := by
          simp only [oldestLe, Bool.or_eq_true, Bool.and_eq_true, decide_eq_true_eq] at ho
          omega
        exact ⟨mem_cons_self, forall_mem_cons.2 ⟨le_rfl, fun o ho => hfst.trans (hle o ho)⟩⟩
      · rw [if_neg ho] at h
        cases h
        simp only [oldestLe, Bool.or_eq_true, Bool.and_eq_true, decide_eq_true_eq] at ho
        exact ⟨mem_cons_of_mem _ hm, forall_mem_cons.2 ⟨by omega, hle⟩⟩

theorem retainedEventsJsonlBytes_eq (strs : Streams E) :
    retainedEventsJsonlBytes strs = strs.sumBy (fun _ sm => sm.retainedJsonlBytes) := by
  unfold retainedEventsJsonlBytes OrdMap.values OrdMap.sumBy
  rw [map_map, ← sum_eq_foldl]
  rfl

theorem retainedCount_eq (strs : Streams E) : retainedCount strs = strs.sumBy (fun _ sm => sm.retained.length) := by
  unfold retainedCount retainedEventIds OrdMap.values OrdMap.sumBy
  rw [length_flatMap, map_map]
  simp [Function.comp_def]

section

variable {jsonlBytes} {strs : Streams E} {heap : OldestHeap} {entry : Nat × String} {e : LoggedEvent E}
  {sm rest : EventStream E}

theorem mem_heads : entry ∈ heads strs ↔
    ∃ sm e, strs.get entry.2 = some sm ∧ sm.retained.head? = some e ∧ e.eventId = entry.1 := by
  simp only [heads, mem_filterMap, Prod.exists, Option.map_eq_some_iff, OrdMap.mem_entries]
  constructor
  · rintro ⟨sid, sm, hg, e, he, rfl⟩
    exact ⟨sm, e, hg, he, rfl⟩
  · rintro ⟨sm, e, hg, he, hid⟩
    exact ⟨_, sm, hg, e, he, Prod.ext hid rfl⟩

/-- The stream of an entry has the next of its events in the heap, if there is one. -/
theorem heads_insert (hh : heap ~ heads strs) (hg : strs.get entry.2 = some sm) (he : sm.retained.head? = some e)
    (hid : e.eventId = entry.1) (rest : EventStream E) :
    (match rest.retained.head? with
      | none => heap.erase entry
      | some next => (next.eventId, entry.2) :: heap.erase entry) ~ heads (strs.insert entry.2 rest) := by
  have hother : heap.erase entry ~ heads (strs.remove entry.2) := by
    have hold := hh.trans ((OrdMap.entries_of_some hg).filterMap _)
    rw [filterMap_cons_some (b := entry) (by simp [he, hid])] at hold
    have herased := hold.erase entry
    rwa [erase_cons_head] at herased
  have hnew := (strs.entries_insert entry.2 rest).filterMap
    (fun entry => entry.2.retained.head?.map fun event => (event.eventId, entry.1))
  cases hr : rest.retained.head? with
  | none =>
    rw [filterMap_cons_none (by simp [hr])] at hnew
    exact hother.trans hnew.symm
  | some next =>
    rw [filterMap_cons_some (by rw [hr]; rfl)] at hnew
    exact (hother.cons _).trans hnew.symm

theorem Evicts.refl {target : Nat} (h : ∀ id, (streamOf strs id).InStep jsonlBytes id)
    (hb : retainedEventsJsonlBytes strs ≤ target) : Evicts jsonlBytes target strs strs [] where
  taken := fun _ => rfl
  oldest := fun id => (h id).increasing.imp Nat.le_of_lt
  freed := ⟨[], rfl, rfl⟩
  within := hb
  needed := nofun

theorem bytes_eq_zero (h : ∀ id, (streamOf strs id).InStep jsonlBytes id)
    (hn : ∀ id sm, strs.get id = some sm → sm.retained = []) : retainedEventsJsonlBytes strs = 0 := by
  rw [retainedEventsJsonlBytes_eq]
  refine OrdMap.sumBy_eq_zero fun sid sm hg => ?_
  have hc := (h sid).toCounted
  rw [streamOf_of_some hg] at hc
  have hs := hc.sizes
  rw [hn sid sm hg, map_nil, eq_comm, map_eq_nil_iff] at hs
  rw [hc.bytes, hs, sum_nil]

variable {sid : String}

theorem EventStream.InStep.trimmed (h : sm.InStep jsonlBytes sid) (ht : Trimmed sm rest) :
    rest.InStep jsonlBytes sid := by
  obtain ⟨k, hk⟩ := ht.retained
  refine ⟨ht.counted h.toCounted, ?_, ?_⟩
  · rw [hk]
    exact h.increasing.drop
  · intro o ho
    rw [hk] at ho
    exact h.own o (mem_of_mem_drop ho)

theorem bytes_drop {n : Nat} (hg : strs.get sid = some sm) (hn : sm.retainedJsonlBytes = rest.retainedJsonlBytes + n) :
    retainedEventsJsonlBytes strs = retainedEventsJsonlBytes (strs.insert sid rest) + n := by
  have hsum := OrdMap.sumBy_insert_of_some (fun _ sm => sm.retainedJsonlBytes) hg rest
  rw [← retainedEventsJsonlBytes_eq, ← retainedEventsJsonlBytes_eq] at hsum
  omega

/-- The event with the least id goes while there are too many bytes. -/
theorem Evicts.cons {target : Nat} {kept : Streams E} {evicted : List (LoggedEvent E)}
    (h : (streamOf strs sid).InStep jsonlBytes sid) (hg : strs.get sid = some sm) (hd : sm.dropOldest = some (e, rest))
    (hl : ∀ id, ∀ o ∈ (streamOf strs id).retained, e.eventId ≤ o.eventId)
    (hb : target < retainedEventsJsonlBytes strs) (hev : Evicts jsonlBytes target (strs.insert sid rest) kept evicted) :
    Evicts jsonlBytes target strs kept (e :: evicted) := by
  rw [streamOf_of_some hg] at h
  obtain ⟨-, n, hn, hsm⟩ := h.dropOldest hd
  have hr := (dropOldest_eq_some.1 hd).1
  have hown : e.streamId = sid := h.own e (hr ▸ mem_cons_self)
  have htaken : ∀ id, (streamOf strs id).retained = ofStream id (e :: evicted) ++ (streamOf kept id).retained := by
    intro id
    have ht := hev.taken id
    rw [streamOf_insert] at ht
    split at ht
    · rename_i heq
      rw [heq, streamOf_of_some hg, hr, ofStream, filter_cons_of_pos (by simp [hown]), ← heq, ht]
      rfl
    · rename_i hne
      rw [ofStream, filter_cons_of_neg (by simpa [hown] using Ne.symm hne)]
      exact ht
  have hbytes := bytes_drop hg hsm
  obtain ⟨sizes, hs, hsum⟩ := hev.freed
  refine ⟨htaken, ?_, ⟨n :: sizes, ?_, ?_⟩, hev.within, ?_⟩
  · refine fun id => pairwise_cons.2 ⟨fun o ho => ?_, hev.oldest id⟩
    rcases mem_append.1 ho with ho | ho
    · refine hl o.streamId o ?_
      rw [htaken]
      simp [ofStream, ho]
    · refine hl id o ?_
      rw [htaken]
      exact mem_append_right _ ho
  · rw [map_cons, map_cons, hn, hs]
  · rw [sum_cons]
    omega
  · intro last hlast
    cases hcs : evicted with
    | nil =>
      rw [hcs] at hlast hs
      cases hlast
      rw [map_nil, eq_comm, map_eq_nil_iff] at hs
      rw [hs, sum_nil] at hsum
      exact ⟨n, hn, by omega⟩
    | cons =>
      rw [hcs, getLast?_cons_cons, ← hcs] at hlast
      exact hev.needed last hlast

theorem le_of_mem_retained (hh : heap ~ heads strs) (h : ∀ id, (streamOf strs id).InStep jsonlBytes id) {least : Nat}
    (hle : ∀ entry ∈ heap, least ≤ entry.1) {sid : String} {o : LoggedEvent E} (ho : o ∈ (streamOf strs sid).retained) :
    least ≤ o.eventId := by
  have hinc := (h sid).increasing
  cases hg : strs.get sid with
  | none =>
    rw [streamOf, hg] at ho
    cases ho
  | some sm =>
    rw [streamOf_of_some hg] at ho hinc
    cases hr : sm.retained with
    | nil =>
      rw [hr] at ho
      cases ho
    | cons first es =>
      have hfirst : least ≤ first.eventId :=
        hle (first.eventId, sid) (hh.mem_iff.2 (mem_heads.2 ⟨sm, first, hg, by rw [hr]; rfl, rfl⟩))
      rw [hr] at ho hinc
      rcases mem_cons.1 ho with rfl | ho
      · exact hfirst
      · exact hfirst.trans (Nat.le_of_lt ((pairwise_cons.1 hinc).1 o ho))

/-- Until the target is reached the event with the least id goes, and its stream moves up in the heap. -/
theorem evictOldest_spec (target : Nat) {fuel tot : Nat} (hh : heap ~ heads strs)
    (h : ∀ id, (streamOf strs id).InStep jsonlBytes id) (ht : tot = retainedEventsJsonlBytes strs)
    (hf : retainedCount strs ≤ fuel) : Evicts jsonlBytes target strs (evictOldest target fuel tot heap strs).2
      (evictOldest target fuel tot heap strs).1 := by
  induction fuel generalizing tot heap strs with
  | zero =>
    have hnil : ∀ id sm, strs.get id = some sm → sm.retained = [] := by
      intro id sm hg
      have hsum := OrdMap.sumBy_remove_of_some (fun _ sm => sm.retained.length) hg
      rw [← retainedCount_eq strs] at hsum
      exact length_eq_zero_iff.1 (by omega)
    exact .refl h (by rw [bytes_eq_zero h hnil]; omega)
  | succ fuel ih =>
    unfold evictOldest
    split
    · rename_i hlt
      split
      · rename_i hnone
        have hnil : ∀ id sm, strs.get id = some sm → sm.retained = [] := by
          intro id sm hg
          refine head?_eq_none_iff.1 (Option.eq_none_iff_forall_ne_some.2 fun e he => ?_)
          have hm : (e.eventId, id) ∈ heap := hh.mem_iff.2 (mem_heads.2 ⟨sm, e, hg, he, rfl⟩)
          rw [peek_eq_none hnone] at hm
          cases hm
        rw [ht, bytes_eq_zero h hnil] at hlt
        omega
      · rename_i entry hpk
        obtain ⟨hm, hle⟩ := peek_spec hpk
        obtain ⟨sm, e, hg, he, hid⟩ := mem_heads.1 (hh.mem_iff.1 hm)
        obtain ⟨rest, hd⟩ := exists_dropOldest he
        have hin := h entry.2
        rw [streamOf_of_some hg] at hin
        have hrest : ∀ id, (streamOf (strs.insert entry.2 rest) id).InStep jsonlBytes id := fun id =>
          (h id).trimmed (trimmedAll_insert hg (trimmed_dropOldest hd) id).2
        obtain ⟨-, n, -, hn⟩ := hin.dropOldest hd
        have hbytes := bytes_drop hg hn
        have hcount := OrdMap.sumBy_insert_of_some (fun _ sm => sm.retained.length) hg rest
        rw [← retainedCount_eq, ← retainedCount_eq, (dropOldest_eq_some.1 hd).1, length_cons] at hcount
        simp only [hg, Option.bind_some, hd, Option.map_some]
        exact (ih (heads_insert hh hg he hid rest) hrest (by omega) (by omega)).cons (h _) hg hd
          (fun id o ho => hid ▸ le_of_mem_retained hh h hle ho) (ht ▸ hlt)
    · exact .refl h (by omega)

theorem capped (ret : EventRetentionPolicy) (now : Nat) (h : ∀ id, (streamOf strs id).InStep jsonlBytes id) :
    Capped jsonlBytes ret now strs := by
  unfold Capped
  intro kept trimmed cap hcap
  have hin : ∀ id, (streamOf trimmed id).InStep jsonlBytes id :=
    fun id => (h id).trimmed (trimmedAll_applyRetention strs _ now id).2
  have hkept : kept = if retainedEventsJsonlBytes trimmed > cap then
      (evictOldest (persistentCompactionTargetBytes cap) (retainedCount trimmed) (retainedEventsJsonlBytes trimmed)
        (heads trimmed) trimmed).2 else trimmed := by
    simp only [kept, applyRetention, hcap]
    exact apply_ite Prod.snd _ _ _
  rw [hkept]
  refine ⟨fun hle => if_neg (Nat.not_lt.2 hle), fun hlt => ?_⟩
  rw [if_pos hlt]
  exact ⟨_, evictOldest_spec _ (.refl _) hin rfl le_rfl⟩

end

/-- No stream is lost, each keeps its last events, and its numbering goes on from where it was.  Streams in step with
their counters stay so, and of them the byte cap takes the events with the least ids, no more than it has to. -/
theorem retention_drops_oldest (jsonlBytes : LoggedEvent E → Option Nat) (strs : Streams E) (ret : EventRetentionPolicy)
    (now : Nat) : let kept := (applyRetention strs ret now).2
    (∀ sid, ∃ k, (kept.get sid).map (fun s => (s.retained, s.latestEventId, s.nextStreamSeq)) =
      (strs.get sid).map (fun s => (s.retained.drop k, s.latestEventId, s.nextStreamSeq))) ∧
    ((∀ id, (streamOf strs id).InStep jsonlBytes id) → (∀ id, (streamOf kept id).InStep jsonlBytes id) ∧
      Capped jsonlBytes ret now strs) := by
  intro kept
  have hall : TrimmedAll strs kept := trimmedAll_applyRetention strs ret now
  refine ⟨fun sid => ?_, fun h => ⟨fun id => (h id).trimmed (hall id).2, capped ret now h⟩⟩
  obtain ⟨hc, ⟨k, hk⟩, hl, hn, -⟩ := hall sid
  refine ⟨k, ?_⟩
  cases hs : strs.get sid with
  | none =>
    rw [OrdMap.contains_eq_false.1 (hc.trans (OrdMap.contains_eq_false.2 hs))]
    rfl
  | some sm =>
    obtain ⟨rest, hr⟩ := OrdMap.contains_iff.1 (hc.trans (OrdMap.contains_iff.2 ⟨sm, hs⟩))
    rw [streamOf_of_some hs, streamOf_of_some hr] at hk hl hn
    rw [hr]
    exact congrArg some (Prod.ext hk (Prod.ext hl hn))

end Chariox.EventLog
