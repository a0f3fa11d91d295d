import Chariox.EventLog.Invariant

/-!
# Replay returns what was written

Retention drops the front of a stream, so a replay whose cursor is at or after the first retained event misses nothing.
-/

namespace Chariox.EventLog

open List

variable {E : Type}

/-! ### Answers -/

/-- The events of `events` after a cursor. -/
def eventsAfter (cursorEventId : Nat) (events : List (LoggedEvent E)) : List (LoggedEvent E) :=
  events.filter (fun event => cursorEventId < event.eventId)

section Answers

variable {events : List (LoggedEvent E)} {cursorEventId : Nat}

theorem eventsAfter_of_latest (hi : Increasing events)
    (hl : ∀ lt ∈ events.getLast?, lt.eventId ≤ cursorEventId) : eventsAfter cursorEventId events = [] := by
  unfold eventsAfter
  rw [filter_eq_nil_iff]
  intro e hm
  rw [decide_eq_true_eq]
  obtain ⟨init, last, rfl⟩ : ∃ init last, events = init ++ [last] := by
    rcases eq_nil_or_concat events with rfl | ⟨init, last, rfl⟩
    · cases hm
    · exact ⟨init, last, by simp⟩
  have hlast := hl last (by simp)
  rcases mem_append.1 hm with hm | hm
  · have hlt := lt_of_increasing hi e hm
    omega
  · rw [mem_singleton.1 hm]
    omega

theorem eventsAfter_drop {k : Nat} {first : LoggedEvent E} (hi : Increasing events)
    (hf : (events.drop k).head? = some first) (hc : first.eventId ≤ cursorEventId) :
    eventsAfter cursorEventId (events.drop k) = eventsAfter cursorEventId events := by
  have hspl := pairwise_append.1 ((take_append_drop k events).symm ▸ hi)
  have hnone : eventsAfter cursorEventId (events.take k) = [] := by
    unfold eventsAfter
    rw [filter_eq_nil_iff]
    intro e hm
    have hlt := hspl.2.2 e hm first (mem_of_mem_head? hf)
    rw [decide_eq_true_eq]
    omega
  calc eventsAfter cursorEventId (events.drop k)
      = eventsAfter cursorEventId (events.take k) ++ eventsAfter cursorEventId (events.drop k) := by
        rw [hnone, nil_append]
    _ = eventsAfter cursorEventId (events.take k ++ events.drop k) := (filter_append ..).symm
    _ = eventsAfter cursorEventId events := by rw [take_append_drop]

theorem exists_eventsAfter_eq_drop (cursor : Nat) (hi : Increasing events) :
    ∃ k, eventsAfter cursor events = events.drop k := by
  induction events with
  | nil => exact ⟨0, rfl⟩
  | cons e events ih =>
    obtain ⟨hl, hr⟩ := pairwise_cons.1 hi
    by_cases haft : cursor < e.eventId
    · refine ⟨0, filter_eq_self.2 ?_⟩
      intro o hm
      rw [decide_eq_true_eq]
      rcases mem_cons.1 hm with rfl | hm
      · exact haft
      · have hlt := hl o hm
        omega
    · obtain ⟨k, hk⟩ := ih hr
      refine ⟨k + 1, ?_⟩
      rw [eventsAfter, filter_cons, if_neg (by simpa using haft)]
      exact hk

/-- The answer for a stream whose retained events, without the provisional one, are the latest of `events`. -/
theorem replayStream_eq {strs : Streams E} {sm : EventStream E} {sid : String} {pid : Option Nat}
    {k : Nat} (hg : strs.get sid = some sm) (hk : sm.retained.filter (fun e => some e.eventId ≠ pid) = events.drop k)
    (hl : sm.latestEventId = events.getLast?.map LoggedEvent.eventId) (hi : Increasing events) :
    (∃ gap, replayStream strs pid sid cursorEventId = .gap gap) ∨
      replayStream strs pid sid cursorEventId = .replayed (eventsAfter cursorEventId events) := by
  have hans : sm.retained.filter
      fun e => e.eventId > cursorEventId && some e.eventId ≠ pid = eventsAfter cursorEventId (events.drop k) := by
    rw [← hk, eventsAfter, filter_filter]
  have hfind : sm.retained.find? fun e => some e.eventId ≠ pid = (events.drop k).head? := by
    rw [← hk, head?_filter]
  unfold replayStream
  rw [hg]
  dsimp only
  rw [hans, hfind]
  cases hfst : (events.drop k).head? with
  | none =>
    have hnil : events.drop k = [] := head?_eq_none_iff.1 hfst
    dsimp only
    split
    · exact .inl ⟨_, rfl⟩
    rename_i hnotBefore
    right
    rw [hnil, eventsAfter_of_latest hi]
    · rfl
    intro lt hm
    rw [hl, hm] at hnotBefore
    simpa using hnotBefore
  | some =>
    dsimp only
    split
    · exact .inl ⟨_, rfl⟩
    · right
      rw [eventsAfter_drop hi hfst (by omega)]

/-- An answer is a gap or the durable events of the stream after the cursor. -/
def Exact (log : LogCore E) (streamId : String) (cursorEventId : Nat) (outcome : ReplayOutcome E) : Prop :=
  (∃ gap, outcome = .gap gap) ∨ outcome = .replayed (eventsAfter cursorEventId (ofStream streamId log.durable))

variable {jb : LoggedEvent E → Option Nat} {log : LogCore E}

theorem CoreSafe.increasing_ofStream (h : CoreSafe log) (sid : String) :
    Increasing (ofStream sid log.durable) := h.increasing.filter _

theorem CoreSafe.exact_of_holdsAt (h : CoreSafe log) {strs : Streams E} {sid : String}
    {pid : Option Nat} (hat : HoldsAt jb log.durable strs sid) (hp : ∀ e ∈ log.durable, some e.eventId ≠ pid) :
    Exact log sid cursorEventId (replayStream strs pid sid cursorEventId) := by
  cases hget : strs.get sid with
  | none =>
    left
    unfold replayStream
    rw [hget]
    exact ⟨_, rfl⟩
  | some =>
    rw [HoldsAt, streamOf_of_some hget] at hat
    obtain ⟨k, hk⟩ := hat.retained
    refine replayStream_eq hget (k := k) ?_ hat.latest (h.increasing_ofStream sid)
    rw [hk, filter_eq_self]
    intro e hm
    exact decide_eq_true (hp e (mem_of_mem_filter (mem_of_mem_drop hm)))

theorem CoreSafe.exact_of_unconfirmed (h : CoreSafe log) {e : LoggedEvent E} (hu : Unconfirmed jb log e) (sid : String) :
    Exact log sid cursorEventId (replayStream log.streams (some e.eventId) sid cursorEventId) := by
  have hoth : ∀ old ∈ log.durable, some old.eventId ≠ some e.eventId := by
    intro old hm heq
    have hlt := hu.newest _ (mem_append_left _ (mem_map_of_mem hm))
    have hid := Option.some.inj heq
    omega
  obtain ⟨ho, sm, hg, hs⟩ := hu.awaits
  by_cases hsame : sid = e.streamId
  · subst hsame
    obtain ⟨k, hk⟩ := hs.retained
    refine replayStream_eq hg (k := k) ?_ hs.latest (h.increasing_ofStream _)
    have hkeep : ((ofStream e.streamId log.durable).drop k).filter
        (fun o => decide (some o.eventId ≠ some e.eventId)) = (ofStream e.streamId log.durable).drop k := by
      rw [filter_eq_self]
      intro o hm
      exact decide_eq_true (hoth o (mem_of_mem_filter (mem_of_mem_drop hm)))
    rw [hk, filter_append, hkeep]
    simp
  · exact h.exact_of_holdsAt (ho sid hsame) hoth

end Answers

/-! ### Runs -/

theorem OrderSafe.cases {log : LogCore E} {ord : AppendOrder E} (h : OrderSafe jb log ord) :
    (Confirmed jb log ∧ ∀ log' : LogCore E, log'.knownIds = log.knownIds → log'.lastEventId = log.lastEventId →
        Confirmed jb log' → OrderSafe jb log' ord) ∨ ∃ event, Unconfirmed jb log event := by
  cases ord with
  | preparing =>
    refine .inl ⟨h.1, fun log' hi hl h' => ⟨h', ?_, ?_⟩⟩
    · rw [hi]
      exact h.2.1
    · rw [hl]
      exact h.2.2
  | writing cal lg bs phase =>
    cases phase with
    | completed => exact .inl ⟨h, fun _ _ _ h' => h'⟩
    | _ => exact .inr ⟨lg, h⟩
  | _ => exact .inl ⟨h, fun _ _ _ h' => h'⟩

variable {jb : LoggedEvent E → Option Nat} {log : LogState E}

theorem LogSafe.replayAfter (h : LogSafe jb log) (ret : EventRetentionPolicy) (sid : String) (cursor now : Nat) :
    LogSafe jb (log.replayAfter ret sid cursor now).1 ∧
      Exact log.toLogCore sid cursor (log.replayAfter ret sid cursor now).2 := by
  unfold LogState.replayAfter
  rcases h.order.cases with ⟨hc, ho⟩ | ⟨e, hu⟩
  · obtain ⟨hn, hh⟩ := h.core.reconcile hc
    cases hr : reconcileCompletedEvents log.pending log.streams with
    | mk pend strs =>
      rw [hr] at hn hh
      subst hn
      have htrm := hh.trimmedAll (trimmedAll_applyRetention strs ret now)
      obtain ⟨hco, hs⟩ := h.core.settle htrm
      refine ⟨⟨hco, ho _ rfl rfl hs⟩, ?_⟩
      exact h.core.exact_of_holdsAt (htrm sid) nofun
  · obtain ⟨pend, hp, hou, hm⟩ := hu.pending
    have hsome : ¬ log.pending.isNone = true := by simp [hp]
    have hid : log.pending.map PendingPersistentEvent.eventId = some e.eventId := by simp [hp, hm.eventId]
    rw [hu.reconcile]
    dsimp only
    rw [if_neg hsome, hid]
    exact ⟨h, h.core.exact_of_unconfirmed hu sid⟩

theorem LogSafe.ne_pending (h : LogSafe jb log) {e : LoggedEvent E} (hev : e ∈ log.durable)
    {pend : PendingPersistentEvent} (hp : log.pending = some pend) (ho : pend.outcome = .pending) :
    e.eventId ≠ pend.eventId := by
  rcases h.order.cases with ⟨hc, -⟩ | ⟨provisional, hu⟩
  · cases hc with
    | settled hn =>
      rw [hn] at hp
      cases hp
    | succeeded hs hsu =>
      rw [hs] at hp
      cases hp
      rw [hsu] at ho
      cases ho
    | failed hs hf =>
      rw [hs] at hp
      cases hp
      rw [hf] at ho
      cases ho
  · obtain ⟨registered, hr, -, hm⟩ := hu.pending
    rw [hr] at hp
    cases hp
    have hlt := hu.newest _ (mem_append_left _ (mem_map_of_mem hev))
    rw [hm.eventId]
    omega

theorem LogSafe.apply (h : LogSafe jb log) (ret : EventRetentionPolicy) (step : LogStep E) :
    LogSafe jb (log.apply jb ret step) := by
  cases step with
  | call => exact ⟨h.core, h.order⟩
  | acquireOrder cal => exact h.acquireOrder cal
  | reserve eid => exact h.reserve eid
  | prepare now => exact h.prepare now
  | write ok => exact h.write ok
  | complete => exact h.complete
  | reply => exact h.reply
  | finish now => exact h.finish ret now
  | cancel cal => exact h.cancel cal
  | stopWriter => exact h.stopWriter
  | reacquireOrder cal => exact h.reacquireOrder cal
  | recover => exact h.recover
  | swapCompacted ok => exact h.swapCompacted ok
  | replay sid cursor now => exact (h.replayAfter ret sid cursor now).1

theorem LogSafe.run (h : LogSafe jb log) (ret : EventRetentionPolicy) (steps : List (LogStep E)) :
    LogSafe jb (log.run jb ret steps) := by
  induction steps generalizing log with
  | nil => exact h
  | cons step steps ih => exact ih (h.apply ret step)

/-! ### Opening -/

variable {es : List (LoggedEvent E)}

theorem holds_loadRecord {lg : LoggedEvent E} {strs loaded : Streams E} (h : Holds jb es strs)
    (hi : Increasing (es ++ [lg]))
    (hc : (ofStream lg.streamId (es ++ [lg])).IsChain (fun a b => b.streamSeq = a.streamSeq + 1))
    (hlo : loadRecord jb strs lg = some loaded) : Holds jb (es ++ [lg]) loaded := by
  obtain ⟨bs, hb, rfl⟩ := Option.map_eq_some_iff.1 hlo
  have hstr := h lg.streamId
  intro sid
  by_cases hsame : sid = lg.streamId
  · subst hsame
    apply holdsAt_insert
    rw [ofStream_append] at hc ⊢
    obtain ⟨k, hk⟩ := hstr.retained
    obtain ⟨l, hl⟩ := drop_append_singleton (ofStream lg.streamId es) lg k
    refine ⟨.retain ?_ hb, ⟨l, ?_⟩, ?_, ?_⟩
    · exact ⟨hstr.sizes, hstr.bytes⟩
    · rw [← hl, ← hk]
      rfl
    · have hlast : ∀ old ∈ ofStream lg.streamId es, old.eventId < lg.eventId :=
        fun old hm => lt_of_increasing hi old (mem_of_mem_filter hm)
      simp only [EventStream.retain, hstr.latest, max_latest hlast, getLast?_append, getLast?_singleton,
        Option.some_or, Option.map_some]
    · simp only [EventStream.retain, hstr.next, nextSeq, getLast?_append, getLast?_singleton,
        Option.some_or]
      cases hlst : (ofStream lg.streamId es).getLast? with
      | none => simp
      | some lt =>
        have hnext := (isChain_append.1 hc).2.2 lt hlst lg rfl
        dsimp only
        omega
  · exact ((h sid).append_of_ne hsame).insert_of_ne hsame

theorem holds_empty : Holds jb [] (OrdMap.empty : Streams E) := fun _ => ⟨⟨rfl, rfl⟩, ⟨0, rfl⟩, rfl, rfl⟩

theorem holds_loadRecords (records : List (LoggedEvent E))
    {sms loaded : Streams E} (h : Holds jb es sms) (hi : Increasing (es ++ records))
    (hc : ∀ sid, (ofStream sid (es ++ records)).IsChain (fun a b => b.streamSeq = a.streamSeq + 1))
    (hl : records.foldlM (loadRecord jb) sms = some loaded) : Holds jb (es ++ records) loaded := by
  induction records generalizing es sms with
  | nil =>
    cases hl
    rw [append_nil]
    exact h
  | cons lg records ih =>
    obtain ⟨next, hn, hr⟩ := Option.bind_eq_some_iff.1 hl
    have hassoc : es ++ lg :: records = es ++ [lg] ++ records := by simp
    rw [hassoc] at hi hc ⊢
    refine ih (holds_loadRecord h (pairwise_append.1 hi).1 ?_ hn) hi hc hr
    have hchain := hc lg.streamId
    rw [ofStream, filter_append] at hchain
    exact (isChain_append.1 hchain).1

theorem open_safe {ret : EventRetentionPolicy} {sd : StoredLog E}
    {now : Nat} (ho : LogState.open jb ret sd now = some log) : LogSafe jb log := by
  obtain ⟨loaded, hl, rfl⟩ := Option.map_eq_some_iff.1 ho
  have hholds : Holds jb sd.records loaded :=
    holds_loadRecords sd.records holds_empty sd.increasing sd.consecutive hl
  refine ⟨⟨sd.increasing, sd.consecutive, ?_, nofun⟩, .settled rfl ?_⟩
  · intro id hid
    rcases mem_append.1 hid with hid | hid
    · obtain ⟨e, hm, rfl⟩ := mem_map.1 hid
      exact sd.bounded e hm
    · cases hid
  · exact hholds.trimmedAll (trimmedAll_applyRetention loaded ret now)

/-- After every run of an opened log a replay is a gap, or it returns exactly the events of the stream that were durably
appended after the cursor: in increasing order, with consecutive sequence numbers, and none whose append is pending or
failed. -/
theorem replay_exact {jsonlBytes : LoggedEvent E → Option Nat} {retention : EventRetentionPolicy}
    {stored : StoredLog E} {openedAtMs : Nat} {log : LogState E}
    (hopen : LogState.open jsonlBytes retention stored openedAtMs = some log) (steps : List (LogStep E))
    (streamId : String) (cursorEventId nowMs : Nat) :
    let reached := log.run jsonlBytes retention steps
    (∃ gap, (reached.replayAfter retention streamId cursorEventId nowMs).2 = .gap gap) ∨
      ∃ events, (reached.replayAfter retention streamId cursorEventId nowMs).2 = .replayed events ∧
        events = reached.durable.filter
          (fun event => cursorEventId < event.eventId && event.streamId = streamId) ∧
        events.Pairwise (fun a b => a.eventId < b.eventId) ∧
        events.IsChain (fun a b => b.streamSeq = a.streamSeq + 1) ∧
        ∀ event ∈ events, event.eventId ∉ reached.failed ∧
          ∀ pending, reached.pending = some pending → pending.outcome = .pending → event.eventId ≠ pending.eventId := by
  intro reached
  have hsafe := (open_safe hopen).run retention steps
  rcases (hsafe.replayAfter retention streamId cursorEventId nowMs).2 with hg | he
  · exact .inl hg
  have hinc := hsafe.core.increasing_ofStream streamId
  refine .inr ⟨_, he, filter_filter .., hinc.filter _, ?_, ?_⟩
  · obtain ⟨k, hk⟩ := exists_eventsAfter_eq_drop cursorEventId hinc
    rw [hk]
    exact (hsafe.core.consecutive streamId).drop k
  intro event hm
  have hdur : event ∈ reached.durable := mem_of_mem_filter (mem_of_mem_filter hm)
  exact ⟨hsafe.core.disjoint event hdur, fun pending hp ho =>
    hsafe.ne_pending hdur hp ho⟩

/-- Two appends, to a room and to the given stream. -/
def twoAppends (streamId : String) : List (LogStep Unit) :=
  [.call ⟨0, "room", ()⟩, .acquireOrder 0, .reserve (some 1), .prepare 5, .write true, .complete, .reply, .finish 6,
   .call ⟨1, streamId, ()⟩, .acquireOrder 1, .reserve (some 2), .prepare 7, .write true, .complete]

/-- The second of two events of a stream is replayed. -/
theorem replay_exact_secondEvent : ∃ log : LogState Unit,
    LogState.open (fun _ => some 1) ⟨10, none, none⟩ .empty 0 = some log ∧
      ∃ events, ((log.run (fun _ => some 1) ⟨10, none, none⟩ (twoAppends "room")).replayAfter
          ⟨10, none, none⟩ "room" 1 8).2 = .replayed events ∧
        events.map LoggedEvent.eventId = [2] ∧ events.IsChain (fun a b => b.streamSeq = a.streamSeq + 1) := by
  refine ⟨_, rfl, ?_⟩
  have hexact := replay_exact (show LogState.open (fun _ => some 1) ⟨10, none, none⟩ StoredLog.empty (E := Unit) 0 =
    some _ from rfl) (twoAppends "room") "room" 1 8
  rcases hexact with ⟨gap, hg⟩ | ⟨events, he, hf, -, hc, -⟩
  · cases hg
  refine ⟨events, he, ?_, hc⟩
  rw [hf]
  rfl

/-! ### Retention -/

theorem Awaits.counted {e : LoggedEvent E} {strs : Streams E} (h : Awaits jb es e strs)
    (sid : String) : (streamOf strs sid).Counted jb := by
  by_cases hsame : sid = e.streamId
  · obtain ⟨-, sm, hg, hs⟩ := h
    rw [hsame, streamOf_of_some hg]
    exact hs.toCounted
  · exact (h.1 sid hsame).toCounted

theorem LogSafe.counted (h : LogSafe jb log) (sid : String) : (streamOf log.streams sid).Counted jb := by
  rcases h.order.cases with ⟨hc, -⟩ | ⟨e, hu⟩
  · cases hc with
    | settled _ hh => exact (hh sid).toCounted
    | succeeded _ _ _ _ ha => exact ha.counted sid
    | failed _ _ _ _ ha => exact ha.counted sid
  · exact hu.awaits.counted sid

end Chariox.EventLog
