import Chariox.RelayTransport.Agreement

/-!
# Receipts, and the places of the messages

The receipts that are still to come are those of the chunks that the writer counts as unacknowledged (`Acked`), so a
receipt is always the one that it expects.  Every queued message is at one place, in the queue, in an unfinished transfer
or delivered, and a message starts only when those that have to come out before it are delivered (`Placed`).
-/

namespace Chariox.RelayTransport

open List

open Agrees (strip)

variable {cds : Codecs}

/-! ### Receipts -/

/-- The receipts to come, against the writer's unacknowledged chunks. -/
structure Acked (nextId : Nat) (active : List Transfer) (unacked : List Unacked) (receipts : List (Nat × Nat)) :
    Prop where
  receipts : receipts = unacked.map (fun chunk => (chunk.id, chunk.offset))
  ids : ∀ chunk ∈ unacked, chunk.id ≠ 0 ∧ chunk.id ≤ nextId
  waiting : ∀ t ∈ active, t.waiting = unacked.countP (fun chunk => chunk.id == t.id)

namespace Acked

variable {nextId : Nat} {active a' : List Transfer} {unacked : List Unacked} {receipts : List (Nat × Nat)}

theorem subset (h : Acked nextId active unacked receipts) (hs : ∀ t ∈ a', t ∈ active) :
    Acked nextId a' unacked receipts :=
  ⟨h.receipts, h.ids, fun t ht => h.waiting t (hs t ht)⟩

theorem push (h : Acked nextId active unacked receipts) {t : Transfer} (hid : t.id = 0) (hw : t.waiting = 0) :
    Acked nextId (t :: active) unacked receipts := by
  refine ⟨h.receipts, h.ids, forall_mem_cons.2 ⟨?_, h.waiting⟩⟩
  rw [hw, hid]
  refine (countP_eq_zero.2 fun ck hc => ?_).symm
  simpa using (h.ids ck hc).1

variable {id : Nat}

theorem releaseWaiting_eq (hid : id ≠ 0) (hw : ∀ t ∈ active, t.id = id → t.waiting ≠ 0)
    (hd : active.Pairwise (fun t u => t.id = u.id → t.id = 0)) :
    ∃ a', releaseWaiting id active = some a' ∧ a'.map strip = active.map strip ∧
      ∀ t' ∈ a', ∃ t ∈ active, t.id = t'.id ∧ t'.waiting = if t.id = id then t.waiting - 1 else t.waiting := by
  induction active with
  | nil => exact ⟨[], rfl, rfl, fun t' ht' => nomatch ht'⟩
  | cons t rest ih =>
    rw [pairwise_cons] at hd
    unfold releaseWaiting
    by_cases hmat : t.id = id
    · rw [if_pos hmat, if_neg (hw t mem_cons_self hmat)]
      refine ⟨_, rfl, rfl, ?_⟩
      intro t' ht'
      rcases mem_cons.1 ht' with rfl | ht'
      · exact ⟨t, mem_cons_self, rfl, (if_pos hmat).symm⟩
      · refine ⟨t', mem_cons_of_mem _ ht', rfl, (if_neg fun heq => ?_).symm⟩
        exact hid (hmat ▸ hd.1 t' ht' (hmat.trans heq.symm))
    · rw [if_neg hmat]
      obtain ⟨a', heq, hs, hm⟩ := ih (fun u hu => hw u (mem_cons_of_mem _ hu)) hd.2
      rw [heq]
      refine ⟨t :: a', rfl, by simp [hs], ?_⟩
      intro t' ht'
      rcases mem_cons.1 ht' with rfl | ht'
      · exact ⟨t', mem_cons_self, rfl, (if_neg hmat).symm⟩
      · obtain ⟨u, hu, hr⟩ := hm t' ht'
        exact ⟨u, mem_cons_of_mem _ hu, hr⟩

theorem receipt {cr : WireCredit} {off : Nat} {rest : List (Nat × Nat)}
    (h : Acked nextId active cr.pending ((id, off) :: rest))
    (hd : active.Pairwise (fun t u => t.id = u.id → t.id = 0)) : ∃ cr' a', cr.receipt id off active = some (cr', a') ∧
      a'.map strip = active.map strip ∧ Acked nextId a' cr'.pending rest := by
  obtain ⟨pend, bs, small⟩ := cr
  cases pend with
  | nil => exact nomatch h.receipts
  | cons ck cks =>
    have hrcpts := h.receipts
    simp only [map_cons, cons.injEq] at hrcpts
    obtain ⟨⟨rfl, rfl⟩, hr⟩ := hrcpts
    have hwait : ∀ t ∈ active, t.id = ck.id → t.waiting ≠ 0 := by
      intro t ht heq
      rw [h.waiting t ht, heq]
      simp
    obtain ⟨a', heq, hs, hm⟩ :=
      releaseWaiting_eq (h.ids ck mem_cons_self).1 hwait hd
    refine ⟨⟨cks, bs - ck.bytes, if ck.small then small - ck.bytes else small⟩, a', ?_, hs,
      hr, fun c hc => h.ids c (mem_cons_of_mem _ hc), ?_⟩
    · unfold WireCredit.receipt
      dsimp only
      rw [if_neg (by simp), heq]
      rfl
    · intro t' ht'
      obtain ⟨t, ht, hid, hw⟩ := hm t' ht'
      have hcnt := h.waiting t ht
      rw [hw, ← hid, hcnt]
      by_cases hsame : t.id = ck.id
      · simp [hsame]
      · simp [hsame, Ne.symm hsame]

/-- A chunk of the first transfer is one more to be acknowledged. -/
theorem afterChunk {t t' : Transfer} {ots : List Transfer} {stop bs : Nat} {small st : Bool}
    (h : Acked nextId (t :: ots) unacked receipts) (hi : ∀ u ∈ t :: ots, u.id ≤ nextId)
    (hd : (t :: ots).Pairwise (fun t u => t.id = u.id → t.id = 0)) (hn : Named nextId t st id)
    (hid' : t'.id = id) (hw : t'.waiting = t.waiting + 1) :
    Acked (if st then id else nextId) (ots ++ [t']) (unacked ++ [⟨id, stop, bs, small⟩])
      (receipts ++ [(id, stop)]) := by
  have hoth := hn.other (fun u hu => hi u (mem_cons_of_mem _ hu)) (pairwise_cons.1 hd).1
  have hnext := hn.next_le
  refine ⟨?_, ?_, ?_⟩
  · rw [h.receipts, map_append]
    rfl
  · refine forall_mem_append.2 ⟨fun ck hc => (h.ids ck hc).imp_right (·.trans hnext), ?_⟩
    exact forall_mem_singleton.2 ⟨hn.ne_zero, hn.le_next (hi t mem_cons_self)⟩
  · intro u hu
    rw [countP_append, countP_singleton]
    rcases mem_append.1 hu with hu | hu
    · -- Another transfer has another id, or none yet.
      have hne : (id == u.id) = false := by
        rw [beq_eq_false_iff_ne]
        intro heq
        have hzero := hoth u hu heq.symm
        exact hn.ne_zero (heq.trans hzero)
      rw [h.waiting u (mem_cons_of_mem _ hu), hne]
      rfl
    · rw [mem_singleton.1 hu, hid', hw, h.waiting t mem_cons_self, beq_self_eq_true]
      congr 1
      cases st with
      | true =>
        -- The new id is larger than all that were sent, and no chunk was sent without an id.
        obtain ⟨hzero, hnew⟩ := hn.of_starting
        rw [countP_eq_zero.2, countP_eq_zero.2]
        · intro ck hc
          have hle := (h.ids ck hc).2
          rw [beq_iff_eq]
          omega
        · intro ck hc
          rw [beq_iff_eq, hzero]
          exact (h.ids ck hc).1
      | false => rw [hn.of_next.2]

end Acked

/-! ### The places of the messages -/

/-- The first message, queued earlier, has to come out before the second one. -/
def Queued.Before (a b : Queued) : Prop :=
  b.lane = .ordered ∨ (a.lane = .ordered ∧ (b.lane = .request ∨ b.lane = .event)) ∨
    (a.lane = b.lane ∧ a.key = b.key ∧ a.lane ≠ .reply)

/-- Message `i` was queued before message `j` and has to come out before it.  Control messages have no order. -/
def Precedes (codecs : Codecs) (enqueued : List Queued) (i j : Nat) : Prop :=
  i < j ∧ ∃ a b, enqueued[i]? = some a ∧ enqueued[j]? = some b ∧ control codecs a.message = false ∧
    control codecs b.message = false ∧ a.Before b

/-- The messages of the transfers that are not finished. -/
def unfinishedSeqs (active : List Transfer) : List Nat := (active.filter (fun t => !t.finished)).map Transfer.seq

structure Placed (codecs : Codecs) (pending : List Queued) (active : List Transfer) (enqueued : List Queued)
    (seqs : List Nat) : Prop where
  /-- Every queued message is delivered, pending or in an unfinished transfer, and only at one place. -/
  located : ∀ i, seqs.count i + (pending.map Queued.seq).count i + (unfinishedSeqs active).count i =
    if i < enqueued.length then 1 else 0
  sorted : pending.Pairwise (fun m n => m.seq < n.seq)
  queued : ∀ m ∈ pending, enqueued[m.seq]? = some m
  carried : ∀ t ∈ active, t.finished = false →
    ∃ m, enqueued[t.seq]? = some m ∧ m.message = t.message ∧ m.lane = t.lane ∧ m.key = t.key
  barrier : ∀ t ∈ active, t.finished = false → ∀ i, Precedes codecs enqueued i t.seq → i ∈ seqs
  envelopes : ∀ m ∈ enqueued, m.message.IsEnvelope codecs

theorem exists_eraseIdx {α : Type} {l : List α} {i : Nat} {x : α} (h : l[i]? = some x) :
    ∃ a b, l = a ++ x :: b ∧ a.length = i ∧ l.eraseIdx i = a ++ b := by
  obtain ⟨hi, rfl⟩ := List.getElem?_eq_some_iff.1 h
  refine ⟨l.take i, l.drop (i + 1), ?_, List.length_take_of_le (Nat.le_of_lt hi), List.eraseIdx_eq_take_drop_succ l i⟩
  rw [List.getElem_cons_drop, List.take_append_drop]

namespace Placed

variable {p : List Queued} {active a' : List Transfer} {enq : List Queued} {seqs : List Nat}

theorem perm (h : Placed cds p active enq seqs) (hp : a'.Perm active) : Placed cds p a' enq seqs :=
  { h with
    located i := by
      rw [unfinishedSeqs, ((hp.filter _).map _).count_eq]
      exact h.located i
    carried t ht := h.carried t (hp.mem_iff.1 ht)
    barrier t ht := h.barrier t (hp.mem_iff.1 ht) }

theorem map_strip : Placed cds p (active.map strip) enq seqs ↔ Placed cds p active enq seqs := by
  have hseqs : unfinishedSeqs (active.map strip) = unfinishedSeqs active := by
    rw [unfinishedSeqs, filter_map, map_map]
    rfl
  constructor
  · intro h
    exact ⟨hseqs ▸ h.located, h.sorted, h.queued, fun t ht => h.carried (strip t) (mem_map_of_mem ht),
      fun t ht => h.barrier (strip t) (mem_map_of_mem ht), h.envelopes⟩
  intro h
  refine ⟨hseqs ▸ h.located, h.sorted, h.queued, fun t ht => ?_, fun t ht => ?_, h.envelopes⟩
  · obtain ⟨u, hu, rfl⟩ := mem_map.1 ht
    exact h.carried u hu
  · obtain ⟨u, hu, rfl⟩ := mem_map.1 ht
    exact h.barrier u hu

theorem retain (h : Placed cds p active enq seqs) : Placed cds p (active.filter (fun t => !t.finished)) enq seqs :=
  { h with
    located i := by
      have hi := h.located i
      rw [unfinishedSeqs] at hi ⊢
      simpa only [filter_filter, Bool.and_self] using hi
    carried t ht := h.carried t (mem_of_mem_filter ht)
    barrier t ht := h.barrier t (mem_of_mem_filter ht) }

theorem lt_length {i : Nat} (h : Placed cds p active enq seqs) (hi : i ∈ seqs) : i < enq.length := by
  have hcnt := h.located i
  have hpos := count_pos_iff.2 hi
  by_contra hle
  rw [if_neg hle] at hcnt
  omega

variable {m : Queued} {t : Transfer} {ix : Nat}

section

variable (h : Placed cds p active enq seqs)

include h

theorem enqueue (hs : m.seq = enq.length) (he : m.message.IsEnvelope cds) :
    Placed cds (p ++ [m]) active (enq ++ [m]) seqs := by
  have hold : ∀ {i : Nat} {n : Queued}, enq[i]? = some n → (enq ++ [m])[i]? = some n := by
    intro i n hn
    rw [List.getElem?_append_left (List.getElem?_eq_some_iff.1 hn).1]
    exact hn
  refine ⟨?_, ?_, ?_, ?_, ?_, ?_⟩
  · intro i
    have hi := h.located i
    rw [List.map_append, List.count_append, List.map_singleton, hs, List.count_singleton, List.length_append]
    by_cases heq : enq.length = i
    · subst heq
      simp at hi ⊢
      omega
    have hbeq : (enq.length == i) = false := beq_eq_false_iff_ne.2 heq
    rw [hbeq]
    simp only [List.length_singleton, Bool.false_eq_true, if_false]
    split at hi <;> split <;> omega
  · refine List.pairwise_append.2 ⟨h.sorted, List.pairwise_singleton _ _, ?_⟩
    intro n hn n' hn'
    rw [List.mem_singleton.1 hn', hs]
    exact (List.getElem?_eq_some_iff.1 (h.queued n hn)).1
  · refine List.forall_mem_append.2 ⟨fun n hn => hold (h.queued n hn), List.forall_mem_singleton.2 ?_⟩
    rw [hs, List.getElem?_concat_length]
  · intro t ht hf
    obtain ⟨n, hn, hr⟩ := h.carried t ht hf
    exact ⟨n, hold hn, hr⟩
  · rintro t ht hf i ⟨hlt, a, b, ha, hb, hr⟩
    obtain ⟨n, hn, -⟩ := h.carried t ht hf
    have hbd := (List.getElem?_eq_some_iff.1 hn).1
    rw [List.getElem?_append_left (by omega)] at ha hb
    exact h.barrier t ht hf i ⟨hlt, a, b, ha, hb, hr⟩
  · exact List.forall_mem_append.2 ⟨h.envelopes, List.forall_mem_singleton.2 he⟩

theorem remove (hm : p[ix]? = some m) : Placed cds (p.eraseIdx ix) active enq (seqs ++ [m.seq]) := by
  obtain ⟨b, aft, rfl, -, he⟩ := exists_eraseIdx hm
  have hsub : (b ++ aft).Sublist (b ++ m :: aft) := by simp
  rw [he]
  refine ⟨?_, h.sorted.sublist hsub, fun n hn => h.queued n (hsub.subset hn), h.carried, ?_, h.envelopes⟩
  · intro i
    have hi := h.located i
    simp only [map_append, map_cons, count_append, count_cons, count_nil] at hi ⊢
    omega
  · intro t ht hf i hi
    exact mem_append_left _ (h.barrier t ht hf i hi)

/-- What has to come out before a message that may start is delivered. -/
theorem mem_of_eligible (hm : p[ix]? = some m) (he : eligible p ix active = true) {i : Nat}
    (hi : Precedes cds enq i m.seq) : i ∈ seqs := by
  obtain ⟨hlt, a, b, ha, hb, -, -, hbe⟩ := hi
  have hb' : b = m := by
    rw [h.queued m (List.mem_of_getElem? hm)] at hb
    exact Option.some.inj hb.symm
  subst hb'
  -- Neither the queue before the message nor an active transfer holds one that has to come out first.
  have hnone : ∀ lane key, lane = a.lane ∧ key = a.key →
      ((∃ n ∈ p.take ix, n.lane = lane ∧ n.key = key) ∨ ∃ t ∈ active, t.lane = lane ∧ t.key = key) → False := by
    rintro lane key ⟨rfl, rfl⟩ hplace
    unfold eligible at he
    rw [hm] at he
    dsimp only at he
    split at he
    · rename_i hr
      rcases hbe with ho | ⟨-, hre | hev⟩ | ⟨hs, -, hno⟩
      · rw [hr] at ho
        cases ho
      · rw [hr] at hre
        cases hre
      · rw [hr] at hev
        cases hev
      · exact hno (hs.trans hr)
    · split at he
      · simp only [Bool.and_eq_true, decide_eq_true_eq, List.isEmpty_iff] at he
        obtain ⟨rfl, rfl⟩ := he
        simp at hplace
      rename_i hor
      simp only [Bool.and_eq_true, Bool.not_eq_true', List.any_eq_false, Bool.or_eq_true, decide_eq_true_eq,
        not_or] at he
      rcases hbe with ho | ⟨ho, -⟩ | ⟨hs, hke, -⟩
      · exact hor ho
      · rcases hplace with ⟨n, hn, hl, -⟩ | ⟨t, ht, hl, -⟩
        · exact (he.2 n hn).1 (hl.trans ho)
        · exact (he.1 t ht).2 (hl.trans ho)
      · rcases hplace with ⟨n, hn, hl, hk⟩ | ⟨t, ht, hl, hk⟩
        · exact (he.2 n hn).2 ⟨hl.trans hs, hk.trans hke⟩
        · exact (he.1 t ht).1 ⟨hl.trans hs, hk.trans hke⟩
  have hcnt := h.located i
  rw [if_pos (List.getElem?_eq_some_iff.1 ha).1] at hcnt
  have hpend : (p.map Queued.seq).count i = 0 := by
    rw [List.count_eq_zero]
    intro hme
    obtain ⟨n, hn, hse⟩ := List.mem_map.1 hme
    have hna : n = a := by
      have hq := h.queued n hn
      rw [hse, ha] at hq
      exact Option.some.inj hq.symm
    obtain ⟨before, aft, rfl, hle, -⟩ := exists_eraseIdx hm
    have hpart : n ∈ before := by
      rcases List.mem_append.1 hn with hn | hn
      · exact hn
      rcases List.mem_cons.1 hn with rfl | hn
      · omega
      · have := (List.pairwise_cons.1 (List.pairwise_append.1 h.sorted).2.1).1 n hn
        omega
    exact hnone a.lane a.key ⟨rfl, rfl⟩ (.inl ⟨n, by rw [List.take_left' hle]; exact hpart, by rw [hna], by rw [hna]⟩)
  have hact : (unfinishedSeqs active).count i = 0 := by
    rw [List.count_eq_zero]
    intro hme
    obtain ⟨t, ht, hse⟩ := List.mem_map.1 hme
    obtain ⟨ht, hf⟩ := List.mem_filter.1 ht
    obtain ⟨n, hn, -, hl, hke⟩ := h.carried t ht (by simpa using hf)
    rw [hse, ha] at hn
    cases hn
    exact hnone _ _ ⟨rfl, rfl⟩ (.inr ⟨t, ht, hl.symm, hke.symm⟩)
  exact List.count_pos_iff.1 (by omega)

theorem start (hm : p[ix]? = some m) (hel : eligible p ix active = true) (hs : t.seq = m.seq)
    (hms : m.message = t.message) (hl : m.lane = t.lane) (hk : m.key = t.key) (ho : t.finished = false) :
    Placed cds (p.eraseIdx ix) (t :: active) enq seqs := by
  have hfst : ∀ i, Precedes cds enq i m.seq → i ∈ seqs := fun i hi => h.mem_of_eligible hm hel hi
  obtain ⟨b, aft, rfl, -, he⟩ := exists_eraseIdx hm
  have hsub : (b ++ aft).Sublist (b ++ m :: aft) := by simp
  rw [he]
  refine ⟨?_, h.sorted.sublist hsub, fun n hn => h.queued n (hsub.subset hn), ?_, ?_, h.envelopes⟩
  · intro i
    have hi := h.located i
    simp only [unfinishedSeqs, map_append, map_cons, count_append, count_cons] at hi ⊢
    rw [filter_cons_of_pos (by simp [ho]), map_cons, count_cons, hs]
    omega
  · refine forall_mem_cons.2 ⟨fun _ => ⟨m, ?_, hms, hl, hk⟩, h.carried⟩
    rw [hs]
    exact h.queued m (by simp)
  · refine forall_mem_cons.2 ⟨fun _ => ?_, h.barrier⟩
    rw [hs]
    exact hfst

end

/-- A chunk of the first transfer, which delivers the message when it is the last one. -/
theorem afterChunk {t' : Transfer} {ots : List Transfer} (h : Placed cds p (t :: ots) enq seqs)
    (ho : t.finished = false) (hs : t'.seq = t.seq) (hl : t'.lane = t.lane) (hk : t'.key = t.key)
    (hm : t'.finished = false → t'.message = t.message) :
    Placed cds p (ots ++ [t']) enq (seqs ++ if t'.finished then [t.seq] else []) := by
  refine ⟨?_, h.sorted, h.queued, ?_, ?_, h.envelopes⟩
  · intro i
    have hi := h.located i
    rw [unfinishedSeqs, filter_cons_of_pos (by simp [ho]), map_cons, count_cons] at hi
    rw [unfinishedSeqs, filter_append, map_append, count_append, count_append]
    cases hf : t'.finished with
    | true =>
      rw [filter_cons_of_neg (by simp [hf])]
      simp only [if_true, count_singleton, filter_nil, map_nil, count_nil]
      omega
    | false =>
      rw [filter_cons_of_pos (by simp [hf])]
      simp only [Bool.false_eq_true, if_false, filter_nil, map_cons, map_nil, count_cons,
        count_nil, hs]
      omega
  · obtain ⟨hfs, hot⟩ := forall_mem_cons.1 h.carried
    refine forall_mem_append.2 ⟨hot, forall_mem_singleton.2 fun hf => ?_⟩
    rw [hs, hl, hk, hm hf]
    exact hfs ho
  · intro u hu hf i hi
    apply mem_append_left
    rcases mem_append.1 hu with hu | hu
    · exact h.barrier u (mem_cons_of_mem _ hu) hf i hi
    · rw [mem_singleton.1 hu, hs] at hi
      exact h.barrier t mem_cons_self ho i hi

theorem not_mem_of_unfinished {ots : List Transfer}
    (h : Placed cds p (t :: ots) enq seqs) (ho : t.finished = false) : t.seq ∉ seqs := by
  intro hm
  have hi := h.located t.seq
  have hpos := count_pos_iff.2 hm
  rw [if_pos (h.lt_length hm), unfinishedSeqs, filter_cons_of_pos (by simp [ho]), map_cons,
    count_cons_self] at hi
  omega

theorem not_mem_of_pending (h : Placed cds p active enq seqs) (hm : m ∈ p) : m.seq ∉ seqs := by
  intro hme
  have hi := h.located m.seq
  have hpos := count_pos_iff.2 hme
  have hpos' := count_pos_iff.2 (mem_map_of_mem (f := Queued.seq) hm)
  rw [if_pos (h.lt_length hme)] at hi
  omega

end Placed

end Chariox.RelayTransport
