import Chariox.RelayTransport.Chunks
import Chariox.RelayTransport.System

/-!
# The writer and the receiver agree

What the receiver knows of the active transfers once it has read all that was written (`Agrees`): the transfers that
are under way, the part of each that it has assembled, and so the slots and the budget that they take.  A chunk keeps
this (`Agrees.afterChunk`), because the receiver takes it and answers with the receipt that the writer expects
(`read_chunk`).
-/

namespace Chariox.RelayTransport

open FrameReceiver (Takes)
open Transfer List

variable {cds : Codecs}

/-- The receiver holds a part of the transfer. -/
def Transfer.isOpen (self : Transfer) : Bool := decide (self.id ≠ 0) && !self.finished

def Transfer.openTotal (self : Transfer) : Nat := if self.isOpen then self.total else 0

/-- The part of the transfer that was sent is what the receiver holds. -/
def Underway (receiver : FrameReceiver) (self : Transfer) : Prop :=
  match self.binary with
  | none => ∃ pre rest, self.text = pre ++ rest ∧ Text.len pre = self.offset ∧ receiver.Holds self.id self.total pre
  | some bytes => chunkBytes < bytes.length ∧ self.offset ≤ bytes.length ∧
    receiver.HoldsBinary self.id self.total (bytes.take self.offset)

/-- A transfer is finished, or it has not begun, or the receiver holds its part. -/
structure Stage (codecs : Codecs) (receiver : FrameReceiver) (t : Transfer) : Prop where
  envelope : t.finished = false → t.message.IsEnvelope codecs
  bound : t.finished = false → t.total ≤ maxMessageBytes
  plain : t.finished = false → t.binary ≠ none → t.text = []
  fresh : t.finished = false → t.id = 0 → t.offset = 0
  underway : t.finished = false → t.id ≠ 0 → Underway receiver t

/-- The receiver, after all that was written, against the active transfers and the last id. -/
structure Agrees (codecs : Codecs) (nextId : Nat) (active : List Transfer) (receiver : FrameReceiver) : Prop where
  lastId : receiver.lastId = nextId
  range : nextId < 2 ^ 32
  slots : receiver.slots = active.countP isOpen
  reserved : receiver.reserved = (active.map openTotal).sum
  keys : ∀ k, nextId < k → receiver.active.get k = none ∧ receiver.binaryActive.get k = none
  stage : ∀ t ∈ active, Stage codecs receiver t
  ids : ∀ t ∈ active, t.id ≤ nextId
  distinct : active.Pairwise (fun t u => t.id = u.id → t.id = 0)
  count : active.length ≤ maxTransfers
  assembly : reservedBytes active ≤ maxAssemblyBytes

/-! ### The peer reads a frame -/

variable {receiver : FrameReceiver} {id : Nat} {self peer : Peer}

theorem readReceipt_frameText {off : Nat} (hid : id < 2 ^ 32) (ho : off < 2 ^ 32) :
    readReceipt cds (cds.frameText (.transportAck id off)) = some (id, off) := by
  have hrng : (TransportFrame.transportAck id off).InRange := ⟨hid, ho⟩
  unfold readReceipt
  rw [cds.fromStr_frameText _ hrng]
  dsimp only [Option.bind_eq_bind, Option.bind_some]
  rw [if_pos (TransportFrame.kind_toValue_ack id off), TransportFrame.ofValue_toValue hrng]

theorem Peer.read_text (he : self.error = none) {text : Text} {msg : Option Text} {rcp : Option Text}
    (h : self.receiver.receive cds text = (.ok (msg, rcp), receiver)) :
    self.read cds (.text text) = ⟨receiver, self.handedOut ++ (msg.map Message.text).toList,
      self.receipts ++ (rcp.bind (readReceipt cds)).toList, none⟩ := by
  unfold Peer.read
  dsimp only
  rw [h]
  simp [Except.map, Peer.after, he]

theorem Peer.read_binary (he : self.error = none) {bs : Bytes} {msg : Option Bytes} {rcp : Option Text}
    (h : self.receiver.receiveBinary cds bs = (.ok (msg, rcp), receiver)) :
    self.read cds (.binary bs) = ⟨receiver, self.handedOut ++ (msg.map Message.binary).toList,
      self.receipts ++ (rcp.bind (readReceipt cds)).toList, none⟩ := by
  unfold Peer.read
  dsimp only
  rw [h]
  simp [Except.map, Peer.after, he]

def Message.isData : Message → Bool
  | .control _ => false
  | _ => true

/-- A message that comes in one piece is handed out if it is data, and nothing else happens. -/
theorem Peer.read_whole (he : self.error = none) {msg : Message} (h : msg.IsEnvelope cds) :
    self.read cds msg = { self with handedOut := self.handedOut ++ [msg].filter Message.isData } := by
  cases msg with
  | text =>
    rw [read_text he (FrameReceiver.receive_envelope h)]
    simp [he, filter, Message.isData]
  | binary =>
    rw [read_binary he (FrameReceiver.receiveBinary_envelope h)]
    simp [he, filter, Message.isData]
  | control =>
    cases self
    simp [read, Message.isData]

/-! ### A transfer of more than one piece after its chunk -/

section AfterChunk

variable {t : Transfer} {stop : Nat} (hsm : t.smallBinary = none)

include hsm

theorem binary_afterChunk : (t.afterChunk stop).binary = t.binary := by simp [afterChunk, hsm]

theorem total_afterChunk : (t.afterChunk stop).total = t.total := by
  rw [total, binary_afterChunk hsm]
  rfl

theorem finished_afterChunk : (t.afterChunk stop).finished = true ↔ stop = t.total := by
  rw [finished_iff (by rw [smallBinary, binary_afterChunk hsm]; exact hsm), total_afterChunk hsm]
  rfl

end AfterChunk

/-- The receiver takes the next chunk of a transfer, which has its id by now. -/
theorem read_chunk {t : Transfer} {st : Bool} {msg : Message} {stop : Nat}
    (her : peer.error = none) (hid : t.id ≠ 0) (hid32 : t.id < 2 ^ 32) (hop : t.finished = false)
    (he : t.message.IsEnvelope cds) (hbd : t.total ≤ maxMessageBytes) (hsm : t.smallBinary = none)
    (hst : st = true → t.offset = 0 ∧ peer.receiver.Accepts t.id t.total)
    (hn : ¬ st = true → Underway peer.receiver t ∧ t.total ≤ peer.receiver.reserved)
    (hc : t.nextChunk cds = some (msg, stop)) : ∃ rc, peer.read cds msg = ⟨rc,
        peer.handedOut ++ (if (t.afterChunk stop).finished then [t.message] else []), peer.receipts ++ [(t.id, stop)],
        none⟩ ∧
      Takes peer.receiver rc t.id t.total (st = true) ((t.afterChunk stop).finished = true) ∧
      ((t.afterChunk stop).finished = false → Underway rc (t.afterChunk stop)) ∧ stop < 2 ^ 32 := by
  have htot32 : maxMessageBytes < 2 ^ 32 := by decide
  cases hbin : t.binary with
  | none =>
    have htot : t.total = Text.len t.text := by simp [total, hbin]
    have hmsg : t.message = .text t.text := by simp [Transfer.message, hbin]
    rw [hmsg] at he
    -- What was sent so far.
    obtain ⟨pre, rest, ht, ho, hh⟩ : ∃ pre rest, t.text = pre ++ rest ∧ Text.len pre = t.offset ∧
        (¬ st = true → peer.receiver.Holds t.id t.total pre) := by
      by_cases hs : st = true
      · exact ⟨[], t.text, rfl, (hst hs).1.symm, absurd hs⟩
      have hund := (hn hs).1
      rw [Underway, hbin] at hund
      obtain ⟨pre, rest, ht, ho, hh⟩ := hund
      exact ⟨pre, rest, ht, ho, fun _ => hh⟩
    obtain ⟨payload, post, hp, hne, hl, heq⟩ := @Transfer.nextChunk_text cds t pre rest ht ho hop
      hbin hid32 (by omega)
    rw [heq] at hc
    cases hc
    have ha : t.text = pre ++ payload ++ post := by rw [ht, hp, append_assoc]
    have hlens : Text.len t.text = Text.len (pre ++ payload) + Text.len post := by rw [ha, Text.len_append]
    have hends : post = [] ↔ (t.afterChunk (Text.len (pre ++ payload))).finished = true := by
      rw [finished_afterChunk hsm, htot, hlens]
      constructor
      · rintro rfl
        rw [Text.len_nil, Nat.add_zero]
      · intro h
        exact Text.eq_nil_of_len (by omega)
    obtain ⟨rc, hr, htk, hm⟩ := @FrameReceiver.receive_text cds peer.receiver t.id t.total pre
      payload post (st = true) _ hid hid32 (by rw [htot, ha]) hbd hne hl (by rw [← ha]; exact he)
      (fun hs => ⟨Text.eq_nil_of_len (by rw [ho, (hst hs).1]), (hst hs).2⟩)
      fun hs => ⟨hh hs, (hn hs).2⟩
    have hstop : Text.len (pre ++ payload) < 2 ^ 32 := by omega
    refine ⟨rc, ?_, htk.congr hends, fun h => ?_, hstop⟩
    · rw [← htot, Peer.read_text her hr]
      simp only [Option.bind_some, readReceipt_frameText hid32 hstop, hmsg, ← ha, ← hends]
      by_cases hpost : post = [] <;> simp [hpost]
    have hpost : post ≠ [] := fun hni => by rw [hends.1 hni] at h; cases h
    rw [Underway, binary_afterChunk hsm, hbin]
    refine ⟨pre ++ payload, post, ha, rfl, ?_⟩
    rw [total_afterChunk hsm]
    exact hm hpost
  | some bytes =>
    have htot : t.total = bytes.length := by simp [total, hbin]
    have hmsg : t.message = .binary bytes := by simp [Transfer.message, hbin]
    rw [hmsg] at he
    have hlrg : chunkBytes < bytes.length := by
      by_contra hle
      simp [smallBinary, hbin, Option.filter, Nat.le_of_not_lt hle] at hsm
    have ho : t.offset < bytes.length := by
      have hle : t.offset ≤ bytes.length := by
        by_cases hs : st = true
        · rw [(hst hs).1]
          exact Nat.zero_le _
        have hund := (hn hs).1
        rw [Underway, hbin] at hund
        exact hund.2.1
      have hne : t.offset ≠ bytes.length := by
        rwa [← htot, ne_eq, ← finished_iff hsm, Bool.not_eq_true]
      omega
    obtain ⟨payload, post, ha, hne, hl, heq⟩ := @Transfer.nextChunk_binary cds t bytes hbin hlrg ho
    rw [heq] at hc
    cases hc
    have hpre : (bytes.take t.offset).length = t.offset := length_take_of_le (Nat.le_of_lt ho)
    have hlens : bytes.length = t.offset + payload.length + post.length := by
      have := congrArg length ha
      rwa [length_append, length_append, hpre] at this
    have hends : post = [] ↔ (t.afterChunk (t.offset + payload.length)).finished = true := by
      rw [finished_afterChunk hsm, htot, hlens]
      constructor
      · rintro rfl
        rw [length_nil, Nat.add_zero]
      · intro h
        exact eq_nil_of_length_eq_zero (by omega)
    have hsent : (bytes.take t.offset ++ payload).length = t.offset + payload.length := by
      rw [length_append, hpre]
    obtain ⟨rc, hr, htk, hm⟩ := @FrameReceiver.receiveBinary_chunk cds peer.receiver t.id t.total
      (bytes.take t.offset) payload post (st = true) _ hid hid32 (by rw [← ha, htot]) hbd
      (by rw [hl, hpre, htot]) hne (by rw [← ha]; exact he)
      (fun hs => ⟨by rw [(hst hs).1, take_zero], (hst hs).2⟩)
      (fun hs => by
        have hund := (hn hs).1
        rw [Underway, hbin] at hund
        exact ⟨hund.2.2, (hn hs).2⟩)
    have hstop : t.offset + payload.length < 2 ^ 32 := by omega
    refine ⟨rc, ?_, htk.congr hends, fun h => ?_, hstop⟩
    · rw [hpre, htot] at hr
      rw [Peer.read_binary her hr]
      simp only [Option.bind_some, hsent, readReceipt_frameText hid32 hstop, Option.toList_some, hmsg, ← ha,
        ← hends]
      by_cases hpost : post = [] <;> simp [hpost]
    · have hpost : post ≠ [] := fun hni => by rw [hends.1 hni] at h; cases h
      rw [Underway, binary_afterChunk hsm, hbin]
      refine ⟨hlrg, show t.offset + payload.length ≤ _ by omega, ?_⟩
      have hheld : bytes.take (t.offset + payload.length) = bytes.take t.offset ++ payload := by
        conv_lhs => rw [ha]
        exact take_left' hsent
      rw [← hheld] at hm
      rw [total_afterChunk hsm]
      exact hm hpost

theorem read_checkpoint (he : peer.error = none) (hid : peer.receiver.lastId < id) (hid32 : id < 2 ^ 32) :
    peer.read cds (.text (cds.frameText (.transportChunk id 0 0 []))) =
      ⟨{ peer.receiver with lastId := id }, peer.handedOut, peer.receipts ++ [(id, 0)], none⟩ := by
  rw [Peer.read_text he (FrameReceiver.receive_checkpoint hid hid32)]
  simp [readReceipt_frameText hid32 (show 0 < 2 ^ 32 by decide)]

/-- A small binary message and its checkpoint: a transfer that begins and ends at once. -/
theorem read_smallBinary {bs : Bytes} (he : peer.error = none)
    (hen : (Message.binary bs).IsEnvelope cds) (hid : peer.receiver.lastId < id) (hid32 : id < 2 ^ 32) :
    (peer.read cds (.binary bs)).read cds (.text (cds.frameText (.transportChunk id 0 0 []))) =
      ⟨{ peer.receiver with lastId := id }, peer.handedOut ++ [.binary bs], peer.receipts ++ [(id, 0)], none⟩ := by
  rw [Peer.read_whole he hen]
  exact read_checkpoint he hid hid32

theorem takes_checkpoint (recv : FrameReceiver) (id tot : Nat) :
    Takes recv { recv with lastId := id } id tot (true = true) (true = true) where
  lastId := rfl
  reserved := rfl
  slots := rfl
  active _ _ := rfl
  binaryActive _ _ := rfl

/-! ### Changes of the active transfers -/

/-- A chunk of another transfer does not touch what the receiver holds. -/
theorem Underway.frame {recv' : FrameReceiver} {u : Transfer} {tot : Nat} {sts ends : Prop}
    [Decidable sts] [Decidable ends] (h : Underway receiver u) (ht : Takes receiver recv' id tot sts ends)
    (hne : u.id ≠ id) : Underway recv' u := by
  unfold Underway at h ⊢
  split
  · rename_i hb
    rw [hb] at h
    obtain ⟨pre, rest, hte, ho, ha, hbi⟩ := h
    exact ⟨pre, rest, hte, ho, (ht.active _ hne).trans ha, (ht.binaryActive _ hne).trans hbi⟩
  · rename_i hb
    rw [hb] at h
    obtain ⟨hl, ho, hbi, ha⟩ := h
    exact ⟨hl, ho, (ht.binaryActive _ hne).trans hbi, (ht.active _ hne).trans ha⟩

/-- The id under which a transfer sends its next chunk: a new one when it starts. -/
structure Named (nextId : Nat) (t : Transfer) (starting : Bool) (id : Nat) : Prop where
  starting_eq : starting = decide (t.id = 0)
  id_eq : id = if starting then nextId + 1 else t.id

namespace Named

variable {nextId id : Nat} {t : Transfer} {starting : Bool}

theorem of_starting (h : Named nextId t true id) : t.id = 0 ∧ id = nextId + 1 :=
  ⟨of_decide_eq_true h.starting_eq.symm, h.id_eq⟩

theorem of_next (h : Named nextId t false id) : t.id ≠ 0 ∧ id = t.id :=
  ⟨of_decide_eq_false h.starting_eq.symm, h.id_eq⟩

section

variable (h : Named nextId t starting id)

include h

theorem ne_zero : id ≠ 0 := by
  cases starting with
  | true =>
    have := h.of_starting
    omega
  | false =>
    rw [h.of_next.2]
    exact h.of_next.1

theorem le_next (hid : t.id ≤ nextId) : id ≤ if starting then id else nextId := by
  cases starting with
  | true => exact le_rfl
  | false =>
    rw [h.of_next.2]
    exact hid

theorem next_le : nextId ≤ if starting then id else nextId := by
  cases starting with
  | true =>
    rw [h.of_starting.2]
    exact Nat.le_succ _
  | false => exact le_rfl

theorem other {ots : List Transfer} (hi : ∀ u ∈ ots, u.id ≤ nextId)
    (hd : ∀ u ∈ ots, t.id = u.id → t.id = 0) : ∀ u ∈ ots, u.id = id → u.id = 0 := by
  intro u hu heq
  cases starting with
  | true =>
    have hle := hi u hu
    have hnew := h.of_starting.2
    omega
  | false =>
    have hsame : t.id = u.id := by rw [heq, h.of_next.2]
    rw [← hsame]
    exact hd u hu hsame

end

end Named

namespace Agrees

variable {nextId : Nat} {active a' : List Transfer} {receiver : FrameReceiver}

theorem perm (h : Agrees cds nextId active receiver) (hp : a'.Perm active) : Agrees cds nextId a' receiver :=
  { h with
    slots := by rw [h.slots, hp.countP_eq]
    reserved := by rw [h.reserved, (hp.map _).sum_nat]
    stage t ht := h.stage t (hp.mem_iff.1 ht)
    ids t ht := h.ids t (hp.mem_iff.1 ht)
    distinct := (hp.pairwise_iff fun hid heq => by rw [heq] at hid ⊢; exact hid rfl).2 h.distinct
    count := by rw [hp.length_eq]; exact h.count
    assembly := by rw [reservedBytes, (hp.map _).sum_nat]; exact h.assembly }

/-- The transfer as the receiver sees it, without the receipts that it waits for. -/
def strip (t : Transfer) : Transfer := { t with waiting := 0 }

theorem map_strip : Agrees cds nextId (active.map strip) receiver ↔ Agrees cds nextId active receiver := by
  have hcnt : (active.map strip).countP isOpen = active.countP isOpen := by
    rw [countP_map]
    rfl
  have hopen : ((active.map strip).map openTotal).sum = (active.map openTotal).sum := by
    rw [map_map]
    rfl
  have htot : reservedBytes (active.map strip) = reservedBytes active := by
    rw [reservedBytes, map_map]
    rfl
  constructor
  · intro h
    refine ⟨h.lastId, h.range, hcnt ▸ h.slots, hopen ▸ h.reserved, h.keys, fun t ht => ?_, fun t ht => ?_,
      pairwise_map.1 h.distinct, by simpa using h.count, htot ▸ h.assembly⟩
    · have hstg := h.stage (strip t) (mem_map_of_mem ht)
      exact { hstg with }
    · exact h.ids (strip t) (mem_map_of_mem ht)
  · intro h
    refine ⟨h.lastId, h.range, hcnt ▸ h.slots, hopen ▸ h.reserved, h.keys, fun t ht => ?_, fun t ht => ?_,
      pairwise_map.2 h.distinct, by simpa using h.count, htot ▸ h.assembly⟩
    · obtain ⟨u, hu, rfl⟩ := mem_map.1 ht
      have hstg := h.stage u hu
      exact { hstg with }
    · obtain ⟨u, hu, rfl⟩ := mem_map.1 ht
      exact h.ids u hu

/-- Finished transfers can go: the receiver holds nothing of them. -/
theorem retain (h : Agrees cds nextId active receiver) :
    Agrees cds nextId (active.filter (fun t => !t.finished)) receiver := by
  have hsub : (active.filter fun t => !t.finished).Sublist active := filter_sublist
  have hcnt : (active.filter fun t => !t.finished).countP isOpen = active.countP isOpen := by
    rw [countP_filter]
    apply countP_congr
    intro t _
    simp only [isOpen, Bool.and_eq_true]
    constructor
    · exact fun ho => ho.1
    · exact fun ho => ⟨ho, ho.2⟩
  have ho : ((active.filter fun t => !t.finished).map openTotal).sum = (active.map openTotal).sum := by
    clear h hsub hcnt
    induction active with
    | nil => rfl
    | cons t rest ih =>
      cases hfin : t.finished with
      | true => simp [hfin, ih, openTotal, isOpen]
      | false => simp [hfin, ih]
  refine ⟨h.lastId, h.range, hcnt ▸ h.slots, ho ▸ h.reserved, h.keys, fun t ht => h.stage t (hsub.subset ht),
    fun t ht => h.ids t (hsub.subset ht), h.distinct.sublist hsub, hsub.length_le.trans h.count, ?_⟩
  exact ((hsub.map total).sum_le_sum fun _ _ => Nat.zero_le _).trans h.assembly

variable {ots : List Transfer} {t : Transfer}

theorem push (h : Agrees cds nextId active receiver) (hid : t.id = 0) (ho : t.offset = 0)
    (he : t.message.IsEnvelope cds) (hbd : t.total ≤ maxMessageBytes)
    (hpl : t.binary ≠ none → t.text = []) (hc : active.length < maxTransfers)
    (hr : t.total ≤ maxAssemblyBytes - reservedBytes active) : Agrees cds nextId (t :: active) receiver := by
  have hclo : t.isOpen = false := by simp [isOpen, hid]
  have hsum : reservedBytes (t :: active) = t.total + reservedBytes active := by simp [reservedBytes]
  have hasm := h.assembly
  refine ⟨h.lastId, h.range, ?_, ?_, h.keys, ?_, ?_, ?_, hc, ?_⟩
  · rw [countP_cons, hclo]
    exact h.slots
  · rw [map_cons, sum_cons, openTotal, hclo, ← h.reserved]
    exact (Nat.zero_add _).symm
  · refine forall_mem_cons.2 ⟨?_, h.stage⟩
    exact ⟨fun _ => he, fun _ => hbd, fun _ => hpl, fun _ _ => ho, fun _ hne => absurd hid hne⟩
  · exact forall_mem_cons.2 ⟨hid ▸ Nat.zero_le _, h.ids⟩
  · exact pairwise_cons.2 ⟨fun _ _ _ => hid, h.distinct⟩
  · omega

theorem openTotal_le (t : Transfer) : t.openTotal ≤ t.total := by
  unfold openTotal
  split
  · exact le_rfl
  · exact Nat.zero_le _

/-- The receiver has a slot and the budget for a transfer that has not begun. -/
theorem accepts (h : Agrees cds nextId (t :: ots) receiver)
    (hid : t.id = 0) : receiver.Accepts (nextId + 1) t.total := by
  have hkeys := h.keys (nextId + 1) (Nat.lt_succ_self _)
  have hclo : t.isOpen = false := by simp [isOpen, hid]
  have hslt := h.slots
  have hrsv := h.reserved
  have hasm := h.assembly
  have hcnt := h.count
  have hoths : ots.countP isOpen ≤ ots.length := countP_le_length
  have hsum : (ots.map openTotal).sum ≤ (ots.map total).sum :=
    sum_le_sum fun u _ => openTotal_le u
  rw [countP_cons, hclo] at hslt
  rw [map_cons, sum_cons, openTotal, hclo] at hrsv
  simp only [reservedBytes, map_cons, sum_cons] at hasm
  rw [length_cons] at hcnt
  simp only [Bool.false_eq_true, if_false] at hslt hrsv
  refine ⟨hkeys.1, hkeys.2, ?_⟩
  simp only [FrameReceiver.refusesStart, Bool.or_eq_false_iff, decide_eq_false_iff_not]
  refine ⟨⟨⟨fun hne => hne rfl, ?_⟩, ?_⟩, ?_⟩
  · rw [h.lastId]
    omega
  · omega
  · omega

theorem total_le_reserved (h : Agrees cds nextId (t :: ots) receiver)
    (ho : t.finished = false) (hid : t.id ≠ 0) : t.total ≤ receiver.reserved := by
  have hisOpen : t.isOpen = true := by simp [isOpen, ho, hid]
  rw [h.reserved, map_cons, openTotal, if_pos hisOpen]
  exact Nat.le_add_right _ _

/-- A chunk of the first transfer: the receiver takes it, and the transfer goes to the back. -/
theorem afterChunk {receiver' : FrameReceiver} {t' : Transfer} {id : Nat} {starting : Bool}
    (h : Agrees cds nextId (t :: ots) receiver) (ho : t.finished = false)
    (hn : Named nextId t starting id) (hr : starting = true → nextId + 1 < 2 ^ 32) (hid' : t'.id = id)
    (hto : t'.total ≤ t.total) (hs : t'.finished = false → t'.total = t.total)
    (ht : Takes receiver receiver' id t.total (starting = true) (t'.finished = true)) (hst : Stage cds receiver' t') :
    Agrees cds (if starting then id else nextId) (ots ++ [t']) receiver' := by
  have hspl := pairwise_cons.1 h.distinct
  have hoths : ∀ u ∈ ots, u.id ≤ nextId := fun u hu => h.ids u (mem_cons_of_mem _ hu)
  have hoth := hn.other hoths hspl.1
  have hle := hn.le_next (h.ids t mem_cons_self)
  have hnext := hn.next_le
  have hopen' : t'.isOpen = !t'.finished := by simp [isOpen, hid', hn.ne_zero]
  have hopenOld : t.isOpen = !starting := by simp [isOpen, ho, hn.starting_eq]
  have hslt := h.slots
  have hrsv := h.reserved
  have hslt' := ht.slots
  have hrsv' := ht.reserved
  rw [countP_cons, hopenOld] at hslt
  rw [map_cons, openTotal, hopenOld] at hrsv
  refine ⟨?_, ?_, ?_, ?_, ?_, ?_, ?_, ?_, ?_, ?_⟩
  · rw [ht.lastId, h.lastId]
  · cases starting with
    | true =>
      rw [hn.of_starting.2]
      exact hr rfl
    | false => exact h.range
  · rw [countP_append, countP_singleton, hopen']
    cases starting <;> cases hf : t'.finished <;> simp [hf] at hslt hslt' ⊢ <;> omega
  · rw [map_append, map_singleton, openTotal, hopen']
    cases hf : t'.finished with
    | true => cases starting <;> simp [hf] at hrsv hrsv' ⊢ <;> omega
    | false =>
      rw [hs hf]
      cases starting <;> simp [hf] at hrsv hrsv' ⊢ <;> omega
  · intro k hk
    have hne : k ≠ id := fun heq => Nat.not_lt.2 hle (heq ▸ hk)
    rw [ht.active k hne, ht.binaryActive k hne]
    exact h.keys k (Nat.lt_of_le_of_lt hnext hk)
  · refine forall_mem_append.2 ⟨fun u hu => ?_, forall_mem_singleton.2 hst⟩
    have hold := h.stage u (mem_cons_of_mem _ hu)
    exact ⟨hold.envelope, hold.bound, hold.plain, hold.fresh, fun hf hne =>
      (hold.underway hf hne).frame ht fun heq => hne (hoth u hu heq)⟩
  · exact forall_mem_append.2 ⟨fun u hu => (hoths u hu).trans hnext, forall_mem_singleton.2 (hid' ▸ hle)⟩
  · refine pairwise_append.2 ⟨hspl.2, pairwise_singleton _ _, ?_⟩
    intro u hu v hv heq
    rw [mem_singleton.1 hv, hid'] at heq
    exact hoth u hu heq
  · rw [length_append]
    exact h.count
  · have hasm := h.assembly
    simp only [reservedBytes, map_cons, sum_cons, map_append, sum_append, map_nil,
      sum_nil] at hasm ⊢
    omega

end Agrees

end Chariox.RelayTransport
