import Chariox.RelayTransport.Credit
import Chariox.RelayTransport.Delivery

/-!
# What every pass of the writer's loop keeps

The writer's books stay sound in every run, whatever is sent, and its transfers are always cut between two characters
(`Writer.Paced`).  At the top of the loop a transfer that is finished still waits for a receipt (`Writer.Rested`), since
a pass drops the finished ones before it can wait.

Nothing here depends on what the peer makes of the frames.  The queued messages are those of which `M` holds.
-/

namespace Chariox.RelayTransport

open Prog List

variable {cds : Codecs} {cfg : Config} {M : Message → Prop}

/-! ### The next chunk of a transfer -/

/-- A transfer whose sent part ends between two characters. -/
structure Transfer.Cut (nextId : Nat) (t : Transfer) : Prop where
  id : t.id ≤ nextId
  bound : t.total ≤ maxMessageBytes
  plain : t.binary ≠ none → t.text = []
  boundary : t.binary = none → ∃ pre rest, t.text = pre ++ rest ∧ Text.len pre = t.offset

namespace Transfer

variable {t nm : Transfer} {nextId stop : Nat} {message : Message} {starting : Bool}

theorem textChunk_len {fuel st : Nat} (h : t.textChunk cds fuel st = some (message, stop)) :
    message.len ≤ chunkBytes := by
  induction fuel generalizing st with
  | zero => cases h
  | succ fuel ih =>
    obtain ⟨pay, -, h⟩ := Option.bind_eq_some_iff.1 h
    dsimp only at h
    split at h
    · rename_i hl
      cases h
      exact hl
    · exact ih h

/-- The bytes that the next chunk takes of the window, with the binary message before it if there is one. -/
theorem nextChunk_len (h : t.nextChunk cds = some (message, stop)) (hid : t.id < 2 ^ 32) :
    message.len + (t.smallBinary.map List.length).getD 0 ≤ smallReserveBytes := by
  have hchk : chunkBytes = 16384 := rfl
  have hrsrv : smallReserveBytes = 32768 := rfl
  have hheader : binaryChunkHeaderBytes = 16 := rfl
  have hpay : binaryChunkPayloadBytes = 16368 := rfl
  unfold nextChunk at h
  cases hbin : t.binary with
  | none =>
    rw [hbin] at h
    dsimp only at h
    have hsm : t.smallBinary = none := by simp [smallBinary, hbin]
    rw [hsm]
    split at h
    · cases h
    have hlen := textChunk_len h
    simp only [Option.map_none, Option.getD_none]
    omega
  | some bytes =>
    rw [hbin] at h
    dsimp only at h
    split at h
    · rename_i hl
      have hsm : t.smallBinary = none := by simp [smallBinary, hbin, hl]
      rw [hsm]
      split at h
      · cases h
      cases h
      have hslc : ((bytes.take (min (t.offset + binaryChunkPayloadBytes) bytes.length)).drop t.offset).length ≤
          binaryChunkPayloadBytes := by
        rw [length_drop, length_take]
        omega
      simp only [Message.len, FrameReceiver.length_binaryChunk, Option.map_none, Option.getD_none]
      omega
    · rename_i hl
      cases h
      have hsm : t.smallBinary = some bytes := by
        rw [smallBinary, hbin, Option.filter_some, if_pos (decide_eq_true (Nat.le_of_not_lt hl))]
      have hfr := cds.frameText_len t.id 0 0 [] ⟨hid, by decide, by decide⟩
      rw [hsm]
      simp only [Message.len, Option.map_some, Option.getD_some, Text.len_nil] at hfr ⊢
      omega

namespace Cut

/-- A transfer with something left to send has a next chunk. -/
theorem exists_chunk (h : t.Cut nextId) (hid : t.id < 2 ^ 32) (ho : t.finished = false) :
    ∃ msg stop, t.nextChunk cds = some (msg, stop) := by
  have hmax : maxMessageBytes = 67108864 := rfl
  have hbd := h.bound
  cases hbin : t.binary with
  | none =>
    obtain ⟨pre, rest, ht, hof⟩ := h.boundary hbin
    rw [Transfer.total, hbin] at hbd
    simp only [Option.map_none, Option.getD_none] at hbd
    obtain ⟨pay, post, -, -, -, heq⟩ := @nextChunk_text cds t pre rest ht hof ho hbin hid (by omega)
    exact ⟨_, _, heq⟩
  | some =>
    unfold nextChunk
    rw [hbin]
    dsimp only
    split
    · rename_i hl
      rw [Transfer.finished, hbin] at ho
      split
      · rename_i hd
        simp [hl, hd] at ho
      · exact ⟨_, _, rfl⟩
    · exact ⟨_, _, rfl⟩

/-- After its chunk a transfer again ends between two characters. -/
theorem afterChunk (h : t.Cut nextId) (hnext : nextId < 2 ^ 32) (hc : Chosen cds nextId t nm starting message stop) :
    (nm.afterChunk stop).Cut (if starting then nm.id else nextId) := by
  have hmax : maxMessageBytes = 67108864 := rfl
  have hbd := h.bound
  have htext : nm.text = t.text := by rw [hc.named_eq]
  have hbin : nm.binary = t.binary := by rw [hc.named_eq]
  have hoff : nm.offset = t.offset := by rw [hc.named_eq]
  refine ⟨hc.toNamed.le_next h.id, ?_, ?_, ?_⟩
  · cases hsm : nm.smallBinary with
    | none =>
      rw [total_afterChunk hsm, Transfer.total, htext, hbin]
      exact hbd
    | some =>
      have hpl : t.text = [] := by
        refine h.plain ?_
        simp [← hbin, (Option.filter_eq_some_iff.1 hsm).1]
      simp [Transfer.total, Transfer.afterChunk, hsm, htext, hpl]
  · intro hne
    refine htext.trans (h.plain ?_)
    rw [← hbin]
    intro hn
    refine hne ?_
    simp [Transfer.afterChunk, hn]
  · intro hn
    cases hcase : t.binary with
    | some bs =>
      -- The binary message left the transfer, so it was a small one.
      have hpl : nm.text = [] := htext.trans (h.plain (by simp [hcase]))
      have hchk := hc.chunk
      have hsm : bs.length ≤ chunkBytes := by
        by_contra hlrg
        simp [Transfer.afterChunk, Transfer.smallBinary, hbin, hcase, hlrg] at hn
      rw [nextChunk_small (hbin.trans hcase) hsm] at hchk
      cases hchk
      exact ⟨[], [], by simpa [Transfer.afterChunk] using hpl, rfl⟩
    | none =>
      obtain ⟨pre, rest, hs, hpr⟩ := h.boundary hcase
      rw [Transfer.total, hcase] at hbd
      simp only [Option.map_none, Option.getD_none] at hbd
      obtain ⟨pay, post, hp, -, -, heq⟩ := @nextChunk_text cds nm pre rest (htext.trans hs)
        (hpr.trans hoff.symm) (by rw [hc.named_eq]; exact hc.unfinished) (hbin.trans hcase) (hc.id_lt h.id hnext) (by rw [htext]; omega)
      rw [hc.chunk] at heq
      cases heq
      refine ⟨pre ++ pay, post, ?_, rfl⟩
      rw [append_assoc, ← hp, ← hs]
      exact htext

end Cut

end Transfer

/-! ### What every part of the loop keeps -/

structure Writer.Paced (M : Message → Prop) (writer : Writer) : Prop where
  credit : writer.credit.Sound
  range : writer.nextId < 2 ^ 32
  cut : ∀ t ∈ writer.active, t.Cut writer.nextId
  pending : ∀ m ∈ writer.pending, M m.message

namespace Writer.Paced

variable {wr : Writer}

theorem init : Writer.Paced M .init where
  credit := ⟨rfl, rfl, Nat.zero_le _, Nat.zero_le _⟩
  range := by decide
  cut := nofun
  pending := nofun

variable {active : List Transfer} {id : Nat}

/-- A receipt changes only the number of chunks for which a transfer waits. -/
theorem of_releaseWaiting {a' : List Transfer} (h : releaseWaiting id active = some a') :
    ∀ t' ∈ a', ∃ t ∈ active, t' = { t with waiting := t'.waiting } := by
  induction active generalizing a' with
  | nil =>
    cases h
    exact fun t' ht' => nomatch ht'
  | cons t rest ih =>
    unfold releaseWaiting at h
    split at h
    · split at h
      · cases h
      cases h
      intro t' ht'
      rcases mem_cons.1 ht' with rfl | ht'
      · exact ⟨t, mem_cons_self, rfl⟩
      · exact ⟨t', mem_cons_of_mem t ht', rfl⟩
    · obtain ⟨rest', hr, rfl⟩ := Option.map_eq_some_iff.1 h
      intro t' ht'
      rcases mem_cons.1 ht' with rfl | ht'
      · exact ⟨t', mem_cons_self, rfl⟩
      · obtain ⟨u, hu, heq⟩ := ih hr t' ht'
        exact ⟨u, mem_cons_of_mem t hu, heq⟩

theorem releaseWaiting_of_receipt {cr cr' : WireCredit} {off : Nat} {active' : List Transfer}
    (h : cr.receipt id off active = some (cr', active')) : releaseWaiting id active = some active' := by
  unfold WireCredit.receipt at h
  split at h
  · cases h
  split at h
  · cases h
  obtain ⟨rel, hr, heq⟩ := Option.bind_eq_some_iff.1 h
  cases heq
  exact hr

section

variable (h : wr.Paced M)

include h

theorem receipt {off : Nat} {credit : WireCredit} (hr : wr.credit.receipt id off wr.active = some (credit, active)) :
    Writer.Paced M { wr with credit, active } := by
  refine ⟨h.credit.receipt hr, h.range, ?_, h.pending⟩
  intro t' ht'
  obtain ⟨t, ht, heq⟩ := of_releaseWaiting (releaseWaiting_of_receipt hr) t' ht'
  have hcut := h.cut t ht
  rw [heq]
  exact { hcut with }

theorem subset (hs : ∀ t ∈ active, t ∈ wr.active) : Writer.Paced M { wr with active } :=
  ⟨h.credit, h.range, fun t ht => h.cut t (hs t ht), h.pending⟩

theorem removePending (i : Nat) : Writer.Paced M { wr with pending := wr.pending.eraseIdx i } :=
  ⟨h.credit, h.range, h.cut, fun m hm => h.pending m (mem_of_mem_eraseIdx hm)⟩

theorem enqueue {q : Queued} (hM : M q.message) : Writer.Paced M { wr with pending := wr.pending ++ [q] } := by
  refine ⟨h.credit, h.range, h.cut, ?_⟩
  intro m hm
  rcases mem_append.1 hm with hm | hm
  · exact h.pending m hm
  · rw [mem_singleton.1 hm]
    exact hM

theorem push (q : Queued) {text : Text} {bin : Option Bytes}
    (hbd : (q.transfer text bin).total ≤ maxMessageBytes) (hpl : bin ≠ none → text = []) {active}
    (ha : ∀ t ∈ active, t = q.transfer text bin ∨ t ∈ wr.active) : Writer.Paced M { wr with active } := by
  refine ⟨h.credit, h.range, ?_, h.pending⟩
  intro t ht
  rcases ha t ht with rfl | ht
  · exact ⟨Nat.zero_le _, hbd, hpl, fun _ => ⟨[], text, rfl, rfl⟩⟩
  · exact h.cut t ht

/-- A chunk that fits is entered in the books. -/
theorem afterChunk {t nm : Transfer} {ots : List Transfer} {st : Bool}
    {msg : Message} {stop bs : Nat} (hp : (t :: ots).Perm wr.active) (hc : Chosen cds wr.nextId t nm st msg stop)
    (hf : wr.credit.fits ots nm bs = true) : (wr.afterChunk ots nm st stop bs).Paced M := by
  have hcut := h.cut t (hp.mem_iff.1 mem_cons_self)
  refine ⟨Writer.credit_afterChunk h.credit hf st stop, ?_, ?_, h.pending⟩
  · change (if st then nm.id else wr.nextId) < 2 ^ 32
    split
    · exact hc.id_lt hcut.id h.range
    · exact h.range
  · intro u hu
    rcases mem_append.1 hu with hu | hu
    · have hold := h.cut u (hp.mem_iff.1 (mem_cons_of_mem t hu))
      exact ⟨hold.id.trans hc.toNamed.next_le, hold.bound, hold.plain, hold.boundary⟩
    · rw [mem_singleton.1 hu]
      exact hcut.afterChunk h.range hc

end

end Writer.Paced

/-! ### The parts of the loop

What each part does to the state, in terms of the few changes that it is made of. -/

/-- The link has written `n` messages, and the writer's variables meet `P`. -/
abbrev Wrote (P : Writer → Prop) (n : Nat) (link : Link) : Prop := P link.writer ∧ link.wire.length = n

variable {P : Writer → Prop} {n : Nat}

/-- A write adds a message and leaves the writer's variables alone. -/
theorem wrote_write {msg : Message} {del : Option Delivery} {fl : Stop} :
    Ensures (Wrote P n) (write msg del fl) (fun _ => Wrote P (n + 1))
      (fun stop link => stop = fl ∧ P link.writer) (fun link => P link.writer) := by
  have heither : ∀ (fate : Fate) (link : Link), P link.writer →
      P (if Fate.reaches fate then link.put msg del else link).writer := by
    intro fate link h
    split <;> exact h
  refine ensures_step ?_ ?_ ?_
  · intro link h
    exact ⟨h.1, by simp [Fate.reaches, Link.put, h.2]⟩
  · exact fun link n h => ⟨rfl, heither (.fail n) link h.1⟩
  · exact fun link n h => heither (.crash n) link h.1

theorem wrote_writeControl (c : Control) : Ensures (Wrote P n) (writeControl c) (fun _ => Wrote P (n + 1))
      (fun stop link => stop = .controlWrite ∧ P link.writer) (fun link => P link.writer) := by
  refine ensures_bind wrote_write ?_
  intro
  split
  · exact ensures_throw fun _ h => ⟨rfl, h.1⟩
  · exact ensures_pure fun _ h => h

/-- Every control message that is found is written. -/
theorem wrote_drainControls (cts : List Control) :
    Ensures (Wrote P n) (drainControls cts) (fun _ => Wrote P (n + cts.length))
      (fun stop link => stop = .controlWrite ∧ P link.writer) (fun link => P link.writer) := by
  induction cts generalizing n with
  | nil => exact ensures_pure fun _ h => h
  | cons c rest ih =>
    refine ensures_bind (wrote_writeControl c) fun _ => Ensures.weaken ih (fun _ h => h) ?_ fun _ _ h => h
    intro _ link h
    exact ⟨h.1, by rw [length_cons]; omega⟩

/-- Receipts keep `P`: it survives the entry of one into the writer's books. -/
def KeptByReceipts (P : Link → Prop) : Prop :=
  ∀ link id offset credit active, P link →
    link.writer.credit.receipt id offset link.writer.active = some (credit, active) →
      P { link with writer := { link.writer with credit, active }, taken := link.taken + 1 }

theorem ensures_takeReceipt {P : Link → Prop} (hP : KeptByReceipts P) :
    Ensures P (takeReceipt cds) (fun _ => P) (fun stop link => stop = .badReceipt ∧ P link) P := by
  refine ensures_get_bind ?_
  intro link h
  split
  · exact ensures_pure_from h
  split
  · exact ensures_throw_from ⟨rfl, h⟩
  rename_i cr a hr
  exact ensures_modify_from (hP link _ _ cr a h hr)

/-- Of what a message becomes for the receiver, `M` holds. -/
def Arrival.Queues (codecs : Codecs) (config : Config) (M : Message → Prop) (arrival : Arrival) : Prop :=
  ∀ message, receiverMessage codecs arrival.message config.binaryEvents = some message → M message

theorem ensures_takeOutgoing {P : Link → Prop} {arr : Arrival} (ha : arr.Queues cds cfg M)
    (hP : ∀ link msg, P link → M msg → P (link.enqueue cds msg arr.scopeOf)) :
    Ensures P (takeOutgoing cds cfg arr) (fun _ => P) (fun stop link => stop = .badOutgoingMessage ∧ P link)
      P := by
  unfold takeOutgoing
  split
  · exact ensures_throw fun _ h => ⟨rfl, h⟩
  · rename_i msg hm
    exact ensures_modify fun link h => hP link msg h (ha msg hm)

theorem wrote_sendControl {i : Nat} {q : Queued} (hP : ∀ w, P w → P { w with pending := w.pending.eraseIdx i }) :
    Ensures (Wrote P n) (sendControl i q) (fun _ => Wrote P (n + 1))
      (fun stop link => stop = .controlWrite ∧ P link.writer) (fun link => P link.writer) := by
  refine ensures_bind (Q := fun _ => Wrote P n) (ensures_modify fun link h => ⟨hP link.writer h.1, h.2⟩) fun _ =>
    ensures_bind wrote_write fun _ => ?_
  split
  · exact ensures_throw fun _ h => ⟨rfl, h.1⟩
  · exact ensures_pure fun _ h => h

/-- How a pass starts a queued message. -/
inductive Started (link : Link) : Bool → Link → Prop
  | nothing (h : maxTransfers ≤ link.writer.active.length ∨ chooseStart link.writer.pending link.writer.active = none) :
    Started link false link
  | transfer {index : Nat} {queued : Queued} {text : Text} {binary : Option Bytes}
    (hqueued : link.writer.pending[index]? = some queued)
    (hbound : (queued.transfer text binary).total ≤ maxMessageBytes) (hplain : binary ≠ none → text = [])
    (hmessage : queued.message = (queued.transfer text binary).message) :
    Started link false ((link.removePending index).push (queued.transfer text binary))
  | control {index : Nat} {link' : Link} (hwriter : link'.writer = (link.removePending index).writer)
    (hwire : link'.wire.length = link.wire.length + 1) : Started link true link'

/-- A message that cannot start ends the loop. -/
def Refused (link : Link) (stop : Stop) (link' : Link) : Prop :=
  (∃ index, link'.writer = (link.removePending index).writer) ∧
    (stop = .writeFailed ∨ stop = .messageTooLarge ∧ ∃ m ∈ link.writer.pending, maxMessageBytes < m.message.len)

theorem wrote_upgrade : Ensures (fun link => P link.writer) upgrade (fun _ link => P link.writer) (fun _ _ => False)
      (fun link => P link.writer) := by
  have hwrt : ∀ msg del, Ensures (fun link => P link.writer)
      (write msg del .writeFailed).attempt (fun _ link => P link.writer) (fun _ _ => False)
      fun link => P link.writer := by
    intro msg del
    refine ensures_attempt ?_
    intro sc link h
    exact wrote_write (n := link.wire.length).imp (fun _ hs => hs) (fun _ _ hs => hs.1) (fun _ _ hs => hs.2)
      (fun _ hs => hs) sc link ⟨h, rfl⟩
  exact ensures_bind (hwrt _ _) fun _ => ensures_bind (hwrt _ _) fun _ => ensures_pure fun _ h => h

/-- The start of a queued message, as `Started` describes it. -/
theorem ensures_startTransfer (link : Link) :
    Ensures (fun s => s = link) startTransfer (fun again => Started link again) (Refused link)
      (fun s => ∃ ix, s.writer = (link.removePending ix).writer) := by
  refine ensures_get_bind ?_
  rintro s rfl
  split
  · split
    · rename_i hn
      refine ensures_pure_from (.nothing (.inr ?_))
      cases hc : chooseStart s.writer.pending s.writer.active with
      | none => rfl
      | some ix =>
        have hst := startable_of_chooseStart hc
        unfold startable at hst
        rw [hc] at hn
        cases hget : s.writer.pending[ix]? with
        | none => simp [hget] at hst
        | some => simp [hget] at hn
    · rename_i ix q hc
      obtain ⟨i, hst, hp⟩ := Option.bind_eq_some_iff.1 hc
      obtain ⟨m, hm, heq⟩ := Option.map_eq_some_iff.1 hp
      cases heq
      refine ensures_modify_bind ?_
      split
      · rename_i hl
        refine ensures_bind (Q := fun _ l => l.writer = (s.removePending ix).writer)
          ((@wrote_upgrade fun w => w = (s.removePending ix).writer).imp ?_ (fun _ _ h => h)
            (fun _ _ h => h.elim) fun _ h => ⟨ix, h⟩) ?_
        · rintro l rfl
          rfl
        · intro
          exact ensures_throw fun l h => ⟨⟨ix, h⟩, .inr ⟨rfl, q, mem_of_getElem? hm, hl⟩⟩
      · rename_i hs
        split
        · rename_i hms
          refine ensures_modify_bind (ensures_pure_from (.transfer hm ?_ (absurd rfl) hms))
          rw [hms] at hs
          exact Nat.le_of_not_lt hs
        · rename_i hms
          refine ensures_modify_bind (ensures_pure_from (.transfer hm ?_ (fun _ => rfl) hms))
          rw [hms] at hs
          exact Nat.le_of_not_lt hs
        · refine ensures_bind ((@wrote_write (fun w => w = (s.removePending ix).writer)
            (s.removePending ix).wire.length).imp ?_ (fun _ _ h => h) ?_ fun _ h => ⟨ix, h⟩) ?_
          · rintro l rfl
            exact ⟨rfl, rfl⟩
          · exact fun stop l h => ⟨⟨ix, h.2⟩, .inl h.1⟩
          · intro
            exact ensures_pure fun l h => .control h.1 h.2
  · rename_i hf
    exact ensures_pure_from (.nothing (.inl (Nat.le_of_not_lt hf)))

/-- How a turn of the active transfers ends. -/
inductive Sent (codecs : Codecs) (link : Link) : Bool → Link → Prop
  | idle {active : List Transfer} (hturn : link.writer.turn codecs = .idle active) :
    Sent codecs link false { link with writer := { link.writer with active } }
  | chunk {others : List Transfer} {transfer : Transfer} {starting : Bool} {message : Message} {stop bytes : Nat}
    {link' : Link} (hturn : link.writer.turn codecs = .chunk others transfer starting message stop bytes)
    (hwriter : link'.writer = link.writer.afterChunk others transfer starting stop bytes)
    (hwire : link.wire.length < link'.wire.length) : Sent codecs link true link'

/-- A chunk was entered in the books before its write failed. -/
def Entered (codecs : Codecs) (link link' : Link) : Prop :=
  ∃ others transfer starting message stop bytes,
    link.writer.turn codecs = .chunk others transfer starting message stop bytes ∧
      link'.writer = link.writer.afterChunk others transfer starting stop bytes

theorem ensures_sendChunk (link : Link) : Ensures (fun s => s = link) (sendChunk cds) (fun sent => Sent cds link sent)
      (fun stop s => (stop = .transferIdExhausted ∧ link.writer.turn cds = .exhausted ∧ s = link) ∨
        (stop = .writeFailed ∧ Entered cds link s)) (Entered cds link) := by
  refine ensures_get_bind ?_
  rintro s rfl
  split
  · rename_i ht
    exact ensures_modify_bind (ensures_pure_from (.idle ht))
  · rename_i ht
    exact ensures_throw_from (.inl ⟨rfl, ht, rfl⟩)
  · rename_i ots tr st msg stop bs ht
    refine ensures_modify_bind ?_
    have hwrt : ∀ (n : Nat) (m : Message) (d : Option Delivery),
        Ensures (Wrote (fun w => w = s.writer.afterChunk ots tr st stop bs) n)
          (write m d .writeFailed)
          (fun _ => Wrote (fun w => w = s.writer.afterChunk ots tr st stop bs) (n + 1))
          (fun e l => e = .transferIdExhausted ∧ s.writer.turn cds = .exhausted ∧ l = s ∨
            e = .writeFailed ∧ Entered cds s l) (Entered cds s) := by
      intro n m d
      refine wrote_write.imp (fun _ h => h) (fun _ _ h => h) ?_ ?_
      · exact fun e s h => .inr ⟨h.1, _, _, _, _, _, _, ht, h.2⟩
      · exact fun s h => ⟨_, _, _, _, _, _, ht, h⟩
    split
    · exact (ensures_bind (hwrt s.wire.length _ _) fun _ => ensures_bind (hwrt _ _ _) fun _ =>
        ensures_pure fun l h => .chunk ht h.1 (by omega)).from_state ⟨rfl, rfl⟩
    · exact (ensures_bind (hwrt s.wire.length _ _) fun _ =>
        ensures_pure fun l h => .chunk ht h.1 (by omega)).from_state ⟨rfl, rfl⟩

/-! ### Runs -/

/-- Paced, and every active transfer has something left to send, unless it is an empty text. -/
structure Writer.Tidy (M : Message → Prop) (writer : Writer) : Prop extends Writer.Paced M writer where
  unfinished : ∀ t ∈ writer.active, t.finished = true → M (.text [])

/-- What the writer is at the top of the loop: a transfer that is finished may still be active, but then its last chunk
is not acknowledged. -/
structure Writer.Rested (M : Message → Prop) (writer : Writer) : Prop extends Writer.Paced M writer where
  unfinished : writer.credit.pending = [] → ∀ t ∈ writer.active, t.finished = true → M (.text [])

namespace Writer.Tidy

variable {wr : Writer}

theorem toRested (h : wr.Tidy M) : wr.Rested M := { h.toPaced with unfinished := fun _ => h.unfinished }

theorem retain (h : wr.Paced M) : Writer.Tidy M { wr with active := wr.active.filter (fun t => !t.finished) } := by
  refine { h.subset (fun t ht => mem_of_mem_filter ht) with unfinished := ?_ }
  intro t ht hf
  have hopen := (mem_filter.1 ht).2
  rw [hf] at hopen
  cases hopen

theorem receipt (h : wr.Tidy M) {id off : Nat} {credit : WireCredit} {active : List Transfer}
    (hr : wr.credit.receipt id off wr.active = some (credit, active)) : Writer.Tidy M { wr with credit, active } := by
  refine { h.toPaced.receipt hr with unfinished := ?_ }
  intro t' ht' hf
  obtain ⟨t, ht, heq⟩ := Writer.Paced.of_releaseWaiting (Writer.Paced.releaseWaiting_of_receipt hr) t' ht'
  refine h.unfinished t ht ?_
  rw [heq] at hf
  exact hf

theorem removePending (h : wr.Tidy M) (i : Nat) : Writer.Tidy M { wr with pending := wr.pending.eraseIdx i } :=
  { h.toPaced.removePending i with unfinished := h.unfinished }

theorem enqueue (h : wr.Tidy M) {q : Queued} (hM : M q.message) :
    Writer.Tidy M { wr with pending := wr.pending ++ [q] } :=
  { h.toPaced.enqueue hM with unfinished := h.unfinished }

/-- A message that starts has something left to send, unless it is an empty text. -/
theorem started {link link' : Link} {again : Bool} (h : link.writer.Tidy M) (hst : Started link again link') :
    link'.writer.Tidy M := by
  cases hst with
  | nothing => exact h
  | control hwr =>
    rw [hwr]
    exact h.removePending _
  | @transfer i q text bin hque hbd hpl hmsg =>
    have hrem := h.removePending i
    have hact : ∀ t ∈ ((link.removePending i).push (q.transfer text bin)).writer.active,
        t = q.transfer text bin ∨ t ∈ link.writer.active := by
      intro t ht
      change t ∈ (if _ then _ else _ : List Transfer) at ht
      split at ht
      · exact mem_cons.1 ht
      rcases mem_append.1 ht with ht | ht
      · exact .inr ht
      · exact .inl (mem_singleton.1 ht)
    refine { hrem.toPaced.push q hbd hpl hact with unfinished := ?_ }
    intro t ht hf
    rcases hact t ht with rfl | ht
    · have hM := h.pending q (mem_of_getElem? hque)
      rw [hmsg] at hM
      cases bin with
      | some =>
        cases hpl nofun
        rw [finished_transfer_binary] at hf
        cases hf
      | none =>
        -- a text is finished before it begins only when it is empty
        have hemp : text = [] := by
          by_contra hne
          rw [finished_transfer_text hne] at hf
          cases hf
        cases hemp
        exact hM
    · exact h.unfinished t ht hf

/-- The books are paced also when the write of a chunk fails. -/
theorem entered {link link' : Link} (h : link.writer.Tidy M) (he : Entered cds link link') : link'.writer.Paced M := by
  obtain ⟨ots, nm, st, msg, stop, bs, ht, hwr⟩ := he
  have hspec := @turn_spec cds link.writer
  have hfits := @turn_fits cds link.writer
  rw [ht] at hspec hfits
  obtain ⟨t, hp, hc⟩ := hspec
  rw [hwr]
  exact h.toPaced.afterChunk hp hc hfits

theorem idle (h : wr.Tidy M) {active : List Transfer} (htu : wr.turn cds = .idle active) :
    Writer.Tidy M { wr with active } := by
  have hspec := @turn_spec cds wr
  rw [htu] at hspec
  have hm : ∀ t ∈ active, t ∈ wr.active := fun t ht => List.Perm.mem_iff hspec |>.1 ht
  exact { h.toPaced.subset hm with unfinished := fun t ht => h.unfinished t (hm t ht) }

end Writer.Tidy

theorem Sent.rested {link link' : Link} {sent : Bool} (h : link.writer.Tidy M) (hs : Sent cds link sent link') :
    link'.writer.Rested M ∧ (sent = false → link'.writer.Tidy M) := by
  cases hs with
  | idle ht => exact ⟨(h.idle ht).toRested, fun _ => h.idle ht⟩
  | chunk ht hwr =>
    refine ⟨{ h.entered ⟨_, _, _, _, _, _, ht, hwr⟩ with unfinished := ?_ }, nofun⟩
    intro hi
    rw [hwr] at hi
    exact absurd hi (by simp [Writer.afterChunk])

/-- A part of the loop that keeps a property of the writer's variables, however it ends. -/
abbrev Steady (P Q : Writer → Prop) (p : Prog Stop Link Unit) : Prop :=
  Ensures (fun link => P link.writer) p (fun _ link => Q link.writer) (fun _ link => P link.writer)
    (fun link => P link.writer)

theorem steady_of_wrote {p : Prog Stop Link Unit} {k : Nat} {stop : Stop}
    (h : ∀ n, Ensures (Wrote P n) p (fun _ => Wrote P (n + k)) (fun e link => e = stop ∧ P link.writer)
      (fun link => P link.writer)) : Steady P P p := by
  intro sc link hP
  exact (h link.wire.length).imp (fun _ hs => hs) (fun _ _ hs => hs.1) (fun _ _ hs => hs.2) (fun _ hs => hs) sc link
    ⟨hP, rfl⟩

theorem steady_takeOutgoing {arr : Arrival} (ha : arr.Queues cds cfg M) :
    Steady (Writer.Tidy M) (Writer.Tidy M) (takeOutgoing cds cfg arr) :=
  (ensures_takeOutgoing (P := fun l => l.writer.Tidy M) ha fun _ _ hl hM => hl.enqueue hM).weaken
    (fun _ h => h) (fun _ _ h => h) fun _ _ h => h.2

theorem steady_wait {wake : Wake} (har : ∀ arr ∈ wake.arrivals, arr.Queues cds cfg M) :
    Steady (Writer.Tidy M) (Writer.Tidy M) (wait cds cfg wake) := by
  have hrcpt := @ensures_takeReceipt cds (fun l => l.writer.Tidy M) (fun l id off cr av hl hrcpt =>
    hl.receipt hrcpt)
  exact ensures_wait (fun _ h => ⟨h, h⟩) (fun _ _ _ _ h => { h with })
    (fun c => steady_of_wrote fun n => wrote_writeControl c)
    (hrcpt.weaken (fun _ h => h) (fun _ _ h => h) fun _ _ h => h.2)
    fun a ha => steady_takeOutgoing (har a ha)

/-- A pass that goes on to its wait has dropped the finished transfers. -/
theorem rested_loopBody {rd : Round} (hc : cfg.chunks = true) (har : ∀ arr ∈ rd.arrivals, arr.Queues cds cfg M) :
    Ensures (fun link => link.writer.Rested M) (loopBody cds cfg rd)
      (fun sent link => link.writer.Rested M ∧ (sent = false → link.writer.Tidy M))
      (fun _ link => link.writer.Paced M) (fun link => link.writer.Paced M) := by
  have hrcpts := ensures_drainReceipts (@ensures_takeReceipt cds (fun l => l.writer.Paced M)
    fun l id off cr av hl hr => hl.receipt hr) rd.receipts
  have hfill : Steady (Writer.Tidy M) (Writer.Tidy M) (fill cds cfg rd.disconnected rd.arrivals) :=
    ensures_fill (fun a ha => steady_takeOutgoing (har a ha)) fun _ h => { h with }
  refine ensures_bind (Ensures.weaken (steady_of_wrote fun n => wrote_drainControls rd.controls)
    (fun l (h : l.writer.Rested M) => h.toPaced) (fun _ _ h => h) fun _ _ h => h) fun _ =>
    ensures_bind (hrcpts.imp (fun _ h => h) (fun _ _ h => h) (fun _ _ h => h.2) fun _ h => h) fun _ =>
    ensures_bind (Q := fun _ l => l.writer.Tidy M) (ensures_modify fun l h => Writer.Tidy.retain h) fun _ =>
    ensures_bind (hfill.imp (fun _ h => h) (fun _ _ h => h) (fun _ _ h => h.toPaced) fun _ h => h.toPaced) fun _ =>
    ensures_get_bind ?_
  intro link h
  split
  · rename_i i q hf
    have hsend := @steady_of_wrote (Writer.Tidy M) (sendControl i q) 1 .controlWrite
      fun n => wrote_sendControl fun w hw => hw.removePending i
    refine ensures_bind (hsend.imp ?_ (fun _ _ hs => hs) (fun _ _ hs => hs.toPaced) fun _ hs => hs.toPaced) fun _ =>
      ensures_pure fun l hl => ⟨hl.toRested, nofun⟩
    rintro s rfl
    exact h
  · rw [if_pos hc]
    refine ensures_bind (Q := fun _ l => l.writer.Tidy M)
      ((ensures_startTransfer link).imp (fun _ hs => hs) (fun _ _ hs => h.started hs) ?_ ?_) fun again => ?_
    · rintro stop s ⟨⟨i, hwr⟩, -⟩
      rw [hwr]
      exact (h.removePending i).toPaced
    · rintro s ⟨i, hwr⟩
      rw [hwr]
      exact (h.removePending i).toPaced
    · dsimp only
      split
      · exact ensures_pure fun l hl => ⟨hl.toRested, nofun⟩
      intro sc l hl
      refine ((ensures_sendChunk l).imp (fun _ hs => hs) (fun _ _ hs => hs.rested hl) ?_
        fun s hs => hl.entered hs) sc l rfl
      rintro stop s (⟨-, -, rfl⟩ | ⟨-, hentd⟩)
      · exact hl.toPaced
      · exact hl.entered hentd

theorem rested_loopPass {rd : Round} (hc : cfg.chunks = true) (har : ∀ arr ∈ rd.offered, arr.Queues cds cfg M) :
    Ensures (fun link => link.writer.Rested M) (loopPass cds cfg rd) (fun _ link => link.writer.Rested M)
      (fun _ link => link.writer.Paced M) (fun link => link.writer.Paced M) := by
  refine ensures_bind (rested_loopBody hc fun a ha => har a (mem_append_left _ ha)) fun sent => ?_
  cases sent with
  | true => exact ensures_pure fun _ h => h.1
  | false =>
    have hwait := @steady_wait cds cfg M rd.wake fun a ha => har a (mem_append_right _ ha)
    exact hwait.imp (fun _ h => h.2 rfl) (fun _ _ h => h.toRested) (fun _ _ h => h.toPaced) fun _ h => h.toPaced

/-- A state of a run: paced, and at the top of the loop while it runs. -/
structure Session.Paced (M : Message → Prop) (session : Session) : Prop where
  paced : session.link.writer.Paced M
  rested : session.ended = none → session.link.writer.Rested M

theorem Session.Paced.step (hc : cfg.chunks = true) {ses : Session} (h : ses.Paced M) {e : Event}
    (ha : ∀ arr ∈ e.offered, arr.Queues cds cfg M) : (ses.step cds cfg e).Paced M := by
  cases e with
  | peerReads => exact ⟨h.paced, h.rested⟩
  | round input =>
    rcases Session.step_round (rested_loopPass hc ha) h.rested with
      hsame | ⟨-, hrested⟩ | ⟨stop, hend, hpaced⟩ | ⟨hend, hpaced⟩
    · rw [hsame]
      exact h
    · exact ⟨hrested.toPaced, fun _ => hrested⟩
    · exact ⟨hpaced, by rw [hend]; nofun⟩
    · exact ⟨hpaced, by rw [hend]; nofun⟩

/-- In every run the writer stays paced. -/
theorem paced_run (hc : cfg.chunks = true) {es : List Event} (ha : ∀ e ∈ es, ∀ arr ∈ e.offered, arr.Queues cds cfg M) :
    (run cds cfg es).Paced M := by
  have hinit : Session.Paced M ⟨.init, none⟩ :=
    ⟨.init, fun _ => { Writer.Paced.init with unfinished := nofun }⟩
  exact foldlRecOn es _ hinit fun ses h e hev => h.step hc (ha e hev)

end Chariox.RelayTransport
