import Chariox.RelayTransport.Invariant

/-!
# Credit and the receiver's budget

The writer's books on unacknowledged chunks (`WireCredit.Sound`): the byte counts are those of the chunks that are
written and not acknowledged, and both their number and their bytes are bounded.  A receipt and a chunk that fits keep
them.

The receiver keeps its own bounds whatever it is given to read (`FrameReceiver.Bounded`).
-/

namespace Chariox.RelayTransport

open OrdMap List

variable {cds : Codecs}

/-! ### The writer's books -/

structure WireCredit.Sound (credit : WireCredit) : Prop where
  bytes : credit.bytes = (credit.pending.map Unacked.bytes).sum
  small : credit.small = ((credit.pending.filter Unacked.small).map Unacked.bytes).sum
  frames : credit.pending.length ≤ peerReceiptFrames
  window : credit.bytes ≤ windowBytes + smallReserveBytes

namespace WireCredit

variable {credit cr' : WireCredit}

/-- A receipt takes its chunk out of the counts. -/
theorem Sound.receipt {id off : Nat} {a a' : List Transfer} (h : credit.Sound)
    (hr : credit.receipt id off a = some (cr', a')) : cr'.Sound := by
  obtain ⟨pend, bs, small⟩ := credit
  have hbyt := h.bytes
  have hsm := h.small
  have hfrs := h.frames
  have hwindow := h.window
  cases pend with
  | nil => cases hr
  | cons ck =>
    unfold WireCredit.receipt at hr
    dsimp only at hr hbyt hsm hwindow
    split at hr
    · cases hr
    obtain ⟨_, -, heq⟩ := Option.bind_eq_some_iff.1 hr
    cases heq
    rw [map_cons, sum_cons] at hbyt
    rw [length_cons] at hfrs
    refine ⟨?_, ?_, by dsimp only; omega, by dsimp only; omega⟩
    · dsimp only
      omega
    cases hcase : ck.small with
    | true =>
      rw [filter_cons_of_pos hcase, map_cons, sum_cons] at hsm
      dsimp only
      rw [if_pos rfl]
      omega
    | false =>
      rw [filter_cons_of_neg (by rw [hcase]; decide)] at hsm
      exact hsm

theorem Sound.zero (h : credit.Sound) (hi : credit.pending = []) : credit.bytes = 0 ∧ credit.small = 0 := by
  have hbyt := h.bytes
  have hsm := h.small
  rw [hi] at hbyt hsm
  exact ⟨hbyt, hsm⟩

end WireCredit

/-- A chunk that fits is entered without passing the bounds. -/
theorem Writer.credit_afterChunk {self : Writer} (h : self.credit.Sound) {ots : List Transfer} {tr : Transfer}
    {bs : Nat} (hf : self.credit.fits ots tr bs = true) (st : Bool) (stop : Nat) :
    (self.afterChunk ots tr st stop bs).credit.Sound := by
  have hbyt := h.bytes
  have hsm := h.small
  rw [WireCredit.fits, Bool.and_eq_true, decide_eq_true_eq] at hf
  obtain ⟨hfr, hr⟩ := hf
  refine ⟨?_, ?_, ?_, ?_⟩
  · simp only [Writer.afterChunk, map_append, sum_append, map_cons, map_nil, sum_singleton]
    omega
  · simp only [Writer.afterChunk, filter_append, map_append, sum_append]
    cases hcase : tr.small with
    | true =>
      rw [if_pos rfl, filter_cons_of_pos rfl, filter_nil, map_singleton, sum_singleton, hsm]
    | false =>
      rw [if_neg (by decide), filter_cons_of_neg Bool.false_ne_true, filter_nil, map_nil,
        sum_nil, hsm, Nat.add_zero]
  · simp only [Writer.afterChunk, length_append, length_singleton]
    omega
  · change self.credit.bytes + bs ≤ windowBytes + smallReserveBytes
    split at hr
    · rw [Bool.and_eq_true, decide_eq_true_eq] at hr
      exact hr.1
    · rw [decide_eq_true_eq] at hr
      omega

/-! ### The turns of the writer -/

/-- A chunk is sent only when it fits, and a pass gives up only when the ids are used up. -/
def Turn.Fits (writer : Writer) : Turn → Prop
  | .idle _ => True
  | .exhausted => 2 ^ 32 ≤ writer.nextId + 1
  | .chunk others named _ _ _ bytes => writer.credit.fits others named bytes = true

theorem pass_fits (writer : Writer) (skipSmall : Bool) (n : Nat) (a : List Transfer) :
    (writer.pass cds skipSmall n a).Fits writer := by
  induction n generalizing a with
  | zero => trivial
  | succ n ih =>
    cases a with
    | nil => trivial
    | cons tr ots =>
      have hback := ih (ots ++ [tr])
      unfold Writer.pass
      dsimp only
      generalize (if decide (tr.id = 0) = true then { tr with id := writer.nextId + 1 }
        else tr) = named
      split
      · exact hback
      split
      · rename_i hexhausted
        rw [Bool.and_eq_true, decide_eq_true_eq, decide_eq_true_eq] at hexhausted
        exact hexhausted.2
      split
      · split
        · rename_i hf
          exact hf
        · exact hback
      · exact hback

/-- Whatever turn the writer takes, its chunk fits the window. -/
theorem turn_fits (writer : Writer) : (writer.turn cds).Fits writer := by
  unfold Writer.turn
  dsimp only
  split
  · split
    · exact pass_fits writer _ _ _
    · trivial
  · exact pass_fits writer _ _ _

/-! ### The receiver -/

namespace FrameReceiver

structure Bounded (receiver : FrameReceiver) : Prop where
  reserved : receiver.reserved = receiver.active.sumBy (fun _ e => e.1) + receiver.binaryActive.sumBy (fun _ e => e.1)
  slots : receiver.slots ≤ maxTransfers
  assembly : receiver.reserved ≤ maxAssemblyBytes

namespace Bounded

variable {self : FrameReceiver} {tid off tot : Nat}

theorem default : Bounded .default := ⟨rfl, Nat.zero_le _, Nat.zero_le _⟩

theorem room (hst : self.refusesStart tid off tot = false) :
    self.slots < maxTransfers ∧ tot ≤ maxAssemblyBytes - self.reserved := by
  simp only [refusesStart, Bool.or_eq_false_iff, decide_eq_false_iff_not, Nat.not_le, Nat.not_lt] at hst
  exact ⟨hst.1.2, hst.2⟩

/-- A part of a binary message keeps its slot until the message is complete. -/
theorem assembleBinary (h : self.Bounded) (pay : Bytes) : (self.assembleBinary cds tid off tot pay).2.Bounded := by
  have hrsv := h.reserved
  have hasm := h.assembly
  have hslt := h.slots
  unfold FrameReceiver.assembleBinary
  split
  · exact h
  rename_i et asm hg
  split
  · exact h
  have hsum := sumBy_remove_of_some (fun _ e => e.1) hg
  have hlen := len_remove_of_some hg
  dsimp only
  split
  · have hkept : Bounded { self with
        binaryActive := self.binaryActive.remove tid, reserved := self.reserved - tot } := by
      refine ⟨?_, ?_, ?_⟩ <;> simp only [FrameReceiver.slots] at hslt ⊢ <;> omega
    split <;> exact hkept
  · have hins := sumBy_insert_of_some (fun _ e => e.1) hg (et, asm ++ pay)
    have hsame := len_insert_of_some hg (et, asm ++ pay)
    refine ⟨?_, ?_, hasm⟩ <;> simp only [FrameReceiver.slots] at hslt ⊢ <;> omega

theorem receiveBinary (h : self.Bounded) (bs : Bytes) : (self.receiveBinary cds bs).2.Bounded := by
  unfold FrameReceiver.receiveBinary
  dsimp only
  split
  · exact h
  split
  · exact h
  split
  · exact h
  split
  · exact h
  split
  · exact h.assembleBinary _
  split
  · exact h
  rename_i hn hst
  rw [Bool.not_eq_true] at hn hst
  have hnone := contains_eq_false.1 hn
  obtain ⟨hs, hr⟩ := room hst
  obtain ⟨hrs, -, ha⟩ := h
  have hsum := sumBy_insert_of_none (fun _ e => e.1) hnone ((fromBeBytes ((bs.drop 12).take 4), []) : Nat × Bytes)
  have hlen := len_insert_of_none hnone ((fromBeBytes ((bs.drop 12).take 4), []) : Nat × Bytes)
  refine assembleBinary ⟨?_, ?_, ?_⟩ _ <;> simp only [FrameReceiver.slots] at hs ⊢ <;> omega

theorem assemble (h : self.Bounded) (pay : Text) : (self.assemble cds tid off tot pay).2.Bounded := by
  have hrsv := h.reserved
  have hasm := h.assembly
  have hslt := h.slots
  unfold FrameReceiver.assemble
  split
  · exact h
  rename_i et asm hg
  split
  · exact h
  rename_i hc
  have hsum := sumBy_remove_of_some (fun _ e => e.1) hg
  have hlen := len_remove_of_some hg
  dsimp only
  split
  · have hkept : Bounded { self with
        active := self.active.remove tid, reserved := self.reserved - tot } := by
      refine ⟨?_, ?_, ?_⟩ <;> simp only [FrameReceiver.slots] at hslt ⊢ <;> omega
    split
    · exact hkept
    split <;> exact hkept
  · have hins := sumBy_insert_of_some (fun _ e => e.1) hg (et, asm ++ pay)
    have hsame := len_insert_of_some hg (et, asm ++ pay)
    refine ⟨?_, ?_, hasm⟩ <;> simp only [FrameReceiver.slots] at hslt ⊢ <;> omega

theorem receiveChunk (h : self.Bounded) (pay : Text) : (self.receiveChunk cds tid off tot pay).2.Bounded := by
  unfold FrameReceiver.receiveChunk
  split
  · exact h
  split
  · split <;> exact { h with }
  split
  · exact h
  split
  · exact h
  split
  · exact h.assemble pay
  split
  · exact h
  rename_i hn hst
  rw [Bool.not_eq_true] at hn hst
  have hnone := contains_eq_false.1 hn
  obtain ⟨hs, hr⟩ := room hst
  obtain ⟨hrs, -, ha⟩ := h
  have hsum := sumBy_insert_of_none (fun _ e => e.1) hnone ((tot, []) : Nat × Text)
  have hlen := len_insert_of_none hnone ((tot, []) : Nat × Text)
  refine assemble ⟨?_, ?_, ?_⟩ pay <;> simp only [FrameReceiver.slots] at hs ⊢ <;> omega

theorem receive (h : self.Bounded) (text : Text) : (self.receive cds text).2.Bounded := by
  unfold FrameReceiver.receive
  split
  · exact h
  split
  · split
    · exact h.receiveChunk _
    · exact h
  split <;> exact h

end Bounded

end FrameReceiver

theorem Peer.receiver_after (self : Peer) (receiver : FrameReceiver)
    (res : Except String (Option Message × Option Text)) : (self.after cds receiver res).receiver = receiver := by
  cases res <;> rfl

theorem Peer.bounded_read {self : Peer} (h : self.receiver.Bounded) (msg : Message) :
    (self.read cds msg).receiver.Bounded := by
  unfold Peer.read
  split
  · exact h
  cases msg with
  | text text =>
    rw [Peer.receiver_after]
    exact h.receive text
  | binary bs =>
    rw [Peer.receiver_after]
    exact h.receiveBinary bs
  | control => exact h

/-- The peer stays within its budget, whatever was written. -/
theorem Link.bounded_peer (link : Link) : (link.peer cds).receiver.Bounded := by
  unfold Link.peer
  generalize link.wire.take link.read = messages
  have hst : Peer.init.receiver.Bounded := FrameReceiver.Bounded.default
  revert hst
  generalize Peer.init = peer
  intro hst
  induction messages generalizing peer with
  | nil => exact hst
  | cons msg rest ih => exact ih (peer.read cds msg) (Peer.bounded_read hst msg)

end Chariox.RelayTransport
