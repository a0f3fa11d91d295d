import Chariox.RelayTransport.Pacing

/-!
# Flow control does not stall

When nothing is unacknowledged and a message is queued or active, the next pass of the writer's loop does not wait: the
window is empty, so the first message may start, every active transfer has a next chunk, and each chunk fits
(`flow_control`).  An empty text is the only message without a chunk; the writer waits with it in its hands
(`empty_text_waits`).
-/

namespace Chariox.RelayTransport

open Prog List

variable {codecs : Codecs} {config : Config}

/-! ### Nothing is unacknowledged -/

/-- A message that the writer can send: not an empty text, and not too long. -/
def Message.Sendable (message : Message) : Prop := message ≠ .text [] ∧ message.len ≤ maxMessageBytes

/-- Nothing is unacknowledged and there is something to send. -/
structure Writer.Poised (nextId : Nat) (writer : Writer) : Prop extends Writer.Tidy Message.Sendable writer where
  idle : writer.credit.pending = []
  work : writer.pending ≠ [] ∨ writer.active ≠ []
  next : writer.nextId = nextId

namespace Writer.Poised

variable {writer : Writer} {k : Nat}

section

variable (h : writer.Poised k)

include h

theorem isOpen {t : Transfer} (ht : t ∈ writer.active) : t.finished = false := by
  rw [← Bool.not_eq_true]
  intro hf
  exact (h.unfinished t ht hf).1 rfl

theorem retain : Writer.Poised k { writer with active := writer.active.filter (fun t => !t.finished) } := by
  have hsame : writer.active.filter (fun t => !t.finished) = writer.active := by
    rw [filter_eq_self]
    intro t ht
    rw [h.isOpen ht]
    rfl
  rw [hsame]
  exact h

theorem exists_start (ha : writer.active = []) : chooseStart writer.pending writer.active ≠ none := by
  obtain ⟨q, rest, hp⟩ : ∃ q rest, writer.pending = q :: rest := by
    rcases h.work with hw | hw
    · exact exists_cons_of_ne_nil hw
    · exact absurd ha hw
  have hsend := (h.pending q (by rw [hp]; exact mem_cons_self)).2
  have hst : startable writer.pending writer.active 0 = true := by
    have helig : eligible writer.pending 0 writer.active = true := by
      rw [eligible, hp, ha]
      cases hlane : q.lane <;> simp [hlane]
    have hslt : leavesControlSlots q.lane [] = true := by
      cases q.lane <;> decide
    have hroom : q.message.len ≤ maxAssemblyBytes - reservedBytes [] := by
      refine hsend.trans ?_
      decide
    rw [startable, helig, hp, ha]
    simp [hslt, hroom]
  intro hn
  rw [chooseStart, Option.or_eq_none_iff] at hn
  have hfind := find?_eq_none.1 hn.2 0 (by rw [hp]; simp)
  exact hfind hst

/-- A pass that leaves no transfer out sends a chunk of the first one, or finds the ids used up. -/
theorem pass_ne_idle {t : Transfer} {ots : List Transfer} (ht : t ∈ writer.active) (n : Nat) (active : List Transfer) :
    writer.pass codecs false (n + 1) (t :: ots) ≠ .idle active := by
  have hcut := h.cut t ht
  have hzero := h.credit.zero h.idle
  have hrsrv : smallReserveBytes = 32768 := rfl
  have hwindow : windowBytes = 262144 := rfl
  have hfrs : 0 < peerReceiptFrames := by decide
  unfold Writer.pass
  dsimp only
  rw [Bool.false_and, if_neg Bool.false_ne_true]
  split
  · intro heq
    cases heq
  rename_i hr
  generalize hnam : (if decide (t.id = 0) = true then { t with id := writer.nextId + 1 } else t) = nm
  have hid : nm.id < 2 ^ 32 := by
    rw [← hnam]
    by_cases hstg : t.id = 0
    · rw [if_pos (decide_eq_true hstg)]
      have hlt : ¬ 2 ^ 32 ≤ writer.nextId + 1 := by simpa [hstg] using hr
      exact Nat.lt_of_not_le hlt
    · rw [if_neg (by simpa using hstg)]
      exact Nat.lt_of_le_of_lt hcut.id h.range
  have hopen : t.finished = false := h.isOpen ht
  have hnext : nm.Cut (writer.nextId + 1) ∧ nm.finished = false := by
    rw [← hnam]
    split
    · exact ⟨⟨le_rfl, hcut.bound, hcut.plain, hcut.boundary⟩, hopen⟩
    · exact ⟨⟨Nat.le_succ_of_le hcut.id, hcut.bound, hcut.plain, hcut.boundary⟩, hopen⟩
  obtain ⟨msg, stop, hc⟩ := @Transfer.Cut.exists_chunk codecs nm _ hnext.1 hid hnext.2
  have hlen := Transfer.nextChunk_len hc hid
  rw [hc]
  dsimp only
  have hfits : writer.credit.fits ots nm
      (msg.len + (nm.smallBinary.map length).getD 0) = true := by
    rw [WireCredit.fits, h.idle, Bool.and_eq_true]
    refine ⟨decide_eq_true hfrs, ?_⟩
    split
    · rw [Bool.and_eq_true, Bool.or_eq_true, decide_eq_true_eq, decide_eq_true_eq]
      exact ⟨by omega, .inr (by omega)⟩
    · rw [decide_eq_true_eq]
      omega
  rw [if_pos hfits]
  intro heq
  cases heq

theorem turn_ne_idle (ha : writer.active ≠ []) (active : List Transfer) : writer.turn codecs ≠ .idle active := by
  have hfst : ∀ {l : List Transfer}, l.Perm writer.active → writer.pass codecs false l.length l ≠ .idle active := by
    intro l hpe
    cases l with
    | nil => exact absurd (nil_perm.1 hpe) ha
    | cons t ots => exact h.pass_ne_idle (hpe.mem_iff.1 mem_cons_self) ots.length active
  unfold Writer.turn
  dsimp only
  split
  · rename_i hp
    split
    · have hspec := @pass_spec codecs writer
        (decide (smallStreakLimit ≤ writer.smallStreak) && writer.active.any fun t => !t.small) writer.active.length
        writer.active
      rw [hp] at hspec
      exact hfst hspec
    · rename_i hb
      rw [Bool.not_eq_true] at hb
      rw [hb] at hp
      rw [← hp]
      exact hfst (List.Perm.refl _)
  · rename_i hn
    exact hn active

end

end Writer.Poised

/-- How a pass ends the loop before it comes to its wait, from a state with the given last id. -/
def EndsEarly (nextId : Nat) (stop : Stop) : Prop :=
  stop = .controlWrite ∨ stop = .writeFailed ∨ stop = .badOutgoingMessage ∨
    stop = .transferIdExhausted ∧ nextId + 1 = 2 ^ 32

variable {k n : Nat}

theorem advances_sendChunk :
    Ensures (fun link => Wrote (Writer.Poised k) n link ∧ link.writer.active ≠ []) (sendChunk codecs)
      (fun sent link => sent = true ∧ n < link.wire.length) (fun stop _ => EndsEarly k stop) (fun _ => True) := by
  intro sc link h
  obtain ⟨⟨hp, rfl⟩, ha⟩ := h
  refine ((ensures_sendChunk link).imp (fun _ hs => hs) ?_ ?_ fun _ _ => trivial) sc link rfl
  · intro sent link' hse
    cases hse with
    | idle ht => exact absurd ht (hp.turn_ne_idle ha _)
    | chunk ht hwr hw => exact ⟨rfl, hw⟩
  · rintro stop link' (⟨rfl, ht, -⟩ | ⟨rfl, -⟩)
    · have hfits := @turn_fits codecs link.writer
      rw [ht] at hfits
      have hexhausted : 2 ^ 32 ≤ link.writer.nextId + 1 := hfits
      have hrng := hp.range
      rw [hp.next] at hexhausted hrng
      exact .inr (.inr (.inr ⟨rfl, by omega⟩))
    · exact .inr (.inl rfl)

theorem advances_startTransfer : Ensures (Wrote (Writer.Poised k) n) startTransfer
      (fun again link => if again then link.wire.length = n + 1
        else Wrote (Writer.Poised k) n link ∧ link.writer.active ≠ []) (fun stop _ => EndsEarly k stop)
      (fun _ => True) := by
  intro sc link h
  obtain ⟨hp, rfl⟩ := h
  refine ((ensures_startTransfer link).imp (fun _ hs => hs) ?_ ?_ fun _ _ => trivial) sc link rfl
  · intro again link' hst
    have htidy := hp.toTidy.started hst
    cases hst with
    | nothing hn =>
      refine ⟨⟨hp, rfl⟩, ?_⟩
      intro ha
      rcases hn with hf | hc
      · rw [ha] at hf
        exact absurd hf (by decide)
      · exact hp.exists_start ha hc
    | @transfer index queued text binary =>
      have ha : ((link.removePending index).push (queued.transfer text binary)).writer.active ≠ [] := by
        change (if _ then _ else _ : List Transfer) ≠ []
        split
        · exact cons_ne_nil _ _
        · exact append_ne_nil_of_right_ne_nil _ (cons_ne_nil _ _)
      exact ⟨⟨{ htidy with idle := hp.idle, work := .inr ha, next := hp.next }, rfl⟩, ha⟩
    | control hwr hw => exact hw
  · rintro stop link' ⟨-, rfl | ⟨rfl, m, hm, hlrg⟩⟩
    · exact .inr (.inl rfl)
    · exact absurd (hp.pending m hm).2 (Nat.not_le.2 hlrg)

/-- What holds of the messages of relay envelopes, when all messages are. -/
theorem Keeps.when {φ : Prop} {p : Prog Stop Link Unit} (h : Keeps codecs (Inv codecs) p) :
    Ensures (fun link => φ → Inv codecs link) p (fun _ link => φ → Inv codecs link)
      (fun stop link => φ → Fails codecs stop link) (fun _ => True) := by
  by_cases hφ : φ
  · exact h.imp (fun _ hs => hs hφ) (fun _ _ hs _ => hs) (fun _ _ hs _ => hs) fun _ _ => trivial
  intro sc link _
  cases p sc link with
  | mk en =>
    cases en with
    | crashed => trivial
    | _ => exact fun hφ' => absurd hφ' hφ

theorem advances_loopBody {φ : Prop} {rd : Round} (hc : config.chunks = true)
    (har : ∀ arr ∈ rd.arrivals, arr.Queues codecs config Message.Sendable) :
    Ensures (fun link => Wrote (Writer.Poised k) n link ∧ (φ → Inv codecs link)) (loopBody codecs config rd)
      (fun sent link => sent = true ∧ n + rd.controls.length < link.wire.length)
      (fun stop _ => EndsEarly k stop ∨ (stop = .badReceipt ∧ ¬ φ)) (fun _ => True) := by
  have hrcpts := (ensures_drainReceipts (@ensures_takeReceipt codecs
    (Wrote (Writer.Poised k) (n + rd.controls.length)) fun l id off cr av hl hr => by
      rw [WireCredit.receipt, hl.1.idle] at hr
      cases hr) rd.receipts).and ((keeps_drainReceipts rd.receipts).when (φ := φ))
  have hfill : Ensures (Wrote (Writer.Poised k) (n + rd.controls.length))
      (fill codecs config rd.disconnected rd.arrivals) (fun _ => Wrote (Writer.Poised k) (n + rd.controls.length))
      (fun stop link => stop = .badOutgoingMessage ∧ Wrote (Writer.Poised k) (n + rd.controls.length) link)
      (Wrote (Writer.Poised k) (n + rd.controls.length)) := by
    refine ensures_fill (fun a ha => ensures_takeOutgoing (har a ha) ?_) fun l hl => ⟨{ hl.1 with }, hl.2⟩
    intro l msg hl hM
    exact ⟨{ hl.1.toTidy.enqueue hM with
      idle := hl.1.idle, work := .inl (append_ne_nil_of_right_ne_nil _ (cons_ne_nil _ _)),
      next := hl.1.next }, hl.2⟩
  refine ensures_bind (((wrote_drainControls rd.controls).and (keeps_drainControls rd.controls).when).imp
      (fun _ h => h) (fun _ _ h => h) (fun _ _ h => .inl (.inl h.1.1)) fun _ _ => trivial) fun _ =>
    ensures_bind (hrcpts.imp (fun _ h => h) (fun _ _ h => h) ?_ fun _ _ => trivial) fun _ =>
    ensures_bind (Q := fun _ => Wrote (Writer.Poised k) (n + rd.controls.length))
      (ensures_modify fun l h => ⟨h.1.1.retain, h.1.2⟩) fun _ =>
    ensures_bind (hfill.imp (fun _ h => h) (fun _ _ h => h) (fun _ _ h => .inl (.inr (.inr (.inl h.1))))
      fun _ _ => trivial) fun _ =>
    ensures_get_bind ?_
  · rintro stop link ⟨⟨rfl, -⟩, hfails⟩
    exact .inr ⟨rfl, fun hφ => (hfails hφ).2.1 rfl⟩
  intro link h
  split
  · refine ensures_bind ((@wrote_sendControl (fun _ => True) (n + rd.controls.length) _ _ fun _ _ => trivial).imp
      ?_ (fun _ _ hs => hs) (fun _ _ hs => .inl (.inl hs.1)) fun _ _ => trivial) fun _ =>
      ensures_pure fun l hl => ⟨rfl, by omega⟩
    rintro s rfl
    exact ⟨trivial, h.2⟩
  · rw [if_pos hc]
    refine ensures_bind (advances_startTransfer.imp (fun s hs => hs ▸ h) (fun _ _ hs => hs) (fun _ _ hs => .inl hs)
      fun _ _ => trivial) fun again => ?_
    cases again with
    | true => exact ensures_pure fun l hl => ⟨rfl, by have hwire : l.wire.length = _ := hl; omega⟩
    | false => exact advances_sendChunk.imp (fun _ hs => hs) (fun _ _ hs => hs) (fun _ _ hs => .inl hs) fun _ hs => hs

/-- In every run the writer's counts are those of the unacknowledged chunks and stay within their bounds, and so does
what the receiver holds.  If no text is empty and no message too long, then whenever nothing is unacknowledged and a
message is queued or active, the next pass of the loop does not wait: it writes a frame besides the control messages
that it finds, unless it ends the loop.  It finds a bad receipt only if some message was no envelope. -/
theorem flow_control (codecs : Codecs) (config : Config) (hchunks : config.chunks = true) (events : List Event) :
    let session := run codecs config events
    session.link.writer.credit.Sound ∧ (session.link.peer codecs).receiver.Bounded ∧
      ((∀ event ∈ events, ∀ arrival ∈ event.offered, arrival.Queues codecs config Message.Sendable) →
        session.ended = none → session.link.writer.credit.pending = [] →
        session.link.writer.pending ≠ [] ∨ session.link.writer.active ≠ [] →
        ∀ round : Round, (∀ arrival ∈ round.offered, arrival.Queues codecs config Message.Sendable) →
          Ensures (fun link => link = session.link) (loopBody codecs config round)
            (fun sent link => sent = true ∧ session.link.wire.length + round.controls.length < link.wire.length)
            (fun stop _ => EndsEarly session.link.writer.nextId stop ∨
              (stop = .badReceipt ∧ ¬ ∀ event ∈ events, ∀ arrival ∈ event.offered, arrival.message.IsEnvelope codecs))
            (fun _ => True)) := by
  intro session
  refine ⟨(paced_run (M := fun _ => True) hchunks (fun _ _ _ _ _ _ => trivial)).paced.credit, session.link.bounded_peer, ?_⟩
  intro hse hru hi hw round har
  have hrested := (paced_run hchunks hse).rested hru
  have hpoi : session.link.writer.Poised session.link.writer.nextId :=
    { hrested.toPaced with unfinished := hrested.unfinished hi, idle := hi, work := hw, next := rfl }
  refine (advances_loopBody hchunks (fun a ha => har a (mem_append_left _ ha))).imp ?_ (fun _ _ hs => hs)
    (fun _ _ hs => hs) (fun _ hs => hs)
  rintro link rfl
  exact ⟨⟨hpoi, rfl⟩, fun he => (reached_run hchunks he).inv (.inl hru)⟩

/-- A request comes in while the writer waits; the next pass writes it. -/
theorem flow_control_request :
    let config : Config := ⟨true, true, 8⟩
    let events : List Event :=
      [.round ⟨[], 0, [], false, .outgoing (some ⟨.text (requestText "1"), fun _ => none⟩), []⟩]
    let session := run jsonCodecs config events
    session.link.writer.credit.pending = [] ∧ session.link.writer.pending ≠ [] ∧
      ∀ controls, Ensures (fun link => link = session.link)
        (loopBody jsonCodecs config ⟨controls, 0, [], false, .receipt false, []⟩)
        (fun sent link => sent = true ∧ session.link.wire.length + controls.length < link.wire.length)
        (fun stop _ => EndsEarly session.link.writer.nextId stop ∨
          (stop = .badReceipt ∧
            ¬ ∀ event ∈ events, ∀ arrival ∈ event.offered, arrival.message.IsEnvelope jsonCodecs))
        (fun _ => True) := by
  intro config events session
  have hqs : ∀ event ∈ events, ∀ arrival ∈ event.offered, arrival.Queues jsonCodecs config Message.Sendable := by
    simp only [events, Event.offered, Round.offered, Wake.arrivals, nil_append, forall_mem_cons,
      not_mem_nil, IsEmpty.forall_iff, implies_true, and_true]
    rintro message ⟨⟩
    exact ⟨by decide, by decide⟩
  have hidle : session.link.writer.credit.pending = [] := by decide +kernel
  have hque : session.link.writer.pending ≠ [] := by decide +kernel
  refine ⟨hidle, hque, fun controls => ?_⟩
  exact (flow_control jsonCodecs config rfl events).2.2 hqs (by decide +kernel) hidle (.inl hque)
    ⟨controls, 0, [], false, .receipt false, []⟩ fun arrival ha => by cases ha

/-- An empty text is queued and nothing is unacknowledged, but the next pass writes nothing and waits. -/
theorem empty_text_waits :
    let config : Config := ⟨true, true, 8⟩
    let session := run jsonCodecs config [.round ⟨[], 0, [], false, .outgoing (some ⟨.text [], fun _ => none⟩), []⟩]
    let pass := loopBody jsonCodecs config ⟨[], 0, [], false, .receipt false, []⟩ [] session.link
    session.ended = none ∧ session.link.writer.credit.pending = [] ∧
      session.link.writer.pending.map Queued.message = [.text []] ∧ Message.len (.text []) ≤ maxMessageBytes ∧
      pass.1 = .value false ∧ pass.2.2.wire = session.link.wire := by
  decide +kernel

end Chariox.RelayTransport
