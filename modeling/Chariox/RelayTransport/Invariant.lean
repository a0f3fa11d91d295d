import Chariox.RelayTransport.Queues

/-!
# The invariant of the writer and its peer

`Sound` is what a run promises at any time: once the peer has read all that was written, it has met no error and handed
out exactly what was delivered, in an order that respects the lanes.  `Inv` adds what the next pass of the loop needs.
The lemmas here say how each change of the state keeps them.
-/

namespace Chariox.RelayTransport

open List

variable {codecs : Codecs}

/-! ### What the peer has read -/

namespace Peer

/-- A peer that has read more: it keeps what it handed out and its receipts, and it does not forget an error. -/
structure Extends (earlier later : Peer) : Prop where
  handedOut : earlier.handedOut <+: later.handedOut
  receipts : earlier.receipts <+: later.receipts
  error : later.error = none → earlier.error = none

theorem extends_after (p : Peer) (recv : FrameReceiver) (res : Except String (Option Message × Option Text))
    (he : p.error = none) : p.Extends (p.after codecs recv res) := by
  cases res with
  | error => exact ⟨prefix_rfl, prefix_rfl, nofun⟩
  | ok => exact ⟨prefix_append _ _, prefix_append _ _, fun _ => he⟩

theorem extends_read (p : Peer) (msg : Message) : p.Extends (p.read codecs msg) := by
  unfold read
  split
  · exact ⟨prefix_rfl, prefix_rfl, id⟩
  rename_i he
  rw [Bool.not_eq_true, Option.isSome_eq_false_iff, Option.isNone_iff_eq_none] at he
  cases msg with
  | control => exact ⟨prefix_rfl, prefix_rfl, id⟩
  | _ => exact extends_after p _ _ he

theorem extends_foldl (p : Peer) (messages : List Message) : p.Extends (messages.foldl (read codecs) p) := by
  induction messages generalizing p with
  | nil => exact ⟨prefix_rfl, prefix_rfl, id⟩
  | cons msg rest ih =>
    have hfst := @extends_read codecs p msg
    have hrest := ih (p.read codecs msg)
    exact ⟨hfst.handedOut.trans hrest.handedOut, hfst.receipts.trans hrest.receipts,
      fun h => hfst.error (hrest.error h)⟩

end Peer

/-- The peer, once it has read all that was written. -/
def History.ideal (codecs : Codecs) (self : History) : Peer := self.wire.foldl (Peer.read codecs) .init

theorem Link.peer_extends (link : Link) : (link.peer codecs).Extends (link.ideal codecs) := by
  have hspl : link.ideal codecs = (link.wire.drop link.read).foldl (Peer.read codecs) (link.peer codecs) := by
    rw [History.ideal, Link.peer, ← foldl_append, take_append_drop]
  rw [hspl]
  exact Peer.extends_foldl _ _

@[simp] theorem Link.ideal_put (link : Link) (message : Message) (dl : Option Delivery) :
    (link.put message dl).ideal codecs = (link.ideal codecs).read codecs message := by
  simp [History.ideal, Link.put]

/-! ### The choices of the writer -/

/-- The transfer that sends, as it was and under its id, and its chunk. -/
structure Chosen (codecs : Codecs) (nextId : Nat) (t named : Transfer) (starting : Bool) (message : Message)
    (stop : Nat) : Prop where
  starting_eq : starting = decide (t.id = 0)
  named_eq : named = { t with id := if starting then nextId + 1 else t.id }
  range : starting = true → nextId + 1 < 2 ^ 32
  chunk : named.nextChunk codecs = some (message, stop)

namespace Chosen

variable {nextId : Nat} {t nm : Transfer} {st : Bool} {message : Message} {stop : Nat}

section

variable (h : Chosen codecs nextId t nm st message stop)

include h

theorem toNamed : Named nextId t st nm.id :=
  ⟨h.starting_eq, by rw [h.named_eq]⟩

theorem id_lt (hid : t.id ≤ nextId) (hn : nextId < 2 ^ 32) : nm.id < 2 ^ 32 := by
  cases st with
  | true =>
    rw [h.toNamed.of_starting.2]
    exact h.range rfl
  | false =>
    rw [h.toNamed.of_next.2]
    omega

theorem unfinished : t.finished = false := by
  have hsame : t.finished = nm.finished := by rw [h.named_eq]; rfl
  have hchk := h.chunk
  rw [hsame]
  unfold Transfer.nextChunk at hchk
  unfold Transfer.finished
  split at hchk
  · split at hchk
    · split at hchk
      · cases hchk
      · rename_i hne
        simp [hne]
    · rename_i hsm
      simp [hsm]
  · split at hchk
    · cases hchk
    · rename_i hne
      simp [hne]

end

end Chosen

/-- A turn only permutes the active transfers, and takes out the one that sends. -/
def Turn.Spec (codecs : Codecs) (nextId : Nat) (active : List Transfer) : Turn → Prop
  | .idle active' => active'.Perm active
  | .exhausted => True
  | .chunk others named starting message stop _ =>
    ∃ t, (t :: others).Perm active ∧ Chosen codecs nextId t named starting message stop

theorem Turn.Spec.perm {nid : Nat} {active a' : List Transfer} {turn : Turn}
    (h : turn.Spec codecs nid a') (hp : a'.Perm active) : turn.Spec codecs nid active := by
  cases turn with
  | idle => exact List.Perm.trans h hp
  | exhausted => trivial
  | chunk =>
    obtain ⟨t, ht, hc⟩ := h
    exact ⟨t, ht.trans hp, hc⟩

theorem pass_spec (w : Writer) (skipSmall : Bool) (n : Nat) (active : List Transfer) :
    (w.pass codecs skipSmall n active).Spec codecs w.nextId active := by
  induction n generalizing active with
  | zero => exact List.Perm.refl _
  | succ n ih =>
    cases active with
    | nil => exact List.Perm.refl _
    | cons tr ots =>
      -- A transfer that cannot send goes to the back.
      have hback := (ih (ots ++ [tr])).perm (perm_append_singleton tr ots)
      unfold Writer.pass
      dsimp only
      generalize hnam : (if decide (tr.id = 0) = true then { tr with id := w.nextId + 1 }
        else tr) = nm
      split
      · exact hback
      split
      · trivial
      rename_i hr
      split
      · rename_i hc
        split
        · refine ⟨tr, List.Perm.refl _, rfl, ?_, fun hs => ?_, hc⟩
          · rw [← hnam]
            by_cases hid : tr.id = 0 <;> simp [hid]
          · have hlt : ¬ 2 ^ 32 ≤ w.nextId + 1 := by simpa [hs] using hr
            exact Nat.lt_of_not_le hlt
        · exact hback
      · exact hback

theorem turn_spec (w : Writer) : (w.turn codecs).Spec codecs w.nextId w.active := by
  unfold Writer.turn
  dsimp only
  have hfst := @pass_spec codecs w
    (decide (smallStreakLimit ≤ w.smallStreak) && w.active.any fun t => !t.small) w.active.length
    w.active
  split
  · rename_i a heq
    rw [heq] at hfst
    split
    · exact (pass_spec w false a.length a).perm hfst
    · exact hfst
  · exact hfst

theorem startable_of_chooseStart {pend : List Queued} {a : List Transfer} {i : Nat}
    (h : chooseStart pend a = some i) : startable pend a i = true := by
  rcases Option.or_eq_some_iff.1 h with h | ⟨-, h⟩
  · have := find?_some h
    simp only [Bool.and_eq_true] at this
    exact this.2
  · exact find?_some h

/-! ### The invariant -/

/-- The numbers of the queued messages that were delivered, in order. -/
def History.seqs (self : History) : List Nat := self.delivered.filterMap Delivery.seq

/-- What a run promises at any time. -/
structure Sound (codecs : Codecs) (history : History) : Prop where
  error : (history.ideal codecs).error = none
  handedOut : (history.ideal codecs).handedOut = (history.delivered.map Delivery.message).filter Message.isData
  nodup : history.seqs.Nodup
  source : ∀ d ∈ history.delivered, ∀ i, d.seq = some i → ∃ m, history.enqueued[i]? = some m ∧ m.message = d.message
  order : ∀ i j before after, history.seqs = before ++ j :: after → Precedes codecs history.enqueued i j → i ∈ before

structure Inv (codecs : Codecs) (link : Link) : Prop where
  sound : Sound codecs link.toHistory
  agrees : Agrees codecs link.writer.nextId link.writer.active (link.ideal codecs).receiver
  taken : link.taken ≤ (link.ideal codecs).receipts.length
  acked : Acked link.writer.nextId link.writer.active link.writer.credit.pending
    ((link.ideal codecs).receipts.drop link.taken)
  placed : Placed codecs link.writer.pending link.writer.active link.enqueued link.seqs

/-- How a pass may end the loop: not by a bad receipt, and drained only when nothing was left half done. -/
def Fails (codecs : Codecs) (stop : Stop) (link : Link) : Prop :=
  Sound codecs link.toHistory ∧ stop ≠ .badReceipt ∧ (stop = .drained → Inv codecs link)

theorem inv_init : Inv codecs .init := by
  refine ⟨⟨rfl, rfl, nodup_nil, ?_, ?_⟩, ⟨rfl, by decide, rfl, rfl, fun _ _ => ⟨rfl, rfl⟩, ?_, ?_,
    List.Pairwise.nil, Nat.zero_le _, Nat.zero_le _⟩, Nat.le_refl 0, ⟨rfl, ?_, ?_⟩,
    ⟨fun _ => rfl, List.Pairwise.nil, ?_, ?_, ?_, ?_⟩⟩
  · exact nofun
  · intro i j b aft h
    cases b <;> cases h
  all_goals exact nofun

variable {link : Link}

/-- A frame is written, and may deliver a message for which the time has come. -/
theorem Sound.put {msg : Message} {del : Option Delivery} (h : Sound codecs link.toHistory)
    (he : ((link.ideal codecs).read codecs msg).error = none) (ho : ((link.ideal codecs).read codecs msg).handedOut =
      (link.ideal codecs).handedOut ++ (del.toList.map Delivery.message).filter Message.isData)
    (hdl : ∀ d, del = some d → ∀ i, d.seq = some i → i ∉ link.seqs ∧
      (∃ m, link.enqueued[i]? = some m ∧ m.message = d.message) ∧
      ∀ k, Precedes codecs link.enqueued k i → k ∈ link.seqs) :
    Sound codecs (link.put msg del).toHistory := by
  have hseqs : (link.put msg del).seqs = link.seqs ++ (del.bind Delivery.seq).toList := by
    cases del with
    | none => simp [History.seqs, Link.put]
    | some d => cases hd : d.seq <;> simp [History.seqs, Link.put, hd]
  refine ⟨?_, ?_, ?_, ?_, ?_⟩
  · rw [Link.ideal_put]
    exact he
  · rw [Link.ideal_put, ho, h.handedOut, ← filter_append, ← map_append]
    rfl
  · rw [hseqs]
    cases hd : del.bind Delivery.seq with
    | none => simpa using h.nodup
    | some i =>
      obtain ⟨d, rfl, hi⟩ := Option.bind_eq_some_iff.1 hd
      exact nodup_append.2 ⟨h.nodup, by simp, fun a ha b hb heq => (hdl d rfl i hi).1 (by simp_all)⟩
  · intro d hd i hi
    rcases mem_append.1 hd with hd | hd
    · exact h.source d hd i hi
    · exact (hdl d (Option.mem_toList.1 hd) i hi).2.1
  · intro i j pre aft heq hp
    rw [hseqs] at heq
    cases hd : del.bind Delivery.seq with
    | none =>
      rw [hd] at heq
      exact h.order i j pre aft (by simpa using heq) hp
    | some k =>
      obtain ⟨d, rfl, hk⟩ := Option.bind_eq_some_iff.1 hd
      rw [hd] at heq
      -- The message is the new one, or one that was delivered before.
      rcases eq_nil_or_concat aft with rfl | ⟨aft, last, rfl⟩
      · have hlast := append_inj_right' heq rfl
        have hinit := append_inj_left' heq rfl
        cases hlast
        rw [← hinit]
        exact (hdl d rfl j hk).2.2 i hp
      · have hconcat : link.seqs ++ [k] = pre ++ j :: aft ++ [last] := by simpa using heq
        exact h.order i j pre aft (append_inj_left' hconcat rfl) hp

theorem Sound.putControl (h : Sound codecs link.toHistory) (c : Control) :
    Sound codecs (link.put (.control c) none).toHistory := by
  have hread := @Peer.read_whole codecs _ h.error (.control c) trivial
  exact h.put ((congrArg Peer.error hread).trans h.error) (congrArg Peer.handedOut hread) nofun

theorem Sound.enqueue (h : Sound codecs link.toHistory) (msg : Message) (scopeOf : Text → Option Text) :
    Sound codecs (link.enqueue codecs msg scopeOf).toHistory := by
  refine ⟨h.error, h.handedOut, h.nodup, ?_, ?_⟩
  · intro d hd i hi
    obtain ⟨m, hm, hms⟩ := h.source d hd i hi
    refine ⟨m, ?_, hms⟩
    show (link.enqueued ++ _)[i]? = some m
    rw [List.getElem?_append_left (List.getElem?_eq_some_iff.1 hm).1]
    exact hm
  · rintro i j pre aft heq ⟨hlt, a, b, ha, hb, hrest⟩
    -- A delivered message was queued before.
    have hj : j ∈ link.seqs := by
      rw [show link.seqs = pre ++ j :: aft from heq]
      simp
    obtain ⟨d, hd, hs⟩ := List.mem_filterMap.1 hj
    obtain ⟨m, hm, -⟩ := h.source d hd j hs
    have hbd := (List.getElem?_eq_some_iff.1 hm).1
    rw [show (link.enqueue codecs msg scopeOf).enqueued = link.enqueued ++ _ from rfl,
      List.getElem?_append_left (by omega)] at ha hb
    exact h.order i j pre aft heq ⟨hlt, a, b, ha, hb, hrest⟩

namespace Inv

variable {link : Link}

section

variable (h : Inv codecs link)

include h

theorem putControl (c : Control) : Inv codecs (link.put (.control c) none) := by
  have hideal : (link.put (.control c) none).ideal codecs = link.ideal codecs := by
    rw [Link.ideal_put, @Peer.read_whole codecs _ h.sound.error (.control c) trivial]
    simp [Message.isData]
  have hseqs : (link.put (.control c) none).seqs = link.seqs := by simp [History.seqs, Link.put]
  refine ⟨h.sound.putControl c, ?_, ?_, ?_, ?_⟩
  · rw [hideal]
    exact h.agrees
  · rw [hideal]
    exact h.taken
  · rw [hideal]
    exact h.acked
  · rw [hseqs]
    exact h.placed

theorem retain : Inv codecs link.retain :=
  ⟨h.sound, h.agrees.retain, h.taken, h.acked.subset fun _ ht => mem_of_mem_filter ht, h.placed.retain⟩

theorem enqueue {msg : Message} (he : msg.IsEnvelope codecs)
    (scopeOf : Text → Option Text) : Inv codecs (link.enqueue codecs msg scopeOf) :=
  ⟨h.sound.enqueue msg scopeOf, h.agrees, h.taken, h.acked, h.placed.enqueue rfl he⟩

/-- The next receipt that the peer has produced is the one that the writer expects. -/
theorem takeReceipt {id off : Nat} (hn : (link.peer codecs).receipts[link.taken]? = some (id, off)) :
    ∃ credit active, link.writer.credit.receipt id off link.writer.active = some (credit, active) ∧
      Inv codecs { link with writer := { link.writer with credit, active }, taken := link.taken + 1 } := by
  have hideal : (link.ideal codecs).receipts[link.taken]? = some (id, off) := by
    obtain ⟨more, hm⟩ := (@Link.peer_extends codecs link).receipts
    rw [← hm, List.getElem?_append_left (List.getElem?_eq_some_iff.1 hn).1]
    exact hn
  obtain ⟨hlt, hg⟩ := List.getElem?_eq_some_iff.1 hideal
  have hdrop : (link.ideal codecs).receipts.drop link.taken =
      (id, off) :: (link.ideal codecs).receipts.drop (link.taken + 1) := by
    rw [List.drop_eq_getElem_cons hlt, hg]
  have hacked := h.acked
  rw [hdrop] at hacked
  obtain ⟨credit, active, heq, hs, hacked⟩ := hacked.receipt h.agrees.distinct
  exact ⟨credit, active, heq, h.sound, Agrees.map_strip.1 (hs ▸ Agrees.map_strip.2 h.agrees), hlt, hacked,
    Placed.map_strip.1 (hs ▸ Placed.map_strip.2 h.placed)⟩

/-- A queued message is written in one piece: it leaves the queue and is delivered. -/
theorem sendWhole {ix : Nat} {m : Queued} (hm : link.writer.pending[ix]? = some m)
    (hc : control codecs m.message = true) :
    Inv codecs ((link.removePending ix).put m.message (some ⟨some m.seq, m.message⟩)) := by
  have hque := h.placed.queued m (mem_of_getElem? hm)
  have henv := h.placed.envelopes m (mem_of_getElem? hque)
  have hread := Peer.read_whole h.sound.error henv
  have hideal : ((link.removePending ix).put m.message (some ⟨some m.seq, m.message⟩)).ideal codecs =
      (link.ideal codecs).read codecs m.message := Link.ideal_put _ _ _
  have hseqs : ((link.removePending ix).put m.message (some ⟨some m.seq, m.message⟩)).seqs = link.seqs ++ [m.seq] := by
    simp [History.seqs, Link.put, Link.removePending]
  refine ⟨@Sound.put codecs (link.removePending ix) _ _ h.sound ?_ ?_ ?_, ?_, ?_, ?_, ?_⟩
  · exact (congrArg Peer.error hread).trans h.sound.error
  · exact congrArg Peer.handedOut hread
  · rintro d ⟨⟩ i ⟨⟩
    refine ⟨h.placed.not_mem_of_pending (mem_of_getElem? hm), ⟨m, hque, rfl⟩, ?_⟩
    -- No message has to come out before a control message.
    rintro k ⟨-, a, b, -, hb, -, hpl, -⟩
    rw [show (link.removePending ix).enqueued = link.enqueued from rfl, hque] at hb
    cases hb
    rw [hc] at hpl
    cases hpl
  · rw [hideal, hread]
    exact h.agrees
  · rw [hideal, hread]
    exact h.taken
  · rw [hideal, hread]
    exact h.acked
  · rw [hseqs]
    exact h.placed.remove hm

theorem start {i : Nat} {m : Queued} {t : Transfer} (hm : link.writer.pending[i]? = some m)
    (hst : startable link.writer.pending link.writer.active i = true)
    (hc : link.writer.active.length < maxTransfers) (hbd : t.total ≤ maxMessageBytes)
    (htr : t = m.transfer t.text t.binary) (hms : m.message = t.message) (ht : m.message.len = t.total)
    (hpl : t.binary ≠ none → t.text = []) (ho : t.finished = false) : Inv codecs ((link.removePending i).push t) := by
  have hid : t.id = 0 := by rw [htr]; rfl
  have hoff : t.offset = 0 := by rw [htr]; rfl
  have hwait : t.waiting = 0 := by rw [htr]; rfl
  unfold startable at hst
  rw [hm, Option.any_some, Bool.and_eq_true, Bool.and_eq_true, decide_eq_true_eq, ht] at hst
  have henv : t.message.IsEnvelope codecs :=
    hms ▸ h.placed.envelopes m (mem_of_getElem? (h.placed.queued m (mem_of_getElem? hm)))
  have hagr := h.agrees.push hid hoff henv hbd hpl hc hst.2.2
  have hacked := h.acked.push hid hwait
  have hplaced := h.placed.start hm hst.1 (by rw [htr]; rfl) hms (by rw [htr]; rfl)
    (by rw [htr]; rfl) ho
  have hperm : ((link.removePending i).push t).writer.active.Perm (t :: link.writer.active) := by
    show (if _ then _ else _ : List Transfer).Perm _
    split
    · exact List.Perm.refl _
    · exact perm_append_singleton t link.writer.active
  exact ⟨h.sound, hagr.perm hperm, h.taken, hacked.subset fun u hu => hperm.mem_iff.1 hu, hplaced.perm hperm⟩

end

section Chunk

variable {t nm : Transfer} {others : List Transfer} {st : Bool} {message : Message} {stop bs : Nat}

/-- The chosen transfer has sent its chunk, and the receiver has taken it. -/
theorem afterChunk {link' : Link} {recv : FrameReceiver} {out : List Message} (h : Inv codecs link)
    (hp : (t :: others).Perm link.writer.active)
    (hc : Chosen codecs link.writer.nextId t nm st message stop) (hst : stop < 2 ^ 32)
    (hwr : link'.writer = link.writer.afterChunk others nm st stop bs)
    (ht : link'.taken = link.taken) (he : link'.enqueued = link.enqueued) (hsn : Sound codecs link'.toHistory)
    (hi : link'.ideal codecs = ⟨recv, out, (link.ideal codecs).receipts ++ [(nm.id, stop)], none⟩)
    (hs : link'.seqs = link.seqs ++ if (nm.afterChunk stop).finished then [t.seq] else [])
    (htk : FrameReceiver.Takes (link.ideal codecs).receiver recv nm.id t.total (st = true)
      ((nm.afterChunk stop).finished = true))
    (hb : (nm.afterChunk stop).finished = false → (nm.afterChunk stop).binary = t.binary)
    (hto : (nm.afterChunk stop).total ≤ t.total)
    (hun : (nm.afterChunk stop).finished = false → Underway recv (nm.afterChunk stop)) :
    Inv codecs link' := by
  have hagr := h.agrees.perm hp
  have hacked := h.acked.subset fun u hu => hp.mem_iff.1 hu
  have hplaced := h.placed.perm hp
  have hopen := hc.unfinished
  have hstg := hagr.stage t mem_cons_self
  have htext : nm.text = t.text := by rw [hc.named_eq]
  have hsameTotal : (nm.afterChunk stop).finished = false → (nm.afterChunk stop).total = t.total := by
    intro hf
    rw [Transfer.total, hb hf, show (nm.afterChunk stop).text = t.text from htext]
    rfl
  have hsameMessage : (nm.afterChunk stop).finished = false → (nm.afterChunk stop).message = t.message := by
    intro hf
    rw [Transfer.message, hb hf, show (nm.afterChunk stop).text = t.text from htext]
    rfl
  have hstg' : Stage codecs recv (nm.afterChunk stop) := by
    refine ⟨fun hf => ?_, fun hf => ?_, fun hf hne => ?_, fun _ hid => ?_, fun hf _ => hun hf⟩
    · rw [hsameMessage hf]
      exact hstg.envelope hopen
    · rw [hsameTotal hf]
      exact hstg.bound hopen
    · rw [hb hf] at hne
      exact htext.trans (hstg.plain hopen hne)
    · exact absurd hid hc.toNamed.ne_zero
  have hlane : (nm.afterChunk stop).lane = t.lane := by rw [hc.named_eq]; rfl
  have hkey : (nm.afterChunk stop).key = t.key := by rw [hc.named_eq]; rfl
  have hseq : (nm.afterChunk stop).seq = t.seq := by rw [hc.named_eq]; rfl
  have hwait : (nm.afterChunk stop).waiting = t.waiting + 1 := by rw [hc.named_eq]; rfl
  refine ⟨hsn, ?_, ?_, ?_, ?_⟩
  · rw [hi, hwr]
    exact hagr.afterChunk hopen hc.toNamed hc.range rfl hto hsameTotal htk hstg'
  · rw [hi, ht, length_append]
    exact h.taken.trans (Nat.le_add_right _ _)
  · rw [hi, ht, hwr, drop_append_of_le_length h.taken]
    have hnew : Acked _ (others ++ [nm.afterChunk stop])
        (link.writer.credit.pending ++ [⟨nm.id, stop, bs, nm.small⟩]) (_ ++ [(nm.id, stop)]) :=
      hacked.afterChunk hagr.ids hagr.distinct hc.toNamed rfl hwait
    simpa only [Writer.afterChunk, asU32_of_lt hst] using hnew
  · rw [hwr, he, hs]
    exact hplaced.afterChunk hopen hseq hlane hkey hsameMessage

theorem deliverable (h : Inv codecs link) (ht : t ∈ link.writer.active) (ho : t.finished = false) :
    t.seq ∉ link.seqs ∧ (∃ m, link.enqueued[t.seq]? = some m ∧ m.message = t.message) ∧
      ∀ k, Precedes codecs link.enqueued k t.seq → k ∈ link.seqs := by
  obtain ⟨b, aft, ha⟩ := append_of_mem ht
  have hperm : (t :: b ++ aft).Perm link.writer.active := by
    rw [ha]
    exact perm_middle.symm
  obtain ⟨m, hm, hms, -⟩ := h.placed.carried t ht ho
  exact ⟨(h.placed.perm hperm).not_mem_of_unfinished ho, ⟨m, hm, hms⟩, h.placed.barrier t ht ho⟩

/-- A chunk of a text or of a large binary message, which delivers the message when it is the last one. -/
theorem sendPart (h : Inv codecs link) (hp : (t :: others).Perm link.writer.active)
    (hc : Chosen codecs link.writer.nextId t nm st message stop) (hsm : nm.smallBinary = none) :
    Inv codecs (Link.put { link with writer := link.writer.afterChunk others nm st stop bs } message
      (if (nm.afterChunk stop).finished then some ⟨some nm.seq, nm.message⟩ else none)) := by
  have hagr := h.agrees.perm hp
  have ht : t ∈ link.writer.active := hp.mem_iff.1 mem_cons_self
  have hopen := hc.unfinished
  have hstg := h.agrees.stage t ht
  have hmsg : nm.message = t.message := by rw [hc.named_eq]; rfl
  have htot : nm.total = t.total := by rw [hc.named_eq]; rfl
  have hseq : nm.seq = t.seq := by rw [hc.named_eq]
  obtain ⟨rc, hr, htk, hu, hst⟩ := @read_chunk codecs (link.ideal codecs) nm st
    message stop h.sound.error hc.toNamed.ne_zero
    (hc.id_lt (h.agrees.ids t ht) h.agrees.range) (by rw [hc.named_eq]; exact hopen)
    (by rw [hmsg]; exact hstg.envelope hopen) (by rw [htot]; exact hstg.bound hopen) hsm
    (by
      rintro rfl
      obtain ⟨hid, hn⟩ := hc.toNamed.of_starting
      rw [hn, htot]
      exact ⟨by rw [hc.named_eq]; exact hstg.fresh hopen hid, hagr.accepts hid⟩)
    (by
      intro hs
      rw [Bool.not_eq_true] at hs
      subst hs
      have hid := hc.toNamed.of_next.1
      have hsame : nm = t := by rw [hc.named_eq]; rfl
      rw [hsame]
      exact ⟨hstg.underway hopen hid, hagr.total_le_reserved hopen hid⟩)
    hc.chunk
  obtain ⟨hn, hsr, hb⟩ := h.deliverable ht hopen
  have hideal : ∀ dl, (Link.put { link with
      writer := link.writer.afterChunk others nm st stop bs } message dl).ideal codecs = _ :=
    fun _ => (Link.ideal_put _ _ _).trans hr
  refine h.afterChunk hp hc hst rfl rfl rfl (@Sound.put codecs { link with
      writer := link.writer.afterChunk others nm st stop bs } _ _ h.sound ?_ ?_ ?_) (hideal _) ?_ ?_ ?_ ?_
    hu
  · exact congrArg Peer.error hr
  · rw [show ((History.ideal codecs _).read codecs message).handedOut = _ from congrArg Peer.handedOut hr]
    split
    · have hdata : nm.message.isData = true := by
        unfold Transfer.message
        split <;> rfl
      simp [hdata]
    · simp
  · intro d hd i hi
    split at hd
    · cases hd
      cases hi
      rw [hseq, hmsg]
      exact ⟨hn, hsr, hb⟩
    · cases hd
  · simp only [History.seqs, Link.put]
    split <;> simp [hseq]
  · rw [← htot]
    exact htk
  · intro
    rw [binary_afterChunk hsm, hc.named_eq]
  · rw [total_afterChunk hsm, htot]

/-- A small binary message and its checkpoint: the message is delivered at once. -/
theorem sendSmall {binary : Bytes} (h : Inv codecs link) (hp : (t :: others).Perm link.writer.active)
    (hc : Chosen codecs link.writer.nextId t nm st message stop) (hsm : nm.smallBinary = some binary) :
    Sound codecs (Link.put { link with writer := link.writer.afterChunk others nm st stop bs }
      (.binary binary) (some ⟨some nm.seq, .binary binary⟩)).toHistory ∧
    Inv codecs ((Link.put { link with writer := link.writer.afterChunk others nm st stop bs }
      (.binary binary) (some ⟨some nm.seq, .binary binary⟩)).put message none) := by
  have ht : t ∈ link.writer.active := hp.mem_iff.1 mem_cons_self
  have hopen := hc.unfinished
  have hstg := h.agrees.stage t ht
  obtain ⟨hnamedBinary, hl⟩ := Option.filter_eq_some_iff.1 hsm
  have hbin : t.binary = some binary := by
    rw [hc.named_eq] at hnamedBinary
    exact hnamedBinary
  have hmsg : t.message = .binary binary := by simp [Transfer.message, hbin]
  have hseq : nm.seq = t.seq := by rw [hc.named_eq]
  -- Such a transfer has not begun, because it begins and ends in one turn.
  have hid : t.id = 0 := by
    by_contra hne
    have hund := hstg.underway hopen hne
    rw [Underway, hbin] at hund
    exact absurd hund.1 (Nat.not_lt.2 (of_decide_eq_true hl))
  obtain rfl : st = true := by rw [hc.starting_eq, hid]; rfl
  have hnew := hc.toNamed.of_starting.2
  have hchk := hc.chunk
  rw [Transfer.nextChunk_small hnamedBinary (of_decide_eq_true hl)] at hchk
  obtain ⟨rfl, rfl⟩ : Message.text (codecs.frameText (.transportChunk nm.id 0 0 [])) = message ∧ 0 = stop := by
    simpa using hchk
  have henv : (Message.binary binary).IsEnvelope codecs := hmsg ▸ hstg.envelope hopen
  have hwhole := Peer.read_whole h.sound.error henv
  obtain ⟨hfr, hs, hb⟩ := h.deliverable ht hopen
  have hsnd : Sound codecs (Link.put { link with writer := link.writer.afterChunk others nm true 0 bs }
      (.binary binary) (some ⟨some nm.seq, .binary binary⟩)).toHistory := by
    refine @Sound.put codecs { link with writer := link.writer.afterChunk others nm true 0 bs } _ _ h.sound ?_ ?_ ?_
    · exact (congrArg Peer.error hwhole).trans h.sound.error
    · exact congrArg Peer.handedOut hwhole
    · rintro d ⟨⟩ i ⟨⟩
      rw [hseq, ← hmsg]
      exact ⟨hfr, hs, hb⟩
  have hread := @read_smallBinary codecs nm.id (link.ideal codecs) binary h.sound.error henv
    (by rw [h.agrees.lastId, hnew]; exact Nat.lt_succ_self _) (hc.id_lt (h.agrees.ids t ht) h.agrees.range)
  have htext : nm.text = [] := by
    rw [hc.named_eq]
    exact hstg.plain hopen (by simp [hbin])
  have hfin : (nm.afterChunk 0).finished = true := by
    simp [Transfer.finished, Transfer.afterChunk, hsm, htext]
  have htot : (nm.afterChunk 0).total ≤ t.total := by
    simp [Transfer.total, Transfer.afterChunk, hsm, htext]
  have hunf : ¬ (nm.afterChunk 0).finished = false := by simp [hfin]
  have hideal : ((Link.put { link with writer := link.writer.afterChunk others nm true 0 bs } (.binary binary)
      (some ⟨some nm.seq, .binary binary⟩)).put
        (.text (codecs.frameText (.transportChunk nm.id 0 0 []))) none).ideal codecs = _ :=
    (Link.ideal_put _ _ _).trans ((congrArg (fun peer => Peer.read codecs peer _) (Link.ideal_put _ _ _)).trans hread)
  refine ⟨hsnd, h.afterChunk hp hc (by decide) rfl rfl rfl (hsnd.put ?_ ?_ ?_) hideal ?_ ?_
    (fun hf => absurd hf hunf) htot fun hf => absurd hf hunf⟩
  · rw [Link.ideal_put]
    exact congrArg Peer.error hread
  · rw [Link.ideal_put]
    refine (congrArg Peer.handedOut hread).trans ?_
    rw [show (Peer.read codecs (History.ideal codecs _) (.binary binary)).handedOut = _ from
      congrArg Peer.handedOut hwhole]
    simp [filter, Message.isData]
  · intro d hd
    cases hd
  · rw [hfin]
    simp [History.seqs, Link.put, hseq]
  · simpa only [hfin] using takes_checkpoint _ nm.id t.total

end Chunk

end Inv

end Chariox.RelayTransport
