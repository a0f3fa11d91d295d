import Chariox.RelayTransport.Receiver

/-!
# The receiver takes a chunk

What the receiver does with the next chunk of a transfer, of either payload type: it answers with the receipt for the
bytes so far, and hands out the message with its last chunk.  `Takes` says what becomes of the other transfers and of
the receiver's counts, in the same words for both types.
-/

namespace Chariox.RelayTransport

open Chariox.Alignment OrdMap List

@[simp] theorem Text.len_nil : Text.len [] = 0 := rfl

@[simp] theorem Text.len_append (a b : Text) : Text.len (a ++ b) = Text.len a + Text.len b := size_append _ a b

theorem Text.eq_nil_of_len {t : Text} (h : Text.len t = 0) : t = [] := eq_nil_of_size _ Char.utf8Size_pos h

theorem Text.len_pos {t : Text} (h : t ≠ []) : 0 < Text.len t :=
  Nat.pos_of_ne_zero fun hz => h (eq_nil_of_len hz)

namespace FrameReceiver

variable {cds : Codecs}

/-- A chunk of transfer `id` was taken; it was the first one when `starts`, and the last one when `ends`. -/
structure Takes (old new : FrameReceiver) (id total : Nat) (starts ends : Prop) [Decidable starts] [Decidable ends] :
    Prop where
  lastId : new.lastId = if starts then id else old.lastId
  reserved : new.reserved + (if ends then total else 0) = old.reserved + if starts then total else 0
  slots : new.slots + (if ends then 1 else 0) = old.slots + if starts then 1 else 0
  active : ∀ k, k ≠ id → new.active.get k = old.active.get k
  binaryActive : ∀ k, k ≠ id → new.binaryActive.get k = old.binaryActive.get k

section Takes

variable {a b c : FrameReceiver} {id total : Nat} {starts ends : Prop} [Decidable starts] [Decidable ends]

theorem Takes.trans (ho : Takes a b id total starts False) (ht : Takes b c id total False ends) :
    Takes a c id total starts ends where
  lastId := by rw [ht.lastId, if_neg not_false, ho.lastId]
  reserved := by
    have hleft := ho.reserved
    have hrt := ht.reserved
    rw [hrt, hleft]
  slots := by
    have hleft := ho.slots
    have hrt := ht.slots
    rw [hrt, hleft]
  active k hk := (ht.active k hk).trans (ho.active k hk)
  binaryActive k hk := (ht.binaryActive k hk).trans (ho.binaryActive k hk)

theorem Takes.congr {ends' : Prop} [Decidable ends'] (h : Takes a b id total starts ends) (hi : ends ↔ ends') :
    Takes a b id total starts ends' :=
  { h with
    reserved := by simpa only [hi] using h.reserved
    slots := by simpa only [hi] using h.slots }

theorem takes_self (hn : ¬ starts) : Takes a a id total starts False where
  lastId := (if_neg hn).symm
  reserved := by rw [if_neg hn, if_neg not_false]
  slots := by rw [if_neg hn, if_neg not_false]
  active _ _ := rfl
  binaryActive _ _ := rfl

theorem takes_openText (hs : starts) (hn : a.active.get id = none) :
    Takes a { a with lastId := id, reserved := a.reserved + total, active := a.active.insert id (total, []) } id total
      starts False where
  lastId := (if_pos hs).symm
  reserved := by rw [if_pos hs, if_neg not_false, Nat.add_zero]
  slots := by
    simp only [slots, len_insert_of_none hn, if_pos hs, if_neg not_false]
    omega
  active k hk := get_insert_of_ne _ hk _
  binaryActive _ _ := rfl

theorem takes_openBinary (hs : starts) (hn : a.binaryActive.get id = none) : Takes a { a with
      lastId := id, reserved := a.reserved + total, binaryActive := a.binaryActive.insert id (total, []) } id total
      starts False where
  lastId := (if_pos hs).symm
  reserved := by rw [if_pos hs, if_neg not_false, Nat.add_zero]
  slots := by
    simp only [slots, len_insert_of_none hn, if_pos hs, if_neg not_false]
    omega
  active _ _ := rfl
  binaryActive k hk := get_insert_of_ne _ hk _

/-- What comes of a chunk that is taken: the receipt for the bytes up to `ack`, and the message with its last chunk. -/
def Taken {α : Type} (codecs : Codecs) (self : FrameReceiver) (id total ack : Nat) (starts ends : Prop)
    [Decidable starts] [Decidable ends] (message : α) (Holds : FrameReceiver → Prop)
    (r : Except String (Option α × Option Text) × FrameReceiver) : Prop :=
  ∃ self', r = (.ok (if ends then some message else none, some (codecs.frameText (.transportAck id ack))), self') ∧
    Takes self self' id total starts ends ∧ (¬ ends → Holds self')

theorem Takes.taken {α : Type} {ack : Nat} {msg : α} {Holds : FrameReceiver → Prop}
    {r : Except String (Option α × Option Text) × FrameReceiver} (ho : Takes a b id total starts False)
    (h : b.Taken cds id total ack False ends msg Holds r) : a.Taken cds id total ack starts ends msg Holds r := by
  obtain ⟨self', heq, ht, hh⟩ := h
  exact ⟨self', heq, ho.trans ht, hh⟩

end Takes

/-- A transfer `id` of `total` bytes may begin. -/
def Accepts (self : FrameReceiver) (id total : Nat) : Prop :=
  self.active.get id = none ∧ self.binaryActive.get id = none ∧ self.refusesStart id 0 total = false

/-! ### Text transfers -/

/-- The receiver holds `pre`, of a text transfer `id` with `total` bytes. -/
def Holds (self : FrameReceiver) (id total : Nat) (pre : Text) : Prop :=
  self.active.get id = some (total, pre) ∧ self.binaryActive.get id = none

variable {self : FrameReceiver} {id total : Nat}

theorem assemble_eq {pre pay post : Text} (ht : Text.len (pre ++ pay ++ post) = total) (hbd : total < 2 ^ 32)
    (hj : Message.IsEnvelope cds (.text (pre ++ pay ++ post))) (hh : self.Holds id total pre)
    (hr : total ≤ self.reserved) :
    self.Taken cds id total (Text.len (pre ++ pay)) False (post = []) (pre ++ pay ++ post)
      (·.Holds id total (pre ++ pay)) (self.assemble cds id (Text.len pre) total pay) := by
  obtain ⟨hg, hb⟩ := hh
  have hlen : Text.len pre + Text.len pay + Text.len post = total := by
    rw [← ht, Text.len_append, Text.len_append]
  have hack : asU32 (Text.len (pre ++ pay)) = Text.len (pre ++ pay) :=
    asU32_of_lt (by rw [Text.len_append]; omega)
  have hchk : ¬ (total ≠ total ∨ Text.len pre ≠ Text.len pre ∨ total - Text.len pre < Text.len pay) := by omega
  unfold assemble
  rw [hg]
  dsimp only
  rw [if_neg hchk, hack]
  by_cases hpost : post = []
  · subst hpost
    obtain ⟨v, hvl, hpl⟩ := hj
    rw [append_nil] at hvl
    have hdone : Text.len (pre ++ pay) = total := by
      simpa using hlen
    simp only [hdone, hvl, hpl, append_nil]
    refine ⟨_, rfl, ⟨rfl, ?_, ?_, fun k hk => ?_, fun k _ => rfl⟩, absurd trivial⟩
    · simp only [if_true, if_false]
      omega
    · have hslt := len_remove_of_some hg
      simp only [slots, if_true, if_false]
      omega
    · exact get_remove_of_ne _ hk
  · have hpos := Text.len_pos hpost
    have hmore : Text.len (pre ++ pay) ≠ total := by
      rw [Text.len_append]
      omega
    simp only [hmore, hpost]
    refine ⟨_, rfl, ⟨rfl, rfl, ?_, fun k hk => ?_, fun k _ => rfl⟩, fun _ => ⟨?_, hb⟩⟩
    · simp only [slots, len_insert_of_some hg]
    · exact get_insert_of_ne _ hk _
    · exact get_insert_self ..

theorem receive_frameText {off : Nat} {payload : Text}
    (hr : (TransportFrame.transportChunk id off total payload).InRange) :
    self.receive cds (cds.frameText (.transportChunk id off total payload)) =
      self.receiveChunk cds id off total payload := by
  unfold receive
  rw [cds.fromStr_frameText _ hr]
  dsimp only
  rw [if_pos (TransportFrame.kind_toValue_chunk id off total payload), TransportFrame.ofValue_toValue hr]

/-- The receiver takes the chunk `payload` of a text whose part `pre` it has: the first chunk when `starts`. -/
theorem receive_text {pre pay post : Text} {sts : Prop}
    [Decidable sts] (hid : id ≠ 0) (hid32 : id < 2 ^ 32) (ht : Text.len (pre ++ pay ++ post) = total)
    (hbd : total ≤ maxMessageBytes) (hp : pay ≠ []) (hc : Text.len pay ≤ chunkBytes)
    (hj : Message.IsEnvelope cds (.text (pre ++ pay ++ post))) (hst : sts → pre = [] ∧ self.Accepts id total)
    (hn : ¬ sts → self.Holds id total pre ∧ total ≤ self.reserved) :
    self.Taken cds id total (Text.len (pre ++ pay)) sts (post = []) (pre ++ pay ++ post)
      (·.Holds id total (pre ++ pay))
      (self.receive cds (cds.frameText (.transportChunk id (Text.len pre) total pay))) := by
  have hlen : Text.len pre + Text.len pay + Text.len post = total := by
    rw [← ht, Text.len_append, Text.len_append]
  have hpos := Text.len_pos hp
  have htot32 : total < 2 ^ 32 := Nat.lt_of_le_of_lt hbd (by decide)
  rw [receive_frameText ⟨hid32, by omega, htot32⟩, receiveChunk, if_neg (by omega), if_neg (by omega),
    if_neg hp]
  by_cases hs : sts
  · obtain ⟨rfl, ha, hb, hac⟩ := hst hs
    rw [if_neg (not_contains hb), if_neg (not_contains ha), Text.len_nil, hac,
      if_neg Bool.false_ne_true]
    -- The chunk is assembled in the receiver that has just opened the transfer.
    exact (takes_openText hs ha).taken
      (assemble_eq ht htot32 hj ⟨get_insert_self .., hb⟩ (Nat.le_add_left _ _))
  · obtain ⟨⟨ha, hb⟩, hr⟩ := hn hs
    rw [if_neg (not_contains hb), if_pos (contains_iff.2 ⟨_, ha⟩)]
    exact (takes_self hs).taken (assemble_eq ht htot32 hj ⟨ha, hb⟩ hr)

/-- The checkpoint after a small binary message only raises the last id. -/
theorem receive_checkpoint (hid : self.lastId < id) (hid32 : id < 2 ^ 32) :
    self.receive cds (cds.frameText (.transportChunk id 0 0 [])) =
      (.ok (none, some (cds.frameText (.transportAck id 0))), { self with lastId := id }) := by
  rw [receive_frameText ⟨hid32, by decide, by decide⟩, receiveChunk, if_neg (by rw [Text.len_nil]; omega), if_pos rfl,
    if_neg]
  rintro (h | h | h)
  · exact h rfl
  · exact h rfl
  · omega

theorem receive_envelope {t : Text} (h : Message.IsEnvelope cds (.text t)) :
    self.receive cds t = (.ok (some t, none), self) := by
  obtain ⟨v, hvl, hpl⟩ := h
  have hkind : ∀ kind, "transport_".toList.isPrefixOf kind = true → v.kind ≠ some kind := by
    intro kind ht heq
    rw [Value.isTransport, heq, Option.any_some, ht] at hpl
    cases hpl
  unfold receive
  rw [hvl]
  dsimp only
  rw [if_neg (hkind _ (by decide)), if_neg (hkind _ (by decide))]

/-! ### Binary transfers -/

/-- The receiver holds `pre`, of a binary transfer `id` with `total` bytes. -/
def HoldsBinary (self : FrameReceiver) (id total : Nat) (pre : Bytes) : Prop :=
  self.binaryActive.get id = some (total, pre) ∧ self.active.get id = none

theorem assembleBinary_eq {pre pay post : Bytes} (ht : (pre ++ pay ++ post).length = total) (hbd : total < 2 ^ 32)
    (hpl : Message.IsEnvelope cds (.binary (pre ++ pay ++ post))) (hh : self.HoldsBinary id total pre)
    (hr : total ≤ self.reserved) : self.Taken cds id total (pre ++ pay).length False (post = []) (pre ++ pay ++ post)
      (·.HoldsBinary id total (pre ++ pay)) (self.assembleBinary cds id pre.length total pay) := by
  obtain ⟨hg, ha⟩ := hh
  have hlen : pre.length + pay.length + post.length = total := by
    rw [← ht, length_append, length_append]
  have hack : asU32 (pre ++ pay).length = (pre ++ pay).length :=
    asU32_of_lt (by rw [length_append]; omega)
  have hchk : ¬ (total ≠ total ∨ pre.length ≠ pre.length) := by omega
  unfold assembleBinary
  rw [hg]
  dsimp only
  rw [if_neg hchk, hack]
  by_cases hpost : post = []
  · subst hpost
    have hdone : (pre ++ pay).length = total := by simpa using ht
    have hpl' : binaryChunkMagic.isPrefixOf (pre ++ pay) = false := by simpa [Message.IsEnvelope] using hpl
    simp only [hdone, hpl', append_nil]
    refine ⟨_, rfl, ⟨rfl, ?_, ?_, fun k _ => rfl, fun k hk => ?_⟩, absurd trivial⟩
    · simp only [if_true, if_false]
      omega
    · have hslt := len_remove_of_some hg
      simp only [slots, if_true, if_false]
      omega
    · exact get_remove_of_ne _ hk
  · have hpos := length_pos_of_ne_nil hpost
    have hmore : (pre ++ pay).length ≠ total := by
      rw [length_append]
      omega
    simp only [hmore, hpost]
    refine ⟨_, rfl, ⟨rfl, rfl, ?_, fun k _ => rfl, fun k hk => ?_⟩, fun _ => ⟨?_, ha⟩⟩
    · simp only [slots, len_insert_of_some hg]
    · exact get_insert_of_ne _ hk _
    · exact get_insert_self ..

theorem length_binaryChunk (id off tot : Nat) (pay : Bytes) :
    (binaryChunk id off tot pay).length = binaryChunkHeaderBytes + pay.length := by
  simp only [binaryChunk, length_append]
  rfl

/-- The receiver takes the chunk `payload` of a binary message whose part `pre` it has: the first chunk when
`starts`. -/
theorem receiveBinary_chunk {pre payload post : Bytes} {sts : Prop}
    [Decidable sts] (hid : id ≠ 0) (hid32 : id < 2 ^ 32) (ht : (pre ++ payload ++ post).length = total)
    (hbd : total ≤ maxMessageBytes) (hp : payload.length = min binaryChunkPayloadBytes (total - pre.length))
    (hne : payload ≠ []) (hpl : Message.IsEnvelope cds (.binary (pre ++ payload ++ post)))
    (hst : sts → pre = [] ∧ self.Accepts id total)
    (hn : ¬ sts → self.HoldsBinary id total pre ∧ total ≤ self.reserved) :
    self.Taken cds id total (pre ++ payload).length sts (post = []) (pre ++ payload ++ post)
      (·.HoldsBinary id total (pre ++ payload))
      (self.receiveBinary cds (binaryChunk id pre.length total payload)) := by
  have hpos := length_pos_of_ne_nil hne
  have hchk : binaryChunkPayloadBytes + binaryChunkHeaderBytes = chunkBytes := rfl
  have htot32 : total < 2 ^ 32 := Nat.lt_of_le_of_lt hbd (by decide)
  have hm : binaryChunkMagic.isPrefixOf (binaryChunk id pre.length total payload) = true := rfl
  have hreadId : fromBeBytes (((binaryChunk id pre.length total payload).drop 4).take 4) = id :=
    fromBeBytes_toBeBytes hid32
  have hreadOffset : fromBeBytes (((binaryChunk id pre.length total payload).drop 8).take 4) = pre.length := by
    rw [show ((binaryChunk id pre.length total payload).drop 8).take 4 = toBeBytes (asU32 pre.length) from rfl,
      asU32_of_lt (by omega), fromBeBytes_toBeBytes (by omega)]
  have hreadTotal : fromBeBytes (((binaryChunk id pre.length total payload).drop 12).take 4) = total := by
    rw [show ((binaryChunk id pre.length total payload).drop 12).take 4 = toBeBytes (asU32 total) from rfl,
      asU32_of_lt htot32, fromBeBytes_toBeBytes htot32]
  have hreadPayload : (binaryChunk id pre.length total payload).drop binaryChunkHeaderBytes = payload := rfl
  unfold receiveBinary
  rw [if_neg (not_not_intro hm), length_binaryChunk, if_neg (by omega)]
  simp only [hreadId, hreadOffset, hreadTotal, hreadPayload]
  rw [if_neg (by omega)]
  by_cases hs : sts
  · obtain ⟨rfl, ha, hb, hac⟩ := hst hs
    rw [if_neg (not_contains ha), if_neg (not_contains hb), length_nil, hac,
      if_neg Bool.false_ne_true]
    exact (takes_openBinary hs hb).taken
      (assembleBinary_eq ht htot32 hpl ⟨get_insert_self .., ha⟩ (Nat.le_add_left _ _))
  · obtain ⟨⟨hb, ha⟩, hr⟩ := hn hs
    rw [if_neg (not_contains ha), if_pos (contains_iff.2 ⟨_, hb⟩)]
    exact (takes_self hs).taken (assembleBinary_eq ht htot32 hpl ⟨hb, ha⟩ hr)

/-- A binary message that comes in one piece is handed out as it is. -/
theorem receiveBinary_envelope {bs : Bytes} (h : Message.IsEnvelope cds (.binary bs)) :
    self.receiveBinary cds bs = (.ok (some bs, none), self) := by
  unfold receiveBinary
  rw [if_pos (by rw [show binaryChunkMagic.isPrefixOf bs = false from h]; exact Bool.false_ne_true)]

end FrameReceiver

end Chariox.RelayTransport
