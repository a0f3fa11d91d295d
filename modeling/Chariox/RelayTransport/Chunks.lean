import Chariox.RelayTransport.Assembly
import Chariox.RelayTransport.Writer

/-!
# The chunks of a transfer

The loop that cuts a text finds a chunk: it ends at a character boundary after at least one more character, and its
frame is within the bound (`nextChunk_text`).  That the halving does not go down to an empty payload rests on the bound
of a frame's length by that of its payload.
-/

namespace Chariox.RelayTransport

open Chariox.Alignment List

/-! ### Character boundaries -/

variable {text : Text} {n : Nat}

theorem Text.isCharBoundary_iff : isCharBoundary text n = true ↔ ∃ pre post, text = pre ++ post ∧ Text.len pre = n := by
  constructor
  · intro h
    obtain ⟨⟨pre, post⟩, hs⟩ := Option.isSome_iff_exists.1 h
    exact ⟨pre, post, splitAtSize_eq_some _ hs⟩
  · rintro ⟨pre, post, rfl, rfl⟩
    exact Option.isSome_iff_exists.2 ⟨_, splitAtSize_append _ Char.utf8Size_pos pre post⟩

theorem Text.floorCharBoundary_le (text : Text) (n : Nat) : floorCharBoundary text n ≤ n := by
  induction n with
  | zero => exact Nat.le_refl 0
  | succ =>
    unfold floorCharBoundary
    split
    · exact le_rfl
    · omega

theorem Text.isCharBoundary_floor (text : Text) (n : Nat) : isCharBoundary text (floorCharBoundary text n) = true := by
  induction n with
  | zero => exact isCharBoundary_iff.2 ⟨[], text, rfl, rfl⟩
  | succ n ih =>
    unfold floorCharBoundary
    split
    · assumption
    · exact ih

theorem Text.le_floorCharBoundary {b : Nat} (hb : isCharBoundary text b = true) (hle : b ≤ n) :
    b ≤ floorCharBoundary text n := by
  induction n with
  | zero => exact hle
  | succ n ih =>
    unfold floorCharBoundary
    split
    · exact hle
    rename_i hn
    by_contra hlt
    have heq : b = n + 1 := by omega
    rw [heq] at hb
    exact hn hb

/-- A character has at most four bytes, so a boundary is never far. -/
theorem Text.exists_boundary (h : n ≤ Text.len text) : ∃ b, isCharBoundary text b = true ∧ b ≤ n ∧ n ≤ b + 3 := by
  induction text generalizing n with
  | nil =>
    have hzero : n = 0 := Nat.le_zero.1 h
    exact ⟨0, rfl, Nat.zero_le n, by omega⟩
  | cons c t ih =>
    have hsize := Char.utf8Size_le_four c
    have hlen : Text.len (c :: t) = c.utf8Size + Text.len t := size_cons _ c t
    by_cases hn : n < c.utf8Size
    · exact ⟨0, rfl, Nat.zero_le n, by omega⟩
    obtain ⟨b, hb, hle, hne⟩ := @ih (n - c.utf8Size) (by omega)
    obtain ⟨pre, post, rfl, rfl⟩ := isCharBoundary_iff.1 hb
    refine ⟨c.utf8Size + Text.len pre, isCharBoundary_iff.2 ⟨c :: pre, post, rfl, size_cons _ c pre⟩, ?_, ?_⟩
    · omega
    · omega

theorem Text.near_floorCharBoundary (h : n ≤ Text.len text) : n ≤ floorCharBoundary text n + 3 := by
  obtain ⟨b, hb, hle, hn⟩ := exists_boundary h
  have := le_floorCharBoundary hb hle
  omega

theorem Text.slice_eq {pre rest : Text} {stop : Nat} (hs : isCharBoundary (pre ++ rest) stop = true)
    (hlt : Text.len pre < stop) :
    ∃ payload post, rest = payload ++ post ∧ payload ≠ [] ∧ stop = Text.len (pre ++ payload) ∧
      slice (pre ++ rest) (Text.len pre) stop = some payload := by
  obtain ⟨head, post, ht, rfl⟩ := isCharBoundary_iff.1 hs
  obtain ⟨payload, rfl, hr⟩ := exists_of_size_le _ Char.utf8Size_pos ht (Nat.le_of_lt hlt)
  refine ⟨payload, post, hr, ?_, rfl, ?_⟩
  · rintro rfl
    rw [append_nil] at hlt
    exact Nat.lt_irrefl _ hlt
  unfold slice
  rw [ht, show Text.len (pre ++ payload) = size Char.utf8Size (pre ++ payload) from rfl,
    splitAtSize_append _ Char.utf8Size_pos]
  show ((splitAtSize Char.utf8Size (pre ++ payload) (size Char.utf8Size pre)).bind fun pts => some pts.2) = _
  rw [splitAtSize_append _ Char.utf8Size_pos]
  rfl

/-! ### The next chunk -/

namespace Transfer

variable {cds : Codecs} {self : Transfer}

/-- The halving loop ends with a chunk, if it has the fuel to halve its range to nothing. -/
theorem textChunk_eq {pre rest : Text} {fuel stop : Nat} (ht : self.text = pre ++ rest)
    (ho : Text.len pre = self.offset) (hid : self.id < 2 ^ 32) (hto : Text.len self.text < 2 ^ 32)
    (hf : self.offset < Text.floorCharBoundary self.text stop) (hst : stop ≤ Text.len self.text)
    (hrn : stop - self.offset ≤ chunkBytes) (hfu : stop - self.offset < 2 ^ fuel) :
    ∃ payload post, rest = payload ++ post ∧ payload ≠ [] ∧ Text.len payload ≤ chunkBytes ∧
      self.textChunk cds fuel stop = some (.text (cds.frameText
        (.transportChunk self.id (Text.len pre) (Text.len self.text) payload)), Text.len (pre ++ payload)) := by
  induction fuel generalizing stop with
  | zero =>
    have := Text.floorCharBoundary_le self.text stop
    omega
  | succ fuel ih =>
    have hle := Text.floorCharBoundary_le self.text stop
    have hbdry := Text.isCharBoundary_floor self.text stop
    rw [ht] at hbdry
    obtain ⟨payload, post, hr, hne, he, hs⟩ := Text.slice_eq hbdry (by rw [ho, ← ht]; exact hf)
    rw [← ht] at he hs
    have hlen : Text.len (pre ++ payload) = Text.len pre + Text.len payload := Text.len_append _ _
    have hfr := cds.frameText_len self.id (Text.len pre) (Text.len self.text) payload
      ⟨hid, by omega, hto⟩
    unfold textChunk
    dsimp only
    rw [← ho, hs, asU32_of_lt hto, asU32_of_lt (show Text.len pre < 2 ^ 32 by omega)]
    dsimp only [Option.bind_eq_bind, Option.bind_some]
    split
    · exact ⟨payload, post, hr, hne, by omega, by rw [he]; rfl⟩
    -- The frame is too long, so the payload has more than a few characters and half of it is not nothing.
    have hbyt : chunkBytes = 16384 := rfl
    have hnear := @Text.near_floorCharBoundary self.text
      (self.offset + (Text.floorCharBoundary self.text stop - self.offset) / 2) (by omega)
    obtain ⟨pay', post', hr', hne', hc', heq⟩ := @ih
      (self.offset + (Text.floorCharBoundary self.text stop - self.offset) / 2)
      (by omega) (by omega) (by omega) (by omega)
    rw [← ho] at heq
    exact ⟨pay', post', hr', hne', hc', heq⟩

/-- A transfer of more than one piece is finished when all of it was sent. -/
theorem finished_iff (h : self.smallBinary = none) : self.finished = true ↔ self.offset = self.total := by
  cases hbin : self.binary with
  | none => simp [finished, total, hbin]
  | some bytes =>
    have hlrg : chunkBytes < bytes.length := by simpa [smallBinary, hbin] using h
    simp [finished, total, hbin, hlrg]

theorem nextChunk_text {pre rest : Text} (ht : self.text = pre ++ rest) (ho : Text.len pre = self.offset)
    (hop : self.finished = false) (hb : self.binary = none) (hid : self.id < 2 ^ 32) (hto : Text.len self.text < 2 ^ 32) :
    ∃ pay post, rest = pay ++ post ∧ pay ≠ [] ∧ Text.len pay ≤ chunkBytes ∧
      self.nextChunk cds = some (.text (cds.frameText
        (.transportChunk self.id (Text.len pre) (Text.len self.text) pay)), Text.len (pre ++ pay)) := by
  have hopen : self.offset ≠ Text.len self.text := by simpa [finished, hb] using hop
  have hlen : Text.len self.text = self.offset + Text.len rest := by rw [ht, Text.len_append, ho]
  have hbytes : chunkBytes = 16384 := rfl
  unfold nextChunk
  rw [hb]
  rw [if_neg (by omega)]
  apply textChunk_eq ht ho hid hto
  · -- The whole rest ends at a boundary, and a full chunk has one among its last four bytes.
    by_cases hall : Text.len self.text ≤ self.offset + chunkBytes
    · have hend : Text.isCharBoundary self.text (Text.len self.text) = true :=
        Text.isCharBoundary_iff.2 ⟨self.text, [], (append_nil _).symm, rfl⟩
      have hfloor := Text.le_floorCharBoundary hend le_rfl
      rw [Nat.min_eq_right hall]
      omega
    · have hnear := @Text.near_floorCharBoundary self.text (self.offset + chunkBytes) (by omega)
      rw [Nat.min_eq_left (by omega)]
      omega
  · exact Nat.min_le_right _ _
  · omega
  · have hpow : 2 ^ halvings = 65536 := rfl
    omega

theorem nextChunk_binary {bs : Bytes} (hb : self.binary = some bs) (hl : chunkBytes < bs.length)
    (ho : self.offset < bs.length) : ∃ pay post, bs = bs.take self.offset ++ pay ++ post ∧ pay ≠ [] ∧
      pay.length = min binaryChunkPayloadBytes (bs.length - self.offset) ∧
      self.nextChunk cds = some (.binary (binaryChunk self.id self.offset bs.length pay),
        self.offset + pay.length) := by
  have hlen : ((bs.drop self.offset).take binaryChunkPayloadBytes).length =
      min binaryChunkPayloadBytes (bs.length - self.offset) := by
    rw [length_take, length_drop]
  have hpay : binaryChunkPayloadBytes = 16368 := rfl
  refine ⟨(bs.drop self.offset).take binaryChunkPayloadBytes,
    (bs.drop self.offset).drop binaryChunkPayloadBytes, ?_, ?_, hlen, ?_⟩
  · rw [append_assoc, take_append_drop, take_append_drop]
  · apply ne_nil_of_length_pos
    omega
  · unfold nextChunk
    rw [hb]
    dsimp only
    rw [if_pos hl, if_neg (by omega), hlen]
    have hstop : min (self.offset + binaryChunkPayloadBytes) bs.length =
        self.offset + min binaryChunkPayloadBytes (bs.length - self.offset) := by omega
    have hslc : (bs.take (self.offset + min binaryChunkPayloadBytes (bs.length - self.offset))).drop self.offset =
        (bs.drop self.offset).take binaryChunkPayloadBytes := by
      rw [drop_take, take_eq_take_iff, length_drop]
      omega
    rw [hstop, hslc]

theorem nextChunk_small {bs : Bytes} (hb : self.binary = some bs) (hsm : bs.length ≤ chunkBytes) :
    self.nextChunk cds = some (.text (cds.frameText (.transportChunk self.id 0 0 [])), 0) := by
  unfold nextChunk
  rw [hb]
  dsimp only
  rw [if_neg (Nat.not_lt.2 hsm)]

end Transfer

end Chariox.RelayTransport
