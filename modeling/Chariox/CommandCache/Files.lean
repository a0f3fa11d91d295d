import Chariox.CommandCache.Model
import Chariox.Lib.Except
import Chariox.Lib.Json

/-!
# What the two files say

Lines of the receipt file and of the marker file, read back.  A text records a command (`Recorded`) or marks a digest
(`Marked`) when it does so however the text goes on, or else cannot be read at all: this is what a crash in the middle
of later writes cannot take away.
-/

namespace Chariox.CommandCache

open List

/-! ### Records as JSON -/

/-- A character that takes one byte and is neither a brace nor a control character. -/
def isPlain (c : Char) : Bool := 32 ≤ c.toNat && c.toNat < 123

/-- A string; one with other than plain characters is written as a number. -/
def textValue (text : String) : Json.Scalar :=
  if (Json.Scalar.string text.toList).write.all isPlain then .string text.toList
  else .natural (Encodable.encode (text.toList.map Char.toNat))

def textOf : Json.Scalar → Option String
  | .string text => some (.ofList text)
  | .natural n => (Encodable.decode n).map (fun codes : List Nat => .ofList (codes.map Char.ofNat))
  | .null => none

def optionalText : Option String → Json.Scalar
  | none => .null
  | some text => textValue text

/-- What the derived `Serialize` writes before each value of a record. -/
def receiptLabels : List (List Char) :=
  ["\x7b\"command_id\":", ",\"completed_at_ms\":", ",\"result\":\x7b\"response\":",
    ",\"error\":null,\"completed_at_ms\":", ",\"fingerprint\":\x7b\"command_type\":", ",\"source\":",
    ",\"session_id\":", ",\"attachment_id\":", ",\"request_hash\":"].map String.toList

def receiptEnd : List Char := ['\x7d', '\x7d', '\x7d']

def receiptValues (r : Receipt) : List Json.Scalar :=
  [textValue r.commandId, .natural r.completedAtMs, optionalText r.result.response, .natural r.result.completedAtMs,
    textValue r.result.fingerprint.commandType, textValue r.result.fingerprint.source,
    optionalText r.result.fingerprint.sessionId, optionalText r.result.fingerprint.attachmentId,
    .natural r.result.fingerprint.requestHash.toNat]

def ofReceiptValues : List Json.Scalar → Option Receipt
  | [commandId, .natural completedAtMs, response, .natural resultAtMs, commandType, source, sessionId, attachmentId,
      .natural requestHash] => do
    let commandId ← textOf commandId
    let commandType ← textOf commandType
    let source ← textOf source
    return { commandId, completedAtMs, result := ⟨textOf response, none, resultAtMs,
      ⟨commandType, source, textOf sessionId, textOf attachmentId, .ofNat requestHash, none, none⟩⟩ }
  | _ => none

def receiptText (r : Receipt) : List Char := Json.write receiptLabels receiptEnd (receiptValues r)

def receiptBytes (r : Receipt) : Bytes := (receiptText r).map (fun c => .ofNat c.toNat)

/-- The record that a line is written for. -/
def readReceipt (line : Bytes) : Option Receipt :=
  ((Json.read receiptEnd receiptLabels (line.map (fun b => Char.ofNat b.toNat))).bind ofReceiptValues).filter
    (fun r => receiptBytes r = line)

theorem textOf_textValue (text : String) : textOf (textValue text) = some text := by
  have hcodes : text.toList.map (Char.ofNat ∘ Char.toNat) = text.toList := by simp [Function.comp_def]
  unfold textValue
  split <;> simp [textOf, hcodes]

theorem textOf_optionalText (text : Option String) : textOf (optionalText text) = text := by
  cases text with
  | none => rfl
  | some text => exact textOf_textValue text

theorem isPlain_of_mem_value (r : Receipt) : ∀ v ∈ receiptValues r, v.write.all isPlain = true := by
  have hnatural : ∀ n, (Json.Scalar.natural n).write.all isPlain = true := by
    intro n
    refine all_eq_true.2 fun c hc => ?_
    have hdigit := Char.isDigit_iff_toNat.1 (Json.isDigit_of_mem_toDigits hc)
    simp at hdigit
    simp [isPlain]
    omega
  have htext : ∀ text, (textValue text).write.all isPlain = true := by
    intro text
    unfold textValue
    split
    · assumption
    · exact hnatural _
  have hoptional : ∀ text, (optionalText text).write.all isPlain = true := by
    intro text
    cases text with
    | none => rfl
    | some text => exact htext text
  simp only [receiptValues, forall_mem_cons]
  exact ⟨htext _, hnatural _, hoptional _, hnatural _, htext _, htext _, hoptional _, hoptional _, hnatural _, by simp⟩

theorem value_range {r : Receipt} {v : Json.Scalar} (hv : v ∈ receiptValues r) {c : Char}
    (hc : c ∈ v.write) : 32 ≤ c.toNat ∧ c.toNat < 123 := by
  simpa [isPlain] using all_eq_true.1 (isPlain_of_mem_value r v hv) c hc

theorem receiptText_range (r : Receipt) : ∀ c ∈ receiptText r, 32 ≤ c.toNat ∧ c.toNat < 128 := by
  have hlabels : ∀ label ∈ receiptEnd :: receiptLabels, ∀ c ∈ label, 32 ≤ c.toNat ∧ c.toNat < 128 := by
    have hall : (receiptEnd :: receiptLabels).all (fun label => label.all (fun c => 32 ≤ c.toNat && c.toNat < 128)) :=
      by rfl
    intro label hl c hc
    simpa using all_eq_true.1 (all_eq_true.1 hall label hl) c hc
  intro c hc
  rcases mem_append.1 hc with hc | hc
  · obtain ⟨⟨label, v⟩, hgap, hc⟩ := mem_flatMap.1 hc
    rcases mem_append.1 hc with hc | hc
    · exact hlabels label (mem_cons_of_mem _ (of_mem_zip hgap).1) c hc
    · have hrange := value_range (of_mem_zip hgap).2 hc
      omega
  · exact hlabels _ mem_cons_self c hc

theorem openBrace_receiptBytes (r : Receipt) : (receiptBytes r).count openBrace = 3 := by
  have hvalue : ∀ v ∈ receiptValues r, (v.write.map (fun c => UInt8.ofNat c.toNat)).count openBrace = 0 := by
    intro v hv
    rw [count_eq_zero, mem_map]
    rintro ⟨c, hc, heq⟩
    have hrange := value_range hv hc
    have hnat := congrArg UInt8.toNat heq
    simp [openBrace] at hnat
    omega
  simp only [receiptValues, forall_mem_cons] at hvalue
  simp only [receiptBytes, receiptText, Json.write, receiptLabels, receiptValues, map_cons, map_nil, zip_cons_cons,
    zip_nil_left, flatMap_cons, flatMap_nil, map_append, count_append, hvalue]
  decide

theorem receiptBytes_object (r : Receipt) : ∃ rest, receiptBytes r = openBrace :: rest := by
  unfold receiptBytes receiptText receiptLabels receiptValues
  rw [map_cons, Json.write_cons]
  generalize (textValue r.commandId).write ++ _ = rest
  exact ⟨_, rfl⟩

theorem receiptBytes_back (r : Receipt) : (receiptBytes r).map (fun b => Char.ofNat b.toNat) = receiptText r := by
  rw [receiptBytes, map_map]
  refine (map_congr_left fun c hc => ?_).trans (map_id _)
  have hrange := receiptText_range r c hc
  have hbyte : (UInt8.ofNat c.toNat).toNat = c.toNat := by
    rw [UInt8.toNat_ofNat']
    omega
  simp [hbyte]

/-- A record is read back, but for its error and its browser fields. -/
theorem readReceipt_receiptBytes (r : Receipt) :
    ∃ r', readReceipt (receiptBytes r) = some r' ∧ r'.commandId = r.commandId := by
  have hread : Json.read receiptEnd receiptLabels _ = some (receiptValues r) :=
    Json.read_write (by decide) (by decide) (by simp [receiptLabels, receiptValues])
  obtain ⟨r', hr', hid, hvalues⟩ : ∃ r', ofReceiptValues (receiptValues r) = some r' ∧ r'.commandId = r.commandId ∧
      receiptValues r' = receiptValues r := by
    simp [ofReceiptValues, receiptValues, textOf_textValue, textOf_optionalText]
  have hbytes : receiptBytes r' = receiptBytes r := by rw [receiptBytes, receiptText, hvalues, ← receiptText, ← receiptBytes]
  refine ⟨r', ?_, hid⟩
  rw [readReceipt, receiptBytes_back, receiptText, hread, Option.bind_some, hr', Option.filter_some, if_pos (decide_eq_true hbytes)]

/-- The records as `serde_json` writes them when they have neither an error nor browser fields. -/
def jsonCodec : ReceiptCodec where
  encode := receiptBytes
  decode := readReceipt
  decode_encode := readReceipt_receiptBytes
  one_line r := by
    have hnot : ∀ b : UInt8, b.toNat < 32 → b ∉ receiptBytes r := by
      intro b hb hmem
      obtain ⟨c, hc, rfl⟩ := mem_map.1 hmem
      have hrange := receiptText_range r c hc
      rw [UInt8.toNat_ofNat'] at hb
      omega
    exact ⟨hnot _ (by decide), hnot _ (by decide)⟩
  object := receiptBytes_object
  glued torn r hne htorn := by
    obtain ⟨part, parts, rfl⟩ := exists_cons_of_ne_nil hne
    obtain ⟨hpart, r', hprefix⟩ := htorn part mem_cons_self
    obtain ⟨b, part, rfl⟩ := exists_cons_of_ne_nil hpart
    obtain ⟨rest, hrest⟩ := receiptBytes_object r'
    have hb : b = openBrace := (cons_prefix_cons.1 (hrest ▸ hprefix)).1
    -- a fourth opening brace belongs to no single record
    have hfour : 4 ≤ (((b :: part) :: parts).flatten ++ receiptBytes r).count openBrace := by
      rw [flatten_cons, cons_append, cons_append, hb, count_cons_self, count_append, openBrace_receiptBytes]
      omega
    rw [readReceipt, Option.filter_eq_none_iff]
    intro r'' _ heq
    rw [← of_decide_eq_true heq, openBrace_receiptBytes] at hfour
    omega

/-! ### Lines -/

theorem splitLines_append_newline (a x : Bytes) : splitLines (a ++ newline :: x) =
    ((splitLines a).1 ++ (splitLines a).2 :: (splitLines x).1, (splitLines x).2) := by
  induction a with
  | nil => simp [splitLines]
  | cons b a ih =>
    rw [cons_append, splitLines, ih]
    by_cases hb : b = newline
    · simp [splitLines, hb]
    cases hl : (splitLines a).1 <;> simp [splitLines, hb, hl]

theorem splitLines_of_not_mem {w : Bytes} (h : newline ∉ w) : splitLines w = ([], w) := by
  induction w with
  | nil => rfl
  | cons b w ih =>
    rw [mem_cons, not_or] at h
    simp [splitLines, Ne.symm h.1, ih h.2]

theorem splitLines_append {w : Bytes} (h : newline ∉ w) (a : Bytes) :
    splitLines (a ++ w) = ((splitLines a).1, (splitLines a).2 ++ w) := by
  induction a with
  | nil => simp [splitLines_of_not_mem h, splitLines]
  | cons b a ih =>
    rw [cons_append, splitLines, ih]
    by_cases hb : b = newline
    · simp [splitLines, hb]
    cases hl : (splitLines a).1 <;> simp [splitLines, hb, hl]

theorem splitLines_append_complete {a : Bytes} (h : (splitLines a).2 = []) (x : Bytes) :
    splitLines (a ++ x) = ((splitLines a).1 ++ (splitLines x).1, (splitLines x).2) := by
  induction a with
  | nil => rfl
  | cons b a ih =>
    rw [cons_append, splitLines]
    by_cases hb : b = newline
    · have hrest : (splitLines a).2 = [] := by simpa [splitLines, hb] using h
      rw [ih hrest]
      simp [splitLines, hb]
    cases hl : (splitLines a).1 with
    | nil => simp [splitLines, hb, hl] at h
    | cons =>
      have hrest : (splitLines a).2 = [] := by simpa [splitLines, hb, hl] using h
      rw [ih hrest]
      simp [splitLines, hb, hl]

theorem rest_of_no_lines {a : Bytes} (h : (splitLines a).1 = []) : (splitLines a).2 = a := by
  induction a with
  | nil => rfl
  | cons b a ih =>
    by_cases hb : b = newline
    · simp [splitLines, hb] at h
    cases hl : (splitLines a).1 with
    | nil => simp [splitLines, hb, hl, ih hl]
    | cons => simp [splitLines, hb, hl] at h

theorem exists_complete (a : Bytes) : ∃ cpl, a = cpl ++ (splitLines a).2 ∧ splitLines cpl = ((splitLines a).1, []) := by
  induction a with
  | nil => exact ⟨[], rfl, rfl⟩
  | cons b a ih =>
    obtain ⟨cpl, ha, hc⟩ := ih
    by_cases hb : b = newline
    · subst hb
      refine ⟨newline :: cpl, ?_, by simp [splitLines, hc]⟩
      simp only [splitLines, if_true, cons_append]
      rw [← ha]
    · cases hl : (splitLines a).1 with
      | nil =>
        refine ⟨[], ?_, by simp [splitLines, hb, hl]⟩
        simp [splitLines, hb, hl, rest_of_no_lines hl]
      | cons =>
        refine ⟨b :: cpl, ?_, by simp [splitLines, hb, hc, hl]⟩
        simp only [splitLines, if_neg hb, hl]
        exact congrArg (b :: ·) ha

theorem readLines_append (a line x : Bytes) (hl : newline ∉ line) : readLines (a ++ (line ++ newline :: x)) =
      (splitLines a).1.map stripCarriageReturn ++ stripCarriageReturn ((splitLines a).2 ++ line) :: readLines x := by
  rw [← append_assoc, readLines, splitLines_append_newline, splitLines_append hl]
  simp [readLines]

/-! ### Receipts -/

section Receipts

variable (codec : ReceiptCodec)

/-- A last line that a crash or a failed write left: beginnings of records. -/
def Torn (line : Bytes) : Prop :=
  ∃ parts : List Bytes, line = parts.flatten ∧ ∀ part ∈ parts, part ≠ [] ∧ ∃ r, part <+: codec.encode r

/-- A receipt file whose last line, if it has no end, is made of beginnings of records. -/
def TornAtMost (text : Bytes) : Prop := Torn codec (splitLines text).2

/-- The scan has taken up the command. -/
def ReceiptScan.Holds (scan : ReceiptScan) (commandId : String) : Prop :=
  (∃ entry, scan.results.get commandId = some entry ∧ entry.commandId = commandId) ∧ commandId ∈ scan.order

/-- The text holds the command, however it goes on, unless it cannot be read. -/
def Recorded (commandId : String) (text : Bytes) : Prop :=
  ∀ x scan, scanReceipts codec (text ++ x) = .ok scan → scan.Holds commandId

variable {scan scan' : ReceiptScan} {commandId : String} {line text : Bytes}

theorem Recorded.append (b x : Bytes) (h : Recorded codec commandId b) : Recorded codec commandId (b ++ x) := by
  intro y scan hs
  rw [append_assoc] at hs
  exact h (x ++ y) scan hs

theorem not_recorded_nil (cid : String) : ¬ Recorded codec cid [] := by
  intro h
  have hemp := (h [] _ rfl).2
  cases hemp

theorem torn_nil : Torn codec [] := ⟨[], rfl, by simp⟩

theorem Torn.append_part {part : Bytes} (h : Torn codec line) {r : Receipt}
    (hpa : part <+: codec.encode r) : Torn codec (line ++ part) := by
  obtain ⟨pts, rfl, hp⟩ := h
  by_cases hnil : part = []
  · exact ⟨pts, by simp [hnil], hp⟩
  refine ⟨pts ++ [part], by simp, ?_⟩
  exact forall_mem_append.2 ⟨hp, forall_mem_singleton.2 ⟨hnil, r, hpa⟩⟩

theorem rest_record (a : Bytes) (r : Receipt) : (splitLines (a ++ (codec.encode r ++ [newline]))).2 = [] := by
  rw [← append_assoc, splitLines_append_newline]
  rfl

theorem TornAtMost.append (h : TornAtMost codec text) (r : Receipt) (n : Nat) :
    TornAtMost codec (text ++ (codec.encode r ++ [newline]).take n) := by
  unfold TornAtMost
  by_cases hn : n ≤ (codec.encode r).length
  · have hpart : (codec.encode r).take n <+: codec.encode r := take_prefix ..
    have hnl : newline ∉ (codec.encode r).take n := fun hm => (codec.one_line r).1 (mem_of_mem_take hm)
    rw [take_append_of_le_length hn, splitLines_append hnl]
    exact h.append_part codec hpart
  · rw [take_of_length_le (by simp; omega), rest_record]
    exact torn_nil codec

/-! ### Reading receipts -/

theorem ReceiptScan.holds_insert (scan : ReceiptScan) (e : Receipt)
    (h : commandId = e.commandId ∨ scan.Holds commandId) : (scan.insert e).Holds commandId := by
  by_cases heq : commandId = e.commandId
  · simp [Holds, insert, heq]
  have hold := h.resolve_left heq
  unfold Holds at hold
  simp [Holds, insert, heq, OrdMap.get_insert, hold]

theorem ReceiptScan.holds_line (h : scan.line codec line = .ok scan')
    (ho : scan.Holds commandId) : scan'.Holds commandId := by
  unfold ReceiptScan.line at h
  split at h
  · cases h
    exact ho
  split at h
  · cases h
    exact ho
  split at h
  · cases h
  split at h <;> cases h
  exact holds_insert scan _ (.inr ho)

theorem ReceiptScan.holds_lines {ls : List Bytes}
    (h : ls.foldlM (ReceiptScan.line codec) scan = .ok scan') (ho : scan.Holds commandId) : scan'.Holds commandId := by
  induction ls generalizing scan with
  | nil =>
    cases h
    exact ho
  | cons line ls ih =>
    obtain ⟨_, hl, h⟩ := of_bind_ok h
    exact ih h (holds_line codec hl ho)

theorem line_starts (h : Torn codec line) (r : Receipt) : ∃ rest, line ++ codec.encode r = openBrace :: rest := by
  obtain ⟨pts, rfl, hpa⟩ := h
  cases pts with
  | nil => exact codec.object r
  | cons part pts =>
    obtain ⟨hne, r', hp⟩ := hpa part mem_cons_self
    obtain ⟨rest, ho⟩ := codec.object r'
    cases part with
    | nil => exact absurd rfl hne
    | cons b part =>
      rw [ho, cons_prefix_cons] at hp
      exact ⟨part ++ pts.flatten ++ codec.encode r, by simp [hp.1]⟩

theorem stripCarriageReturn_record (line : Bytes) (r : Receipt) :
    stripCarriageReturn (line ++ codec.encode r) = line ++ codec.encode r := by
  apply if_neg
  intro hl
  obtain ⟨rest, ho⟩ := codec.object r
  have hne : codec.encode r ≠ [] := by simp [ho]
  rw [getLast?_append_of_ne_nil _ hne] at hl
  exact (codec.one_line r).2 (mem_of_getLast? hl)

/-- The line of a record: what stands before it makes the file unreadable, or the scan takes it up. -/
theorem ReceiptScan.holds_record (ht : Torn codec line) {r : Receipt}
    (h : scan.line codec (line ++ codec.encode r) = .ok scan') : scan'.Holds r.commandId := by
  obtain ⟨rest, hst⟩ := line_starts codec ht r
  have hblank : isBlank (line ++ codec.encode r) = false := by
    rw [hst]
    simp [isBlank, openBrace]
  have hfence : line ++ codec.encode r ≠ receiptExpiryFence := by
    rw [hst]
    intro heq
    have hhead : some openBrace = receiptExpiryFence.head? := by rw [← heq]; rfl
    revert hhead
    decide
  have hdcd : ∀ e, codec.decode (line ++ codec.encode r) = some e → e.commandId = r.commandId := by
    intro e he
    obtain ⟨pts, rfl, hp⟩ := ht
    cases pts with
    | nil =>
      obtain ⟨r', hr', hid⟩ := codec.decode_encode r
      rw [flatten_nil, nil_append, hr'] at he
      rw [← Option.some.inj he, hid]
    | cons part pts =>
      rw [codec.glued (part :: pts) r (by simp) hp] at he
      cases he
  unfold ReceiptScan.line at h
  rw [hblank, if_neg (by simp), if_neg hfence] at h
  split at h
  · cases h
  split at h
  · cases h
  rename_i e he
  cases h
  exact holds_insert scan e (.inl (hdcd e he).symm)

theorem TornAtMost.recorded (h : TornAtMost codec text) (r : Receipt) :
    Recorded codec r.commandId (text ++ (codec.encode r ++ [newline])) := by
  intro x scan hs
  rw [append_assoc, append_assoc, singleton_append, scanReceipts,
    readLines_append _ _ _ (codec.one_line r).1, foldlM_append, stripCarriageReturn_record] at hs
  obtain ⟨_, -, hs⟩ := of_bind_ok hs
  obtain ⟨_, hl, hs⟩ := of_bind_ok hs
  exact ReceiptScan.holds_lines codec hs (ReceiptScan.holds_record codec h hl)

theorem rest_records (ents : List Receipt) (a : Bytes) (ha : (splitLines a).2 = []) :
    (splitLines (a ++ (ents.map (fun e => codec.encode e ++ [newline])).flatten)).2 = [] := by
  induction ents generalizing a with
  | nil => simpa using ha
  | cons e ents ih =>
    rw [map_cons, flatten_cons, ← append_assoc]
    exact ih _ (rest_record codec a e)

theorem rest_fence (fc : Bool) : (splitLines (if fc then receiptExpiryFence ++ [newline] else [])).2 = [] := by
  cases fc <;> rfl

theorem tornAtMost_rewrittenText (fc : Bool) (ents : List Receipt) :
    TornAtMost codec (rewrittenText codec fc ents) := by
  unfold TornAtMost rewrittenText
  rw [rest_records codec ents _ (rest_fence fc)]
  exact torn_nil codec

theorem recorded_rewrittenText (fc : Bool) {ents : List Receipt} {e : Receipt}
    (h : e ∈ ents) : Recorded codec e.commandId (rewrittenText codec fc ents) := by
  obtain ⟨b, aft, rfl⟩ := append_of_mem h
  have hbef : TornAtMost codec (rewrittenText codec fc b) := tornAtMost_rewrittenText codec fc b
  have htext : rewrittenText codec fc (b ++ e :: aft) =
      rewrittenText codec fc b ++ (codec.encode e ++ [newline]) ++
        (aft.map fun e => codec.encode e ++ [newline]).flatten := by
    simp [rewrittenText]
  rw [htext]
  exact (hbef.recorded codec e).append codec _ _

theorem Recorded.mem_entries (h : Recorded codec commandId text) (hs : scanReceipts codec text = .ok scan) :
    ∃ e ∈ scan.order.filterMap scan.results.get, e.commandId = commandId := by
  obtain ⟨⟨e, hg, hid⟩, ho⟩ := h [] scan (by rw [append_nil]; exact hs)
  exact ⟨e, mem_filterMap.2 ⟨commandId, ho, hg⟩, hid⟩

end Receipts

/-! ### Markers -/

theorem hexValue_hexDigit : ∀ n < 16, hexValue (hexDigit n) = n := by decide

theorem isHexDigit_hexDigit : ∀ n < 16, isHexDigit (hexDigit n) = true := by decide

variable (digest : Digest)

theorem identity_length : (identity digest).length = 64 := by
  simp [identity]

theorem identity_hex : (identity digest).all isHexDigit = true := by
  rw [all_eq_true]
  intro b hb
  obtain ⟨byte, -, hb⟩ := mem_flatMap.1 hb
  have hbyte : byte.toNat < 256 := byte.toNat_lt
  simp only [mem_cons, not_mem_nil, or_false] at hb
  rcases hb with rfl | rfl <;> exact isHexDigit_hexDigit _ (by omega)

theorem newline_not_mem_identity : newline ∉ identity digest := by
  intro hm
  have hhex := all_eq_true.1 (identity_hex digest) newline hm
  revert hhex
  decide

theorem hexDigits_getD (bs : Bytes) (i : Nat) (hi : i < bs.length) :
    (bs.flatMap (fun byte => [hexDigit (byte.toNat / 16), hexDigit (byte.toNat % 16)])).getD (2 * i) 0 =
        hexDigit (bs[i].toNat / 16) ∧
      (bs.flatMap (fun byte => [hexDigit (byte.toNat / 16), hexDigit (byte.toNat % 16)])).getD (2 * i + 1) 0 =
        hexDigit (bs[i].toNat % 16) := by
  induction bs generalizing i with
  | nil => cases hi
  | cons b bs ih =>
    cases i with
    | zero => simp
    | succ i =>
      have hlt : i < bs.length := Nat.lt_of_succ_lt_succ hi
      have hdouble : 2 * (i + 1) = 2 * i + 1 + 1 := by omega
      rw [hdouble]
      simpa using ih i hlt

theorem digestOfText_identity : digestOfText (identity digest) = digest := by
  ext i hi
  have hlen : i < digest.toList.length := by simpa using hi
  obtain ⟨hh, hl⟩ := hexDigits_getD digest.toList i hlen
  have hbyte : digest[i].toNat < 256 := digest[i].toNat_lt
  have hget : digest.toList[i] = digest[i] := by simp
  simp only [digestOfText, Vector.getElem_ofFn]
  rw [identity, hh, hl, hget, hexValue_hexDigit _ (by omega), hexValue_hexDigit _ (by omega), Nat.div_add_mod]
  simp

/-- The text marks the digest, however it goes on, unless it cannot be read. -/
def Marked (digest : Digest) (text : Bytes) : Prop :=
  ∀ x expired, parseMarkers (splitLines (text ++ x)).1 = .ok expired → digest ∈ expired

theorem Marked.append {dg : Digest} (b x : Bytes) (h : Marked dg b) : Marked dg (b ++ x) := by
  intro y exp hexpired
  rw [append_assoc] at hexpired
  exact h (x ++ y) exp hexpired

theorem subset_of_markerLines {ls : List Bytes} {exp expired' : Finset Digest}
    (h : ls.foldlM markerLine exp = .ok expired') : exp ⊆ expired' := by
  induction ls generalizing exp with
  | nil =>
    cases h
    exact Finset.Subset.refl _
  | cons line ls ih =>
    rw [foldlM_cons] at h
    unfold markerLine at h
    split at h
    · cases h
    · exact (Finset.subset_insert _ _).trans (ih h)

theorem marked_of_parse {complete : Bytes} (hc : (splitLines complete).2 = []) {exp : Finset Digest}
    (hp : parseMarkers (splitLines complete).1 = .ok exp) {dg : Digest} (h : dg ∈ exp) : Marked dg complete := by
  intro x exp' hexpired'
  rw [splitLines_append_complete hc, parseMarkers, foldlM_append] at hexpired'
  rw [parseMarkers] at hp
  rw [hp] at hexpired'
  exact subset_of_markerLines hexpired' h

theorem marked_identity (text : Bytes) (dg : Digest) : Marked dg (text ++ (identity dg ++ [newline])) := by
  intro x exp hexpired
  have hspl : (splitLines (text ++ (identity dg ++ [newline]) ++ x)).1 =
      (splitLines text).1 ++ ((splitLines text).2 ++ identity dg) :: (splitLines x).1 := by
    rw [← append_assoc, append_assoc, singleton_append, splitLines_append_newline,
      splitLines_append (newline_not_mem_identity dg)]
  rw [hspl, parseMarkers, foldlM_append] at hexpired
  obtain ⟨exp₀, -, hexpired⟩ := of_bind_ok hexpired
  rw [foldlM_cons] at hexpired
  by_cases hrest : (splitLines text).2 = []
  · have hline : markerLine exp₀ ((splitLines text).2 ++ identity dg) = .ok (insert dg exp₀) := by
      rw [hrest, nil_append, markerLine, identity_length, identity_hex, digestOfText_identity]
      rfl
    rw [hline] at hexpired
    exact subset_of_markerLines hexpired (Finset.mem_insert_self ..)
  · -- a torn line before the marker makes the line too long
    have hlong : ((splitLines text).2 ++ identity dg).length ≠ 64 := by
      have hpos := length_pos_iff.2 hrest
      rw [length_append, identity_length]
      omega
    rw [markerLine, if_pos (by rw [decide_eq_true hlong]; rfl)] at hexpired
    cases hexpired

end Chariox.CommandCache
