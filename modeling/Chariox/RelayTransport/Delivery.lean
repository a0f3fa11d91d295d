import Chariox.Lib.Json
import Chariox.RelayTransport.Invariant

/-!
# Every message comes out once and in order

Every part of the writer's loop keeps the invariant, and where it fails or ends the loop half way it still leaves a
sound history.  So for every schedule the receiver meets no error, the writer finds no bad receipt, and the messages come
out as they were queued (`transport_composes`).
-/

namespace Chariox.RelayTransport

open Prog List

variable {codecs : Codecs} {config : Config}

/-- A part of the loop that keeps the invariant. -/
abbrev Keeps (codecs : Codecs) {α : Type} (P : Link → Prop) (p : Prog Stop Link α) : Prop :=
  Ensures P p (fun _ => Inv codecs) (Fails codecs) (fun link => Sound codecs link.toHistory)

variable {q : Queued} {link : Link}

theorem ensures_write {msg : Message} {del : Option Delivery} {fl : Stop}
    {Q : Unit → Link → Prop} (hs : Sound codecs link.toHistory)
    (hp : Sound codecs (link.put msg del).toHistory) (hb : fl ≠ .badReceipt)
    (hd : fl ≠ .drained) (hQ : Q () (link.put msg del)) :
    Ensures (fun s => s = link) (write msg del fl) Q (Fails codecs) (fun link => Sound codecs link.toHistory) := by
  have heither : ∀ fate : Fate, Sound codecs (if Fate.reaches fate then link.put msg del else link).toHistory := by
    intro fate
    split
    · exact hp
    · exact hs
  refine ensures_step ?_ ?_ ?_
  · rintro s rfl
    exact hQ
  · rintro s n rfl
    exact ⟨heither (.fail n), hb, fun h => absurd h hd⟩
  · rintro s n rfl
    exact heither (.crash n)

theorem keeps_write_bind {msg : Message} {del : Option Delivery} {fl : Stop} {α : Type}
    {p : Prog Stop Link α} (hs : Sound codecs link.toHistory)
    (hpu : Sound codecs (link.put msg del).toHistory) (hb : fl ≠ .badReceipt)
    (hd : fl ≠ .drained) (hp : Keeps codecs (fun s => s = link.put msg del) p) :
    Keeps codecs (fun s => s = link) (write msg del fl >>= fun _ => p) :=
  ensures_bind (ensures_write hs hpu hb hd rfl) fun _ => hp

theorem keeps_throw (h : Inv codecs link) {stop : Stop} (hb : stop ≠ .badReceipt) {α : Type} :
    Keeps codecs (fun s => s = link) (Prog.throw stop : Prog Stop Link α) := by
  exact ensures_throw_from ⟨h.sound, hb, fun _ => h⟩

/-! ### Rules for the parts of the loop -/

section

variable {P : Link → Prop} {E : Stop → Link → Prop} {C : Link → Prop}

theorem ensures_drainReceipts (hr : Ensures P (takeReceipt codecs) (fun _ => P) E C) (n : Nat) :
    Ensures P (drainReceipts codecs n) (fun _ => P) E C := by
  induction n with
  | zero => exact ensures_pure fun _ h => h
  | succ n ih => exact ensures_bind hr fun _ => ih

theorem ensures_fill {disconnected : Bool} {arrivals : List Arrival}
    (ho : ∀ arr ∈ arrivals, Ensures P (takeOutgoing codecs config arr) (fun _ => P) E C)
    (hc : ∀ link, P link → P { link with writer := { link.writer with isOpen := false } }) :
    Ensures P (fill codecs config disconnected arrivals) (fun _ => P) E C := by
  induction arrivals with
  | nil =>
    refine ensures_modify ?_
    intro link h
    split
    · exact hc link h
    · exact h
  | cons arr rest ih =>
    refine ensures_get_bind ?_
    intro link h
    split
    · exact (ensures_bind (ho arr mem_cons_self) fun _ =>
        ih fun a ha => ho a (mem_cons_of_mem _ ha)).from_state h
    · exact ensures_pure_from h

/-- The message that a wake-up brings. -/
def Wake.arrivals : Wake → List Arrival
  | .outgoing (some arrival) => [arrival]
  | _ => []

theorem ensures_wait {wake : Wake} (hs : ∀ link, P link → E .drained link ∧ E .receiptsClosed link)
    (hc : ∀ link controlsOpen receiptsOpen isOpen, P link →
      P { link with writer := { link.writer with controlsOpen, receiptsOpen, isOpen } })
    (hct : ∀ c, Ensures P (writeControl c) (fun _ => P) E C)
    (hr : Ensures P (takeReceipt codecs) (fun _ => P) E C)
    (ho : ∀ arr ∈ wake.arrivals, Ensures P (takeOutgoing codecs config arr) (fun _ => P) E C) :
    Ensures P (wait codecs config wake) (fun _ => P) E C := by
  refine ensures_get_bind ?_
  intro link h
  dsimp only
  split
  · exact ensures_throw_from (hs link h).1
  split
  · exact ensures_throw_from (hs link h).2
  cases wake with
  | control msg =>
    dsimp only
    split
    · cases msg with
      | some c => exact (hct c).from_state h
      | none => exact ensures_modify_from (hc link false link.writer.receiptsOpen link.writer.isOpen h)
    · exact ensures_pure_from h
  | receipt =>
    dsimp only
    split
    · split
      · exact ensures_modify_from (hc link link.writer.controlsOpen false link.writer.isOpen h)
      · exact hr.from_state h
    · exact ensures_pure_from h
  | outgoing arr =>
    dsimp only
    split
    · cases arr with
      | some arr => exact (ho arr (mem_singleton.2 rfl)).from_state h
      | none => exact ensures_modify_from (hc link link.writer.controlsOpen link.writer.receiptsOpen false h)
    · exact ensures_pure_from h

/-- Where a round leads: it goes through a pass of the loop, unless the loop has ended. -/
theorem Session.step_round {ses : Session} {input : Round}
    (hp : Ensures P (loopPass codecs config input) (fun _ => P) E C) (h : ses.ended = none → P ses.link) :
    let after := ses.step codecs config (.round input)
    after = ses ∨ (after.ended = none ∧ P after.link) ∨
      (∃ stop, after.ended = some (.error stop) ∧ E stop after.link) ∨ (after.ended = some .crashed ∧ C after.link) := by
  intro after
  have haft : after = ses.step codecs config (.round input) := rfl
  unfold Session.step at haft
  dsimp only at haft
  split at haft
  · exact .inl haft
  rename_i hru
  rw [Bool.not_eq_true, Option.isSome_eq_false_iff, Option.isNone_iff_eq_none] at hru
  have hend := hp input.script ses.link (h hru)
  split at haft
  · rename_i hr
    rw [hr] at hend
    rw [haft]
    exact .inr (.inl ⟨rfl, hend⟩)
  · rename_i en sc link hvl hr
    rw [hr] at hend
    rw [haft]
    cases en with
    | value => exact (hvl rfl).elim
    | error stop => exact .inr (.inr (.inl ⟨stop, rfl, hend⟩))
    | crashed => exact .inr (.inr (.inr ⟨rfl, hend⟩))

end

/-! ### The channels -/

theorem keeps_writeControl (c : Control) : Keeps codecs (Inv codecs) (writeControl c) := by
  refine fun sc link h => (?_ : Keeps codecs (fun s => s = link) (writeControl c)) sc link rfl
  have hput := h.putControl c
  refine keeps_write_bind h.sound hput.sound (by decide) (by decide) ?_
  split
  · exact keeps_throw hput (by decide)
  · exact ensures_pure_from hput

theorem keeps_drainControls (cts : List Control) : Keeps codecs (Inv codecs) (drainControls cts) := by
  induction cts with
  | nil => exact ensures_pure fun _ h => h
  | cons c rest ih => exact ensures_bind (keeps_writeControl c) fun _ => ih

theorem keeps_takeReceipt : Keeps codecs (Inv codecs) (takeReceipt codecs) := by
  refine ensures_get_bind ?_
  intro link h
  split
  · exact ensures_pure_from h
  rename_i hn
  obtain ⟨cr, a, hr, hi⟩ := h.takeReceipt hn
  rw [hr]
  exact ensures_modify_from hi

theorem keeps_drainReceipts (n : Nat) : Keeps codecs (Inv codecs) (drainReceipts codecs n) :=
  ensures_drainReceipts keeps_takeReceipt n

theorem keeps_takeOutgoing {arr : Arrival} (ha : arr.message.IsEnvelope codecs) :
    Keeps codecs (Inv codecs) (takeOutgoing codecs config arr) := by
  unfold takeOutgoing
  split
  · refine ensures_throw ?_
    exact fun s h => ⟨h.sound, by decide, fun _ => h⟩
  rename_i hm
  refine ensures_modify ?_
  exact fun s h => h.enqueue (receiverMessage_isEnvelope ha hm) _

/-! ### Sending -/

theorem keeps_sendControl (h : Inv codecs link) {i : Nat}
    (hm : link.writer.pending[i]? = some q) (hc : control codecs q.message = true) :
    Keeps codecs (fun s => s = link) (sendControl i q) := by
  have hsent := h.sendWhole hm hc
  refine ensures_modify_bind (keeps_write_bind h.sound hsent.sound (by decide) (by decide) ?_)
  split
  · exact keeps_throw hsent (by decide)
  · exact ensures_pure_from hsent

theorem ensures_upgrade : Ensures (fun link => Sound codecs link.toHistory) upgrade
    (fun _ link => Sound codecs link.toHistory) (Fails codecs) (fun link => Sound codecs link.toHistory) := by
  -- Both writes are tried, and each leaves a sound history whether it reaches the peer or not.
  have hatte : ∀ (msg : Message) (del : Option Delivery),
      (∀ link : Link, Sound codecs link.toHistory → Sound codecs (link.put msg del).toHistory) →
      Ensures (fun link => Sound codecs link.toHistory) (write msg del .writeFailed).attempt
        (fun _ link => Sound codecs link.toHistory) (Fails codecs) fun link => Sound codecs link.toHistory := by
    intro msg del hp
    refine ensures_attempt fun sc link h => ?_
    refine (Ensures.weaken (ensures_write h (hp link h) (by decide) (by decide)
      (Q := fun _ link => Sound codecs link.toHistory) (hp link h)) (fun _ hs => hs) (fun _ _ hs => hs)
      fun _ _ hs => hs.1) sc link rfl
  refine ensures_bind (hatte _ _ ?_) fun _ => ensures_bind (hatte _ _ ?_) fun _ => ensures_pure fun _ hs => hs
  · intro link h
    obtain ⟨v, hvl, hk⟩ := codecs.fromStr_upgradeText
    have hread := @Peer.read_whole codecs _ h.error (.text upgradeText)
      ⟨v, hvl, by rw [Value.isTransport, hk]; rfl⟩
    refine h.put ?_ (congrArg Peer.handedOut hread) ?_
    · exact (congrArg Peer.error hread).trans h.error
    · rintro d ⟨⟩ i ⟨⟩
  · exact fun link h => h.putControl _

theorem finished_transfer_text {text : Text} (h : text ≠ []) : (q.transfer text none).finished = false := by
  have hpos := Text.len_pos h
  exact decide_eq_false (show ¬ 0 = Text.len text by omega)

theorem finished_transfer_binary {bs : Bytes} : (q.transfer [] (some bs)).finished = false := by
  show (decide (chunkBytes < bs.length) && decide (0 = bs.length)) = false
  by_cases hlrg : chunkBytes < bs.length
  · rw [decide_eq_false (show ¬ 0 = bs.length by omega), Bool.and_false]
  · rw [decide_eq_false hlrg, Bool.false_and]

theorem keeps_startTransfer : Keeps codecs (Inv codecs) startTransfer := by
  refine ensures_get_bind ?_
  intro link h
  split
  · rename_i hc
    split
    · exact ensures_pure_from h
    rename_i hch
    obtain ⟨i, hst, hp⟩ := Option.bind_eq_some_iff.1 hch
    obtain ⟨m, hm, heq⟩ := Option.map_eq_some_iff.1 hp
    cases heq
    have hstb := startable_of_chooseStart hst
    have hque := h.placed.queued _ (mem_of_getElem? hm)
    have henv := h.placed.envelopes _ (mem_of_getElem? hque)
    refine ensures_modify_bind ?_
    split
    · refine Ensures.from_state (ensures_bind ensures_upgrade fun _ => ensures_throw fun _ hs => ?_) h.sound
      exact ⟨hs, by decide, nofun⟩
    · rename_i hsi
      split
      · rename_i hms
        rw [hms] at henv hsi
        refine ensures_modify_bind (ensures_pure_from ?_)
        exact h.start hm hstb hc (Nat.le_of_not_lt hsi) rfl hms (by rw [hms]; rfl)
          (absurd rfl) (finished_transfer_text henv.ne_nil)
      · rename_i hms
        rw [hms] at hsi
        refine ensures_modify_bind (ensures_pure_from ?_)
        exact h.start hm hstb hc (Nat.le_of_not_lt hsi) rfl hms (by rw [hms]; rfl)
          (fun _ => rfl) finished_transfer_binary
      · rename_i hms
        have hsent := h.sendWhole hm (by rw [hms]; rfl)
        rw [hms] at hsent
        exact keeps_write_bind h.sound hsent.sound (by decide) (by decide) (ensures_pure_from hsent)
  · exact ensures_pure_from h

theorem keeps_sendChunk : Keeps codecs (Inv codecs) (sendChunk codecs) := by
  refine ensures_get_bind ?_
  intro link h
  have hspec := @turn_spec codecs link.writer
  split
  · rename_i ht
    rw [ht] at hspec
    refine ensures_modify_bind (ensures_pure_from ?_)
    exact ⟨h.sound, h.agrees.perm hspec, h.taken, h.acked.subset fun u hu => hspec.mem_iff.1 hu, h.placed.perm hspec⟩
  · exact keeps_throw h (by decide)
  · rename_i ots nm st msg stop bs ht
    rw [ht] at hspec
    obtain ⟨t, hp, hc⟩ := hspec
    refine ensures_modify_bind ?_
    split
    · rename_i bin hsm
      obtain ⟨hs, hinv⟩ := @Inv.sendSmall codecs link t nm ots st msg stop bs bin h hp hc
        hsm
      refine keeps_write_bind h.sound hs (by decide) (by decide) ?_
      exact keeps_write_bind hs hinv.sound (by decide) (by decide) (ensures_pure_from hinv)
    · rename_i hsm
      have hinv := @Inv.sendPart codecs link t nm ots st msg stop bs h hp hc hsm
      exact keeps_write_bind h.sound hinv.sound (by decide) (by decide) (ensures_pure_from hinv)

/-! ### The loop -/

def Round.offered (round : Round) : List Arrival := round.arrivals ++ round.wake.arrivals

theorem keeps_loopBody {rd : Round} (hc : config.chunks = true)
    (har : ∀ arr ∈ rd.arrivals, arr.message.IsEnvelope codecs) :
    Keeps codecs (Inv codecs) (loopBody codecs config rd) := by
  refine ensures_bind (keeps_drainControls _) fun _ => ensures_bind (keeps_drainReceipts _) fun _ =>
    ensures_bind (Q := fun _ => Inv codecs) (ensures_modify fun _ h => h.retain) fun _ =>
    ensures_bind (ensures_fill (fun a ha => keeps_takeOutgoing (har a ha)) fun _ h => { h with }) fun _ =>
    ensures_get_bind ?_
  intro link h
  split
  · rename_i hfn
    obtain ⟨i, hf, hp⟩ := Option.bind_eq_some_iff.1 hfn
    obtain ⟨m, hm, heq⟩ := Option.map_eq_some_iff.1 hp
    cases heq
    refine ensures_bind (keeps_sendControl h hm ?_) fun _ => ensures_pure fun _ hs => hs
    obtain ⟨hlt, hct, -⟩ := findIdx?_eq_some_iff_getElem.1 hf
    rw [getElem?_eq_getElem hlt] at hm
    cases hm
    exact hct
  · rw [if_pos hc]
    refine (ensures_bind keeps_startTransfer fun again => ?_).from_state h
    dsimp only
    split
    · exact ensures_pure fun _ hs => hs
    · exact keeps_sendChunk

theorem keeps_loopPass {rd : Round} (hc : config.chunks = true)
    (har : ∀ arr ∈ rd.offered, arr.message.IsEnvelope codecs) :
    Keeps codecs (Inv codecs) (loopPass codecs config rd) := by
  refine ensures_bind (keeps_loopBody hc fun a ha => har a (mem_append_left _ ha)) fun sent => ?_
  split
  · exact ensures_pure fun _ hs => hs
  exact ensures_wait (fun _ h => ⟨⟨h.sound, by decide, fun _ => h⟩, h.sound, by decide, fun _ => h⟩)
    (fun _ _ _ _ h => { h with }) keeps_writeControl keeps_takeReceipt
    fun a ha => keeps_takeOutgoing (har a (mem_append_right _ ha))

/-! ### Runs -/

def Event.offered : Event → List Arrival
  | .round input => input.offered
  | .peerReads => []

/-- A state of a run: while the loop runs, and after it has drained its queues, nothing is half done. -/
structure Reached (codecs : Codecs) (session : Session) : Prop where
  sound : Sound codecs session.link.toHistory
  receipts : session.ended ≠ some (.error .badReceipt)
  inv : session.ended = none ∨ session.ended = some (.error .drained) → Inv codecs session.link

theorem Reached.step (hc : config.chunks = true) {ses : Session} (h : Reached codecs ses) {e : Event}
    (ho : ∀ arr ∈ e.offered, arr.message.IsEnvelope codecs) : Reached codecs (ses.step codecs config e) := by
  cases e with
  | peerReads =>
    refine ⟨h.sound, h.receipts, fun he => ?_⟩
    have hinv := h.inv he
    exact { hinv with }
  | round input =>
    rcases Session.step_round (keeps_loopPass hc ho) fun he => h.inv (.inl he) with
      hsame | ⟨he, hinv⟩ | ⟨stop, he, hfails⟩ | ⟨he, hsnd⟩
    · rw [hsame]
      exact h
    · exact ⟨hinv.sound, by rw [he]; nofun, fun _ => hinv⟩
    · refine ⟨hfails.1, ?_, ?_⟩
      · rw [he]
        simpa using hfails.2.1
      · rw [he]
        simpa using hfails.2.2
    · refine ⟨hsnd, ?_, ?_⟩ <;> rw [he]
      · nofun
      rintro (hn | hd)
      · cases hn
      · cases hd

theorem reached_run (hc : config.chunks = true) {es : List Event}
    (ho : ∀ e ∈ es, ∀ arr ∈ e.offered, arr.message.IsEnvelope codecs) : Reached codecs (run codecs config es) := by
  have hinit : Reached codecs ⟨.init, none⟩ := ⟨inv_init.sound, nofun, fun _ => inv_init⟩
  exact foldlRecOn es _ hinit fun ses h e hev => h.step hc (ho e hev)

/-- The writer has finished with a queued message: it is neither pending nor in an unfinished transfer. -/
def Link.Finished (link : Link) (i : Nat) : Prop :=
  i < link.enqueued.length ∧ i ∉ link.writer.pending.map Queued.seq ∧ i ∉ unfinishedSeqs link.writer.active

/-- What the writer and its peer have achieved together. -/
structure Composes (codecs : Codecs) (session : Session) : Prop where
  /-- The receiver has returned no error. -/
  noError : (session.link.peer codecs).error = none
  /-- The writer has not ended with a bad receipt. -/
  goodReceipts : session.ended ≠ some (.error .badReceipt)
  /-- The peer hands out what was delivered, in that order, and all of it once it has read what was written. -/
  handedOut : (session.link.peer codecs).handedOut <+: (session.link.delivered.map Delivery.message).filter Message.isData
  handedOutAll : session.link.wire.length ≤ session.link.read →
    (session.link.peer codecs).handedOut = (session.link.delivered.map Delivery.message).filter Message.isData
  /-- A message is delivered at most once, as it was queued. -/
  once : session.link.seqs.Nodup
  faithful : ∀ d ∈ session.link.delivered, ∀ i, d.seq = some i →
    ∃ m, session.link.enqueued[i]? = some m ∧ m.message = d.message
  /-- While the loop runs, and when it has drained its queues, every message that it has finished is delivered. -/
  finished : session.ended = none ∨ session.ended = some (.error .drained) →
    ∀ i, session.link.Finished i → i ∈ session.link.seqs
  /-- When a message is delivered, those that have to come out before it were delivered before. -/
  order : ∀ i j before after, session.link.seqs = before ++ j :: after →
    Precedes codecs session.link.enqueued i j → i ∈ before

/-- For every schedule the frame transport composes with its receiver. -/
theorem transport_composes (codecs : Codecs) (config : Config) (hchunks : config.chunks = true) (events : List Event)
    (hoffered : ∀ event ∈ events, ∀ arrival ∈ event.offered, arrival.message.IsEnvelope codecs) :
    Composes codecs (run codecs config events) := by
  have hrch := reached_run hchunks hoffered
  have hsnd := hrch.sound
  have hextends := @Link.peer_extends codecs (run codecs config events).link
  refine ⟨hextends.error hsnd.error, hrch.receipts, ?_, ?_, hsnd.nodup, hsnd.source, ?_, hsnd.order⟩
  · rw [← hsnd.handedOut]
    exact hextends.handedOut
  · intro hr
    rw [← hsnd.handedOut, Link.peer, take_of_length_le hr]
    rfl
  · intro he i hf
    have hcnt := (hrch.inv he).placed.located i
    rw [if_pos hf.1, count_eq_zero_of_not_mem hf.2.1, count_eq_zero_of_not_mem hf.2.2]
      at hcnt
    exact count_pos_iff.1 (by omega)

/-! ### JSON codecs -/

def Value.ofScalar : Json.Scalar → Value
  | .null => .null
  | .natural n => .natural n
  | .string text => .string text

/-- The kinds of the objects that are read, with their fields behind the tag. -/
def fields : List (String × List String) :=
  [("transport_chunk", ["transfer_id", "offset", "total_bytes", "payload"]), ("transport_ack", ["transfer_id", "offset"]),
    ("close", ["reason"]), ("daemon_request", ["request_id"]), ("daemon_response", ["relay_request_id"]),
    ("client_response", ["request_id"]), ("client_event", ["subscription_id", "event_id"])]

def fieldLabel (name : String) : Text := [',', '"'] ++ name.toList ++ ['"', ':']

def jsonLabels (names : List String) : List Text := "\x7b\"kind\":".toList :: names.map fieldLabel

def jsonText (kind : String) (names : List String) (values : List Json.Scalar) : Text :=
  Json.write (jsonLabels names) ['\x7d'] (.string kind.toList :: values)

def jsonValue (kind : String) (names : List String) (values : List Json.Scalar) : Value :=
  .object (("kind".toList, .string kind.toList) :: (names.map String.toList).zip (values.map Value.ofScalar))

/-- The object of a text: its tag says which fields follow. -/
def jsonFromStr (text : Text) : Option Value :=
  match Json.Scalar.read (text.drop 8) with
  | some (.string kind, _) => do
    let names ← fields.lookup (.ofList kind)
    let values ← Json.read ['\x7d'] (jsonLabels names) text
    return jsonValue (.ofList kind) names values.tail
  | _ => none

def jsonFrameText : TransportFrame → Text
  | .transportChunk transferId offset totalBytes payload =>
    jsonText "transport_chunk" ["transfer_id", "offset", "total_bytes", "payload"]
      [.natural transferId, .natural offset, .natural totalBytes, .string payload]
  | .transportAck transferId offset =>
    jsonText "transport_ack" ["transfer_id", "offset"] [.natural transferId, .natural offset]

/-- The envelopes without their payloads, which no run below writes. -/
def jsonEnvelopeText : RelayEnvelope → Text
  | .daemonResponse relayRequestId _ _ => jsonText "daemon_response" ["relay_request_id"] [.string relayRequestId]
  | .clientResponse requestId _ _ => jsonText "client_response" ["request_id"] [.string requestId]
  | .clientEvent subscriptionId eventId _ =>
    jsonText "client_event" ["subscription_id", "event_id"] [.string subscriptionId, .natural eventId]
  | .other => []

/-- What is written for a kind of object is read back. -/
theorem jsonFromStr_jsonText {kind : String} {names : List String} {values : List Json.Scalar}
    (hkind : fields.lookup kind = some names) (hlen : names.length = values.length) :
    jsonFromStr (jsonText kind names values) = some (jsonValue kind names values) := by
  have hlast : Json.Delimits ['\x7d'] := rfl
  have hlabels : ∀ label ∈ names.map fieldLabel, Json.Delimits label := by
    intro label hl
    obtain ⟨name, -, rfl⟩ := mem_map.1 hl
    rfl
  have htag := Json.Scalar.read_write (.string kind.toList)
    (Json.delimits_write hlast hlabels ((length_map ..).trans hlen))
  have hread : Json.read ['\x7d'] (jsonLabels names) _ = some (.string kind.toList :: values) :=
    Json.read_write hlast (forall_mem_cons.2 ⟨rfl, hlabels⟩) (by simp [jsonLabels, hlen])
  have htext : (jsonText kind names values).drop 8 =
      (Json.Scalar.string kind.toList).write ++ Json.write (names.map fieldLabel) ['\x7d'] values := by
    rw [jsonText, jsonLabels, Json.write_cons]
    rfl
  rw [jsonFromStr, htext, htag]
  simp [hkind, jsonText, hread]

theorem Text.len_cons (c : Char) (text : Text) : Text.len (c :: text) = c.utf8Size + Text.len text :=
  Alignment.size_cons ..

theorem len_toDigits {n : Nat} (h : n < 2 ^ 32) : Text.len (Nat.toDigits 10 n) ≤ 10 := by
  have hlen : (Nat.toDigits 10 n).length ≤ 10 := (Nat.length_toDigits_le_iff (by omega) (by omega)).2 (by omega)
  have hone : ∀ c ∈ Nat.toDigits 10 n, c.utf8Size = 1 := by
    intro c hc
    have hdigit := Char.isDigit_iff_toNat.1 (Json.isDigit_of_mem_toDigits hc)
    exact Char.utf8Size_eq_one_iff.2 (by simp at hdigit; exact UInt32.le_iff_toNat_le.2 (by simp; omega))
  rw [Text.len, Alignment.size, map_congr_left hone, map_const', sum_replicate]
  simpa using hlen

theorem len_escape (text : Text) : Text.len (text.flatMap Json.escape) ≤ 2 * Text.len text := by
  induction text with
  | nil => exact Nat.le_refl 0
  | cons c text ih =>
    have hpos := c.utf8Size_pos
    have hslash : Char.utf8Size '\\' = 1 := rfl
    rw [flatMap_cons, Text.len_append, Text.len_cons, Json.escape]
    split <;> simp only [Text.len_cons, Text.len_nil] <;> omega

/-- The codecs of the objects in `fields`; no run below converts a binary message. -/
def jsonCodecs : Codecs where
  fromStr := jsonFromStr
  frameText := jsonFrameText
  envelope _ := none
  envelopeText := jsonEnvelopeText
  responseHeader _ := none
  responseHeaderBytes _ := []
  eventHeader _ := none
  base64Encode _ := []
  base64Decode _ := none
  fromStr_frameText frame _ := by
    cases frame with
    | transportChunk => exact jsonFromStr_jsonText rfl rfl
    | transportAck => exact jsonFromStr_jsonText rfl rfl
  frameText_len transferId offset totalBytes payload hrange := by
    have h₁ := len_toDigits hrange.1
    have h₂ := len_toDigits hrange.2.1
    have h₃ := len_toDigits hrange.2.2
    have hpayload := len_escape payload
    have hquote : Char.utf8Size '"' = 1 := rfl
    have htag : Text.len ("transport_chunk".toList.flatMap Json.escape) = 15 := rfl
    have hlabels : (jsonLabels ["transfer_id", "offset", "total_bytes", "payload"]).map Text.len = [8, 15, 10, 15, 11] :=
      rfl
    have hend : Text.len ['\x7d'] = 1 := rfl
    simp only [jsonLabels, map_cons, map_nil, cons.injEq] at hlabels
    simp only [jsonFrameText, jsonText, jsonLabels, Json.write, map_cons, map_nil, zip_cons_cons, zip_nil_left,
      flatMap_cons, flatMap_nil, Json.Scalar.write, Text.len_append, Text.len_cons, Text.len_nil, hlabels, htag, hend,
      hquote]
    omega
  fromStr_envelopeText envelope kind hkind := by
    cases envelope with
    | other => cases hkind
    | _ => exact ⟨_, jsonFromStr_jsonText rfl rfl, hkind⟩
  fromStr_upgradeText := ⟨_, rfl, rfl⟩
  fromStr_nil := rfl

def requestText (id : String) : Text := jsonText "daemon_request" ["request_id"] [.string id.toList]

/-- A request, a binary response and a second request, all read by the peer. -/
def sampleEvents : List Event :=
  [.round ⟨[], 0, [⟨.text (requestText "1"), fun _ => none⟩, ⟨.binary [1, 2, 3], fun _ => none⟩,
      ⟨.text (requestText "2"), fun _ => none⟩], false, .receipt false, []⟩,
    .peerReads, .round ⟨[], 1, [], false, .receipt false, []⟩, .peerReads, .peerReads,
    .round ⟨[.ping []], 1, [], false, .receipt false, []⟩, .peerReads, .peerReads]

theorem transport_composes_sample :
    (∀ event ∈ sampleEvents, ∀ arrival ∈ event.offered, arrival.message.IsEnvelope jsonCodecs) ∧
      Composes jsonCodecs (run jsonCodecs ⟨true, true, 8⟩ sampleEvents) ∧
      ((run jsonCodecs ⟨true, true, 8⟩ sampleEvents).link.peer jsonCodecs).handedOut =
        [.text (requestText "1"), .binary [1, 2, 3], .text (requestText "2")] := by
  have hofd : ∀ event ∈ sampleEvents, ∀ arrival ∈ event.offered, arrival.message.IsEnvelope jsonCodecs := by
    simp only [sampleEvents, Event.offered, Round.offered, Wake.arrivals, append_nil, forall_mem_cons,
      not_mem_nil, IsEmpty.forall_iff, implies_true, and_true]
    exact ⟨⟨_, rfl, rfl⟩, rfl, ⟨_, rfl, rfl⟩⟩
  exact ⟨hofd, transport_composes jsonCodecs ⟨true, true, 8⟩ rfl sampleEvents hofd, by decide +kernel⟩

end Chariox.RelayTransport
