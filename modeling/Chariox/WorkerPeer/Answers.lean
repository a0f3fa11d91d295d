import Chariox.WorkerPeer.Names

/-!
# Every request of the worker is answered once

An answer under publication can be queued twice: the writer withdraws the first one, before any of it is written, when
the request was cancelled or its time is up, and the actor queues a failure in its place.  Of the answers that are not
withdrawn every request gets at most one, and exactly one when it is no longer waiting, active or publishing.
-/

namespace Chariox.WorkerPeer.Peer

open OrdMap

variable {c : PeerConfig} {s : Peer} {hand : Option Nat} {n : Nat} {id : String}

theorem places_eq_zero (h : s.inProgress id = false) : s.places id = 0 := by
  unfold inProgress at h
  rw [Bool.or_eq_false_iff, Bool.or_eq_false_iff] at h
  have hnone : s.brokerWaiting.countP (fun e => decide (e.id = id)) = 0 := by
    rw [List.countP_eq_zero]
    intro e he
    have hne := List.any_eq_false.1 h.2 e he
    simpa using hne
  unfold places
  rw [h.1.1, h.1.2, hnone]
  rfl

theorem guarded_le_flying (fs : List Outgoing) (n : Nat) :
    fs.countP (Outgoing.isGuardedFor n) ≤ fs.countP (fun f => decide (f.answers = some n)) := by
  refine List.countP_mono_left ?_
  intro f _ hg
  unfold Outgoing.isGuardedFor at hg
  split at hg
  · simpa [Outgoing.answers] using hg
  · cases hg

namespace Kept

theorem flush (h : Kept c none s) : Ends (Kept c none) (Failed c) s.flush := by
  unfold Peer.flush
  split
  · exact h
  rename_i hqu
  split
  · refine { h with sound := h.sound_same rfl rfl fun m => ?_ }
    simp only [tally, inFlight, hqu, Tally.mk.injEq, true_and, and_true, List.countP_append, List.countP_cons,
      List.countP_nil]
    omega
  · exact h

theorem shutdown (h : Kept c hand s) (res : Option PeerError) : Kept c none (s.shutdown res) := by
  refine { h with sound := ?_, places := ?_, calls := ?_ }
  · intro m
    have hgrd : (s.outgoing ++ s.writer.frames).countP (Outgoing.isGuardedFor m) ≤ (s.tally m).guarded := by
      simp only [tally, inFlight, List.countP_append]
      omega
    have hflying : (s.outgoing ++ s.writer.frames).countP (fun f => decide (f.answers = some m)) ≤
        (s.tally m).flying := by
      simp only [tally, inFlight, List.countP_append]
      omega
    exact (h.sound m).close.lose hgrd hflying (guarded_le_flying _ m)
  · intro id
    have hid := h.places id
    unfold Peer.places at hid
    change 0 + (s.active.contains id).toNat + (s.publishing.contains id).toNat ≤ 1
    omega
  · have hcls := h.calls
    change (OrdMap.empty : OrdMap String HostCall).len + s.cancelled.len ≤ s.limits.pendingCalls
    have hemp : (OrdMap.empty : OrdMap String HostCall).len = 0 := rfl
    omega

/-! ### The writer -/

theorem landed_tally {item : Outgoing} {w : WriterState} (hi : s.writer.frames = [item]) (hw : w.frames = [])
    (m : Nat) : Peer.tally { s with writer := w } m =
      { s.tally m with
        guarded := (s.tally m).guarded - (if item.isGuardedFor m then 1 else 0)
        flying := (s.tally m).flying - (if item.answers = some m then 1 else 0) } := by
  simp only [tally, inFlight, hi, hw, Tally.mk.injEq, true_and, and_true, List.countP_append, List.countP_singleton,
    List.countP_nil, decide_eq_true_eq]
  omega

variable {outcome : Outcome} {serial deadline : Nat}

theorem one_le_guarded
    (hi : s.writer.frames = [.response serial id outcome (some deadline)]) : 1 ≤ (s.tally serial).guarded := by
  simp only [tally, inFlight, hi, List.countP_append, List.countP_singleton, Outgoing.isGuardedFor, decide_true,
    if_true]
  omega

theorem unfinished (h : Kept c none s) (hg : 1 ≤ (s.tally n).guarded) : s.finished.contains n = false := by
  have hsnd := h.sound n
  have htkn := hsnd.taken_le
  have hunf := hsnd.unfinished
  rw [← Bool.not_eq_true]
  intro hc
  have hone : (s.tally n).finished = 1 := by
    change (s.finished.contains n).toNat = 1
    rw [hc, Bool.toNat_true]
  omega

section

variable (h : Kept c none s)

include h

theorem acked_over (hn : s.finished.contains serial = false) (pub : Bool) (hwr : s.writer.acks = []) :
    ∀ ack ∈ s.acks ++ [⟨serial, id, pub⟩], (s.finished.insert serial pub).get ack.serial = some ack.published := by
  intro ack ha
  rw [get_insert]
  rcases List.mem_append.1 ha with ho | hnew
  · have hget := h.acked ack (by rw [hwr, List.append_nil]; exact ho)
    have hne : ack.serial ≠ serial := by
      intro heq
      rw [heq, contains_eq_false.1 hn] at hget
      cases hget
    rw [if_neg hne]
    exact hget
  · rw [List.mem_singleton.1 hnew, if_pos rfl]

/-- The writer is done with an answer under publication. -/
theorem gone (pub : Bool) (hi : s.writer.frames = [.response serial id outcome (some deadline)])
    (ha : s.writer.acks = []) : Kept c none { s with
      finished := s.finished.insert serial pub
      withdrawn := s.withdrawn ++ (if pub then [] else [serial])
      written := s.written ++ (if pub then [serial] else [])
      writer := .acking ⟨serial, id, pub⟩ } := by
  have hgrd := one_le_guarded hi
  have hnone := h.unfinished hgrd
  have htal : ∀ m, Peer.tally { s with
      finished := s.finished.insert serial pub
      withdrawn := s.withdrawn ++ (if pub then [] else [serial])
      written := s.written ++ (if pub then [serial] else [])
      writer := .acking ⟨serial, id, pub⟩ } m =
        { s.tally m with
          guarded := (s.tally m).guarded - (if serial = m then 1 else 0)
          flying := (s.tally m).flying - (if serial = m then 1 else 0)
          withdrawn := (s.tally m).withdrawn + (if pub then 0 else if serial = m then 1 else 0)
          written := (s.tally m).written + (if pub then if serial = m then 1 else 0 else 0)
          finished := (s.tally m).finished + (if serial = m then 1 else 0) } := by
    intro m
    have hland := landed_tally (w := .acking ⟨serial, id, pub⟩) hi rfl m
    simp only [Outgoing.isGuardedFor, Outgoing.answers, Option.some.injEq, decide_eq_true_eq, Tally.ext_iff] at hland
    obtain ⟨-, -, -, -, hg, hf, -⟩ := hland
    refine Tally.ext rfl rfl rfl rfl hg hf rfl ?_ ?_ ?_
    · cases pub <;> simp [tally, List.count_append, List.count_singleton]
    · cases pub <;> simp [tally, List.count_append, List.count_singleton]
    · change ((s.finished.insert serial pub).contains m).toNat = (s.finished.contains m).toNat + _
      rw [contains_insert]
      by_cases hm : serial = m
      · subst hm
        rw [if_pos rfl, if_pos rfl, hnone]
        rfl
      · rw [if_neg (Ne.symm hm), if_neg hm]
        rfl
  refine { h with sound := h.sound_of serial rfl rfl ?_ ?_ (fun _ _ => rfl), withdrawn := ?_, acked := ?_ }
  · rw [htal, if_pos rfl]
    cases pub with
    | true => exact (h.sound serial).writeGuarded hgrd
    | false => exact (h.sound serial).withdraw hgrd
  · intro m hm
    rw [htal, if_neg hm]
    cases pub <;> rfl
  · intro m
    have hold := h.withdrawn m
    rw [get_insert, List.count_append, hold]
    by_cases hm : m = serial
    · subst hm
      rw [contains_eq_false.1 hnone]
      cases pub <;> simp
    · rw [if_neg hm]
      cases pub <;> simp [Ne.symm hm]
  · exact h.acked_over hnone pub ha

/-- The writer moves on with the same frame, or drops a frame that answers nothing. -/
theorem setWriter {w : WriterState} (ha : w.acks = s.writer.acks) (hf : w.frames = s.writer.frames ∨
      (∃ item, s.writer.frames = [item] ∧ item.answers = none) ∧ w.frames = []) :
    Kept c none { s with writer := w } := by
  refine { h with sound := h.sound_same rfl rfl fun m => ?_, acked := ?_ }
  · rcases hf with heq | ⟨⟨item, hi, hn⟩, hw⟩
    · simp only [tally, inFlight, heq]
    have hgrd : item.isGuardedFor m = false := by
      cases item with
      | response => cases hn
      | _ => rfl
    rw [landed_tally hi hw, hgrd, hn]
    rfl
  · rw [ha]
    exact h.acked

theorem writerTake : Kept c none s.writerTake := by
  unfold Peer.writerTake
  split
  · rename_i hwr ho
    refine { h with sound := h.sound_same rfl rfl fun m => ?_, acked := ?_ }
    · simp only [tally, inFlight, hwr, ho, WriterState.frames, Tally.mk.injEq, true_and, and_true,
        List.countP_append, List.countP_cons, List.countP_nil]
      omega
    · have hacked := h.acked
      rw [hwr] at hacked
      exact hacked
  · exact h

theorem writerCheck (now : Nat) : Kept c none (s.writerCheck now) := by
  unfold Peer.writerCheck
  split
  · rename_i callId hwr
    split
    · have hfr : Kept c none { s with frames := s.frames.insert callId .sent } := { h with }
      exact hfr.setWriter (by rw [hwr]; rfl) (.inl (by rw [hwr]; rfl))
    · exact h.setWriter (by rw [hwr]; rfl) (.inr ⟨⟨.call callId, by rw [hwr]; rfl, rfl⟩, rfl⟩)
  · rename_i hwr
    split
    · have hover := h.gone false (by rw [hwr]; rfl) (by rw [hwr]; rfl)
      simpa using hover
    · exact h.setWriter (by rw [hwr]; rfl) (.inl (by rw [hwr]; rfl))
  · rename_i hwr
    exact h.setWriter (by rw [hwr]; rfl) (.inl (by rw [hwr]; rfl))
  · exact h

theorem writerDone : Kept c none s.writerDone := by
  unfold Peer.writerDone
  split
  · rename_i hwr
    have hover := h.gone true (by rw [hwr]; rfl) (by rw [hwr]; rfl)
    simpa using hover
  · rename_i item hg hwr
    have hitem : s.writer.frames = [item] := by rw [hwr]; rfl
    refine { h with sound := ?_, acked := ?_ }
    · intro m
      -- an answer without publication
      have hpl : item.isGuardedFor m = false := by
        unfold Outgoing.isGuardedFor
        split
        · rename_i sr rid out dl
          exact absurd rfl (hg sr rid out dl)
        · rfl
      have hland := landed_tally (w := .idle) hitem rfl m
      rw [hpl] at hland
      have hcnt : (s.written ++ item.answers.toList).count m =
          s.written.count m + if item.answers = some m then 1 else 0 := by
        rw [List.count_append]
        cases item.answers with
        | none => rfl
        | some => simp [List.count_singleton]
      have htal : Peer.tally { s with written := s.written ++ item.answers.toList, writer := .idle } m =
          { s.tally m with
            flying := (s.tally m).flying - if item.answers = some m then 1 else 0
            written := (s.tally m).written + if item.answers = some m then 1 else 0 } := by
        rw [Tally.ext_iff] at hland ⊢
        obtain ⟨h₁, h₂, h₃, h₄, h₅, h₆, h₇, h₈, -, h₁₀⟩ := hland
        exact ⟨h₁, h₂, h₃, h₄, h₅, h₆, h₇, h₈, hcnt, h₁₀⟩
      rw [htal]
      by_cases hm : item.answers = some m
      · rw [if_pos hm]
        refine (h.sound m).write ?_
        have hrest := guarded_le_flying (s.queued ++ s.outgoing) m
        simp only [tally, inFlight, hitem, List.countP_append, List.countP_singleton, hpl, hm, decide_true,
          if_true, Bool.false_eq_true, if_false] at hrest ⊢
        omega
      · rw [if_neg hm]
        exact h.sound m
    · have hacked := h.acked
      rw [hwr] at hacked
      exact hacked
  · exact h

theorem writerFail : Kept c none s.writerFail := by
  unfold Peer.writerFail
  split
  · rename_i item hwr
    have hitem : s.writer.frames = [item] := by rw [hwr]; rfl
    refine { h with sound := ?_, acked := ?_ }
    · intro m
      have hrest := guarded_le_flying (s.queued ++ (s.outgoing ++ WriterState.stopped.frames)) m
      have hland := landed_tally (w := .stopped) hitem rfl m
      rw [hland]
      refine (h.sound m).lose (Nat.sub_le _ _) (Nat.sub_le _ _) ?_
      have hgrd := congrArg Tally.guarded hland
      have hflying := congrArg Tally.flying hland
      dsimp only at hgrd hflying
      rw [← hgrd, ← hflying]
      exact hrest
    · have hacked := h.acked
      rw [hwr] at hacked
      exact hacked
  · exact h

theorem writerAck : Kept c none s.writerAck := by
  unfold Peer.writerAck
  split
  · rename_i hwr
    split
    · refine { h with sound := h.sound_same rfl rfl fun m => ?_, acked := ?_ }
      · simp only [tally, inFlight, hwr, WriterState.frames]
      · have hacked := h.acked
        rw [hwr] at hacked
        intro ack' ha'
        refine hacked ack' ?_
        rw [show WriterState.idle.acks = [] from rfl, List.append_nil] at ha'
        exact ha'
    · exact h
  · exact h

end

end Kept

/-! ### Moves with names -/

/-- The invariant of the answers, together with the names they carry. -/
structure Tracked (c : PeerConfig) (hand : Option Nat) (s : Peer) : Prop extends Kept c hand s, Named s

def Lost (c : PeerConfig) (s : Peer) : Prop := ∃ hand, Tracked c hand s

/-- The operation keeps the invariant; when it fails, an answer in hand may be lost. -/
abbrev Goes (c : PeerConfig) : PeerResult → Prop := Ends (Tracked c none) (Lost c)

namespace Tracked

variable {en : BrokerWaiting} {pending : Publishing} {rn : Active}

theorem of_ends {P : Peer → Prop} {r : PeerResult} (hk : Ends P (Failed c) r)
    (hn : Ends Named Named r) : Ends (fun x => P x ∧ Named x) (Lost c) r := by
  obtain ⟨s, er⟩ := r
  cases er with
  | none => exact ⟨hk, hn⟩
  | some er =>
    obtain ⟨ha, hk⟩ := hk
    exact ⟨ha, hk, hn⟩

theorem signalCancel (h : Tracked c hand s) (n : Nat) : Tracked c hand (s.signalCancel n) := { h with }

theorem response (h : Tracked c (some n) s) (hid : s.requests[n]? = some id) (out : Outcome) :
    Goes c (s.response n id out) :=
  (of_ends (h.toKept.response id out) (h.toNamed.sendAnswer hid out none)).imp
    (fun _ hs => ⟨hs.1, hs.2⟩) fun _ hs => hs

theorem failure (h : Tracked c (some n) s) (hid : s.requests[n]? = some id) (code msg : String) :
    Goes c (s.failure n id code msg) := h.response hid _

section

variable (h : Tracked c none s)

include h

theorem sendCall {f : Outgoing} (hfr : f.answers = none) :
    Ends (fun x => Tracked c none x ∧ x.limits = s.limits ∧ x.pending = s.pending ∧ x.cancelled = s.cancelled) (Lost c)
      (s.send f) :=
  (of_ends (h.toKept.sendCall hfr) (h.toNamed.sendCall hfr)).imp
    (fun _ hs => ⟨⟨hs.1.1, hs.2⟩, hs.1.2⟩) fun _ hs => hs

theorem unqueue (he : en ∈ s.brokerWaiting) : Tracked c (some en.serial) (s.unqueue en) :=
  ⟨h.toKept.unqueue he, h.toNamed.unqueue en⟩

theorem activate (he : en ∈ s.brokerWaiting) (hr : s.active.len + s.publishing.len < s.limits.brokerHandlers) :
    Tracked c none { s.unqueue en with
      active := s.active.insert en.id ⟨en.serial, en.deadline, false⟩
      handlers := s.handlers ++ [en.id] } := by
  have hnam := (h.toNamed.unqueue en).setActive ⟨en.serial, en.deadline, false⟩ (h.waiting en he)
  exact ⟨h.toKept.activate he hr, { hnam with }⟩

theorem reply (hg : s.active.get id = some rn) (hr : rn.replied = false) :
    Tracked c (some rn.serial) { s with active := s.active.insert id { rn with replied := true } } :=
  ⟨h.toKept.reply hg hr, h.toNamed.setActive { rn with replied := true } (h.active id rn hg)⟩

theorem leave (hg : s.active.get id = some rn) (hr : rn.replied = true) :
    Tracked c none { s with active := s.active.remove id } :=
  ⟨h.toKept.leave hg hr, h.toNamed.removeActive id⟩

theorem finish (hg : s.active.get id = some rn) (hr : rn.replied = false) :
    Tracked c (some rn.serial) { s with active := s.active.remove id } :=
  ⟨h.toKept.finish hg hr, h.toNamed.removeActive id⟩

theorem publish (hg : s.active.get id = some rn) (hr : rn.replied = false) (out : Outcome) : Tracked c none { s with
      active := s.active.remove id
      queued := s.queued ++ [.response rn.serial id out (some rn.deadline)]
      responses := s.responses ++ [rn.serial]
      publishing := s.publishing.insert id ⟨rn.serial, rn.deadline, none⟩ } := by
  have hid := h.active id rn hg
  have hque : Named { s with
      active := s.active.remove id
      queued := s.queued ++ [.response rn.serial id out (some rn.deadline)]
      responses := s.responses ++ [rn.serial] } := by
    apply (h.toNamed.removeActive id).enqueue
    intro n id' out' publ heq
    cases heq
    exact hid
  exact ⟨h.toKept.publish hg hr out none, hque.setPublishing ⟨rn.serial, rn.deadline, none⟩ hid⟩

theorem take (id : String) : Tracked c (some s.requests.length) { s with requests := s.requests ++ [id] } :=
  ⟨h.toKept.take id, h.toNamed.take id⟩

theorem wait (hs : en.serial = s.requests.length) (hp : s.places en.id = 0) : Tracked c none { s with
      requests := s.requests ++ [en.id]
      brokerWaiting := s.brokerWaiting ++ [en] } := by
  have htkn := h.toNamed.take en.id
  refine ⟨h.toKept.wait hs hp, { htkn with waiting := ?_ }⟩
  refine List.forall_mem_append.2 ⟨htkn.waiting, List.forall_mem_singleton.2 ?_⟩
  simp [hs]

end

/-! ### Operations on requests -/

theorem brokerRequest (h : Tracked c none s) (id : String) (deadlineMs now : Nat) (wall : Option Nat)
    (seen : List String) : Goes c (s.brokerRequest id deadlineMs now wall seen) := by
  have hfgt : Tracked c none (s.forgetPublished seen) :=
    ⟨h.toKept.forgetPublished seen, h.toNamed.forgetPublished seen⟩
  unfold Peer.brokerRequest
  dsimp only
  generalize s.forgetPublished seen = s at hfgt
  have hid : (s.requests ++ [id])[s.requests.length]? = some id := by simp
  split
  · exact ⟨none, hfgt⟩
  rename_i hp
  split
  · exact ⟨none, hfgt⟩
  split
  · exact (hfgt.take id).failure hid _ _
  split
  · exact (hfgt.take id).failure hid _ _
  · have hplcs : s.places id = 0 := places_eq_zero (by simpa using hp)
    exact @Tracked.wait c s ⟨s.requests.length, id, _⟩ hfgt rfl hplcs

theorem dispatchBroker (h : Tracked c none s) {e : BrokerWaiting} (he : e ∈ s.brokerWaiting)
    (hr : s.active.len + s.publishing.len < s.limits.brokerHandlers) (now : Nat) : Goes c (s.dispatchBroker e now) := by
  unfold Peer.dispatchBroker
  split
  · exact ((h.unqueue he).signalCancel e.serial).failure (h.waiting e he) _ _
  · exact h.activate he hr

theorem dispatchBrokers (ck : String → Nat) (rounds : Nat) (h : Tracked c none s) :
    Goes c (dispatchBrokers ck rounds s) := by
  induction rounds generalizing s with
  | zero => exact h
  | succ rounds ih =>
    unfold Peer.dispatchBrokers
    split
    · exact h
    rename_i e rest hqu
    split
    · rename_i hr
      have he : e ∈ s.brokerWaiting := hqu ▸ List.mem_cons_self
      exact (h.dispatchBroker he hr _).andThen (fun s' hs' => ih hs')
    · exact h

section

variable (h : Tracked c none s)

include h

theorem cancelWaitingBroker (id code : String) : Goes c (s.cancelWaitingBroker id code).1 := by
  unfold Peer.cancelWaitingBroker
  split
  · exact h
  rename_i e hf
  have he := List.mem_of_find?_eq_some hf
  have hid := h.waiting e he
  rw [show e.id = id by simpa using List.find?_some hf] at hid
  exact ((h.unqueue he).signalCancel e.serial).failure hid _ _

theorem cancelPublishing (id code msg : String) {pend : Publishing}
    (hg : s.publishing.get id = some pend) : Tracked c none (s.cancelPublishing id code msg pend) := by
  unfold Peer.cancelPublishing
  split
  · exact h
  have hnoted : Tracked c none { s with
      publishing := s.publishing.insert id { pend with failure := some ⟨code, msg, some false⟩ } } :=
    ⟨h.toKept.noteFailure hg _, h.toNamed.setPublishing { pend with failure := some ⟨code, msg, some false⟩ }
      (h.publishing id pend hg)⟩
  exact hnoted.signalCancel pend.serial

theorem cancelActive (id code msg : String) {run : Active} (hg : s.active.get id = some run) :
    Goes c (s.cancelActive id code msg run) := by
  have hsgn := h.signalCancel run.serial
  unfold Peer.cancelActive
  split
  · exact hsgn
  · rename_i hr
    exact (hsgn.reply hg (by simpa using hr)).failure (h.active id run hg) code msg

theorem cancelHandler (id code msg : String) : Goes c (s.cancelHandler id code msg) := by
  unfold Peer.cancelHandler
  dsimp only
  split
  · exact h.cancelWaitingBroker id code
  split
  · rename_i hg
    exact h.cancelPublishing id code msg hg
  split
  · exact h
  · rename_i hg
    exact h.cancelActive id code msg hg

theorem complete (id : String) (out : Outcome) (gd : Bool) (now : Nat) : Goes c (s.complete id out gd now) := by
  unfold Peer.complete
  split
  · exact ⟨none, h⟩
  rename_i run hg
  dsimp only
  split
  · rename_i hr
    exact h.leave hg hr
  rename_i hr
  have hrepl' : run.replied = false := by simpa using hr
  have hfin := h.finish hg hrepl'
  have hid := h.active id run hg
  split
  · exact hfin.failure hid _ _
  split
  · -- a guarded answer that cannot be queued leaves the request without its answer
    unfold send
    split
    · exact ⟨_, hfin⟩
    split
    · exact ⟨_, { hfin with }⟩
    · exact h.publish hg hrepl' out
  · exact hfin.response hid out

theorem published {ack : Ack} (ha : s.finished.get ack.serial = some ack.published) : Goes c (s.published ack) := by
  unfold Peer.published
  split
  · exact h
  rename_i pend hg
  split
  · exact h
  rename_i hs
  rw [not_not] at hs
  split
  · rename_i hp
    refine ⟨h.toKept.settlePublished hg ?_, h.toNamed.removePublishing ack.id⟩
    rw [hs, ha, hp]
  rename_i hp
  have hwdn : s.finished.get pend.serial = some false := by
    rw [hs, ha]
    simpa using hp
  have hstl : Tracked c (some pend.serial) { s with publishing := s.publishing.remove ack.id } :=
    ⟨h.toKept.settleWithdrawn hg hwdn, h.toNamed.removePublishing ack.id⟩
  have hid := h.publishing ack.id pend hg
  rw [hs] at hstl hid
  exact hstl.response hid _

end

/-! ### Calls -/

theorem setCalls (h : Tracked c hand s) {pend : OrdMap String HostCall} {cancelled : OrdMap String Nat}
    (hc : pend.len + cancelled.len ≤ s.limits.pendingCalls) :
    Tracked c hand { s with pending := pend, cancelled := cancelled } :=
  { h with calls := hc }

theorem startCall (h : Tracked c none s) (call : HostCall) (now : Nat)
    (hr : s.pending.len + s.cancelled.len < s.limits.pendingCalls) : Goes c (s.startCall call now) := by
  unfold Peer.startCall
  split
  · exact h
  split
  · exact h
  split
  · exact ⟨none, h⟩
  have hfr : Tracked c none { s with frames := s.frames.insert call.id .queued } := { h with }
  refine (hfr.sendCall rfl).andThen ?_
  rintro x ⟨hx, hlim, hpend, hcanc⟩
  have hlen := x.pending.len_insert_le call.id call
  refine hx.setCalls ?_
  rw [hpend] at hlen ⊢
  rw [hlim, hcanc]
  change (s.pending.insert call.id call).len + s.cancelled.len ≤ s.limits.pendingCalls
  change (s.pending.insert call.id call).len ≤ s.pending.len + 1 at hlen
  omega

theorem startCalls (ck : String → Nat) (rounds : Nat) (h : Tracked c none s) : Goes c (startCalls ck rounds s) := by
  induction rounds generalizing s with
  | zero => exact h
  | succ rounds ih =>
    unfold Peer.startCalls
    split
    · exact h
    rename_i call rest hqu
    split
    · rename_i hr
      have hpopped : Tracked c none { s with waiting := rest } := { h with }
      exact (hpopped.startCall call _ hr).andThen (fun s' hs' => ih hs')
    · exact h

section

variable (h : Tracked c none s)

include h

theorem expireCall (id : String) (now : Nat) : Goes c (s.expireCall id now) := by
  unfold Peer.expireCall
  split
  · exact h
  rename_i hg
  have hcls := h.calls
  have hrem := len_remove_of_some hg
  dsimp only
  split
  · have hinsd := s.cancelled.len_insert_le id (now + unresponsiveGrace)
    have hmoved : Tracked c none { s with
        pending := s.pending.remove id
        cancelled := s.cancelled.insert id (now + unresponsiveGrace) } := h.setCalls (by omega)
    have hretd : Tracked c none { s with
        pending := s.pending.remove id
        cancelled := s.cancelled.insert id (now + unresponsiveGrace)
        frames := s.frames.insert id .retired } := { hmoved with }
    exact (hretd.sendCall rfl).imp (fun _ hs => hs.1) fun _ hf => hf
  · have hdrop : Tracked c none { s with pending := s.pending.remove id } := h.setCalls (by omega)
    exact { hdrop with }

/-! ### Inputs of the actor -/

theorem receive (msg : WorkerMessage) (now : Nat) (wall : Option Nat) (seen : List String) :
    Goes c (s.receive msg now wall seen) := by
  have hcls := h.calls
  cases msg with
  | malformed => exact ⟨none, h⟩
  | request id deadlineMs => exact h.brokerRequest id deadlineMs now wall seen
  | cancel id => exact h.cancelHandler id _ _
  | response id =>
    unfold Peer.receive
    dsimp only
    split
    · have hlen := s.pending.len_remove_le id
      have hrem : Tracked c none { s with pending := s.pending.remove id } := h.setCalls (by omega)
      exact { hrem with }
    · have hlen := s.cancelled.len_remove_le id
      exact h.setCalls (by omega)
  | event =>
    unfold Peer.receive
    dsimp only
    split
    · exact ⟨none, h⟩
    split
    · exact h
    · exact ⟨none, h⟩

theorem tick (now : Nat) : Goes c (s.tick now) := by
  refine (Ends.forEach (fun id _ s' hs' => hs'.cancelWaitingBroker id _) h).andThen ?_
  intro s' hs'
  exact { hs' with }

theorem expireHandlers (now : Nat) : Goes c (s.expireHandlers now) := by
  refine (Ends.forEach (fun id _ s' hs' => hs'.cancelHandler id _ _) h).andThen ?_
  intro s' hs'
  refine (Ends.forEach (fun id _ s'' hs'' => hs''.cancelHandler id _ _) hs').andThen ?_
  intro s'' hs''
  split
  · exact ⟨none, hs''⟩
  · exact hs''

theorem performTask (task : ActorTask) (now : Nat) (ck : String → Nat) : Goes c (s.performTask task now ck) := by
  cases task with
  | expireCall id time => exact h.expireCall id time
  | expireHandlers time => exact h.expireHandlers time
  | dispatch =>
    have hfilt : Tracked c none { s with
        waiting := s.waiting.filter fun call => !call.closed && decide (now < call.deadline) } := { h with }
    exact (hfilt.startCalls ck _).andThen fun s' hs' => hs'.dispatchBrokers ck _

theorem flush : Goes c s.flush :=
  (of_ends h.toKept.flush h.toNamed.flush).imp (fun _ hs => ⟨hs.1, hs.2⟩) fun _ hs => hs

theorem takeAck : Goes c s.takeAck := by
  unfold Peer.takeAck
  split
  · exact h
  rename_i ack rest hqu
  have hpopped : Tracked c none { s with acks := rest } := by
    refine { h with acked := ?_ }
    intro ack' ha'
    refine h.acked ack' ?_
    rw [hqu]
    exact List.mem_cons_of_mem ack ha'
  refine hpopped.published ?_
  refine h.acked ack ?_
  rw [hqu]
  exact List.mem_cons_self

theorem takeCommand : Goes c s.takeCommand := by
  unfold Peer.takeCommand
  split <;> exact { h with }

theorem finishHandler (id : String) (out : Outcome) (gd : Bool) (now : Nat) :
    Goes c (s.finishHandler id out gd now) := by
  unfold Peer.finishHandler
  split
  · have hjnd : Tracked c none { s with handlers := s.handlers.erase id } := { h with }
    exact hjnd.complete id out gd now
  · exact h

end

/-! ### The end of the actor's loop -/

theorem shutdown (h : Tracked c hand s) (res : Option PeerError) : Tracked c none (s.shutdown res) :=
  ⟨h.toKept.shutdown res, h.toNamed.shutdown res⟩

theorem settle {r : PeerResult} (h : Goes c r) : Tracked c none (settle r) := by
  obtain ⟨s, er⟩ := r
  cases er with
  | none => exact h
  | some er =>
    obtain ⟨ha, h⟩ := h
    exact h.shutdown (some er)

theorem input (h : Tracked c none s) {f : Peer → PeerResult} (hf : Goes c (f s)) : Tracked c none (s.input f) := by
  unfold Peer.input
  split
  · exact h
  · exact settle (hf.andThen fun s' hs' => { hs' with })

theorem perform (h : Tracked c none s) (now : Nat) (ck : String → Nat) : Tracked c none (s.perform now ck) := by
  unfold Peer.perform
  split
  · exact h
  rename_i task rest ha
  have hpopped : Tracked c none { s with agenda := rest } := { h with }
  exact settle (hpopped.performTask task now ck)

/-! ### Runs -/

theorem step (h : Tracked c none s) (a : PeerAction) : Tracked c none (s.step a) := by
  cases a with
  | reserve timeout now =>
    change Tracked c none (s.reserve timeout now)
    unfold reserve
    split <;> exact { h with }
  | submit id now =>
    change Tracked c none (s.submit id now)
    unfold submit
    split
    · exact h
    dsimp only
    split <;> exact { h with }
  | dropSlot => exact { h with }
  | dropReply id =>
    refine { h with calls := ?_ }
    have hlen : (s.pending.mapValues fun _ => HostCall.drop id).len = s.pending.len := by
      simp [OrdMap.len, OrdMap.mapValues]
    change (s.pending.mapValues fun _ => HostCall.drop id).len + s.cancelled.len ≤ s.limits.pendingCalls
    rw [hlen]
    exact h.calls
  | takeCommand => exact h.input h.takeCommand
  | receive msg now wall seen =>
    exact h.input (f := fun s => s.receive msg now wall seen) (h.receive msg now wall seen)
  | incomingFails => exact h.input (f := fun s => (s, some .io)) ⟨none, h⟩
  | finishHandler id out gd now =>
    exact h.input (f := fun s => s.finishHandler id out gd now) (h.finishHandler id out gd now)
  | handlerPanics => exact h.input (f := fun s => (s, some .broker)) ⟨none, h⟩
  | flush => exact h.input h.flush
  | takeAck => exact h.input h.takeAck
  | tick now => exact h.input (f := fun s => s.tick now) (h.tick now)
  | perform now ck => exact h.perform now ck
  | close =>
    change Tracked c none (if s.closed.isSome || !s.agenda.isEmpty then s else s.shutdown none)
    split
    · exact h
    · exact h.shutdown none
  | writerTake => exact ⟨h.toKept.writerTake, h.toNamed.writerTake⟩
  | writerCheck now => exact ⟨h.toKept.writerCheck now, h.toNamed.writerCheck now⟩
  | writerDone => exact ⟨h.toKept.writerDone, h.toNamed.writerDone⟩
  | writerFail => exact ⟨h.toKept.writerFail, h.toNamed.writerFail⟩
  | writerAck => exact ⟨h.toKept.writerAck, h.toNamed.writerAck⟩

end Tracked

theorem run_tracked (cfg : PeerConfig) (acts : List PeerAction) : Tracked cfg none (run cfg acts) :=
  foldl_invariant (fun _ a h => h.step a) ⟨new_kept cfg, new_named cfg⟩ acts

/-- The request is waiting, active or publishing. -/
def Staged (s : Peer) (n : Nat) : Prop :=
  (∃ entry ∈ s.brokerWaiting, entry.serial = n) ∨ (∃ id running, s.active.get id = some running ∧ running.serial = n) ∨
    ∃ id pending, s.publishing.get id = some pending ∧ pending.serial = n

theorem tally_of_not_staged (h : ¬ s.Staged n) :
    (s.tally n).waiting = 0 ∧ (s.tally n).active = 0 ∧ (s.tally n).publishing = 0 := by
  refine ⟨?_, ?_, ?_⟩
  · refine List.countP_eq_zero.2 ?_
    intro e hm hs
    exact h (.inl ⟨e, hm, of_decide_eq_true hs⟩)
  · change s.active.sumBy (fun _ => Active.weight n) = 0
    refine sumBy_eq_zero ?_
    intro id run hg
    exact if_neg fun hs => h (.inr (.inl ⟨id, run, hg, hs⟩))
  · change s.publishing.sumBy (fun _ => Publishing.weight n) = 0
    refine sumBy_eq_zero ?_
    intro id pend hg
    exact if_neg fun hs => h (.inr (.inr ⟨id, pend, hg, hs⟩))

/-- In every run each request of the worker gets at most one answer that is not withdrawn, of which at most one is
written; it has exactly one when it is in no stage and the peer is open.  Answers carry the ids of their requests, an
id is in at most one stage, and the calls and handlers stay within their limits. -/
theorem requests_answered_once (config : PeerConfig) (actions : List PeerAction) :
    let s := run config actions
    (∀ n, s.responses.count n ≤ s.withdrawn.count n + 1 ∧ s.withdrawn.count n ≤ 1 ∧ s.written.count n ≤ 1) ∧
      (s.closed = none → ∀ n < s.requests.length, ¬ s.Staged n → s.responses.count n = s.withdrawn.count n + 1) ∧
      (∀ n id outcome publication, .response n id outcome publication ∈ s.inFlight → s.requests[n]? = some id) ∧
      (∀ id, s.places id ≤ 1) ∧
      s.pending.len + s.cancelled.len ≤ config.limits.pendingCalls ∧
      s.active.len + s.publishing.len ≤ config.limits.brokerHandlers := by
  intro s
  have hkept : Tracked config none s := run_tracked config actions
  have hlim : s.limits = config.limits := congrArg PeerConfig.limits hkept.config
  refine ⟨fun n => (hkept.sound n).at_most_one, ?_, hkept.frames, hkept.places, ?_, ?_⟩
  · intro ho n hn hs
    have hsnd := hkept.sound n
    rw [ho, decide_eq_true hn] at hsnd
    obtain ⟨hw, ha, hp⟩ := tally_of_not_staged hs
    exact hsnd.exactly_one hw ha hp
  · rw [← hlim]
    exact hkept.calls
  · rw [← hlim]
    exact hkept.room

/-! ### An answer that is queued twice -/

def sampleConfig : PeerConfig := ⟨.default, fun _ => true⟩

/-- The broker guards the answer to a request; the worker cancels the request before the writer takes the answer. -/
def cancelledPublication : List PeerAction :=
  [.receive (.request "read-1" 1000) 0 (some 0) [], .perform 0 (fun _ => 0),
    .finishHandler "read-1" (.success "chunk") true 1, .perform 1 (fun _ => 1),
    .receive (.cancel "read-1") 2 (some 2) [], .perform 2 (fun _ => 2),
    .flush, .perform 3 (fun _ => 3), .writerTake, .writerCheck 3, .writerAck, .takeAck]

/-- Two answers to the same request are queued, the first of which is withdrawn. -/
theorem answer_queued_twice : (run sampleConfig cancelledPublication).responses = [0, 0] ∧
      (run sampleConfig cancelledPublication).withdrawn = [0] ∧
      (run sampleConfig cancelledPublication).closed = none := by
  decide +kernel

end Chariox.WorkerPeer.Peer
