import Chariox.WorkerPeer.Model
import Chariox.WorkerPeer.Tally

/-!
# Moves of the worker's requests

The state of the peer gives every request its tally, and each part of an operation moves one request.  An answer that
is about to be queued is in hand (`Kept _ (some n)`); if it cannot be queued the actor fails and leaves its loop.
-/

namespace Chariox.WorkerPeer

open OrdMap

/-- An answer to the request under publication. -/
def Outgoing.isGuardedFor (n : Nat) : Outgoing → Bool
  | .response serial _ _ (some _) => decide (serial = n)
  | _ => false

def Active.weight (n : Nat) (running : Active) : Nat := if running.serial = n then 1 else 0

def Active.owes (n : Nat) (running : Active) : Nat := if running.serial = n ∧ running.replied = false then 1 else 0

def Publishing.weight (n : Nat) (pending : Publishing) : Nat := if pending.serial = n then 1 else 0

theorem Active.weight_self (run : Active) : run.weight run.serial = 1 := if_pos rfl

variable {run : Active}

theorem Active.weight_of_ne {m : Nat} (h : run.serial ≠ m) : run.weight m = 0 := if_neg h

theorem Active.owes_self (h : run.replied = false) : run.owes run.serial = 1 := if_pos ⟨rfl, h⟩

theorem Active.owes_of_ne {m : Nat} (h : run.serial ≠ m) : run.owes m = 0 := if_neg fun hb => h hb.1

theorem Publishing.weight_self (p : Publishing) : p.weight p.serial = 1 := if_pos rfl

theorem Publishing.weight_of_ne {p : Publishing} {m : Nat} (h : p.serial ≠ m) : p.weight m = 0 := if_neg h

def WriterState.frames : WriterState → List Outgoing
  | .checking item => [item]
  | .writing item => [item]
  | _ => []

def WriterState.acks : WriterState → List Ack
  | .acking ack => [ack]
  | _ => []

namespace Peer

variable {c : PeerConfig} {s x : Peer} {hand ha' : Option Nat} {n m : Nat} {id : String}

/-! ### The tally of a request -/

/-- The frames that are queued or with the writer. -/
def inFlight (s : Peer) : List Outgoing := s.queued ++ (s.outgoing ++ s.writer.frames)

def tally (s : Peer) (n : Nat) : Tally where
  waiting := s.brokerWaiting.countP (fun entry => decide (entry.serial = n))
  active := s.active.sumBy (fun _ => Active.weight n)
  owing := s.active.sumBy (fun _ => Active.owes n)
  publishing := s.publishing.sumBy (fun _ => Publishing.weight n)
  guarded := s.inFlight.countP (Outgoing.isGuardedFor n)
  flying := s.inFlight.countP (fun frame => decide (frame.answers = some n))
  responses := s.responses.count n
  withdrawn := s.withdrawn.count n
  written := s.written.count n
  finished := (s.finished.contains n).toNat

/-- The number of stages in which an id is. -/
def places (s : Peer) (id : String) : Nat :=
  s.brokerWaiting.countP (fun entry => decide (entry.id = id)) + (s.active.contains id).toNat +
    (s.publishing.contains id).toNat

def handOf : Option Nat → Nat → Nat
  | none, _ => 0
  | some n, m => if n = m then 1 else 0

theorem handOf_self (n : Nat) : handOf (some n) n = 1 := if_pos rfl

theorem handOf_of_ne (h : n ≠ m) : handOf (some n) m = 0 := if_neg h

structure Kept (c : PeerConfig) (hand : Option Nat) (s : Peer) : Prop where
  config : s.config = c
  sound : ∀ n, (s.tally n).Sound s.closed.isSome.toNat (decide (n < s.requests.length)).toNat
    (handOf hand n)
  withdrawn : ∀ n, s.withdrawn.count n = if s.finished.get n = some false then 1 else 0
  acked : ∀ ack ∈ s.acks ++ s.writer.acks, s.finished.get ack.serial = some ack.published
  places : ∀ id, s.places id ≤ 1
  room : s.active.len + s.publishing.len ≤ s.limits.brokerHandlers
  calls : s.pending.len + s.cancelled.len ≤ s.limits.pendingCalls

/-- What is left when the actor fails. -/
def Failed (c : PeerConfig) (s : Peer) : Prop := ∃ hand, Kept c hand s

theorem new_kept (cfg : PeerConfig) : Kept cfg none (new cfg) where
  config := rfl
  sound := by
    intro n
    rw [Tally.sound_iff]
    simp [new, tally, inFlight, WriterState.frames, handOf, OrdMap.sumBy, OrdMap.empty, OrdMap.contains, OrdMap.get]
  withdrawn := fun n => rfl
  acked := nofun
  places := fun id => Nat.zero_le _
  room := Nat.zero_le _
  calls := Nat.zero_le _

/-! ### How the parts of an operation change the tally -/

theorem enqueue_tally (s : Peer) (f : Outgoing) (m : Nat) :
    { s with queued := s.queued ++ [f], responses := s.responses ++ f.answers.toList }.tally m =
      { s.tally m with
        guarded := (s.tally m).guarded + (if f.isGuardedFor m then 1 else 0)
        flying := (s.tally m).flying + (if f.answers = some m then 1 else 0)
        responses := (s.tally m).responses + (if f.answers = some m then 1 else 0) } := by
  have hresp : f.answers.toList.count m = if f.answers = some m then 1 else 0 := by
    cases f.answers with
    | none => rfl
    | some => simp [List.count_singleton]
  simp only [tally, inFlight, Tally.mk.injEq, true_and, and_true, List.countP_append, List.countP_singleton,
    List.count_append, hresp, decide_eq_true_eq]
  omega

variable {en : BrokerWaiting} {run : Active} {p : Publishing}

theorem unqueue_tally (h : en ∈ s.brokerWaiting) (m : Nat) : (s.unqueue en).tally m =
      { s.tally m with waiting := (s.tally m).waiting - (if en.serial = m then 1 else 0) } := by
  simp only [tally, unqueue, inFlight, List.countP_erase, h, true_and, decide_eq_true_eq]

theorem insertActive_tally (h : s.active.get id = none) (m : Nat) :
    { s with active := s.active.insert id run }.tally m =
      { s.tally m with
        active := (s.tally m).active + run.weight m
        owing := (s.tally m).owing + run.owes m } := by
  simp only [tally, inFlight, Tally.mk.injEq, and_true, true_and]
  exact ⟨sumBy_insert_of_none _ h run, sumBy_insert_of_none _ h run⟩

theorem removeActive_tally (h : s.active.get id = some run) (m : Nat) :
    { s with active := s.active.remove id }.tally m =
      { s.tally m with
        active := (s.tally m).active - run.weight m
        owing := (s.tally m).owing - run.owes m } := by
  have hwgt := sumBy_remove_of_some (fun _ => Active.weight m) h
  have howes := sumBy_remove_of_some (fun _ => Active.owes m) h
  simp only [tally, inFlight, Tally.mk.injEq, and_true, true_and]
  omega

theorem replyActive_tally (h : s.active.get id = some run) (m : Nat) :
    { s with active := s.active.insert id { run with replied := true } }.tally m =
      { s.tally m with owing := (s.tally m).owing - run.owes m } := by
  have hwgt := sumBy_insert_of_some (fun _ => Active.weight m) h { run with replied := true }
  have howes := sumBy_insert_of_some (fun _ => Active.owes m) h { run with replied := true }
  have hrepl : Active.owes m { run with replied := true } = 0 := by simp [Active.owes]
  have hsame : Active.weight m { run with replied := true } = run.weight m := rfl
  simp only [tally, inFlight, Tally.mk.injEq, and_true, true_and]
  omega

theorem insertPublishing_tally (h : s.publishing.get id = none) (m : Nat) :
    { s with publishing := s.publishing.insert id p }.tally m =
      { s.tally m with publishing := (s.tally m).publishing + p.weight m } := by
  simp only [tally, inFlight, Tally.mk.injEq, and_true, true_and]
  exact sumBy_insert_of_none _ h p

theorem removePublishing_tally (h : s.publishing.get id = some p) (m : Nat) :
    { s with publishing := s.publishing.remove id }.tally m =
      { s.tally m with publishing := (s.tally m).publishing - p.weight m } := by
  have hwgt := sumBy_remove_of_some (fun _ => Publishing.weight m) h
  simp only [tally, inFlight, Tally.mk.injEq, and_true, true_and]
  omega

/-! ### Stages and counts -/

theorem one_le_waiting (h : en ∈ s.brokerWaiting) : 1 ≤ (s.tally en.serial).waiting :=
  List.countP_pos_iff.2 ⟨en, h, by simp⟩

theorem one_le_places (h : en ∈ s.brokerWaiting) : 1 ≤ s.brokerWaiting.countP (fun e => decide (e.id = en.id)) :=
  List.countP_pos_iff.2 ⟨en, h, by simp⟩

theorem one_le_owing (h : s.active.get id = some run) (hr : run.replied = false) : 1 ≤ (s.tally run.serial).owing := by
  have hsum := sumBy_remove_of_some (fun _ => Active.owes run.serial) h
  have hself := Active.owes_self hr
  change 1 ≤ s.active.sumBy fun _ => Active.owes run.serial
  omega

theorem one_le_publishing (h : s.publishing.get id = some p) : 1 ≤ (s.tally p.serial).publishing := by
  have hsum := sumBy_remove_of_some (fun _ => Publishing.weight p.serial) h
  have hself := p.weight_self
  change 1 ≤ s.publishing.sumBy fun _ => Publishing.weight p.serial
  omega

theorem owing_le_active (a : OrdMap String Active) (n : Nat) :
    a.sumBy (fun _ => Active.owes n) ≤ a.sumBy (fun _ => Active.weight n) := by
  refine List.sum_le_sum ?_
  intro e _
  change Active.owes n e.2 ≤ Active.weight n e.2
  unfold Active.owes Active.weight
  split
  · rename_i hb
    rw [if_pos hb.1]
  · exact Nat.zero_le _

namespace Kept

/-! ### Moves of one request -/

/-- No id enters a stage. -/
theorem places_of (h : Kept c hand s) (hw : x.brokerWaiting = s.brokerWaiting)
    (ha : ∀ id, x.active.contains id = true → s.active.contains id = true)
    (hp : ∀ id, x.publishing.contains id = true → s.publishing.contains id = true) (id : String) : x.places id ≤ 1 := by
  have hid := h.places id
  have h₁ := Bool.toNat_le_toNat (Bool.le_iff_imp.2 (ha id))
  have h₂ := Bool.toNat_le_toNat (Bool.le_iff_imp.2 (hp id))
  unfold Peer.places at hid ⊢
  rw [hw]
  omega

theorem sound_same (h : Kept c hand s) (hc : x.closed = s.closed) (hr : x.requests = s.requests)
    (ht : ∀ m, x.tally m = s.tally m) (m : Nat) :
    (x.tally m).Sound x.closed.isSome.toNat (decide (m < x.requests.length)).toNat (handOf hand m) := by
  rw [ht, hc, hr]
  exact h.sound m

theorem sound_of (h : Kept c hand s) (n : Nat) (hc : x.closed = s.closed) (hr : x.requests = s.requests)
    (hs : (x.tally n).Sound s.closed.isSome.toNat (decide (n < s.requests.length)).toNat (handOf ha' n))
    (ho : ∀ m, n ≠ m → x.tally m = s.tally m) (hh : ∀ m, n ≠ m → handOf ha' m = handOf hand m) (m : Nat) :
    (x.tally m).Sound x.closed.isSome.toNat (decide (m < x.requests.length)).toNat (handOf ha' m) := by
  rw [hc, hr]
  by_cases hm : n = m
  · rw [← hm]
    exact hs
  · rw [ho m hm, hh m hm]
    exact h.sound m

theorem response (h : Kept c (some n) s) (id : String) (out : Outcome) :
    Ends (Kept c none) (Failed c) (s.response n id out) := by
  unfold Peer.response send
  split
  · exact ⟨some n, h⟩
  split
  · exact ⟨some n, { h with }⟩
  have hself := h.sound n
  rw [handOf_self] at hself
  refine { h with sound := h.sound_of n rfl rfl ?_ ?_ ?_ }
  · rw [enqueue_tally]
    simpa [Outgoing.answers, Outgoing.isGuardedFor, handOf] using hself.answer
  · intro m hm
    rw [enqueue_tally]
    simp [Outgoing.answers, Outgoing.isGuardedFor, hm]
  · intro m hm
    exact (handOf_of_ne hm).symm

/-- A frame that answers nothing; the calls stay as they are. -/
theorem sendCall (h : Kept c none s) {f : Outgoing} (hfr : f.answers = none) :
    Ends (fun x => Kept c none x ∧ x.limits = s.limits ∧ x.pending = s.pending ∧ x.cancelled = s.cancelled) (Failed c)
      (s.send f) := by
  unfold send
  split
  · exact ⟨none, h⟩
  split
  · exact ⟨none, { h with }⟩
  refine ⟨{ h with sound := ?_ }, rfl, rfl, rfl⟩
  intro m
  have hgrd : f.isGuardedFor m = false := by
    cases f with
    | response => cases hfr
    | _ => rfl
  rw [enqueue_tally]
  simpa [hfr, hgrd] using h.sound m

variable {en : BrokerWaiting} {p : Publishing} {run : Active}

theorem unqueue (h : Kept c none s) (he : en ∈ s.brokerWaiting) : Kept c (some en.serial) (s.unqueue en) := by
  refine { h with sound := h.sound_of en.serial rfl rfl ?_ ?_ ?_, places := ?_ }
  · rw [unqueue_tally he, handOf_self, if_pos rfl]
    exact (h.sound en.serial).unqueue (one_le_waiting he)
  · intro m hm
    rw [unqueue_tally he, if_neg hm]
    rfl
  · intro m hm
    exact handOf_of_ne hm
  · intro id
    have hid := h.places id
    unfold Peer.places at hid ⊢
    simp only [Peer.unqueue, List.countP_erase]
    omega

theorem activate (h : Kept c none s) (he : en ∈ s.brokerWaiting)
    (hr : s.active.len + s.publishing.len < s.limits.brokerHandlers) : Kept c none { s.unqueue en with
      active := s.active.insert en.id ⟨en.serial, en.deadline, false⟩
      handlers := s.handlers ++ [en.id] } := by
  have hplcs := h.places en.id
  have hone := one_le_places he
  have hnone : s.active.get en.id = none := by
    rw [← contains_eq_false, ← Bool.not_eq_true]
    intro hc
    unfold Peer.places at hplcs
    rw [hc, Bool.toNat_true] at hplcs
    omega
  have htal : ∀ m, Peer.tally { s.unqueue en with
      active := s.active.insert en.id ⟨en.serial, en.deadline, false⟩
      handlers := s.handlers ++ [en.id] } m =
        { s.tally m with
          waiting := (s.tally m).waiting - if en.serial = m then 1 else 0
          active := (s.tally m).active + if en.serial = m then 1 else 0
          owing := (s.tally m).owing + if en.serial = m then 1 else 0 } := by
    intro m
    have hins := @insertActive_tally (s.unqueue en) en.id ⟨en.serial, en.deadline, false⟩ hnone m
    refine hins.trans ?_
    rw [unqueue_tally he]
    simp [Active.weight, Active.owes]
  refine { h with sound := h.sound_of en.serial rfl rfl ?_ ?_ fun _ _ => rfl, places := ?_, room := ?_ }
  · rw [htal, if_pos rfl]
    exact (h.sound en.serial).start (one_le_waiting he)
  · intro m hm
    rw [htal, if_neg hm]
    rfl
  · intro id
    have hid := h.places id
    unfold Peer.places at hid ⊢
    simp only [Peer.unqueue, List.countP_erase, contains_insert, he, true_and, decide_eq_true_eq]
    by_cases heq : id = en.id
    · subst heq
      rw [if_pos rfl, if_pos rfl, Bool.toNat_true]
      omega
    · rw [if_neg heq]
      omega
  · have hlen := len_insert_of_none hnone (⟨en.serial, en.deadline, false⟩ : Active)
    change (s.active.insert en.id _).len + s.publishing.len ≤ s.limits.brokerHandlers
    omega

theorem reply (h : Kept c none s) (hg : s.active.get id = some run) (hr : run.replied = false) :
    Kept c (some run.serial) { s with active := s.active.insert id { run with replied := true } } := by
  refine { h with sound := h.sound_of run.serial rfl rfl ?_ ?_ fun m hm => handOf_of_ne hm, places := ?_,
                  room := ?_ }
  · rw [replyActive_tally hg, handOf_self, Active.owes_self hr]
    exact (h.sound run.serial).reply (one_le_owing hg hr)
  · intro m hm
    rw [replyActive_tally hg, Active.owes_of_ne hm]
    rfl
  · exact h.places_of rfl (fun _ => contains_of_contains_insert hg) fun _ hid => hid
  · have hlen := len_insert_of_some hg { run with replied := true }
    have hroom := h.room
    change (s.active.insert id _).len + s.publishing.len ≤ s.limits.brokerHandlers
    omega

theorem places_removeActive (h : Kept c hand s) : ∀ id', Peer.places { s with active := s.active.remove id } id' ≤ 1 :=
  h.places_of rfl (fun _ => contains_of_contains_remove) fun _ hid => hid

theorem room_removeActive (h : Kept c hand s) : (s.active.remove id).len + s.publishing.len ≤ s.limits.brokerHandlers := by
  have hlen := s.active.len_remove_le id
  have hroom := h.room
  omega

section

variable (h : Kept c none s) (hget : s.active.get id = some run)

include h hget

theorem leave (hr : run.replied = true) : Kept c none { s with active := s.active.remove id } := by
  have howes : ∀ m, run.owes m = 0 := fun m => if_neg fun hb => by rw [hr] at hb; cases hb.2
  refine { h with sound := h.sound_of run.serial rfl rfl ?_ ?_ fun _ _ => rfl, places := h.places_removeActive,
                  room := h.room_removeActive }
  · rw [removeActive_tally hget, run.weight_self, howes]
    refine (h.sound run.serial).leave ?_
    -- the active entry with this serial owes nothing
    have hact := sumBy_remove_of_some (fun _ => Active.weight run.serial) hget
    have howing := sumBy_remove_of_some (fun _ => Active.owes run.serial) hget
    have hrest : (s.active.remove id).sumBy (fun _ => Active.owes run.serial) ≤
        (s.active.remove id).sumBy fun _ => Active.weight run.serial := owing_le_active _ _
    have hzero := howes run.serial
    have hself := run.weight_self
    change s.active.sumBy (fun _ => Active.owes run.serial) + 1 ≤
      s.active.sumBy fun _ => Active.weight run.serial
    omega
  · intro m hm
    rw [removeActive_tally hget, Active.weight_of_ne hm, howes]
    rfl

theorem finish (hr : run.replied = false) : Kept c (some run.serial) { s with active := s.active.remove id } := by
  refine { h with sound := h.sound_of run.serial rfl rfl ?_ ?_ fun m hm => handOf_of_ne hm,
                  places := h.places_removeActive, room := h.room_removeActive }
  · rw [removeActive_tally hget, handOf_self, run.weight_self, Active.owes_self hr]
    exact (h.sound run.serial).finish (one_le_owing hget hr)
  intro m hm
  rw [removeActive_tally hget, Active.weight_of_ne hm, Active.owes_of_ne hm]
  rfl

theorem publish (hr : run.replied = false) (out : Outcome) (failure : Option RemoteError) : Kept c none { s with
      active := s.active.remove id
      queued := s.queued ++ [.response run.serial id out (some run.deadline)]
      responses := s.responses ++ [run.serial]
      publishing := s.publishing.insert id ⟨run.serial, run.deadline, failure⟩ } := by
  have hplcs := h.places id
  have hcon : s.active.contains id = true := contains_iff.2 ⟨run, hget⟩
  have hnone : s.publishing.get id = none := by
    rw [← contains_eq_false, ← Bool.not_eq_true]
    intro hp
    unfold Peer.places at hplcs
    rw [hcon, hp, Bool.toNat_true] at hplcs
    omega
  have htal : ∀ m, Peer.tally { s with
      active := s.active.remove id
      queued := s.queued ++ [.response run.serial id out (some run.deadline)]
      responses := s.responses ++ [run.serial]
      publishing := s.publishing.insert id ⟨run.serial, run.deadline, failure⟩ } m =
        { s.tally m with
          active := (s.tally m).active - run.weight m
          owing := (s.tally m).owing - run.owes m
          publishing := (s.tally m).publishing + if run.serial = m then 1 else 0
          guarded := (s.tally m).guarded + if run.serial = m then 1 else 0
          flying := (s.tally m).flying + if run.serial = m then 1 else 0
          responses := (s.tally m).responses + if run.serial = m then 1 else 0 } := by
    intro m
    have hrem := removeActive_tally hget m
    have hque := enqueue_tally { s with active := s.active.remove id }
      (.response run.serial id out (some run.deadline)) m
    have hinsd := @insertPublishing_tally { s with
      active := s.active.remove id
      queued := s.queued ++ [.response run.serial id out (some run.deadline)]
      responses := s.responses ++ [run.serial] } id ⟨run.serial, run.deadline, failure⟩ hnone m
    refine hinsd.trans ?_
    rw [hrem] at hque
    simp only [Outgoing.answers, Option.toList_some] at hque
    rw [hque]
    simp [Publishing.weight, Outgoing.isGuardedFor]
  refine { h with sound := h.sound_of run.serial rfl rfl ?_ ?_ fun _ _ => rfl, places := ?_, room := ?_ }
  · rw [htal, Active.owes_self hr, run.weight_self, if_pos rfl]
    exact (h.sound run.serial).publish (one_le_owing hget hr)
  · intro m hm
    rw [htal, Active.owes_of_ne hm, Active.weight_of_ne hm, if_neg hm]
    rfl
  · intro id'
    have hid := h.places id'
    unfold Peer.places at hid ⊢
    simp only [contains_remove, contains_insert]
    by_cases heq : id' = id
    · subst heq
      rw [if_pos rfl, if_pos rfl, Bool.toNat_true, Bool.toNat_false]
      rw [hcon, Bool.toNat_true] at hid
      omega
    · rw [if_neg heq, if_neg heq]
      exact hid
  · have hrmv := len_remove_of_some hget
    have hins := len_insert_of_none hnone (⟨run.serial, run.deadline, failure⟩ : Publishing)
    have hroom := h.room
    change (s.active.remove id).len + (s.publishing.insert id _).len ≤ s.limits.brokerHandlers
    omega

end

theorem published (h : Kept c none s) (hf : s.finished.get n = some true) :
    1 ≤ (s.tally n).finished ∧ (s.tally n).withdrawn = 0 := by
  have hwdn := h.withdrawn n
  rw [hf] at hwdn
  exact ⟨by simp [tally, contains_iff.2 ⟨true, hf⟩], hwdn⟩

theorem forgetPublished (h : Kept c none s) (seen : List String) : Kept c none (s.forgetPublished seen) := by
  refine { h with sound := ?_, places := ?_, room := ?_ }
  · intro m
    have hle := s.publishing.sumBy_retain_le
      (fun id pend => !(seen.contains id && s.finished.get pend.serial == some true))
      fun _ => Publishing.weight m
    by_cases hfin : s.finished.get m = some true
    · obtain ⟨ho, hz⟩ := h.published hfin
      exact (h.sound m).forget ho hz hle
    · -- none of the forgotten publications is one of this request
      have hsame := @sumBy_retain _ _ _ s.publishing (fun _ => Publishing.weight m)
        (fun id pend => !(seen.contains id && s.finished.get pend.serial == some true)) (by
          intro id pend _ hd
          rw [Bool.not_eq_false', Bool.and_eq_true, beq_iff_eq] at hd
          refine if_neg ?_
          intro hs
          rw [hs] at hd
          exact hfin hd.2)
      have htal : (s.forgetPublished seen).tally m = s.tally m := by
        simp only [tally, Peer.forgetPublished, inFlight, hsame]
      rw [htal]
      exact h.sound m
  · refine h.places_of rfl (fun _ hid => hid) ?_
    intro id hid
    obtain ⟨pend, hg⟩ := contains_iff.1 hid
    exact contains_iff.2 ⟨pend, get_of_get_retain hg⟩
  · have hle := s.publishing.len_retain_le
      fun id pend => !(seen.contains id && s.finished.get pend.serial == some true)
    have hroom := h.room
    change s.active.len + (s.publishing.retain _).len ≤ s.limits.brokerHandlers
    omega

theorem places_removePublishing (h : Kept c hand s) :
    ∀ id', Peer.places { s with publishing := s.publishing.remove id } id' ≤ 1 :=
  h.places_of rfl (fun _ hid => hid) fun _ => contains_of_contains_remove

theorem room_removePublishing (h : Kept c hand s) :
    s.active.len + (s.publishing.remove id).len ≤ s.limits.brokerHandlers := by
  have hlen := s.publishing.len_remove_le id
  have hroom := h.room
  omega

theorem settlePublished (h : Kept c none s) (hg : s.publishing.get id = some p)
    (hf : s.finished.get p.serial = some true) : Kept c none { s with publishing := s.publishing.remove id } := by
  refine { h with sound := h.sound_of p.serial rfl rfl ?_ ?_ fun _ _ => rfl,
                  places := h.places_removePublishing, room := h.room_removePublishing }
  · obtain ⟨ho, hz⟩ := h.published hf
    rw [removePublishing_tally hg]
    exact (h.sound p.serial).forget ho hz (Nat.sub_le _ _)
  · intro m hm
    rw [removePublishing_tally hg, Publishing.weight_of_ne hm]
    rfl

theorem settleWithdrawn (h : Kept c none s) (hg : s.publishing.get id = some p)
    (hf : s.finished.get p.serial = some false) :
    Kept c (some p.serial) { s with publishing := s.publishing.remove id } := by
  refine { h with sound := h.sound_of p.serial rfl rfl ?_ ?_ fun m hm => handOf_of_ne hm,
                  places := h.places_removePublishing, room := h.room_removePublishing }
  · have hwdn := h.withdrawn p.serial
    rw [hf] at hwdn
    rw [removePublishing_tally hg, p.weight_self, handOf_self]
    exact (h.sound p.serial).replace (one_le_publishing hg) hwdn.ge
  · intro m hm
    rw [removePublishing_tally hg, Publishing.weight_of_ne hm]
    rfl

theorem noteFailure (h : Kept c hand s) (hg : s.publishing.get id = some p) (er : RemoteError) :
    Kept c hand { s with publishing := s.publishing.insert id { p with failure := some er } } := by
  refine { h with sound := h.sound_same rfl rfl fun m => ?_, places := ?_, room := ?_ }
  · have hsum := sumBy_insert_of_some (fun _ => Publishing.weight m) hg { p with failure := some er }
    have hsame : Publishing.weight m { p with failure := some er } = p.weight m := rfl
    simp only [tally, inFlight, Tally.mk.injEq, and_true, true_and]
    omega
  · exact h.places_of rfl (fun _ hid => hid) fun _ => contains_of_contains_insert hg
  · have hlen := len_insert_of_some hg { p with failure := some er }
    have hroom := h.room
    change s.active.len + (s.publishing.insert id _).len ≤ s.limits.brokerHandlers
    omega

/-! ### Requests that arrive -/

theorem taken_eq (l : List String) (id : String) (hm : l.length ≠ m) :
    decide (m < (l ++ [id]).length) = decide (m < l.length) := by
  rw [List.length_append, List.length_singleton, decide_eq_decide]
  omega

theorem fresh (h : Kept c none s) : (s.tally s.requests.length).Sound s.closed.isSome.toNat 0 0 := by
  have hsnd := h.sound s.requests.length
  rw [decide_eq_false (Nat.lt_irrefl _)] at hsnd
  exact hsnd

theorem take (h : Kept c none s) (id : String) :
    Kept c (some s.requests.length) { s with requests := s.requests ++ [id] } := by
  refine { h with sound := ?_ }
  intro m
  by_cases hm : s.requests.length = m
  · subst hm
    have htkn : decide (s.requests.length < (s.requests ++ [id]).length) = true := by simp
    rw [htkn, handOf_self]
    exact h.fresh.take
  · rw [taken_eq _ _ hm, handOf_of_ne hm]
    exact h.sound m

theorem wait (h : Kept c none s) (hs : en.serial = s.requests.length) (hp : s.places en.id = 0) : Kept c none { s with
      requests := s.requests ++ [en.id]
      brokerWaiting := s.brokerWaiting ++ [en] } := by
  have htal : ∀ m, Peer.tally { s with
      requests := s.requests ++ [en.id]
      brokerWaiting := s.brokerWaiting ++ [en] } m =
        { s.tally m with waiting := (s.tally m).waiting + if en.serial = m then 1 else 0 } := by
    intro m
    simp only [tally, inFlight, List.countP_append, List.countP_singleton, decide_eq_true_eq]
  refine { h with sound := ?_, places := ?_ }
  · intro m
    rw [htal]
    by_cases hm : en.serial = m
    · rw [if_pos hm]
      subst hm
      have htkn : decide (en.serial < (s.requests ++ [en.id]).length) = true := by simp [hs]
      rw [htkn, hs]
      exact h.fresh.wait
    · rw [if_neg hm]
      rw [hs] at hm
      rw [taken_eq _ _ hm]
      exact h.sound m
  · intro id
    have hid := h.places id
    unfold Peer.places at hid hp ⊢
    simp only [List.countP_append, List.countP_singleton, decide_eq_true_eq]
    by_cases heq : en.id = id
    · rw [if_pos heq]
      rw [heq] at hp
      omega
    · rw [if_neg heq]
      omega

end Kept

end Peer

end Chariox.WorkerPeer
