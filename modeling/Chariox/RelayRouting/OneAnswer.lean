import Chariox.RelayRouting.Moves

/-!
# One answer for each relayed request

A request that has a relay request id is answered by whoever takes it out of the pending entries.  Counting the answers
sent, the answers that handlers still have to send and the pending entry gives at most one for each id, as long as a
requester's task that gives its request up finds the entry still there.  When the daemon's release has taken it, both
the release and the requester's task answer.

The second result needs no such condition: the release of a registration takes out every entry that was sent on to it.
-/

namespace Chariox.RelayRouting

open RelayState OrdMap List

/-! ### Answers to come -/

/-- The number of answers among the messages. -/
def answersIn (id : RelayId) (sends : List Send) : Nat := (sends.filterMap Send.answers).count id

theorem answersIn_append (id : RelayId) (sds rest : List Send) :
    answersIn id (sds ++ rest) = answersIn id sds + answersIn id rest := by
  simp only [answersIn, filterMap_append, count_append]

theorem answersIn_of_none {id : RelayId} {sds : List Send} (h : ∀ send ∈ sds, send.answers = none) :
    answersIn id sds = 0 := by
  unfold answersIn
  rw [filterMap_eq_nil_iff.2 h]
  rfl

theorem answersIn_cons (id : RelayId) (send : Send) (rest : List Send) :
    answersIn id (send :: rest) = (if send.answers = some id then 1 else 0) + answersIn id rest := by
  unfold answersIn
  rw [filterMap_cons]
  cases send.answers with
  | none => simp
  | some => simp only [count_cons, beq_iff_eq, Option.some.injEq, Nat.add_comm]

namespace Task

/-- The answers to `id` that a task will send: it has a message to send, or the request but no pending entry yet. -/
def owes (id : RelayId) : Task → Nat
  | .subscribe request => if RelayId.request request.number = id then 1 else 0
  | .insert number request => if request.id number = id then 1 else 0
  | .answering number .. => if RelayId.peerRequest number = id then 1 else 0
  | .deliver sends _ => answersIn id sends
  | _ => 0

/-- The task has the request and may still send it on to its daemon. -/
def holds (id : RelayId) : Task → Nat
  | .subscribe request => if RelayId.request request.number = id then 1 else 0
  | .insert number request => if request.id number = id then 1 else 0
  | .lookup number request => if request.id number = id then 1 else 0
  | .forward number request _ => if request.id number = id then 1 else 0
  | _ => 0

theorem isQuiet_owes {task : Task} (h : task.isQuiet = true) (id : RelayId) : task.owes id = 0 := by
  cases task with
  | deliver =>
    refine answersIn_of_none fun send hm => ?_
    exact Option.isNone_iff_eq_none.1 (all_eq_true.1 h send hm)
  | _ => first | rfl | cases h

theorem isQuiet_holds {task : Task} (h : task.isQuiet = true) (id : RelayId) : task.holds id = 0 := by
  cases task with
  | _ => first | rfl | cases h

end Task

theorem answersIn_singleton {send : Send} {o : RelayId} (h : send.answers = some o) (id : RelayId) :
    answersIn id [send] = if o = id then 1 else 0 := by
  rw [answersIn_cons, h]
  by_cases heq : o = id <;> simp [answersIn]

theorem Relayed.refusal_answers (n : Nat) (er : RelayError) (requester : SocketAddr) (req : Relayed) :
    (req.refusal n er requester).answers = some (req.id n) := by
  cases req <;> rfl

namespace RelayState

/-! ### Weights of tasks -/

/-- The sum of a weight over all tasks. -/
def load (s : RelayState) (weight : Task → Nat) : Nat := s.connections.sumBy (fun _ c => weight c.task)

variable {s : RelayState} {addr : SocketAddr} {c : Connection}

theorem load_put (hg : s.connections.get addr = some c) (c' : Connection) (task : Task) (w : Task → Nat) :
    (s.put addr c' task).load w + w c.task = s.load w + w task :=
  sumBy_insert_of_some (fun (_ : SocketAddr) (c : Connection) => w c.task) hg _

theorem le_load (hg : s.connections.get addr = some c) (weight : Task → Nat) : weight c.task ≤ s.load weight := by
  have hsum := sumBy_remove_of_some (fun (_ : SocketAddr) (c : Connection) => weight c.task) hg
  exact Nat.le_of_add_left_le (le_of_eq hsum)

/-- The pending entry of a request as a number. -/
def pendingCount (s : RelayState) (id : RelayId) : Nat := if s.isPending id = true then 1 else 0

/-- The answers to a request: sent, to be sent by a task, or left to whoever takes the pending entry. -/
def tokens (s : RelayState) (id : RelayId) : Nat :=
  answersIn id s.sent + s.pendingCount id + s.load (Task.owes id)

theorem tokens_put (hg : s.connections.get addr = some c) (c' : Connection) (task : Task) (id : RelayId) :
    (s.put addr c' task).tokens id + c.task.owes id = s.tokens id + task.owes id := by
  have hload := load_put hg c' task (Task.owes id)
  have hsame : (s.put addr c' task).tokens id =
      answersIn id s.sent + s.pendingCount id + (s.put addr c' task).load (Task.owes id) := rfl
  rw [hsame, tokens]
  omega

theorem isPending_insertPending (n : Nat) (req : Relayed) (id : RelayId) :
    (s.insertPending n req).isPending id = (decide (req.id n = id) || s.isPending id) := by
  cases req <;> cases id <;> simp [isPending, insertPending, Relayed.id, OrdMap.contains_insert, eq_comm (a := n)]

theorem isPending_removePending (id o : RelayId) :
    (s.removePending id).isPending o = (decide (o ≠ id) && s.isPending o) := by
  cases id <;> cases o <;> simp [isPending, removePending, contains_remove]

theorem pendingCount_insertPending (n : Nat) (req : Relayed) (id : RelayId) :
    (s.insertPending n req).pendingCount id ≤ s.pendingCount id + if req.id n = id then 1 else 0 := by
  unfold pendingCount
  rw [isPending_insertPending]
  by_cases h : req.id n = id <;> simp [h]

theorem pendingCount_removePending (id other : RelayId) :
    (s.removePending id).pendingCount other = if other = id then 0 else s.pendingCount other := by
  unfold pendingCount
  rw [isPending_removePending]
  by_cases h : other = id <;> simp [h]

/-! ### Releases -/

/-- Entries that are turned into messages, or left out, keep their keys. -/
private theorem map_fst_filterMap_sublist {α β : Type} {f : Nat × α → Option (Nat × β)}
    (hf : ∀ e x, f e = some x → x.1 = e.1) (l : List (Nat × α)) :
    ((l.filterMap f).map Prod.fst).Sublist (l.map Prod.fst) := by
  induction l with
  | nil => exact List.Sublist.slnil
  | cons e l ih =>
    rw [filterMap_cons]
    cases he : f e with
    | none => exact ih.cons _
    | some x =>
      rw [map_cons, hf e x he]
      exact ih.cons_cons _

/-- The answers among the announcements are the pending requests that were drained and have a channel. -/
theorem ReleasedDaemon.answersIn_announce (rel : ReleasedDaemon) (reload : Bool) (id : RelayId) :
    answersIn id (rel.announce reload) =
      match id with
      | .request number => (rel.clientErrors.map Prod.fst).count number
      | .peerRequest number => (rel.peerErrors.map Prod.fst).count number := by
  have hcl : (rel.clientErrors.map ReleasedDaemon.clientError).filterMap Send.answers =
      (rel.clientErrors.map Prod.fst).map RelayId.request := by
    rw [filterMap_map, map_map]
    exact congrFun filterMap_eq_map _
  have hpeer : (rel.peerErrors.map ReleasedDaemon.peerError).filterMap Send.answers =
      (rel.peerErrors.map Prod.fst).map RelayId.peerRequest := by
    rw [filterMap_map, map_map]
    exact congrFun filterMap_eq_map _
  have hclo : ∀ send ∈ rel.subscriptionSenders.map (fun sn =>
      (⟨sn, .close "target daemon disconnected from relay" reload, Option.none, false⟩ : Send)),
      send.answers = none := by
    rintro send hm
    obtain ⟨_, -, rfl⟩ := mem_map.1 hm
    rfl
  unfold ReleasedDaemon.announce
  rw [answersIn_append, answersIn_append, answersIn_of_none hclo, answersIn, answersIn, hcl, hpeer]
  cases id with
  | request number =>
    have hzero : ((rel.peerErrors.map Prod.fst).map RelayId.peerRequest).count (RelayId.request number) = 0 :=
      count_eq_zero.2 (by simp)
    rw [hzero, count_map_of_injective _ _ fun _ _ h => RelayId.request.inj h]
    rfl
  | peerRequest number =>
    have hzero : ((rel.clientErrors.map Prod.fst).map RelayId.request).count (RelayId.peerRequest number) = 0 :=
      count_eq_zero.2 (by simp)
    rw [hzero, count_map_of_injective _ _ fun _ _ h => RelayId.peerRequest.inj h]
    simp

theorem releaseDaemon_pendingCount (key : DaemonKey) (reload : Bool) (id : RelayId) :
    answersIn id ((s.releaseDaemon key).2.announce reload) + (s.releaseDaemon key).1.pendingCount id ≤
      s.pendingCount id := by
  rw [ReleasedDaemon.answersIn_announce]
  cases id with
  | request n =>
    have hspl := s.pendingClientRequests.count_filter_add_contains (fun pend => pend.daemonKey == key) n
    have hsub := (map_fst_filterMap_sublist
      (f := fun e =>
        (s.clientSenders.get e.2.clientAddr).map fun sn => (e.1, sn, e.2.clientRequestId))
      (by
        rintro e x hx
        obtain ⟨_, -, rfl⟩ := Option.map_eq_some_iff.1 hx
        rfl)
      (s.pendingClientRequests.entries.filter fun e => e.2.daemonKey == key)).count_le n
    exact le_trans (Nat.add_le_add_right hsub _) (le_of_eq hspl)
  | peerRequest n =>
    have hspl := s.pendingDaemonRequests.count_filter_add_contains
      (fun pend => pend.targetDaemonKey == key || pend.requesterDaemonKey == key) n
    have hsub := (map_fst_filterMap_sublist
      (f := fun e =>
        if e.2.requesterDaemonKey == key then none
        else ((s.daemonSenders.remove key).get e.2.requesterDaemonKey).map
          fun sn => (e.1, sn.peer, e.2.requesterRequestId, e.2.targetDaemonKey.daemonId))
      (by
        rintro e x hx
        split at hx
        · cases hx
        · obtain ⟨_, -, rfl⟩ := Option.map_eq_some_iff.1 hx
          rfl)
      (s.pendingDaemonRequests.entries.filter
        fun e => e.2.targetDaemonKey == key || e.2.requesterDaemonKey == key)).count_le n
    exact le_trans (Nat.add_le_add_right hsub _) (le_of_eq hspl)

/-! ### Tokens along the steps -/

theorem tokens_take (send : Send) (id : RelayId) : (s.take send).tokens id = s.tokens id + answersIn id [send] := by
  have hsame : (s.take send).tokens id =
      answersIn id (s.sent ++ [send]) + s.pendingCount id + s.load (Task.owes id) := rfl
  rw [hsame, answersIn_append, tokens]
  omega

@[simp] theorem insertPending_connections (n : Nat) (req : Relayed) :
    (s.insertPending n req).connections = s.connections := by
  cases req <;> rfl

@[simp] theorem removePending_connections (id : RelayId) : (s.removePending id).connections = s.connections := by
  cases id <;> rfl

theorem tokens_insertPending (n : Nat) (req : Relayed) (id : RelayId) :
    (s.insertPending n req).tokens id ≤ s.tokens id + if req.id n = id then 1 else 0 := by
  have hcnt := pendingCount_insertPending (s := s) n req id
  have hsame : (s.insertPending n req).tokens id =
      answersIn id s.sent + (s.insertPending n req).pendingCount id + s.load (Task.owes id) := by
    cases req <;> rfl
  rw [hsame, tokens]
  omega

theorem tokens_removePending (id other : RelayId) :
    (s.removePending id).tokens other + (if other = id then s.pendingCount other else 0) = s.tokens other := by
  have hcnt := pendingCount_removePending (s := s) id other
  have hsame : (s.removePending id).tokens other =
      answersIn other s.sent + (s.removePending id).pendingCount other + s.load (Task.owes other) := by
    cases id <;> rfl
  rw [hsame, hcnt, tokens]
  split <;> omega

section

variable (s : RelayState) (addr : SocketAddr)

section

variable (number : Nat) (p : PendingClientRequest) (er : Option RelayError)

/-- Beside its pending entry an answer changes only subscriptions and the counter. -/
theorem settle_eq : ∃ subscriptions eventRoutes n,
      (s.settle addr number p er).1 = { (s.removePending (.request number)).count n with
        subscriptions := subscriptions, eventRoutes := eventRoutes } ∧
      ∀ send ∈ (s.settle addr number p er).2, send.answers = none := by
  unfold settle applyAnswer
  dsimp only
  split
  · split
    · exact ⟨_, _, 0, rfl, by simp⟩
    · split
      · exact ⟨_, _, 0, rfl, by simp⟩
      · exact ⟨_, _, 1, rfl, by simp⟩
    · exact ⟨_, _, 0, rfl, by simp⟩
  · exact ⟨_, _, 0, rfl, by simp⟩

theorem tokens_settle (id : RelayId) :
    (s.settle addr number p er).1.tokens id = (s.removePending (.request number)).tokens id := by
  obtain ⟨_, _, _, heq, -⟩ := settle_eq s addr number p er
  rw [heq]
  rfl

end

theorem freeKey_frame (key : DaemonKey) :
    (s.freeKey addr key).1.connections = s.connections ∧ (s.freeKey addr key).1.sent = s.sent ∧
      (s.freeKey addr key).1.relayRequestCounter = s.relayRequestCounter ∧
      (s.freeKey addr key).1.forwarded = s.forwarded := by
  unfold freeKey
  split <;> exact ⟨rfl, rfl, rfl, rfl⟩

theorem freeKey_pendingCount (key : DaemonKey) (id : RelayId) :
    answersIn id ((s.freeKey addr key).2.announce false) + (s.freeKey addr key).1.pendingCount id ≤
      s.pendingCount id := by
  unfold freeKey
  split
  · cases id <;> exact le_of_eq (Nat.zero_add _)
  · exact releaseDaemon_pendingCount key false id

theorem dropClient_pendingCount (id : RelayId) : (s.dropClient addr).pendingCount id ≤ s.pendingCount id := by
  cases id with
  | request n =>
    unfold pendingCount isPending dropClient
    dsimp only
    split
    · have hspl := s.pendingClientRequests.count_filter_add_contains (fun pend => pend.clientAddr == addr) n
      exact Nat.le_of_add_left_le (le_of_eq hspl)
    · exact le_rfl
  | peerRequest => exact le_rfl

theorem leave_frame (c : Connection) :
    (s.leave addr c).1.connections = s.connections ∧ (s.leave addr c).1.sent = s.sent ∧
      s.relayRequestCounter ≤ (s.leave addr c).1.relayRequestCounter ∧
      (s.leave addr c).1.forwarded = s.forwarded := by
  unfold leave
  split <;> exact ⟨rfl, rfl, Nat.le_add_right _ _, rfl⟩

theorem leave_pendingCount (c : Connection) (reload : Bool) (id : RelayId) :
    answersIn id ((s.leave addr c).2.announce reload) + (s.leave addr c).1.pendingCount id ≤ s.pendingCount id := by
  have hdrop := dropClient_pendingCount s addr id
  unfold leave
  split
  · exact le_trans (releaseDaemon_pendingCount _ reload id) hdrop
  · cases id <;> exact le_trans (le_of_eq (Nat.zero_add _)) hdrop

end

end RelayState

def RelayId.number : RelayId → Nat
  | .request number => number
  | .peerRequest number => number

theorem Relayed.id_number (number : Nat) (req : Relayed) : (req.id number).number = number := by
  cases req <;> rfl

namespace RelayState

/-- Between two states only the next relay request id may gain one. -/
def Grows (tally : RelayState → RelayId → Nat) (s s' : RelayState) : Prop :=
  ∀ id, tally s' id ≤ tally s id ∨
    (id.number = s.relayRequestCounter + 1 ∧ s'.relayRequestCounter = s.relayRequestCounter + 1 ∧
      tally s' id ≤ tally s id + 1)

/-- No id has more than one, and an id not given out has none. -/
def Counted (tally : RelayState → RelayId → Nat) (s : RelayState) : Prop :=
  ∀ id, tally s id ≤ 1 ∧ (s.relayRequestCounter < id.number → tally s id = 0)

theorem Counted.step {ta : RelayState → RelayId → Nat} {s s' : RelayState} (h : Counted ta s)
    (hg : Grows ta s s') (hc : s.relayRequestCounter ≤ s'.relayRequestCounter) : Counted ta s' := by
  intro id
  obtain ⟨hle, hf⟩ := h id
  rcases hg id with hs | ⟨hnu, hn, hm⟩
  · omega
  · exact ⟨by omega, by omega⟩

variable {s s' : RelayState} {addr : SocketAddr} {c : Connection}

theorem TaskMove.counter_le (h : TaskMove s addr c s') : s.relayRequestCounter ≤ s'.relayRequestCounter := by
  cases h with
  | quiet => exact Nat.le_add_right _ _
  | registered key => exact le_of_eq (freeKey_frame s addr key).2.2.1.symm
  | requested | subscribing | notFound => exact Nat.le_succ _
  | inserted num req | gaveUp num req => cases req <;> exact le_rfl
  | answered num resp er time ht p =>
    obtain ⟨_, _, n, heq, -⟩ := settle_eq s addr num p er
    rw [heq]
    exact Nat.le_add_right _ _
  | slowClosed =>
    unfold closeSlowSubscription
    split <;> exact le_rfl
  | removed => exact (leave_frame s addr c).2.2.1
  | _ => exact le_rfl

variable {id : RelayId} {act : Action}

private theorem tokens_put_le {x : RelayState} (hg : x.connections.get addr = some c) {c' : Connection} {task : Task}
    (h : x.tokens id + task.owes id ≤ s.tokens id + c.task.owes id) : (x.put addr c' task).tokens id ≤ s.tokens id := by
  have hput := tokens_put hg c' task id
  omega

theorem grows_allocate {ta : RelayState → RelayId → Nat} {w : RelayId → Task → Nat} {task : Task}
    (hp : ta (s.allocate.put addr c task) id + w id c.task = ta s id + w id task)
    (h : w id task ≤ if id.number = s.relayRequestCounter + 1 then 1 else 0) :
    ta (s.allocate.put addr c task) id ≤ ta s id ∨
      (id.number = s.relayRequestCounter + 1 ∧
        (s.allocate.put addr c task).relayRequestCounter = s.relayRequestCounter + 1 ∧
        ta (s.allocate.put addr c task) id ≤ ta s id + 1) := by
  by_cases hnum : id.number = s.relayRequestCounter + 1
  · rw [if_pos hnum] at h
    exact .inr ⟨hnum, rfl, by omega⟩
  · rw [if_neg hnum] at h
    exact .inl (by omega)

theorem ite_id_le {n : Nat} {o : RelayId} (h : o.number = n) :
    (if o = id then 1 else 0) ≤ if id.number = n then 1 else 0 := by
  by_cases heq : o = id
  · rw [if_pos heq, if_pos (heq ▸ h)]
  · rw [if_neg heq]
    exact Nat.zero_le _

theorem routed_owes (n : Nat) (req : Relayed) (sn : Option DaemonSender) (id : RelayId) :
    (routed n req sn).owes id = 0 := by
  cases sn <;> rfl

section

variable (hget : s.connections.get addr = some c)

include hget

private theorem tokens_registerDaemon_le (key : DaemonKey) (pkey : String)
    (id : RelayId) : (s.registerDaemon addr c key pkey).tokens id ≤ s.tokens id := by
  obtain ⟨hc, hs, -⟩ := freeKey_frame s addr key
  have hcnt := freeKey_pendingCount s addr key id
  refine tokens_put_le (by change (s.freeKey addr key).1.connections.get addr = some c; rw [hc]; exact hget) ?_
  have hzero : answersIn id ((s.replacedPeers addr key).map (Send.close · "daemon reconnected")) = 0 := by
    refine answersIn_of_none fun send hm => ?_
    obtain ⟨_, -, rfl⟩ := mem_map.1 hm
    rfl
  have htokens : ((s.freeKey addr key).1.enterDaemon addr key pkey).tokens id =
      answersIn id s.sent + (s.freeKey addr key).1.pendingCount id + s.load (Task.owes id) := by
    unfold tokens load
    rw [← hc, ← hs]
    rfl
  rw [htokens, Task.owes, answersIn_append, tokens]
  omega

private theorem tokens_answer_le {num : Nat} {p : PendingClientRequest}
    (hp : s.pendingClientRequests.get num = some p) (er : Option RelayError) {sds : List Send}
    (ha : ∀ send ∈ sds, send.answers = some (.request num)) (hl : sds.length ≤ 1) (id : RelayId) :
    ((s.settle addr num p er).1.put addr c
      (.deliver ((s.settle addr num p er).2 ++ sds) .idle)).tokens id ≤ s.tokens id := by
  have hrmv := tokens_removePending (s := s) (.request num) id
  have hsettle := tokens_settle s addr num p er id
  obtain ⟨subscriptions, eventRoutes, n, heq, hn⟩ := settle_eq s addr num p er
  refine tokens_put_le (by rw [heq]; exact hget) ?_
  rw [hsettle, Task.owes, answersIn_append, answersIn_of_none hn]
  have hsends : answersIn id sds ≤ if id = .request num then 1 else 0 := by
    rcases sds with - | ⟨send, - | ⟨_, _⟩⟩
    · exact Nat.zero_le _
    · rw [answersIn_singleton (ha send (mem_singleton_self send))]
      simp only [eq_comm, le_refl]
    · simp at hl
  have hone : s.pendingCount (.request num) = 1 := by
    rw [pendingCount, isPending, OrdMap.contains, hp]
    rfl
  by_cases hid : id = .request num
  · rw [if_pos hid] at hsends hrmv
    rw [hid] at hrmv hsends ⊢
    omega
  · rw [if_neg hid] at hsends
    omega

private theorem tokens_removePeer_le (reload : Bool) (id : RelayId) :
    (s.removePeer addr c reload).tokens id ≤ s.tokens id := by
  obtain ⟨hc, hs, -⟩ := leave_frame s addr c
  have hcnt := leave_pendingCount s addr c reload id
  refine tokens_put_le (by rw [hc]; exact hget) ?_
  have hzero : answersIn id (s.cleanups (s.abandonedSubscriptions addr)) = 0 :=
    answersIn_of_none fun send hm => cleanups_answers hm
  have htokens : (s.leave addr c).1.tokens id =
      answersIn id s.sent + (s.leave addr c).1.pendingCount id + s.load (Task.owes id) := by
    unfold tokens load
    rw [hc, hs]
  rw [htokens, Task.owes, answersIn_append, tokens]
  omega

end

/-- A step adds no token but that of a new request, if a requester's task that gives up finds its entry. -/
theorem TaskMove.tokens_grow (h : TaskMove s addr c s') (hg : s.connections.get addr = some c)
    (he : ∀ n req, c.task = .unrouted n req ∨ c.task = .overloaded n req →
      s.isPending (req.id n) = true) : Grows tokens s s' := by
  intro id
  cases h with
  | quiet _ hqt | connected _ _ hqt =>
    refine .inl (tokens_put_le hg ?_)
    rw [Task.isQuiet_owes hqt]
    exact Nat.le_add_right _ _
  | registered key pkey => exact .inl (tokens_registerDaemon_le hg key pkey id)
  | requested req =>
    exact grows_allocate (w := Task.owes) (tokens_put (s := s.allocate) hg c _ id)
      (ite_id_le (req.id_number _))
  | subscribing req hn =>
    exact grows_allocate (w := Task.owes) (tokens_put (s := s.allocate) hg c _ id) (ite_id_le hn)
  | notFound =>
    refine grows_allocate (w := Task.owes) (tokens_put (s := s.allocate) hg c _ id) ?_
    rw [Task.owes, answersIn_singleton rfl]
    exact ite_id_le rfl
  | unsubscribed req ht =>
    refine .inl (tokens_put_le hg ?_)
    rw [Task.owes, answersIn_singleton (Relayed.refusal_answers ..), ht]
    exact le_rfl
  | subscribed req ht =>
    have hins := tokens_insertPending (s := s) req.number (req.relayed addr) id
    refine .inl (tokens_put_le (by exact hg) ?_)
    rw [routed_owes, ht]
    exact hins
  | inserted n req ht =>
    have hins := tokens_insertPending (s := s) n req id
    refine .inl (tokens_put_le (by rw [insertPending_connections]; exact hg) ?_)
    rw [ht]
    exact hins
  | routed =>
    refine .inl (tokens_put_le hg ?_)
    rw [routed_owes]
    exact Nat.le_add_right _ _
  | forwarded n req sn =>
    have htake := tokens_take (s := s) ⟨sn.peer, req.envelope n, none, false⟩ id
    refine .inl (tokens_put_le (x := s.forwardTo n req sn) hg ?_)
    exact le_trans (le_of_eq htake) (Nat.le_add_right _ _)
  | gaveUp n req er ht =>
    have hrmv := tokens_removePending (s := s) (req.id n) id
    refine .inl (tokens_put_le (by rw [removePending_connections]; exact hg) ?_)
    rw [Task.owes, answersIn_singleton (Relayed.refusal_answers ..)]
    by_cases hid : id = req.id n
    · have hone : s.pendingCount id = 1 := by
        rw [hid, pendingCount, if_pos (he n req ht)]
      rw [if_pos hid] at hrmv
      rw [if_pos hid.symm]
      omega
    · rw [if_neg (Ne.symm hid)]
      omega
  | answered n resp er time ht pend hp hk sds ha hl =>
    exact .inl (tokens_answer_le hg hp er ha hl id)
  | tookPeer n pend resp er hp =>
    have hrmv := tokens_removePending (s := s) (.peerRequest n) id
    refine .inl (tokens_put_le (x := s.removePending (.peerRequest n)) hg ?_)
    have hone : s.pendingCount (.peerRequest n) = 1 := by
      rw [pendingCount, isPending, OrdMap.contains, hp]
      rfl
    rw [Task.owes]
    by_cases hid : id = .peerRequest n
    · subst hid
      rw [if_pos rfl] at hrmv ⊢
      omega
    rw [if_neg (Ne.symm hid)]
    omega
  | answering n pend resp er ht send han =>
    refine .inl (tokens_put_le hg ?_)
    rw [Task.owes, answersIn_singleton han, ht]
    exact le_rfl
  | eventSent e =>
    have htake := tokens_take (s := s)
      ⟨e.clientSender, .clientEvent e.subscriptionId e.eventId e.event, none, false⟩ id
    refine .inl (tokens_put_le (x := s.sendEvent e) hg ?_)
    exact le_trans (le_of_eq htake) (Nat.le_add_right _ _)
  | slowClosed sid =>
    unfold closeSlowSubscription
    split <;> exact .inl (tokens_put_le hg (Nat.le_add_right _ _))
  | delivered send rest next ht =>
    have htake := tokens_take (s := s) send id
    refine .inl (tokens_put_le (x := s.take send) hg ?_)
    rw [htake, ht, Task.owes, Task.owes, answersIn_cons, answersIn_cons]
    simp only [answersIn, filterMap_nil, count_nil]
    omega
  | dropped send rest next ht =>
    refine .inl (tokens_put_le hg ?_)
    rw [ht, Task.owes, Task.owes, answersIn_cons]
    omega
  | gone =>
    have hsum := sumBy_remove_of_some (fun (_ : SocketAddr) (c : Connection) => c.task.owes id) hg
    refine .inl ?_
    change answersIn id s.sent + s.pendingCount id + (s.connections.remove addr).sumBy _ ≤ _
    rw [tokens, load]
    omega
  | removed reload => exact .inl (tokens_removePeer_le hg reload id)
  | _ => exact .inl (tokens_put_le hg (Nat.le_add_right _ _))

/-! ### Runs -/

/-- A requester's task that gives its request up finds the pending entry still there. -/
def entryPresent (s : RelayState) : Action → Bool
  | .advance addr _ _ =>
    match (s.connections.get addr).map Connection.task with
    | some (.unrouted number request) => s.isPending (request.id number)
    | some (.overloaded number request) => s.isPending (request.id number)
    | _ => true
  | _ => true

theorem load_opened (h : s.connections.get addr = none) {weight : Task → Nat} (hi : weight .idle = 0) :
    RelayState.load { s with connections := s.connections.insert addr ⟨none, .idle⟩ } weight = s.load weight := by
  have hsum := sumBy_insert_of_none (fun (_ : SocketAddr) (c : Connection) => weight c.task) h ⟨none, .idle⟩
  rw [hi] at hsum
  exact hsum

theorem Move.counter_le (h : Move s act s') : s.relayRequestCounter ≤ s'.relayRequestCounter := by
  cases h with
  | task addr c hg ver dlv ht => exact ht.counter_le
  | _ => exact le_rfl

theorem Move.tokens_grow (h : Move s act s') (he : s.entryPresent act = true) : Grows tokens s s' := by
  cases h with
  | stay => exact fun id => .inl le_rfl
  | opened addr hg => exact fun id => .inl (Nat.add_le_add_left (le_of_eq (load_opened hg rfl)) _)
  | read addr c hg | ended addr c hg => exact fun id => .inl (tokens_put_le hg (Nat.le_add_right _ _))
  | task addr c hg ver dlv ht =>
    refine ht.tokens_grow hg ?_
    rw [entryPresent, hg, Option.map_some] at he
    rintro n req (hu | ho)
    · rw [hu] at he
      exact he
    · rw [ho] at he
      exact he

theorem counted_step (h : Counted tokens s) (he : s.entryPresent act = true) : Counted tokens (s.step act) := by
  have hmove := act_move s act
  exact h.step (hmove.tokens_grow he) hmove.counter_le

theorem counted_new : Counted tokens new := by
  intro id
  have hzero : new.tokens id = 0 := by cases id <;> rfl
  exact ⟨by omega, fun _ => hzero⟩

theorem run_counted {acts : List Action} (h : everyStep step entryPresent new acts = true) : Counted tokens (run acts) :=
  foldl_induction (fun _ _ hc he => counted_step hc he) counted_new h

theorem answers_count (s : RelayState) (id : RelayId) : s.answers.count id ≤ s.tokens id :=
  le_trans (Nat.le_add_right _ _) (Nat.le_add_right _ _)

end RelayState

end Chariox.RelayRouting
