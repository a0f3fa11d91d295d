import Chariox.RelayRouting.OneAnswer

/-!
# Released registrations

A request is sent on through the sender its task has looked up, after its pending entry was written.  The invariant
`Traced` ties an entry whose request has such a sender to the sender's registration, and says that this registration
has not been released: the release takes out every entry of its daemon, and an entry written afterwards finds another
sender.
-/

namespace Chariox.RelayRouting

open OrdMap List

/-- The task neither looks a sender up nor has one. -/
def Task.isLocal : Task → Bool
  | .lookup .. | .forward .. => false
  | _ => true

theorem Task.isLocal_of_isQuiet {task : Task} (h : task.isQuiet = true) : task.isLocal = true := by
  cases task <;> first | rfl | cases h

namespace RelayState

variable {s s' : RelayState} {addr : SocketAddr} {c : Connection}

/-! ### Requests in the hands of one task -/

/-- How often a request was sent on, or may still be sent on by a task. -/
def holdings (s : RelayState) (id : RelayId) : Nat := (s.forwarded.map Prod.fst).count id + s.load (Task.holds id)

private theorem holdings_put {x : RelayState} (hg : x.connections.get addr = some c) (c' : Connection) (task : Task)
    (id : RelayId) : (x.put addr c' task).holdings id + c.task.holds id = x.holdings id + task.holds id := by
  have hload := load_put hg c' task (Task.holds id)
  have hsame : (x.put addr c' task).holdings id =
      (x.forwarded.map Prod.fst).count id + (x.put addr c' task).load (Task.holds id) := rfl
  rw [hsame, holdings]
  omega

variable {id : RelayId} {key : DaemonKey}

private theorem holdings_put_le {x : RelayState} (hg : s.connections.get addr = some c)
    (hc : x.connections = s.connections) (hf : x.forwarded = s.forwarded) {c' : Connection}
    {task : Task} (h : task.holds id ≤ c.task.holds id) : (x.put addr c' task).holdings id ≤ s.holdings id := by
  have hput := holdings_put (by rw [hc]; exact hg) c' task id
  have hsame : x.holdings id = s.holdings id := by
    unfold holdings load
    rw [hc, hf]
  omega

theorem routed_holds (n : Nat) (req : Relayed) (sn : Option DaemonSender) (id : RelayId) :
    (routed n req sn).holds id ≤ if req.id n = id then 1 else 0 := by
  cases sn
  · exact Nat.zero_le _
  · exact le_rfl

/-- Only a new request comes into the hands of a task, and it is sent on at most once. -/
theorem TaskMove.holdings_grow (h : TaskMove s addr c s') (hg : s.connections.get addr = some c) :
    Grows holdings s s' := by
  intro id
  cases h with
  | quiet _ hqt | connected _ _ hqt =>
    refine .inl (holdings_put_le hg rfl rfl ?_)
    rw [Task.isQuiet_holds hqt]
    exact Nat.zero_le _
  | registered key pkey time ht hk =>
    obtain ⟨hc, -, -, hf⟩ := freeKey_frame s addr key
    exact .inl (holdings_put_le hg hc hf (Nat.zero_le _))
  | requested req hpl hcl ho =>
    exact grows_allocate (w := Task.holds) (holdings_put hg c _ id)
      (ite_id_le (req.id_number _))
  | subscribing req hn hcl =>
    exact grows_allocate (w := Task.holds) (holdings_put hg c _ id) (ite_id_le hn)
  | subscribed req ht | routed num req ht =>
    refine .inl (holdings_put_le hg rfl rfl ?_)
    rw [ht]
    exact routed_holds _ _ _ id
  | inserted num req ht =>
    refine .inl (holdings_put_le hg (insertPending_connections num req) (by cases req <;> rfl) ?_)
    rw [ht]
    exact le_rfl
  | forwarded num req sn ht =>
    have hput := holdings_put (x := s.forwardTo num req sn) hg c .idle id
    have hsame : (s.forwardTo num req sn).holdings id = s.holdings id + if req.id num = id then 1 else 0 := by
      change ((s.forwarded ++ [_]).map Prod.fst).count id + s.load (Task.holds id) = _
      rw [map_append, count_append, map_singleton, count_singleton, holdings]
      simp only [beq_iff_eq]
      omega
    rw [ht] at hput
    simp only [Task.holds] at hput
    exact .inl (by omega)
  | gaveUp num req er ht =>
    exact .inl (holdings_put_le hg (removePending_connections _) (by cases req <;> rfl) (Nat.zero_le _))
  | answered num resp er time ht pend =>
    obtain ⟨_, _, n, heq, -⟩ := settle_eq s addr num pend er
    exact .inl (holdings_put_le hg (by rw [heq]; rfl) (by rw [heq]; rfl) (Nat.zero_le _))
  | slowClosed sid key ht =>
    unfold closeSlowSubscription
    split <;> exact .inl (holdings_put_le hg rfl rfl (Nat.zero_le _))
  | gone ht =>
    have hsum := sumBy_remove_of_some (fun (_ : SocketAddr) (c : Connection) => c.task.holds id) hg
    refine .inl ?_
    change (s.forwarded.map Prod.fst).count id + (s.connections.remove addr).sumBy _ ≤ _
    rw [holdings, load]
    omega
  | removed reload ht =>
    obtain ⟨hc, -, -, hf⟩ := leave_frame s addr c
    exact .inl (holdings_put_le hg hc hf (Nat.zero_le _))
  | _ => exact .inl (holdings_put_le hg rfl rfl (Nat.zero_le _))

/-! ### Where a pending request was sent -/

/-- The daemon of a pending request. -/
def pendingKey (s : RelayState) : RelayId → Option DaemonKey
  | .request number => (s.pendingClientRequests.get number).map PendingClientRequest.daemonKey
  | .peerRequest number => (s.pendingDaemonRequests.get number).map PendingDaemonPeerRequest.targetDaemonKey

theorem isPending_iff : s.isPending id = true ↔ ∃ key, s.pendingKey id = some key := by
  rw [← Option.isSome_iff_exists]
  cases id <;> rw [isPending, pendingKey, OrdMap.contains, Option.isSome_map]

/-- The request was sent on to the registration, or a task has the registration's sender for it. -/
def SentTo (s : RelayState) (id : RelayId) (registration : Registration) : Prop :=
  (id, registration) ∈ s.forwarded ∨
    ∃ addr c number request sender, s.connections.get addr = some c ∧ c.task = .forward number request sender ∧
      request.id number = id ∧ sender.registration = registration

/-- Pending requests and the registrations they were sent to. -/
structure Traced (s : RelayState) : Prop where
  senders : ∀ key sender, s.daemonSenders.get key = some sender →
    sender.registration.key = key ∧ sender.registration.number ≤ s.registrations ∧ sender.registration ∉ s.released
  numbered : ∀ registration ∈ s.released, registration.number ≤ s.registrations
  waiting : ∀ addr c number request, s.connections.get addr = some c → c.task = .lookup number request →
    ∀ key, s.pendingKey (request.id number) = some key → key = request.daemonKey
  sentTo : ∀ id registration key, s.SentTo id registration → s.pendingKey id = some key →
    key = registration.key ∧ registration ∉ s.released

theorem pendingKey_insertPending (n : Nat) (req : Relayed) (id : RelayId) :
    (s.insertPending n req).pendingKey id = if id = req.id n then some req.daemonKey else s.pendingKey id := by
  cases req <;> cases id <;>
    simp only [pendingKey, RelayState.insertPending, Relayed.id, Relayed.daemonKey, get_insert,
      RelayId.request.injEq, RelayId.peerRequest.injEq, reduceCtorEq, if_false]
  · split <;> rfl
  · split <;> rfl

theorem pendingKey_inserted {n : Nat} {req : Relayed}
    (h : (s.insertPending n req).pendingKey (req.id n) = some key) : key = req.daemonKey := by
  rw [pendingKey_insertPending, if_pos rfl] at h
  exact Option.some.inj h.symm

theorem removePending_pendingKey {o : RelayId}
    (h : (s.removePending id).pendingKey o = some key) : s.pendingKey o = some key := by
  cases id <;> cases o <;> simp only [pendingKey, removePending, get_remove] at h
  · split at h
    · cases h
    · exact h
  · exact h
  · exact h
  · split at h
    · cases h
    · exact h

private theorem map_retain {V W : Type} {m : OrdMap Nat V} {p : V → Bool} {f : V → W} {n : Nat} {w : W}
    (h : ((m.retain (fun _ v => p v)).get n).map f = some w) : ∃ v, m.get n = some v ∧ p v = true ∧ f v = w := by
  rw [get_retain] at h
  obtain ⟨v, hv, hw⟩ := Option.map_eq_some_iff.1 h
  rw [Option.filter_eq_some_iff] at hv
  exact ⟨v, hv.1, hv.2, hw⟩

theorem releaseDaemon_pendingKey {o : DaemonKey}
    (h : (s.releaseDaemon key).1.pendingKey id = some o) : s.pendingKey id = some o ∧ o ≠ key := by
  cases id with
  | request n =>
    obtain ⟨pend, hg, hk, rfl⟩ := map_retain h
    refine ⟨Option.map_eq_some_iff.2 ⟨pend, hg, rfl⟩, ?_⟩
    simpa using hk
  | peerRequest n =>
    obtain ⟨pend, hg, hk, rfl⟩ := map_retain h
    refine ⟨Option.map_eq_some_iff.2 ⟨pend, hg, rfl⟩, ?_⟩
    rw [Bool.not_eq_true', Bool.or_eq_false_iff, beq_eq_false_iff_ne] at hk
    exact hk.1

theorem dropClient_pendingKey (h : (s.dropClient addr).pendingKey id = some key) : s.pendingKey id = some key := by
  cases id with
  | request n =>
    unfold pendingKey dropClient at h
    dsimp only at h
    split at h
    · obtain ⟨pend, hg, -, rfl⟩ := map_retain h
      exact Option.map_eq_some_iff.2 ⟨pend, hg, rfl⟩
    · exact h
  | peerRequest n => exact h

theorem eq_of_holds {other : SocketAddr} {c' : Connection} (hg : s.connections.get addr = some c)
    (hh : c.task.holds id = 1) (hg' : s.connections.get other = some c') (hh' : c'.task.holds id = 1)
    (hl : s.load (Task.holds id) ≤ 1) : addr = other := by
  by_contra hne
  have hrest : (s.connections.remove addr).get other = some c' := by
    rw [get_remove, if_neg (Ne.symm hne)]
    exact hg'
  have hsum := sumBy_remove_of_some (fun (_ : SocketAddr) (c : Connection) => c.task.holds id) hg
  have hsum' := sumBy_remove_of_some (fun (_ : SocketAddr) (c : Connection) => c.task.holds id) hrest
  rw [load] at hl
  omega

namespace Traced

variable {request : Relayed} {number : Nat}

section

variable (h : Traced s)

include h

/-- Another task of a handler, which may look a sender up or have the sender of its request's daemon. -/
theorem put {task : Task} (hl : ∀ n req key, task = .lookup n req →
      s.pendingKey (req.id n) = some key → key = req.daemonKey)
    (hf : ∀ n req sn key, task = .forward n req sn →
      s.pendingKey (req.id n) = some key →
        key = sn.registration.key ∧ sn.registration ∉ s.released) : Traced (s.put addr c task) :=
  { h with
    waiting o c' n req hg ht key := by
      rw [get_put] at hg
      split at hg
      · cases hg
        exact hl n req key ht
      · exact h.waiting o c' n req hg ht key
    sentTo id registration key hsent hpend := by
      rcases hsent with hm | ⟨o, c', n, req, sn, hg, ht, hid, hr⟩
      · exact h.sentTo id registration key (.inl hm) hpend
      rw [get_put] at hg
      split at hg
      · cases hg
        subst hid hr
        exact hf n req sn key ht hpend
      · exact h.sentTo id registration key
          (.inr ⟨o, c', n, req, sn, hg, ht, hid, hr⟩) hpend }

/-- A task that neither looks a sender up nor has one changes nothing. -/
theorem put_local {task : Task} (hl : task.isLocal = true) : Traced (s.put addr c task) := by
  refine h.put ?_ ?_
  · rintro n req key rfl
    cases hl
  · rintro n req sn key rfl
    cases hl

theorem put_lookup (hk : ∀ key, s.pendingKey (request.id number) = some key → key = request.daemonKey) :
    Traced (s.put addr c (.lookup number request)) := by
  refine h.put ?_ nofun
  intro n' req' key heq
  cases heq
  exact hk key

theorem put_forward {sn : DaemonSender}
    (hk : ∀ key, s.pendingKey (request.id number) = some key → key = request.daemonKey)
    (hsd : s.daemonSenders.get request.daemonKey = some sn) : Traced (s.put addr c (.forward number request sn)) := by
  refine h.put nofun ?_
  intro n' req' sn' key heq hp
  cases heq
  obtain ⟨hs, -, hl⟩ := h.senders _ _ hsd
  rw [hs]
  exact ⟨hk key hp, hl⟩

theorem put_routed {sn : Option DaemonSender}
    (hk : ∀ key, s.pendingKey (request.id number) = some key → key = request.daemonKey)
    (hs : ∀ x, sn = some x → s.daemonSenders.get request.daemonKey = some x) :
    Traced (s.put addr c (routed number request sn)) := by
  cases sn with
  | none => exact h.put_local rfl
  | some sn => exact h.put_forward hk (hs sn rfl)

theorem release (key : DaemonKey) : Traced (s.releaseDaemon key).1 where
  senders other sender hget := by
    obtain ⟨hne, hget⟩ := of_get_remove hget
    obtain ⟨hk, hnu, hl⟩ := h.senders other sender hget
    refine ⟨hk, hnu, fun hmem => ?_⟩
    rcases mem_append.1 hmem with hn | hold
    · obtain ⟨old, hold, heq⟩ := mem_map.1 hn
      rw [Option.mem_toList] at hold
      have hoth := (h.senders key old hold).1
      rw [heq, hk] at hoth
      exact hne hoth
    · exact hl hold
  numbered registration hmem := by
    rcases mem_append.1 hmem with hn | hold
    · obtain ⟨old, hold, rfl⟩ := mem_map.1 hn
      exact (h.senders key old (Option.mem_toList.1 hold)).2.1
    · exact h.numbered registration hold
  waiting addr c number request hget htask other hoth :=
    h.waiting addr c number request hget htask other (releaseDaemon_pendingKey hoth).1
  sentTo id registration other hsent hoth := by
    obtain ⟨hp, hne⟩ := releaseDaemon_pendingKey hoth
    obtain ⟨hk, hl⟩ := h.sentTo id registration other hsent hp
    refine ⟨hk, fun hmem => ?_⟩
    rcases mem_append.1 hmem with hn | hold
    · obtain ⟨old, hold, heq⟩ := mem_map.1 hn
      have hold := (h.senders key old (Option.mem_toList.1 hold)).1
      rw [heq, ← hk] at hold
      exact hne hold
    · exact hl hold

/-- The registration that a socket enters is not released: it is a new one, or the socket's own. -/
theorem notMem_released (addr : SocketAddr) (key : DaemonKey) :
    (⟨key, s.registrationNumber addr key⟩ : Registration) ∉ s.released := by
  have hnew : (⟨key, s.registrations + 1⟩ : Registration) ∉ s.released := fun hmem =>
    absurd (h.numbered _ hmem) (Nat.not_succ_le_self _)
  unfold registrationNumber
  split
  · rename_i sender hget
    split
    · obtain ⟨rfl, -, hl⟩ := h.senders key sender hget
      exact hl
    · exact hnew
  · exact hnew

theorem enterDaemon (addr : SocketAddr) (key : DaemonKey) (pkey : String) : Traced (s.enterDaemon addr key pkey) :=
  { h with
    senders other sender hget := by
      rcases of_get_insert hget with ⟨heq, rfl⟩ | ⟨-, hget⟩
      · exact ⟨heq.symm, le_max_right _ _, h.notMem_released addr key⟩
      · obtain ⟨hk, hn, hl⟩ := h.senders other sender hget
        exact ⟨hk, le_max_of_le_left hn, hl⟩
    numbered registration hmem := le_max_of_le_left (h.numbered registration hmem) }

theorem freeKey (addr : SocketAddr) (key : DaemonKey) : Traced (s.freeKey addr key).1 := by
  have hkept : Traced { s with
      peers := s.peers.retain fun o peer => !(o != addr && peer == PeerHandle.daemon key) } := { h with }
  unfold RelayState.freeKey
  split
  · exact hkept
  · exact hkept.release key

theorem leave (addr : SocketAddr) (c : Connection) : Traced (s.leave addr c).1 := by
  have hdrop : Traced (s.dropClient addr) :=
    { h with
      waiting other c number request hget htask key hkey :=
        h.waiting other c number request hget htask key (dropClient_pendingKey hkey)
      sentTo id registration key hsent hkey := h.sentTo id registration key hsent (dropClient_pendingKey hkey) }
  unfold RelayState.leave
  split
  · exact hdrop.release _
  · exact hdrop

theorem removePending (id : RelayId) : Traced (s.removePending id) := by
  have hw : ∀ addr c n req, s.connections.get addr = some c → c.task = .lookup n req →
      ∀ key, (s.removePending id).pendingKey (req.id n) = some key → key = req.daemonKey :=
    fun addr c n req hg ht key hk =>
      h.waiting addr c n req hg ht key (removePending_pendingKey hk)
  have hsentTo : ∀ o reg key, s.SentTo o reg →
      (s.removePending id).pendingKey o = some key → key = reg.key ∧ reg ∉ s.released :=
    fun o reg key hs hk => h.sentTo o reg key hs (removePending_pendingKey hk)
  cases id <;> exact { h with waiting := hw, sentTo := hsentTo }

/-- A request that only its own task holds, and that was not sent on, becomes pending. -/
theorem insertPending (hc : Counted holdings s) (hg : s.connections.get addr = some c)
    (hl : c.task.isLocal = true) (n : Nat) (req : Relayed)
    (hh : c.task.holds (req.id n) = 1) : Traced (s.insertPending n req) := by
  have hsame : ∀ {o c'}, s.connections.get o = some c' → c'.task.holds (req.id n) = 1 → c' = c := by
    intro o c' hg' hh'
    have hle := (hc (req.id n)).1
    rw [eq_of_holds hg hh hg' hh' (Nat.le_of_add_left_le hle), hg'] at hg
    exact Option.some.inj hg
  have hfrsh : ∀ registration, ¬ s.SentTo (req.id n) registration := by
    rintro registration (hm | ⟨o, c', n', req', sender, hg', ht, hid, -⟩)
    · have hpos : 0 < (s.forwarded.map Prod.fst).count (req.id n) :=
        count_pos_iff.2 (mem_map.2 ⟨_, hm, rfl⟩)
      have hload := le_load hg (Task.holds (req.id n))
      have hle := (hc (req.id n)).1
      rw [holdings] at hle
      omega
    · rw [← hsame hg' (by rw [ht, Task.holds, if_pos hid]), ht] at hl
      cases hl
  refine ⟨?_, ?_, ?_, ?_⟩
  · cases req <;> exact h.senders
  · cases req <;> exact h.numbered
  · intro o c' n' req' hg' ht key hk
    rw [insertPending_connections] at hg'
    rw [pendingKey_insertPending] at hk
    split at hk
    · rename_i hid
      rw [← hsame hg' (by rw [ht, Task.holds, if_pos hid]), ht] at hl
      cases hl
    · exact h.waiting o c' n' req' hg' ht key hk
  · intro id registration key hs hk
    have hsent' : s.SentTo id registration := by
      unfold SentTo at hs
      cases req <;> exact hs
    rw [pendingKey_insertPending] at hk
    split at hk
    · rename_i hid
      rw [hid] at hsent'
      exact absurd hsent' (hfrsh registration)
    · have hold := h.sentTo id registration key hsent' hk
      cases req <;> exact hold

end

end Traced

theorem settle_traced (h : Traced s) (num : Nat) (pend : PendingClientRequest) (er : Option RelayError) :
    Traced (s.settle addr num pend er).1 := by
  obtain ⟨subs, eventRoutes, n, heq, -⟩ := settle_eq s addr num pend er
  rw [heq]
  exact { h.removePending (.request num) with }

theorem TaskMove.traced (h : TaskMove s addr c s') (hg : s.connections.get addr = some c)
    (hc : Counted holdings s) (ht : Traced s) : Traced s' := by
  cases h with
  | quiet n hqt hgo =>
    exact Traced.put_local (s := s.count n) { ht with } (Task.isLocal_of_isQuiet hqt)
  | bound key pkey hta =>
    exact Traced.put_local (s := { s with peers := s.peers.insert addr (.client key) }) { ht with } rfl
  | connected pkey hta hqt hgo =>
    exact Traced.put_local (s := { s with clientSenders := s.clientSenders.insert addr addr }) { ht with }
      (Task.isLocal_of_isQuiet hqt)
  | registered key pkey time hta hk =>
    exact ((ht.freeKey addr key).enterDaemon addr key pkey).put_local rfl
  | refreshed key pkey hk hp =>
    exact Traced.put_local (s := { s with daemons := s.daemons.insert key pkey }) { ht with } rfl
  | requested | subscribing | notFound => exact Traced.put_local (s := s.allocate) { ht with } rfl
  | subscribed req hta hf hd =>
    have hinsd := ht.insertPending hc hg (by rw [hta]; rfl) req.number (req.relayed addr)
      (by rw [hta]; exact if_pos rfl)
    exact hinsd.put_routed (fun _ => pendingKey_inserted) fun x hx => hx
  | inserted num req hta =>
    have hinsd := ht.insertPending hc hg (by rw [hta]; rfl) num req
      (by rw [hta]; exact if_pos rfl)
    exact hinsd.put_lookup fun _ => pendingKey_inserted
  | routed num req hta sn hsd =>
    exact ht.put_routed (ht.waiting addr c num req hg hta) hsd
  | forwarded num req sn hta =>
    have hfwd : Traced (s.forwardTo num req sn) := by
      refine { ht with sentTo := fun id reg key hs => ht.sentTo id reg key ?_ }
      rcases hs with hm | htasks
      · rcases mem_append.1 hm with ho | hn
        · exact .inl ho
        · cases mem_singleton.1 hn
          exact .inr ⟨addr, c, num, req, sn, hg, hta, rfl, rfl⟩
      · exact .inr htasks
    exact hfwd.put_local rfl
  | gaveUp num req er hta => exact (ht.removePending (req.id num)).put_local rfl
  | answered num resp er time hta pend => exact (settle_traced ht num pend er).put_local rfl
  | tookPeer num pend resp er hpe => exact (ht.removePending (.peerRequest num)).put_local rfl
  | eventSent e hta => exact Traced.put_local (s := s.sendEvent e) { ht with } rfl
  | slowClosed sid key hta =>
    unfold closeSlowSubscription
    split
    · exact ht.put_local rfl
    exact Traced.put_local (s := { s with
      subscriptions := s.subscriptions.remove sid
      eventRoutes := s.eventRoutes.remove sid }) { ht with } rfl
  | delivered send rest next hta => exact Traced.put_local (s := s.take send) { ht with } rfl
  | gone hta =>
    refine { ht with waiting := ?_, sentTo := ?_ }
    · intro o c' num req hg' ht' key hk
      obtain ⟨-, hg'⟩ := of_get_remove hg'
      exact ht.waiting o c' num req hg' ht' key hk
    intro id reg key hs hk
    refine ht.sentTo id reg key ?_ hk
    rcases hs with hm | ⟨o, c', num, req, sn, hg', hr⟩
    · exact .inl hm
    · obtain ⟨-, hg'⟩ := of_get_remove hg'
      exact .inr ⟨o, c', num, req, sn, hg', hr⟩
  | removed reload hta => exact (ht.leave addr c).put_local rfl
  | _ => exact ht.put_local rfl

/-! ### Runs -/

/-- The traces of a state, with each request in the hands of one task. -/
structure Accounted (s : RelayState) : Prop where
  counted : Counted holdings s
  traced : Traced s

theorem accounted_new : Accounted new where
  counted id := ⟨Nat.zero_le 1, fun _ => rfl⟩
  traced := {
    senders := nofun
    numbered := nofun
    waiting := fun _ _ _ _ h => by cases h
    sentTo := fun id _ _ _ h => by cases id <;> cases h }

theorem Move.holdings_grow {a : Action} (h : Move s a s') : Grows holdings s s' := by
  cases h with
  | stay => exact fun id => .inl le_rfl
  | opened addr hg => exact fun id => .inl (Nat.add_le_add_left (le_of_eq (load_opened hg rfl)) _)
  | read addr c hg | ended addr c hg => exact fun id => .inl (holdings_put_le hg rfl rfl (Nat.zero_le _))
  | task addr c hg ver dlv ht => exact ht.holdings_grow hg

theorem Move.traced {a : Action} (h : Move s a s') (hs : Accounted s) : Traced s' := by
  cases h with
  | stay => exact hs.traced
  | opened addr hg => exact @Traced.put_local s addr ⟨none, .idle⟩ hs.traced .idle rfl
  | task addr c hg ver dlv ht => exact ht.traced hg hs.counted hs.traced
  | _ => exact hs.traced.put_local rfl

theorem accounted_step (s : RelayState) (a : Action) (h : Accounted s) : Accounted (s.step a) := by
  have hmove := act_move s a
  have hcntd := h.counted.step hmove.holdings_grow hmove.counter_le
  have htraced := hmove.traced h
  exact ⟨hcntd, { htraced with }⟩

theorem run_accounted (acts : List Action) : Accounted (run acts) :=
  foldl_invariant accounted_step accounted_new acts

/-- In every run in which a requester's task that gives its request up finds the pending entry, each request that has a
relay request id is answered at most once.  In every run, no request that was sent on to a registration is pending after
the registration's release. -/
theorem one_answer_per_request (actions : List Action) :
    (everyStep step entryPresent new actions = true → ∀ id, (run actions).answers.count id ≤ 1) ∧
    ∀ id registration, (id, registration) ∈ (run actions).forwarded → registration ∈ (run actions).released →
      (run actions).isPending id = false := by
  constructor
  · intro h id
    exact le_trans (answers_count _ id) (run_counted h id).1
  intro id registration hm hr
  rw [Bool.eq_false_iff]
  intro hp
  obtain ⟨key, hk⟩ := isPending_iff.1 hp
  exact ((run_accounted actions).traced.sentTo id registration key (.inl hm) hk).2 hr

/-! ### Sample runs -/

def sampleKey : DaemonKey := .new "realm" "daemon"

/-- The handler of the socket takes `n` steps. -/
def advances (addr : SocketAddr) (n : Nat) : List Action := replicate n (.advance addr true true)

/-- Socket 1 registers the daemon, socket 2 connects to it as a client. -/
def sampleSockets : List Action :=
  [.connect 1, .read 1 (.daemonRegister sampleKey "key" none)] ++ advances 1 2 ++
    [.connect 2, .read 2 (.clientConnect sampleKey none)] ++ advances 2 5

/-- The daemon answers the client's request. -/
def answeredRun : List Action :=
  sampleSockets ++ [.read 2 (.clientRequest "request" "payload" sampleKey none)] ++ advances 2 4 ++
    [.read 1 (.daemonResponse 1 (some "response") none)] ++ advances 1 2

theorem one_answer_per_request_answeredRun :
    everyStep step entryPresent new answeredRun = true ∧ (run answeredRun).answers = [.request 1] ∧
    ∀ id, (run answeredRun).answers.count id ≤ 1 :=
  ⟨by decide +kernel, by decide +kernel, (one_answer_per_request answeredRun).1 (by decide +kernel)⟩

/-- The client's request is pending when its daemon disconnects; the release answers it, and then the client's own task
finds no sender and answers it too. -/
def lookupAfterRelease : List Action :=
  sampleSockets ++ [.read 2 (.clientRequest "request" "payload" sampleKey none)] ++ advances 2 2 ++
    [.disconnect 1] ++ advances 1 2 ++ advances 2 3

theorem answered_twice : (run lookupAfterRelease).answers = [.request 1, .request 1] ∧
    (run lookupAfterRelease).sent.drop 1 =
      [⟨2, .clientResponse "request" none (some targetDisconnected), some (.request 1), false⟩,
        ⟨2, .clientResponse "request" none (some targetNotConnected), some (.request 1), true⟩] := by
  decide +kernel

end RelayState

end Chariox.RelayRouting
