import Chariox.RelayRouting.Released

/-!
# Subscriptions and their owners

A subscription id belongs to one client at a time: the active entry and the pending subscribe requests for it are all of
that client.  The route for the events of an active subscription leads to its owner and is used by its daemon only.

An entry is removed by the answer to an unsubscribe, and the answer names the subscription by its id alone.  If no
unsubscribe of an id is underway when the id becomes active, the answer is to an unsubscribe that the owner sent
afterwards.  Otherwise an answer that comes late removes a subscription that another client has made in between.
-/

namespace Chariox.RelayRouting

open OrdMap

/-- The task neither writes a pending entry next nor has an event to send. -/
def Task.isNeutral : Task → Bool
  | .insert .. | .event _ => false
  | _ => true

theorem Task.isNeutral_of_isQuiet {task : Task} (h : task.isQuiet = true) : task.isNeutral = true := by
  cases task <;> first | rfl | cases h

/-- The event goes to the owner of its subscription, from the subscription's daemon. -/
def RoutedEvent.Rightful (event : RoutedEvent) : Prop :=
  ∃ active, event.active = some active ∧ active.clientAddr = event.clientSender ∧ active.daemonKey = event.daemonKey

namespace RelayState

variable {s s' : RelayState} {addr : SocketAddr} {c : Connection}

/-! ### Owners -/

/-- The client has the id active, or has a subscribe request for it pending. -/
def Claims (s : RelayState) (subscriptionId : String) (client : SocketAddr) : Prop :=
  (∃ active, s.subscriptions.get subscriptionId = some active ∧ active.clientAddr = client) ∨
    ∃ number pending, s.pendingClientRequests.get number = some pending ∧
      pending.kind.subscribesTo subscriptionId = true ∧ pending.clientAddr = client

/-- Every id has one owner, and the event routes agree with the active subscriptions. -/
structure Owned (s : RelayState) : Prop where
  plain : ∀ addr c number request, s.connections.get addr = some c → c.task = .insert number request →
    request.isPlain = true
  sole : ∀ subscriptionId client other, s.Claims subscriptionId client → s.Claims subscriptionId other → client = other
  channels : ∀ client sender, s.clientSenders.get client = some sender → sender = client
  routes : ∀ subscriptionId route, s.eventRoutes.get subscriptionId = some route →
    ∃ active, s.subscriptions.get subscriptionId = some active ∧ active.daemonKey = route.daemonKey ∧
      s.clientSenders.get active.clientAddr = some route.clientSender
  routed : ∀ addr c event, s.connections.get addr = some c → c.task = .event event → event.Rightful
  events : ∀ event ∈ s.events, event.Rightful

namespace Owned

/-- Another task of a handler, which may write a plain entry or have an event with a route. -/
theorem put (h : Owned s) {task : Task} (hpl : ∀ n req, task = .insert n req → req.isPlain = true)
    (hev : ∀ e, task = .event e → e.Rightful) : Owned (s.put addr c task) where
  plain other c' n req hget htask := by
    rw [get_put] at hget
    split at hget
    · cases hget
      exact hpl n req htask
    · exact h.plain other c' n req hget htask
  sole := h.sole
  channels := h.channels
  routes := h.routes
  routed other c' e hget htask := by
    rw [get_put] at hget
    split at hget
    · cases hget
      exact hev e htask
    · exact h.routed other c' e hget htask
  events := h.events

theorem put_neutral (h : Owned s) {task : Task} (hn : task.isNeutral = true) : Owned (s.put addr c task) := by
  refine h.put ?_ ?_
  · rintro n req rfl
    cases hn
  · rintro e rfl
    cases hn

section

variable (h : Owned s)

include h

/-- With fewer subscriptions and pending entries an id still has one owner. -/
theorem sole_of_fewer {x : RelayState}
    (ha : ∀ id av, x.subscriptions.get id = some av → s.subscriptions.get id = some av)
    (hp : ∀ n pend, x.pendingClientRequests.get n = some pend → s.pendingClientRequests.get n = some pend)
    (id : String) (cl other : SocketAddr) (hcl : x.Claims id cl) (ho : x.Claims id other) :
    cl = other := by
  have hclms : ∀ a, x.Claims id a → s.Claims id a := by
    rintro a (⟨av, hget, hcl⟩ | ⟨n, pend, hget, hrest⟩)
    · exact .inl ⟨av, ha id av hget, hcl⟩
    · exact .inr ⟨n, pend, hp n pend hget, hrest⟩
  exact h.sole id cl other (hclms cl hcl) (hclms other ho)

theorem removePending (id : RelayId) : Owned (s.removePending id) := by
  cases id with
  | request =>
    exact { h with
      sole := h.sole_of_fewer (fun _ _ hg => hg) fun _ _ hg => (of_get_remove hg).2 }
  | peerRequest => exact { h with }

theorem drop (p : ActiveSubscription → Bool) : Owned { s with
    subscriptions := s.subscriptions.retain (fun _ a => p a)
    eventRoutes := s.eventRoutes.retain (fun id _ => (s.subscriptions.get id).all p) } :=
  { h with
    sole := h.sole_of_fewer (fun _ _ hget => get_of_get_retain hget) (fun _ _ hget => hget)
    routes subscriptionId route hget := by
      rw [get_retain, Option.filter_eq_some_iff] at hget
      obtain ⟨a, ha, hk, hs⟩ := h.routes subscriptionId route hget.1
      refine ⟨a, ?_, hk, hs⟩
      rw [ha, Option.all_some] at hget
      rw [get_retain, ha, Option.filter_some, if_pos hget.2] }

theorem removeSubscription (sid : String) : Owned { s with
    subscriptions := s.subscriptions.remove sid
    eventRoutes := s.eventRoutes.remove sid } :=
  { h with
    sole := h.sole_of_fewer (fun _ _ hget => (of_get_remove hget).2) fun _ _ hget => hget
    routes id route hget := by
      obtain ⟨hne, hget⟩ := of_get_remove hget
      rw [get_remove_of_ne _ hne]
      exact h.routes id route hget }

theorem release (key : DaemonKey) : Owned (s.releaseDaemon key).1 := by
  have hdrop := h.drop fun a => a.daemonKey != key
  exact { hdrop with
    sole := hdrop.sole_of_fewer (fun _ _ hg => hg) fun _ _ hg => get_of_get_retain hg }

theorem freeKey (addr : SocketAddr) (key : DaemonKey) : Owned (s.freeKey addr key).1 := by
  have hkept : Owned { s with
      peers := s.peers.retain fun o peer => !(o != addr && peer == PeerHandle.daemon key) } := { h with }
  unfold RelayState.freeKey
  split
  · exact hkept
  · exact hkept.release key

theorem dropClient (addr : SocketAddr) : Owned (s.dropClient addr) := by
  have hdrop := h.drop fun av => av.clientAddr != addr
  have hs : Owned { s with
      subscriptions := s.subscriptions.retain fun _ av => av.clientAddr != addr
      eventRoutes := s.eventRoutes.retain fun id _ => (s.subscriptions.get id).all fun a => a.clientAddr != addr
      clientSenders := s.clientSenders.remove addr } := by
    refine ⟨hdrop.plain, hdrop.sole, ?_, ?_, hdrop.routed, hdrop.events⟩
    · intro cl sn hg
      obtain ⟨-, hg⟩ := of_get_remove hg
      exact h.channels cl sn hg
    intro sid rt hg
    obtain ⟨av, ha, hk, hsd⟩ := hdrop.routes sid rt hg
    have hkept := ha
    rw [get_retain, Option.filter_eq_some_iff, bne_iff_ne] at hkept
    refine ⟨av, ha, hk, ?_⟩
    rw [get_remove, if_neg hkept.2]
    exact hsd
  refine { hs with sole := hs.sole_of_fewer (fun _ _ hg => hg) ?_ }
  intro n pend hg
  unfold RelayState.dropClient at hg
  split at hg
  · exact get_of_get_retain hg
  · exact hg

theorem leave (addr : SocketAddr) (c : Connection) : Owned (s.leave addr c).1 := by
  unfold RelayState.leave
  split
  · exact (h.dropClient addr).release _
  · exact h.dropClient addr

theorem insertClientSender (addr : SocketAddr) : Owned { s with clientSenders := s.clientSenders.insert addr addr } :=
  { h with
    channels := forall_insert rfl h.channels
    routes subscriptionId route hget := by
      obtain ⟨a, ha, hk, hs⟩ := h.routes subscriptionId route hget
      refine ⟨a, ha, hk, ?_⟩
      rw [get_insert]
      split
      · rename_i heq
        rw [h.channels a.clientAddr route.clientSender hs, heq]
      · exact hs }

end

variable {pd : PendingClientRequest} {number : Nat}

theorem insertClient (h : Owned s) (how : ∀ sid, pd.kind.subscribesTo sid = true →
      ∀ cl, s.Claims sid cl → cl = pd.clientAddr) :
    Owned { s with pendingClientRequests := s.pendingClientRequests.insert number pd } :=
  { h with
    sole sid cl o hcl hoth := by
      have hc : ∀ a, RelayState.Claims { s with
          pendingClientRequests := s.pendingClientRequests.insert number pd } sid a →
          s.Claims sid a ∨ pd.kind.subscribesTo sid = true ∧ a = pd.clientAddr := by
        rintro a (ha | ⟨n', pending', hg, hk, hsame⟩)
        · exact .inl (.inl ha)
        rcases of_get_insert hg with ⟨-, rfl⟩ | ⟨-, hg⟩
        · exact .inr ⟨hk, hsame.symm⟩
        · exact .inl (.inr ⟨n', pending', hg, hk, hsame⟩)
      rcases hc cl hcl with ho | ⟨hk, rfl⟩ <;> rcases hc o hoth with ho' | ⟨hk', rfl⟩
      · exact h.sole sid cl o ho ho'
      · exact how sid hk' cl ho
      · exact (how sid hk o ho').symm
      · rfl }

theorem insertPlain (h : Owned s) {req : Relayed} (hpl : req.isPlain = true) : Owned (s.insertPending number req) := by
  cases req with
  | client pend =>
    refine h.insertClient ?_
    intro sid hk
    cases hpend : pend.kind with
    | subscribe =>
      rw [Relayed.isPlain, hpend] at hpl
      cases hpl
    | _ =>
      rw [hpend] at hk
      cases hk
  | peer => exact { h with }

theorem insertSubscribe (h : Owned s) {req : SubscribeRequest}
    (hf : s.subscriptionOwnedByOtherClient req.subscriptionId addr = false) :
    Owned (s.insertPending req.number (req.relayed addr)) := by
  unfold subscriptionOwnedByOtherClient at hf
  rw [Bool.or_eq_false_iff] at hf
  refine h.insertClient ?_
  intro subscriptionId hk cl hc
  obtain rfl : req.subscriptionId = subscriptionId := by
    simpa [SubscribeRequest.pending, PendingRequestKind.subscribesTo] using hk
  change cl = addr
  rcases hc with ⟨a, hg, rfl⟩ | ⟨n, p, hg, hs, rfl⟩
  · rw [hg] at hf
    simpa using hf.1
  have hnone := List.any_eq_false.1 hf.2 p (mem_values.2 ⟨n, hg⟩)
  rw [hs, Bool.and_true, Bool.not_eq_true, bne_eq_false_iff_eq] at hnone
  exact hnone

/-- The client of a pending subscribe request gets the subscription, with the route to its sender. -/
theorem activate (h : Owned s) {sc id ckey : String} (hp : s.pendingClientRequests.get number = some pd)
    (hk : pd.kind = .subscribe sc id ckey) (since : Nat) : Owned { s with
      subscriptions := s.subscriptions.insert id ⟨pd.clientAddr, pd.daemonKey, ckey, since⟩
      eventRoutes :=
        match s.clientSenders.get pd.clientAddr with
        | some csn => s.eventRoutes.insert id ⟨sc, pd.daemonKey, csn⟩
        | none => s.eventRoutes } := by
  have hown : s.Claims id pd.clientAddr := by
    refine .inr ⟨number, pd, hp, ?_, rfl⟩
    rw [hk]
    exact beq_self_eq_true id
  refine ⟨h.plain, ?_, h.channels, ?_, h.routed, h.events⟩
  · intro sid cl o hcl ho
    have hclms : ∀ a, RelayState.Claims { s with
        subscriptions := s.subscriptions.insert id ⟨pd.clientAddr, pd.daemonKey, ckey, since⟩ }
        sid a → s.Claims sid a := by
      rintro a (⟨av, hg, ha⟩ | hrest)
      · rcases of_get_insert hg with ⟨heq, rfl⟩ | ⟨-, hg⟩
        · rw [heq, ← ha]
          exact hown
        · exact .inl ⟨av, hg, ha⟩
      · exact .inr hrest
    exact h.sole sid cl o (hclms cl hcl) (hclms o ho)
  · intro sid route hg
    rw [get_insert]
    by_cases heq : sid = id
    · subst heq
      rw [if_pos rfl]
      refine ⟨_, rfl, ?_⟩
      split at hg
      · rename_i hs
        rw [get_insert_self] at hg
        cases hg
        exact ⟨rfl, hs⟩
      · rename_i hn
        -- an old route would lead to a sender of the same client
        obtain ⟨av, ha, -, hs⟩ := h.routes sid route hg
        rw [h.sole sid av.clientAddr pd.clientAddr (.inl ⟨av, ha, rfl⟩) hown, hn]
          at hs
        cases hs
    · rw [if_neg heq]
      have hold : s.eventRoutes.get sid = some route := by
        split at hg
        · rw [get_insert_of_ne _ heq] at hg
          exact hg
        · exact hg
      exact h.routes sid route hold

theorem settle (h : Owned s) (hp : s.pendingClientRequests.get number = some pd) (er : Option RelayError) :
    Owned (s.settle addr number pd er).1 := by
  have hrem := h.removePending (.request number)
  unfold RelayState.settle applyAnswer
  dsimp only
  split
  · split
    · exact { hrem with }
    · rename_i hk
      split
      · exact { (h.activate hp hk s.clock).removePending (.request number) with }
      · exact { hrem with }
    · exact { (h.removeSubscription _).removePending (.request number) with }
  · exact { hrem with }

end Owned

theorem routed_isNeutral (n : Nat) (req : Relayed) (sn : Option DaemonSender) : (routed n req sn).isNeutral = true := by
  cases sn <;> rfl

theorem TaskMove.owned (h : TaskMove s addr c s') (hg : s.connections.get addr = some c) (ho : Owned s) : Owned s' := by
  cases h with
  | quiet n hqt =>
    exact Owned.put_neutral (s := s.count n) { ho with } (Task.isNeutral_of_isQuiet hqt)
  | bound key =>
    exact Owned.put_neutral (s := { s with peers := s.peers.insert addr (.client key) }) { ho with } rfl
  | connected pkey ht hqt => exact (ho.insertClientSender addr).put_neutral (Task.isNeutral_of_isQuiet hqt)
  | registered key pkey =>
    exact Owned.put_neutral (s := (s.freeKey addr key).1.enterDaemon addr key pkey) { ho.freeKey addr key with } rfl
  | refreshed key pkey =>
    exact Owned.put_neutral (s := { s with daemons := s.daemons.insert key pkey }) { ho with } rfl
  | requested req hpl =>
    refine Owned.put (s := s.allocate) { ho with } ?_ nofun
    rintro num req' ht
    cases ht
    exact hpl
  | subscribing | notFound => exact Owned.put_neutral (s := s.allocate) { ho with } rfl
  | subscribed req ht hf => exact (ho.insertSubscribe hf).put_neutral (routed_isNeutral _ _ _)
  | inserted num req ht =>
    exact (ho.insertPlain (ho.plain addr c num req hg ht)).put_neutral rfl
  | routed => exact ho.put_neutral (routed_isNeutral _ _ _)
  | forwarded num req sn =>
    exact Owned.put_neutral (s := s.forwardTo num req sn) { ho with } rfl
  | gaveUp num req => exact (ho.removePending (req.id num)).put_neutral rfl
  | answered num resp er time ht pend hp => exact (ho.settle hp er).put_neutral rfl
  | tookPeer num => exact (ho.removePending (.peerRequest num)).put_neutral rfl
  | eventRouted e rt hrt hk hs ha =>
    refine ho.put nofun ?_
    rintro e' ht
    cases ht
    obtain ⟨a, hg', hk', hs'⟩ := ho.routes e.subscriptionId rt hrt
    refine ⟨a, ha.trans hg', ?_, hk'.trans hk⟩
    exact (ho.channels a.clientAddr rt.clientSender hs').symm.trans hs
  | eventSent e ht =>
    have hsent : Owned (s.sendEvent e) := by
      refine ⟨ho.plain, ho.sole, ho.channels, ho.routes, ho.routed, ?_⟩
      exact List.forall_mem_append.2 ⟨ho.events, List.forall_mem_singleton.2 (ho.routed addr c e hg ht)⟩
    exact hsent.put_neutral rfl
  | slowClosed sid =>
    unfold closeSlowSubscription
    split
    · exact ho.put_neutral rfl
    · exact (ho.removeSubscription sid).put_neutral rfl
  | delivered send => exact Owned.put_neutral (s := s.take send) { ho with } rfl
  | gone =>
    refine ⟨?_, ho.sole, ho.channels, ho.routes, ?_, ho.events⟩
    · intro o c' num req hg' ht'
      obtain ⟨-, hg'⟩ := of_get_remove hg'
      exact ho.plain o c' num req hg' ht'
    intro o c' e hg' ht'
    obtain ⟨-, hg'⟩ := of_get_remove hg'
    exact ho.routed o c' e hg' ht'
  | removed => exact (ho.leave addr c).put_neutral rfl
  | _ => exact ho.put_neutral rfl

theorem Move.owned {a : Action} (h : Move s a s') (ho : Owned s) : Owned s' := by
  cases h with
  | stay => exact ho
  | opened addr => exact @Owned.put_neutral s addr ⟨none, .idle⟩ ho .idle rfl
  | task addr c hg ver dlv ht => exact ht.owned hg ho
  | _ => exact ho.put_neutral rfl

theorem owned_new : Owned new where
  plain := fun _ _ _ _ h => by cases h
  sole := by rintro _ _ _ (⟨_, h, -⟩ | ⟨_, _, h, -⟩) <;> cases h
  channels := nofun
  routes := nofun
  routed := fun _ _ _ h => by cases h
  events := nofun

theorem owned_step (s : RelayState) (a : Action) (h : Owned s) : Owned (s.step a) := by
  have hacted := (act_move s a).owned h
  exact { hacted with }

theorem run_owned (acts : List Action) : Owned (run acts) := foldl_invariant owned_step owned_new acts

/-- No two clients have the same subscription id, active or requested, and the route of its events leads to the client
that has it. -/
theorem one_client_per_subscription (acts : List Action) (subId : String) :
    (∀ client other, (run acts).Claims subId client → (run acts).Claims subId other → client = other) ∧
      ∀ route, (run acts).eventRoutes.get subId = some route → (run acts).Claims subId route.clientSender := by
  have h := run_owned acts
  refine ⟨h.sole subId, ?_⟩
  intro route hr
  obtain ⟨active, ha, -, hs⟩ := h.routes subId route hr
  exact .inl ⟨active, ha, (h.channels _ _ hs).symm⟩

end RelayState

end Chariox.RelayRouting
