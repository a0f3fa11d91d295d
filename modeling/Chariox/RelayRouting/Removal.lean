import Chariox.RelayRouting.Ownership

/-!
# What removes a subscription

Each step that takes an active subscription out is one of four: the answer to an unsubscribe, the end of its owner's
connection, the close of a slow subscription, or the release of its daemon.  The invariant `Recent` carries the first:
every unsubscribe of an active id that is underway was sent by the owner, after the subscription became active.  It is
kept by the runs in which no unsubscribe of an id is underway when the id becomes active.
-/

namespace Chariox.RelayRouting

open OrdMap List

/-- The task handles an unsubscribe of the id whose entry is not yet written. -/
def Task.unsubscribes (subscriptionId : String) : Task → Bool
  | .received (.clientUnsubscribe _ id _ _) _ => id == subscriptionId
  | .insert _ (.client pending _) => pending.kind == .unsubscribe subscriptionId
  | _ => false

namespace RelayState

variable {s s' : RelayState} {addr : SocketAddr} {c : Connection}

/-! ### Activations -/

/-- An unsubscribe of the id is pending, or a handler has read one and not yet entered it. -/
def unsubscribing (s : RelayState) (subscriptionId : String) : Bool :=
  s.pendingClientRequests.values.any (fun pending => pending.kind == .unsubscribe subscriptionId) ||
    s.connections.values.any (fun c => c.task.unsubscribes subscriptionId)

/-- The id that becomes active, or is renewed, in the next step of a connection. -/
def activatedBy (s : RelayState) (c : Connection) : Option String :=
  match c.task with
  | .received (.daemonResponse number _ none) _ =>
    match s.pendingClientRequests.get number with
    | some pending =>
      if c.registeredDaemonKey = some pending.daemonKey ∧ s.peers.contains pending.clientAddr = true then
        match pending.kind with
        | .subscribe _ id _ => some id
        | _ => none
      else none
    | none => none
  | _ => none

def activates (s : RelayState) : Action → Option String
  | .advance addr _ _ => (s.connections.get addr).bind s.activatedBy
  | _ => none

/-- No unsubscribe of an id is underway when the id becomes active. -/
def activatedClean (s : RelayState) (action : Action) : Bool :=
  (s.activates action).all (fun subscriptionId => !s.unsubscribing subscriptionId)

/-! ### Removals -/

/-- The next step of the connection releases the registration of `key`. -/
def Releases (s : RelayState) (addr : SocketAddr) (c : Connection) (key : DaemonKey) : Prop :=
  (∃ publicKey refused time, c.task = .received (.daemonRegister key publicKey refused) time ∧
    s.replacedPeers addr key ≠ []) ∨
  ∃ kernelReload, c.task = .ending kernelReload ∧ s.endedRegistration addr c = some key

/-- Why the next step of the connection at `addr` removes an active subscription. -/
inductive Removal (s : RelayState) (addr : SocketAddr) (c : Connection) (subscriptionId : String)
    (active : ActiveSubscription) : Prop
  /-- The successful answer to an unsubscribe that the owner sent after the subscription became active. -/
  | answer (number : Nat) (response : Option String) (time : Nat) (pending : PendingClientRequest)
      (htask : c.task = .received (.daemonResponse number response none) time)
      (hpending : s.pendingClientRequests.get number = some pending)
      (hkind : pending.kind = .unsubscribe subscriptionId) (hclient : pending.clientAddr = active.clientAddr)
      (hsince : active.since < pending.sentAt)
  /-- The owner's connection ends. -/
  | disconnect (kernelReload : Bool) (htask : c.task = .ending kernelReload) (hclient : addr = active.clientAddr)
  /-- The subscription is closed because its client is too slow. -/
  | slow (htask : c.task = .slow subscriptionId active.daemonKey)
  /-- The registration of the subscription's daemon is released. -/
  | released (h : s.Releases addr c active.daemonKey)

/-! ### Unsubscribes underway -/

/-- An unsubscribe of the id is pending, or will be as soon as its handler has written the entry. -/
def Unsubscribes (s : RelayState) (subscriptionId : String) (pending : PendingClientRequest) : Prop :=
  pending.kind = .unsubscribe subscriptionId ∧
    ((∃ number, s.pendingClientRequests.get number = some pending) ∨
      ∃ addr c number payload, s.connections.get addr = some c ∧ c.task = .insert number (.client pending payload))

/-- A handler has read an unsubscribe of the id at that time. -/
def Reads (s : RelayState) (subscriptionId : String) (time : Nat) : Prop :=
  ∃ addr c requestId clientPublicKey refused, s.connections.get addr = some c ∧
    c.task = .received (.clientUnsubscribe requestId subscriptionId clientPublicKey refused) time

variable {pending : PendingClientRequest} {active : ActiveSubscription} {subscriptionId id : String} {action : Action}
variable {time number now : Nat}

theorem not_unsubscribes (h : s.unsubscribing subscriptionId = false)
    (pending : PendingClientRequest) : ¬ s.Unsubscribes subscriptionId pending := by
  unfold unsubscribing at h
  rw [Bool.or_eq_false_iff] at h
  rintro ⟨hk, ⟨number, hget⟩ | ⟨addr, c, number, payload, hget, htask⟩⟩
  · have hnone := any_eq_false.1 h.1 pending (mem_values.2 ⟨number, hget⟩)
    exact hnone (beq_iff_eq.2 hk)
  have hnone := any_eq_false.1 h.2 c (mem_values.2 ⟨addr, hget⟩)
  rw [htask] at hnone
  exact hnone (beq_iff_eq.2 hk)

theorem not_reads (h : s.unsubscribing subscriptionId = false) (time : Nat) : ¬ s.Reads subscriptionId time := by
  unfold unsubscribing at h
  rw [Bool.or_eq_false_iff] at h
  rintro ⟨addr, c, requestId, clientPublicKey, refused, hget, htask⟩
  have hnone := any_eq_false.1 h.2 c (mem_values.2 ⟨addr, hget⟩)
  rw [htask] at hnone
  exact hnone (beq_self_eq_true subscriptionId)

/-- Every unsubscribe of an active id that is underway is the owner's and came after the activation. -/
structure Recent (s : RelayState) (now : Nat) : Prop where
  past : ∀ subscriptionId active, s.subscriptions.get subscriptionId = some active → active.since < now
  unsubscribes : ∀ subscriptionId active pending, s.subscriptions.get subscriptionId = some active →
    s.Unsubscribes subscriptionId pending → pending.clientAddr = active.clientAddr ∧ active.since < pending.sentAt
  reads : ∀ subscriptionId active time, s.subscriptions.get subscriptionId = some active →
    s.Reads subscriptionId time → active.since < time

/-! ### What the moves change -/

/-- A task that a move leaves: it has read no new message, and an unsubscribe it enters next was read before and is of
the owner. -/
structure Follows (s : RelayState) (c : Connection) (task : Task) : Prop where
  notReceived : ∀ message time, task ≠ .received message time
  own : ∀ number pending payload subscriptionId, task = .insert number (.client pending payload) →
    pending.kind = .unsubscribe subscriptionId →
      (∃ active, s.subscriptions.get subscriptionId = some active ∧ active.clientAddr = pending.clientAddr) ∧
      ∃ requestId clientPublicKey refused,
        c.task = .received (.clientUnsubscribe requestId subscriptionId clientPublicKey refused) pending.sentAt

/-- Tasks of the other kinds. -/
def isFurther : Task → Bool
  | .received .. | .insert .. => false
  | _ => true

theorem follows_of_isFurther {task : Task} (h : isFurther task = true) : Follows s c task where
  notReceived message time heq := by
    rw [heq] at h
    cases h
  own number pending payload subscriptionId heq := by
    rw [heq] at h
    cases h

theorem isFurther_of_isQuiet {task : Task} (h : task.isQuiet = true) : isFurther task = true := by
  cases task <;> first | rfl | cases h

theorem routed_isFurther (n : Nat) (req : Relayed) (sn : Option DaemonSender) : isFurther (routed n req sn) = true := by
  cases sn <;> rfl

section

variable (h : TaskMove s addr c s')

include h

/-- After a move every connection is as before or has a task that follows. -/
theorem TaskMove.follows {o : SocketAddr} {d : Connection}
    (hg : s'.connections.get o = some d) : s.connections.get o = some d ∨ Follows s c d.task := by
  have hput : ∀ {x : RelayState} {c' : Connection} {task : Task}, x.connections = s.connections →
      Follows s c task → (x.put addr c' task).connections.get o = some d →
      s.connections.get o = some d ∨ Follows s c d.task := by
    intro x c' task hc hfo hd
    rw [get_put, hc] at hd
    split at hd
    · cases hd
      exact .inr hfo
    · exact .inl hd
  have hfur : ∀ {x : RelayState} {c' : Connection} {task : Task}, x.connections = s.connections →
      isFurther task = true → (x.put addr c' task).connections.get o = some d →
      s.connections.get o = some d ∨ Follows s c d.task :=
    fun hc hf => hput hc (follows_of_isFurther hf)
  cases h with
  | quiet _ hqt | connected _ _ hqt => exact hfur rfl (isFurther_of_isQuiet hqt) hg
  | registered key => exact hfur (freeKey_frame s addr key).1 rfl hg
  | requested req hpl hcl ho =>
    refine hput rfl ⟨?_, ?_⟩ hg
    · rintro msg time ht
      cases ht
    rintro num pend pay sid ht hk
    cases ht
    exact ho pend pay sid rfl hk
  | subscribed => exact hfur (insertPending_connections _ _) (routed_isFurther _ _ _) hg
  | inserted => exact hfur (insertPending_connections _ _) rfl hg
  | routed => exact hfur rfl (routed_isFurther _ _ _) hg
  | gaveUp => exact hfur (removePending_connections _) rfl hg
  | answered num resp er time ht pend =>
    obtain ⟨_, _, n, heq, -⟩ := settle_eq s addr num pend er
    exact hfur (by rw [heq]; rfl) rfl hg
  | slowClosed =>
    unfold closeSlowSubscription at hg
    split at hg <;> exact hfur rfl rfl hg
  | gone =>
    obtain ⟨-, hg⟩ := of_get_remove hg
    exact .inl hg
  | removed => exact hfur (leave_frame s addr c).1 rfl hg
  | _ => exact hfur rfl rfl hg

theorem TaskMove.reads_old (hr : s'.Reads subscriptionId time) : s.Reads subscriptionId time := by
  obtain ⟨o, d, rid, ckey, ref, hg, ht⟩ := hr
  rcases h.follows hg with ho | hf
  · exact ⟨o, d, rid, ckey, ref, ho, ht⟩
  · exact absurd ht (hf.notReceived _ _)

/-- A pending entry after a move was there before, is the one of the moving task, or is for a subscribe message. -/
theorem TaskMove.pending_old (hg : s'.pendingClientRequests.get number = some pending) :
    s.pendingClientRequests.get number = some pending ∨
      (∃ p, c.task = .insert number (.client pending p)) ∨
      ∃ sc id clientPublicKey, pending.kind = .subscribe sc id clientPublicKey := by
  cases h with
  | registered =>
    unfold registerDaemon freeKey at hg
    split at hg
    · exact .inl hg
    · exact .inl (get_of_get_retain hg)
  | subscribed =>
    rcases of_get_insert hg with ⟨-, rfl⟩ | ⟨-, hg⟩
    · exact .inr (.inr ⟨_, _, _, rfl⟩)
    · exact .inl hg
  | inserted n' req ht =>
    cases req with
    | client p' p =>
      rcases of_get_insert hg with ⟨heq, rfl⟩ | ⟨-, hg⟩
      · rw [heq]
        exact .inr (.inl ⟨p, ht⟩)
      · exact .inl hg
    | peer => exact .inl hg
  | gaveUp n' req =>
    cases req with
    | client => exact .inl (of_get_remove hg).2
    | peer => exact .inl hg
  | answered n' resp er time ht p' =>
    obtain ⟨_, _, n, heq, -⟩ := settle_eq s addr n' p' er
    rw [heq] at hg
    exact .inl (of_get_remove hg).2
  | slowClosed =>
    unfold closeSlowSubscription at hg
    split at hg <;> exact .inl hg
  | removed =>
    have hdrop : (s.dropClient addr).pendingClientRequests.get number = some pending →
        s.pendingClientRequests.get number = some pending := by
      intro hd
      unfold dropClient at hd
      split at hd
      · exact get_of_get_retain hd
      · exact hd
    unfold removePeer leave at hg
    split at hg
    · exact .inl (hdrop (get_of_get_retain hg))
    · exact .inl (hdrop hg)
  | _ => exact .inl hg

theorem TaskMove.unsubscribes_old (hg : s.connections.get addr = some c) (hu : s'.Unsubscribes subscriptionId pending) :
    s.Unsubscribes subscriptionId pending ∨
      ((∃ a, s.subscriptions.get subscriptionId = some a ∧ a.clientAddr = pending.clientAddr) ∧
        s.Reads subscriptionId pending.sentAt) := by
  obtain ⟨hk, ⟨n, hp⟩ | ⟨o, d, n, p, hd, ht⟩⟩ := hu
  · rcases h.pending_old hp with ho | ⟨p, ht⟩ | ⟨sc, id, ckey, hs⟩
    · exact .inl ⟨hk, .inl ⟨n, ho⟩⟩
    · exact .inl ⟨hk, .inr ⟨addr, c, n, p, hg, ht⟩⟩
    · rw [hk] at hs
      cases hs
  · rcases h.follows hd with ho | hf
    · exact .inl ⟨hk, .inr ⟨o, d, n, p, ho, ht⟩⟩
    obtain ⟨ha, requestId, ckey, refused, hr⟩ :=
      hf.own n pending p subscriptionId ht hk
    exact .inr ⟨ha, addr, c, requestId, ckey, refused, hg, hr⟩

end

/-! ### What an answer does to the subscriptions -/

theorem settle_of_request (n : Nat) (hk : pending.kind = .request) :
    (s.settle addr n pending none).1.subscriptions = s.subscriptions := by
  unfold settle applyAnswer
  rw [hk]
  rfl

theorem settle_of_unsubscribe (n : Nat) (hk : pending.kind = .unsubscribe id) :
    (s.settle addr n pending none).1.subscriptions = s.subscriptions.remove id := by
  unfold settle applyAnswer
  rw [hk]
  rfl

theorem settle_of_subscribe (n : Nat) {sc ckey : String} (hk : pending.kind = .subscribe sc id ckey) :
    (s.settle addr n pending none).1.subscriptions =
      if s.peers.contains pending.clientAddr = true then
        s.subscriptions.insert id ⟨pending.clientAddr, pending.daemonKey, ckey, s.clock⟩
      else s.subscriptions := by
  unfold settle applyAnswer
  rw [hk]
  change (if s.peers.contains pending.clientAddr = true then _ else _ : RelayState × List Send).1.subscriptions = _
  split <;> rfl

/-- A successful answer to a subscribe request of a connected client activates the id. -/
theorem activatedBy_eq {resp : Option String}
    {sc ckey : String} (ht : c.task = .received (.daemonResponse number resp none) time)
    (hpe : s.pendingClientRequests.get number = some pending) (hke : c.registeredDaemonKey = some pending.daemonKey)
    (hk : pending.kind = .subscribe sc id ckey)
    (hp : s.peers.contains pending.clientAddr = true) : s.activatedBy c = some id := by
  unfold activatedBy
  rw [ht]
  dsimp only
  rw [hpe]
  dsimp only
  rw [if_pos ⟨hke, hp⟩, hk]

theorem answered_subscription (addr : SocketAddr) {resp : Option String} {er : Option RelayError}
    (ht : c.task = .received (.daemonResponse number resp er) time)
    (hpe : s.pendingClientRequests.get number = some pending)
    (hk : c.registeredDaemonKey = some pending.daemonKey) (sid : String) :
    (s.settle addr number pending er).1.subscriptions.get sid =
      s.subscriptions.get sid ∨
    (s.activatedBy c = some sid ∧ pending.kind.subscribesTo sid = true ∧
      ∃ ckey, (s.settle addr number pending er).1.subscriptions.get sid =
        some ⟨pending.clientAddr, pending.daemonKey, ckey, s.clock⟩) ∨
    (er = none ∧ pending.kind = .unsubscribe sid ∧
      (s.settle addr number pending er).1.subscriptions.get sid = none) := by
  cases er with
  | some => exact .inl rfl
  | none =>
    cases hkind : pending.kind with
    | request =>
      rw [settle_of_request number hkind]
      exact .inl rfl
    | subscribe =>
      rw [settle_of_subscribe number hkind]
      split
      · rename_i hp
        rw [get_insert]
        split
        · rename_i heq
          subst heq
          exact .inr (.inl ⟨activatedBy_eq ht hpe hk hkind hp, beq_self_eq_true _, _, rfl⟩)
        · exact .inl rfl
      · exact .inl rfl
    | unsubscribe =>
      rw [settle_of_unsubscribe number hkind, get_remove]
      split
      · rename_i heq
        rw [heq]
        exact .inr (.inr ⟨rfl, rfl, rfl⟩)
      · exact .inl rfl

/-- A registration that takes another's place drops the subscriptions of its daemon. -/
theorem freeKey_subscriptions (key : DaemonKey) (sid : String) : (s.freeKey addr key).1.subscriptions.get sid =
      (s.subscriptions.get sid).filter (fun a => (s.replacedPeers addr key).isEmpty || a.daemonKey != key) := by
  unfold freeKey
  split
  · rename_i he
    simp only [he]
    cases s.subscriptions.get sid <;> rfl
  rename_i hr
  simp only [hr]
  exact get_retain ..

/-- The end of a connection drops the client's subscriptions and those of the registration that ends with it. -/
theorem leave_subscriptions (sid : String) : (s.leave addr c).1.subscriptions.get sid =
      (s.subscriptions.get sid).filter
        (fun a => a.clientAddr != addr && s.endedRegistration addr c != some a.daemonKey) := by
  have hdrop : (s.dropClient addr).subscriptions.get sid =
      (s.subscriptions.get sid).filter fun a => a.clientAddr != addr := get_retain ..
  unfold leave
  split
  · rename_i key he
    have hrls : ((s.dropClient addr).releaseDaemon key).1.subscriptions.get sid =
        ((s.dropClient addr).subscriptions.get sid).filter fun a => a.daemonKey != key :=
      get_retain ..
    rw [hrls, hdrop, Option.filter_filter, he]
    refine congrArg (s.subscriptions.get sid).filter (funext fun a => ?_)
    rw [Bool.eq_iff_iff, Bool.and_eq_true, Bool.and_eq_true, bne_iff_ne, bne_iff_ne, bne_iff_ne]
    refine and_congr_right fun _ => ⟨fun hne heq => hne (Option.some.inj heq).symm, fun hne heq => hne ?_⟩
    rw [heq]
  · rename_i he
    rw [hdrop, he]
    refine congrArg (s.subscriptions.get sid).filter (funext fun a => ?_)
    exact (Bool.and_true _).symm

/-- A subscription after a move was there before, unless the move activates it. -/
theorem TaskMove.subscription_old (h : TaskMove s addr c s') (hg : s'.subscriptions.get subscriptionId = some active) :
    s.subscriptions.get subscriptionId = some active ∨
      (s.activatedBy c = some subscriptionId ∧ active.since = s.clock) := by
  cases h with
  | registered key =>
    change (s.freeKey addr key).1.subscriptions.get subscriptionId = some active at hg
    rw [freeKey_subscriptions, Option.filter_eq_some_iff] at hg
    exact .inl hg.1
  | inserted n req | gaveUp n req => cases req <;> exact .inl hg
  | answered n resp er time ht pend hp hk =>
    change (s.settle addr n pend er).1.subscriptions.get subscriptionId = some active at hg
    rcases answered_subscription addr ht hp hk subscriptionId with
      hsame | ⟨hactd, -, clientPublicKey, hnew⟩ | ⟨-, -, hnone⟩
    · rw [hsame] at hg
      exact .inl hg
    · rw [hnew] at hg
      cases hg
      exact .inr ⟨hactd, rfl⟩
    · rw [hnone] at hg
      cases hg
  | slowClosed id =>
    unfold closeSlowSubscription at hg
    split at hg
    · exact .inl hg
    exact .inl (of_get_remove hg).2
  | removed =>
    change (s.leave addr c).1.subscriptions.get subscriptionId = some active at hg
    rw [leave_subscriptions, Option.filter_eq_some_iff] at hg
    exact .inl hg.1
  | _ => exact .inl hg

/-- What a move may do to an active subscription: it stays as it is, its owner's subscribe request renews it, or it is
removed for one of the four reasons. -/
def Outcome (s : RelayState) (addr : SocketAddr) (c : Connection) (subscriptionId : String)
    (active : ActiveSubscription) (later : Option ActiveSubscription) : Prop :=
  later = some active ∨
  (s.activatedBy c = some subscriptionId ∧ ∃ renewed, later = some renewed ∧ renewed.clientAddr = active.clientAddr) ∨
  (later = none ∧ Removal s addr c subscriptionId active)

private theorem outcome_filter {p : ActiveSubscription → Bool} (hg : s.subscriptions.get subscriptionId = some active)
    (hr : p active = false → Removal s addr c subscriptionId active) :
    Outcome s addr c subscriptionId active ((s.subscriptions.get subscriptionId).filter p) := by
  rw [hg, Option.filter_some]
  cases hp : p active with
  | true => exact .inl rfl
  | false => exact .inr (.inr ⟨rfl, hr hp⟩)

theorem TaskMove.outcome (h : TaskMove s addr c s') (ho : Owned s) (hrc : Recent s now)
    (hg : s.subscriptions.get subscriptionId = some active) :
    Outcome s addr c subscriptionId active (s'.subscriptions.get subscriptionId) := by
  cases h with
  | registered key pkey time ht =>
    change Outcome s addr c subscriptionId active ((s.freeKey addr key).1.subscriptions.get subscriptionId)
    rw [freeKey_subscriptions]
    refine outcome_filter hg fun hd => .released (.inl ?_)
    rw [Bool.or_eq_false_iff, bne_eq_false_iff_eq] at hd
    obtain ⟨hr, rfl⟩ := hd
    refine ⟨pkey, none, time, ht, ?_⟩
    intro hn
    rw [hn] at hr
    cases hr
  | inserted n req | gaveUp n req => cases req <;> exact .inl hg
  | answered n resp er time ht pend hp hk =>
    change Outcome s addr c subscriptionId active
      ((s.settle addr n pend er).1.subscriptions.get subscriptionId)
    rcases answered_subscription addr ht hp hk subscriptionId with
      hs | ⟨hactd, hkind, clientPublicKey, hnew⟩ | ⟨rfl, hkind, hnone⟩
    · rw [hs]
      exact .inl hg
    · rw [hnew]
      refine .inr (.inl ⟨hactd, _, rfl, ?_⟩)
      exact ho.sole subscriptionId _ _ (.inr ⟨n, pend, hp, hkind, rfl⟩) (.inl ⟨active, hg, rfl⟩)
    · rw [hnone]
      obtain ⟨hcl, hsi⟩ :=
        hrc.unsubscribes subscriptionId active pend hg ⟨hkind, .inl ⟨n, hp⟩⟩
      exact .inr (.inr ⟨rfl, .answer n resp time pend ht hp hkind hcl hsi⟩)
  | slowClosed id key ht =>
    unfold closeSlowSubscription
    split
    · exact .inl hg
    rename_i hc
    change Outcome s addr c subscriptionId active ((s.subscriptions.remove id).get subscriptionId)
    rw [get_remove]
    split
    · rename_i heq
      subst heq
      rw [hg, Option.filter_eq_some_iff, beq_iff_eq] at hc
      obtain ⟨hs, hk⟩ := hc
      cases hs
      subst hk
      exact .inr (.inr ⟨rfl, .slow ht⟩)
    · exact .inl hg
  | removed reload ht =>
    change Outcome s addr c subscriptionId active ((s.leave addr c).1.subscriptions.get subscriptionId)
    rw [leave_subscriptions]
    refine outcome_filter hg fun hd => ?_
    rw [Bool.and_eq_false_iff, bne_eq_false_iff_eq, bne_eq_false_iff_eq] at hd
    rcases hd with hcl | he
    · exact .disconnect reload ht hcl.symm
    · exact .released (.inr ⟨reload, ht, he⟩)
  | _ => exact .inl hg

/-! ### Runs -/

/-- Fewer subscriptions, none of which is new while an unsubscribe of it is underway, and unsubscribes that are old or
of the owner. -/
theorem Recent.step (h : Recent s now) (hs : ∀ sid a, s'.subscriptions.get sid = some a →
      s.subscriptions.get sid = some a ∨
        (a.since = now ∧ (∀ pend, ¬ s.Unsubscribes sid pend) ∧ ∀ time, ¬ s.Reads sid time))
    (hu : ∀ sid pend, s'.Unsubscribes sid pend →
      s.Unsubscribes sid pend ∨
        ((∃ a, s.subscriptions.get sid = some a ∧ a.clientAddr = pend.clientAddr) ∧ s.Reads sid pend.sentAt))
    (hre : ∀ sid time, s'.Reads sid time → s.Reads sid time ∨
      time = now ∧ s'.subscriptions = s.subscriptions) : Recent s' (now + 1) where
  past sid a hget := by
    rcases hs sid a hget with ho | ⟨hne, -⟩
    · exact Nat.lt_succ_of_lt (h.past sid a ho)
    · omega
  unsubscribes sid a pend hget hunsub := by
    rcases hs sid a hget with ho | ⟨-, hno, hn⟩
    · rcases hu sid pend hunsub with hun | ⟨⟨owned, how, hcl⟩, hread⟩
      · exact h.unsubscribes sid a pend ho hun
      rw [ho] at how
      cases how
      exact ⟨hcl.symm, h.reads sid a _ ho hread⟩
    · rcases hu sid pend hunsub with hun | ⟨-, hread⟩
      · exact absurd hun (hno pend)
      · exact absurd hread (hn _)
  reads sid a time hget hread := by
    rcases hre sid time hread with hread | ⟨rfl, hsa⟩
    · rcases hs sid a hget with ho | ⟨-, -, hn⟩
      · exact h.reads sid a time ho hread
      · exact absurd hread (hn time)
    · exact h.past sid a (hsa ▸ hget)

theorem TaskMove.recent (h : TaskMove s addr c s') (hg : s.connections.get addr = some c)
    (hc : ∀ sid, s.activatedBy c = some sid → s.unsubscribing sid = false)
    (hrc : Recent s s.clock) : Recent s' (s.clock + 1) := by
  refine hrc.step ?_ (fun _ _ => h.unsubscribes_old hg) fun _ _ hr => .inl (h.reads_old hr)
  intro sid a hac
  rcases h.subscription_old hac with ho | ⟨ha, hs⟩
  · exact .inl ho
  · have hnone := hc sid ha
    exact .inr ⟨hs, not_unsubscribes hnone, not_reads hnone⟩

/-- Tasks change, the subscriptions and the pending entries do not. -/
theorem Recent.tasks (h : Recent s now) (hs : s'.subscriptions = s.subscriptions)
    (hp : s'.pendingClientRequests = s.pendingClientRequests)
    (ht : ∀ o d, s'.connections.get o = some d → s.connections.get o = some d ∨
      isFurther d.task = true ∨ ∃ msg, d.task = .received msg now) : Recent s' (now + 1) := by
  refine h.step (fun _ _ hg => .inl (hs ▸ hg)) ?_ ?_
  · rintro sid pend ⟨hk, ⟨number, hnum⟩ | ⟨o, d, number, payload, hd, htask⟩⟩
    · exact .inl ⟨hk, .inl ⟨number, hp ▸ hnum⟩⟩
    rcases ht o d hd with ho | hf | ⟨msg, hm⟩
    · exact .inl ⟨hk, .inr ⟨o, d, number, payload, ho, htask⟩⟩
    · rw [htask] at hf
      cases hf
    · rw [htask] at hm
      cases hm
  · rintro sid time ⟨o, d, requestId, clientPublicKey, refused, hd, htask⟩
    rcases ht o d hd with ho | hf | ⟨msg, hm⟩
    · exact .inl ⟨o, d, requestId, clientPublicKey, refused, ho, htask⟩
    · rw [htask] at hf
      cases hf
    · rw [htask] at hm
      cases hm
      exact .inr ⟨rfl, hs⟩

theorem Move.recent (h : Move s action s') (hc : s.activatedClean action = true)
    (hr : Recent s s.clock) : Recent s' (s.clock + 1) := by
  cases h with
  | stay => exact hr.tasks rfl rfl fun _ _ hg => .inl hg
  | opened | ended =>
    refine hr.tasks rfl rfl ?_
    exact forall_insert (.inr (.inl rfl)) fun _ _ hg => .inl hg
  | read addr c hg msg =>
    refine hr.tasks rfl rfl ?_
    exact forall_insert (.inr (.inr ⟨msg, rfl⟩)) fun _ _ hg => .inl hg
  | task addr c hg ver dlv ht =>
    refine ht.recent hg ?_ hr
    intro sid ha
    rw [activatedClean, activates, hg, Option.bind_some, ha, Option.all_some, Bool.not_eq_true'] at hc
    exact hc

theorem recent_step (h : Recent s s.clock) (hc : s.activatedClean action = true) :
    Recent (s.step action) (s.step action).clock := by
  have hacted := (act_move s action).recent hc h
  exact { hacted with }

theorem recent_new : Recent new new.clock where
  past _ _ hget := by cases hget
  unsubscribes _ _ _ hget := by cases hget
  reads _ _ _ hget := by cases hget

theorem run_recent {acts : List Action} (h : everyStep step activatedClean new acts = true) :
    Recent (run acts) (run acts).clock :=
  foldl_induction (P := fun s => Recent s s.clock) (fun _ _ hr hc => recent_step hr hc) recent_new h

theorem Move.outcome (h : Move s action s') (ho : Owned s) (hr : Recent s s.clock)
    (hg : s.subscriptions.get subscriptionId = some active) : s'.subscriptions.get subscriptionId = some active ∨
      ∃ addr ver dlv c, action = .advance addr ver dlv ∧ s.connections.get addr = some c ∧
        Outcome s addr c subscriptionId active (s'.subscriptions.get subscriptionId) := by
  cases h with
  | task addr c hc ver dlv ht =>
    exact .inr ⟨addr, ver, dlv, c, rfl, hc, ht.outcome ho hr hg⟩
  | _ => exact .inl hg

/-- In every run in which no unsubscribe of an id is underway when the id becomes active, an active subscription stays
with its owner from one step to the next, unless the step is the answer to an unsubscribe that the owner sent after the
activation, the end of the owner's connection, the close of the slow subscription, or the release of its daemon.  In
every run the events go to the owner of their subscription and come from its daemon. -/
theorem subscription_ownership (actions : List Action) : (everyStep step activatedClean new actions = true →
      ∀ before action rest, actions = before ++ action :: rest →
      ∀ subscriptionId active, (run before).subscriptions.get subscriptionId = some active →
        (run (before ++ [action])).subscriptions.get subscriptionId = some active ∨
        ∃ addr verified delivered c, action = .advance addr verified delivered ∧
          (run before).connections.get addr = some c ∧
          Outcome (run before) addr c subscriptionId active
            ((run (before ++ [action])).subscriptions.get subscriptionId)) ∧
    ∀ event ∈ (run actions).events, event.Rightful := by
  constructor
  · rintro hc before action rest rfl subscriptionId active hg
    rw [everyStep_append, Bool.and_eq_true] at hc
    have hstep : (run (before ++ [action])).subscriptions = ((run before).act action).subscriptions := by
      unfold run
      rw [foldl_append]
      rfl
    rw [hstep]
    exact (act_move (run before) action).outcome (run_owned before) (run_recent hc.1) hg
  · exact (run_owned actions).events

/-! ### Sample runs -/

/-- A second client, socket 3, connects to the daemon. -/
def sampleClients : List Action :=
  sampleSockets ++ [.connect 3, .read 3 (.clientConnect sampleKey none)] ++ advances 3 5

/-- The client subscribes to `s`, and the daemon answers its request `number`. -/
def subscribeRun (client : SocketAddr) (number : Nat) : List Action :=
  [.read client (.clientSubscribe "subscribe" "session" "s" "key" "payload" sampleKey none)] ++ advances client 3 ++
    [.read 1 (.daemonResponse number (some "ok") none)] ++ advances 1 3

/-- The client's unsubscribe of `s` is sent on to the daemon. -/
def unsubscribeRun (client : SocketAddr) : List Action :=
  [.read client (.clientUnsubscribe "unsubscribe" "s" "key" none)] ++ advances client 4

/-- The client's channel does not take an event of `s`, and the subscription is closed. -/
def slowRun : List Action :=
  [.read 1 (.daemonEvent "s" 1 "event"), .advance 1 true true, .advance 1 true false] ++ advances 1 5

/-- The daemon has sent an event of the active subscription, and reads the owner's unsubscribe. -/
def eventRun : List Action :=
  sampleClients ++ subscribeRun 2 1 ++ [.read 1 (.daemonEvent "s" 1 "event")] ++ advances 1 2 ++ unsubscribeRun 2 ++
    [.read 1 (.daemonResponse 2 (some "ok") none)]

/-- The next step removes the subscription. -/
theorem subscription_ownership_eventRun : everyStep step activatedClean new (eventRun ++ [.advance 1 true true]) = true ∧
    (∃ active c, (run eventRun).subscriptions.get "s" = some active ∧ active.clientAddr = 2 ∧
      (run eventRun).connections.get 1 = some c ∧ Outcome (run eventRun) 1 c "s" active none) ∧
    (run eventRun).events.map RoutedEvent.clientSender = [2] ∧ ∀ event ∈ (run eventRun).events, event.Rightful := by
  have hclean : everyStep step activatedClean new (eventRun ++ [.advance 1 true true]) = true := by decide +kernel
  have howner : ((run eventRun).subscriptions.get "s").map ActiveSubscription.clientAddr = some 2 := by decide +kernel
  have hgone : (run (eventRun ++ [.advance 1 true true])).subscriptions.get "s" = none := by decide +kernel
  refine ⟨hclean, ?_, by decide +kernel, (subscription_ownership eventRun).2⟩
  obtain ⟨active, hget, hclient⟩ := Option.map_eq_some_iff.1 howner
  rcases (subscription_ownership _).1 hclean eventRun _ [] rfl "s" active hget with hkept | ⟨addr, _, _, c, hact, hc, hout⟩
  · rw [hgone] at hkept
    cases hkept
  · cases hact
    rw [hgone] at hout
    exact ⟨active, c, hget, hclient, hc, hout⟩

/-- The daemon answers the first client's unsubscribe after the second client has subscribed to the same id. -/
def lateAnswer : List Action :=
  sampleClients ++ subscribeRun 2 1 ++ unsubscribeRun 2 ++ slowRun ++ subscribeRun 3 4 ++
    [.read 1 (.daemonResponse 2 (some "ok") none)]

theorem late_answer_removes : ((run lateAnswer).subscriptions.get "s").map ActiveSubscription.clientAddr = some 3 ∧
    ((run lateAnswer).pendingClientRequests.get 2).map (fun pending => (pending.clientAddr, pending.kind)) =
      some (2, .unsubscribe "s") ∧
    (run (lateAnswer ++ [.advance 1 true true])).subscriptions.get "s" = none := by
  decide +kernel

end RelayState

end Chariox.RelayRouting
