import Chariox.RelayRouting.Removal

/-!
# The registry's maps agree with each other

The maps of the registry and of the route index refer to sockets and to daemons.  A peer entry says which role its
socket has, and it is overwritten by the last role message of the socket, while the other maps are cleaned up by the
role that the entry has when the socket ends.

As long as no socket takes both roles, the maps agree: the daemons that are registered are those with a peer and those
with a sender, the peer of a registration is a daemon with that registration, an active subscription has a client and a
daemon, and nothing refers to a socket whose peer was removed.  A client that registers as a daemon, or a daemon that
connects as a client, leaves entries of its first role behind.
-/

namespace Chariox.RelayRouting

open OrdMap

namespace RelayState

variable {s x : RelayState} {addr : SocketAddr} {c : Connection} {rel : Option DaemonKey}

/-! ### Agreement -/

/-- No map refers to the socket or to its channel. -/
structure Unreferenced (s : RelayState) (addr : SocketAddr) : Prop where
  peers : s.peers.get addr = none
  daemonPeers : ∀ key, s.daemonPeers.get key ≠ some addr
  daemonSenders : ∀ key sender, s.daemonSenders.get key = some sender → sender.peer ≠ addr
  clientSenders : ∀ client sender, s.clientSenders.get client = some sender → client ≠ addr ∧ sender ≠ addr
  subscriptions : ∀ id active, s.subscriptions.get id = some active → active.clientAddr ≠ addr
  eventRoutes : ∀ id route, s.eventRoutes.get id = some route → route.clientSender ≠ addr
  pending : ∀ number pending, s.pendingClientRequests.get number = some pending → pending.clientAddr ≠ addr

/-- The socket has no handler, or its handler has removed its peer. -/
def isRemoved (s : RelayState) (addr : SocketAddr) : Bool := (s.connections.get addr).all (fun c => c.task.isGone)

/-- The maps of the registry and of the route index agree. -/
structure Consistent (s : RelayState) : Prop where
  daemonPeers : ∀ key, s.daemonPeers.contains key = s.daemons.contains key
  daemonSenders : ∀ key, s.daemonSenders.contains key = s.daemons.contains key
  registered : ∀ key addr, s.daemonPeers.get key = some addr → s.peers.get addr = some (.daemon key)
  subscriptions : ∀ id active, s.subscriptions.get id = some active →
    (∃ key, s.peers.get active.clientAddr = some (.client key)) ∧ s.daemons.contains active.daemonKey = true
  removed : ∀ addr, s.isRemoved addr = true → s.Unreferenced addr

/-- A socket that is connected as a client does not register as a daemon, and a socket that has registered as a daemon
does not connect as a client. -/
def keepsRole (s : RelayState) : Action → Bool
  | .advance addr _ _ =>
    match s.connections.get addr with
    | none => true
    | some c =>
      match c.task with
      | .received (.daemonRegister _ _ none) _ => (s.connectedClientBinding addr).isNone
      | .admitting _ => c.registeredDaemonKey.isNone
      | _ => true
  | _ => true

/-! ### Invariant -/

def IsClient (s : RelayState) (addr : SocketAddr) : Prop := ∃ key, s.peers.get addr = some (.client key)

theorem isSome_connectedClientBinding : (s.connectedClientBinding addr).isSome = true ↔ s.IsClient addr := by
  unfold connectedClientBinding IsClient
  cases hpeer : s.peers.get addr with
  | none => simp
  | some peer => cases peer <;> simp

/-- The task is of a client if it goes on as one. -/
def TaskOk (s : RelayState) (addr : SocketAddr) : Task → Prop
  | .connecting _ | .subscribe _ => s.IsClient addr
  | .insert _ (.client pending _) => pending.clientAddr = addr ∧ s.IsClient addr
  | _ => True

theorem taskOk_mono (hc : s.IsClient addr → x.IsClient addr) {task : Task} (h : s.TaskOk addr task) :
    x.TaskOk addr task := by
  cases task with
  | connecting | subscribe => exact hc h
  | insert n req =>
    cases req with
    | client => exact ⟨h.1, hc h.2⟩
    | peer => trivial
  | _ => trivial

theorem taskOk_of_isQuiet {task : Task} (h : task.isQuiet = true) : s.TaskOk addr task := by
  cases task <;> trivial

/-- Every entry refers to a peer with the role it needs.  The peer of the registration `released` may be gone
already. -/
structure Kept (released : Option DaemonKey) (s : RelayState) : Prop where
  daemons : ∀ key, s.daemonPeers.contains key = s.daemons.contains key
  senders : ∀ key, (s.daemonSenders.get key).map DaemonSender.peer = s.daemonPeers.get key
  registered : ∀ key addr, released ≠ some key → s.daemonPeers.get key = some addr →
    s.peers.get addr = some (.daemon key)
  live : ∀ addr peer, s.peers.get addr = some peer → ∃ c, s.connections.get addr = some c ∧
    c.task.isGone = false ∧ ∀ key, peer = .daemon key → c.registeredDaemonKey = some key
  clients : ∀ client sender, s.clientSenders.get client = some sender → s.IsClient client
  subscribed : ∀ id active, s.subscriptions.get id = some active →
    s.IsClient active.clientAddr ∧ s.daemons.contains active.daemonKey = true
  pending : ∀ number pending, s.pendingClientRequests.get number = some pending →
    s.IsClient pending.clientAddr ∧
      (pending.kind ≠ .request → (∀ id, pending.kind ≠ .unsubscribe id) → s.daemons.contains pending.daemonKey = true)
  tasks : ∀ addr c, s.connections.get addr = some c → s.TaskOk addr c.task

namespace Kept

section

variable (h : Kept rel s)

include h

theorem put {task : Task} (hok : s.TaskOk addr task) (hl : ∀ peer, s.peers.get addr = some peer →
      task.isGone = false ∧ ∀ key, peer = .daemon key → c.registeredDaemonKey = some key) :
    Kept rel (s.put addr c task) :=
  { h with
    live := by
      intro a peer hp
      rw [get_put]
      split
      · rename_i heq
        subst heq
        exact ⟨_, rfl, hl peer hp⟩
      · exact h.live a peer hp
    tasks := by
      intro a d hg
      rw [get_put] at hg
      split at hg
      · rename_i heq
        cases hg
        rw [heq]
        exact hok
      · exact h.tasks a d hg }

/-- The handler that has the connection `c` goes on with another task. -/
theorem move (hge : s.connections.get addr = some c) {task : Task} (hok : s.TaskOk addr task)
    (hg : task.isGone = false) : Kept rel (s.put addr c task) := by
  refine h.put hok fun peer hp => ⟨hg, ?_⟩
  obtain ⟨d, hd, -, hk⟩ := h.live addr peer hp
  rw [hge] at hd
  cases hd
  exact hk

theorem next (hge : s.connections.get addr = some c) {sds : List Send} {next : Next}
    (ht : c.task = .deliver sds next) (rest : List Send) : Kept rel (s.put addr c (.deliver rest next)) := by
  refine h.put trivial fun peer hp => ?_
  obtain ⟨d, hd, hg, hk⟩ := h.live addr peer hp
  rw [hge] at hd
  cases hd
  rw [ht] at hg
  refine ⟨?_, hk⟩
  cases next with
  | gone => cases hg
  | _ => rfl

theorem insertPending (n : Nat) {pend : PendingClientRequest} (hcl : s.IsClient pend.clientAddr)
    (hd : pend.kind ≠ .request → (∀ id, pend.kind ≠ .unsubscribe id) → s.daemons.contains pend.daemonKey = true) :
    Kept rel { s with pendingClientRequests := s.pendingClientRequests.insert n pend } :=
  { h with
    pending := forall_insert ⟨hcl, hd⟩ h.pending }

theorem insertSubscription (id : String) {a : ActiveSubscription}
    (hcl : s.IsClient a.clientAddr) (hd : s.daemons.contains a.daemonKey = true) :
    Kept rel { s with subscriptions := s.subscriptions.insert id a } :=
  { h with
    subscribed := forall_insert ⟨hcl, hd⟩ h.subscribed }

theorem insertClientSender (hcl : s.IsClient addr) :
    Kept rel { s with clientSenders := s.clientSenders.insert addr addr } :=
  { h with
    clients := forall_insert hcl h.clients }

end

theorem insertClient (h : Kept none s) (hg : s.connections.get addr = some c) (hgo : c.task.isGone = false)
    (hr : c.registeredDaemonKey = none) (key : DaemonKey) :
    Kept none { s with peers := s.peers.insert addr (.client key) } := by
  have hpeer : ∀ a, (s.peers.insert addr (.client key)).get a =
      if a = addr then some (.client key) else s.peers.get a :=
    fun a => get_insert ..
  have hcl : ∀ a, s.IsClient a → IsClient { s with peers := s.peers.insert addr (.client key) } a := by
    rintro a ⟨key', ha⟩
    by_cases heq : a = addr
    · exact ⟨key, (hpeer a).trans (if_pos heq)⟩
    · exact ⟨key', (hpeer a).trans ((if_neg heq).trans ha)⟩
  refine ⟨h.daemons, h.senders, ?_, ?_, ?_, ?_, ?_, ?_⟩
  · intro key' a hne ha
    have hold := h.registered key' a hne ha
    obtain ⟨d, hd, -, hk⟩ := h.live a _ hold
    have hoth : a ≠ addr := by
      intro heq
      rw [heq, hg] at hd
      cases hd
      rw [hr] at hk
      cases hk key' rfl
    exact (hpeer a).trans ((if_neg hoth).trans hold)
  · intro a peer ha
    rw [hpeer] at ha
    split at ha
    · rename_i heq
      cases ha
      rw [heq]
      exact ⟨c, hg, hgo, nofun⟩
    · exact h.live a peer ha
  · exact fun cl sn ha => hcl cl (h.clients cl sn ha)
  · exact fun id av ha => ⟨hcl _ (h.subscribed id av ha).1, (h.subscribed id av ha).2⟩
  · exact fun n pend ha => ⟨hcl _ (h.pending n pend ha).1, (h.pending n pend ha).2⟩
  · exact fun a d ha => taskOk_mono (hcl a) (h.tasks a d ha)

variable {key : DaemonKey}

theorem refresh (h : Kept none s) (hp : s.daemonPeers.get key = some addr) (pkey : String) :
    Kept none { s with daemons := s.daemons.insert key pkey } := by
  have hcon : ∀ key', (s.daemons.insert key pkey).contains key' = s.daemons.contains key' := by
    intro key'
    rw [contains_insert]
    split
    · rename_i heq
      rw [heq, ← h.daemons, OrdMap.contains, hp]
      rfl
    · rfl
  refine ⟨?_, h.senders, h.registered, h.live, h.clients, ?_, ?_, h.tasks⟩
  · exact fun key' => (h.daemons key').trans (hcon key').symm
  · intro id a hg
    obtain ⟨hcl, hd⟩ := h.subscribed id a hg
    exact ⟨hcl, (hcon _).trans hd⟩
  · intro n pend hg
    obtain ⟨hcl, hd⟩ := h.pending n pend hg
    exact ⟨hcl, fun h1 h2 => (hcon _).trans (hd h1 h2)⟩

/-! ### Registrations -/

/-- The end of a registration: nothing is left of the daemon. -/
theorem release (h : Kept rel s) (hr : ∀ o, rel = some o → o = key) : Kept none (s.releaseDaemon key).1 where
  daemons := by
    intro key'
    change (s.daemonPeers.remove key).contains key' = (s.daemons.remove key).contains key'
    rw [contains_remove, contains_remove, h.daemons]
  senders := by
    intro key'
    change ((s.daemonSenders.remove key).get key').map DaemonSender.peer = (s.daemonPeers.remove key).get key'
    rw [get_remove, get_remove]
    split
    · rfl
    · exact h.senders key'
  registered := by
    intro key' a _ hg
    obtain ⟨hne, hg⟩ := of_get_remove hg
    exact h.registered key' a (fun heq => hne (hr key' heq)) hg
  live := h.live
  clients := h.clients
  subscribed := by
    intro id av hg
    change (s.subscriptions.retain _).get id = some av at hg
    rw [get_retain, Option.filter_eq_some_iff, bne_iff_ne] at hg
    obtain ⟨hcl, hd⟩ := h.subscribed id av hg.1
    refine ⟨hcl, ?_⟩
    change (s.daemons.remove key).contains av.daemonKey = true
    rw [contains_remove, if_neg hg.2]
    exact hd
  pending := by
    intro n pend hg
    change (s.pendingClientRequests.retain _).get n = some pend at hg
    rw [get_retain, Option.filter_eq_some_iff, Bool.not_eq_true', beq_eq_false_iff_ne] at hg
    obtain ⟨hcl, hd⟩ := h.pending n pend hg.1
    refine ⟨hcl, fun h1 h2 => ?_⟩
    change (s.daemons.remove key).contains pend.daemonKey = true
    rw [contains_remove, if_neg hg.2]
    exact hd h1 h2
  tasks := h.tasks

theorem retainPeers (h : Kept none s) (addr : SocketAddr) (key : DaemonKey) : Kept (some key) { s with
      peers := s.peers.retain (fun o peer => !(o != addr && peer == PeerHandle.daemon key)) } := by
  have hget : ∀ a, (s.peers.retain (fun o peer => !(o != addr && peer == PeerHandle.daemon key))).get a =
      (s.peers.get a).filter (fun peer => !(a != addr && peer == PeerHandle.daemon key)) :=
    fun a => get_retain ..
  have hcl : ∀ a, s.IsClient a → IsClient { s with
      peers := s.peers.retain (fun o peer => !(o != addr && peer == PeerHandle.daemon key)) } a := by
    rintro a ⟨key', ha⟩
    refine ⟨key', (hget a).trans ?_⟩
    rw [ha, Option.filter_eq_some_iff]
    simp
  refine ⟨h.daemons, h.senders, ?_, ?_, ?_, ?_, ?_, ?_⟩
  · intro key' a hne ha
    have hold := h.registered key' a nofun ha
    refine (hget a).trans ?_
    rw [hold, Option.filter_eq_some_iff]
    have hkey : ¬key' = key := fun heq => hne (by rw [heq])
    simp [hkey]
  · intro a peer ha
    rw [hget, Option.filter_eq_some_iff] at ha
    exact h.live a peer ha.1
  · exact fun cl sn ha => hcl cl (h.clients cl sn ha)
  · exact fun id av ha => ⟨hcl _ (h.subscribed id av ha).1, (h.subscribed id av ha).2⟩
  · exact fun n pend ha => ⟨hcl _ (h.pending n pend ha).1, (h.pending n pend ha).2⟩
  · exact fun a d ha => taskOk_mono (hcl a) (h.tasks a d ha)

theorem freeKey (h : Kept none s) (addr : SocketAddr) (key : DaemonKey) : Kept none (s.freeKey addr key).1 := by
  have hkept := h.retainPeers addr key
  unfold RelayState.freeKey
  split
  · rename_i he
    -- no other socket has registered the key, so its peer is this socket or none
    refine { hkept with registered := fun key' a _ ha => ?_ }
    have hold := h.registered key' a nofun ha
    rw [get_retain, hold, Option.filter_eq_some_iff]
    refine ⟨rfl, ?_⟩
    rw [Bool.not_eq_true']
    by_contra hrpl
    rw [Bool.not_eq_false] at hrpl
    have hmem : (a, PeerHandle.daemon key') ∈
        s.peers.entries.filter fun e => e.1 != addr && e.2 == PeerHandle.daemon key :=
      List.mem_filter.2 ⟨mem_entries.2 hold, hrpl⟩
    unfold replacedPeers at he
    rw [List.isEmpty_iff, List.map_eq_nil_iff] at he
    rw [he] at hmem
    cases hmem
  · exact hkept.release fun o heq => Option.some.inj heq.symm

theorem freeKey_isClient (h : (s.freeKey addr key).1.IsClient addr) : s.IsClient addr := by
  obtain ⟨key', hp⟩ := h
  have hretain : (s.peers.retain fun o peer => !(o != addr && peer == PeerHandle.daemon key)).get addr =
      some (.client key') := by
    unfold RelayState.freeKey at hp
    split at hp <;> exact hp
  rw [get_retain, Option.filter_eq_some_iff] at hretain
  exact ⟨key', hretain.1⟩

/-- A socket that is not a client becomes the peer of the only key it registers. -/
theorem enterDaemon (h : Kept none s) (hg : s.connections.get addr = some c) (hr : ¬s.IsClient addr)
    (hk : ∀ cur, c.registeredDaemonKey = some cur → cur = key) (pkey : String) (sds : List Send) :
    Kept none ((s.enterDaemon addr key pkey).put addr { c with registeredDaemonKey := some key }
      (.deliver sds .idle)) := by
  have hpeer : ∀ a, (s.peers.insert addr (.daemon key)).get a =
      if a = addr then some (.daemon key) else s.peers.get a :=
    fun a => get_insert ..
  have hcl : ∀ a, s.IsClient a → (s.enterDaemon addr key pkey).IsClient a := by
    rintro a ⟨key', ha⟩
    have hne : a ≠ addr := fun heq => hr ⟨key', heq ▸ ha⟩
    exact ⟨key', (hpeer a).trans ((if_neg hne).trans ha)⟩
  have hcon : ∀ key', s.daemons.contains key' = true → (s.daemons.insert key pkey).contains key' = true := by
    intro key' hold
    rw [contains_insert]
    split
    · rfl
    · exact hold
  refine ⟨?_, ?_, ?_, ?_, ?_, ?_, ?_, ?_⟩
  · intro key'
    change (s.daemonPeers.insert key addr).contains key' = (s.daemons.insert key pkey).contains key'
    rw [contains_insert, contains_insert, h.daemons]
  · intro key'
    change ((s.daemonSenders.insert key _).get key').map DaemonSender.peer = (s.daemonPeers.insert key addr).get key'
    rw [get_insert, get_insert]
    split
    · rfl
    · exact h.senders key'
  · intro key' a hne ha
    rcases of_get_insert ha with ⟨heq, rfl⟩ | ⟨hot, ha⟩
    · rw [heq]
      exact (hpeer a).trans (if_pos rfl)
    · have hold := h.registered key' a hne ha
      obtain ⟨d, hd, -, hre⟩ := h.live a _ hold
      have haddr : a ≠ addr := by
        intro heq
        rw [heq, hg] at hd
        cases hd
        exact hot (hk key' (hre key' rfl))
      exact (hpeer a).trans ((if_neg haddr).trans hold)
  · intro a peer ha
    change (s.peers.insert addr (.daemon key)).get a = some peer at ha
    rw [hpeer] at ha
    rw [get_put]
    split at ha
    · rename_i heq
      cases ha
      rw [if_pos heq]
      refine ⟨_, rfl, rfl, ?_⟩
      intro key' hn
      cases hn
      rfl
    · rename_i hne
      rw [if_neg hne]
      exact h.live a peer ha
  · exact fun cl sn ha => hcl cl (h.clients cl sn ha)
  · intro id av ha
    obtain ⟨hac, hdm⟩ := h.subscribed id av ha
    exact ⟨hcl _ hac, hcon _ hdm⟩
  · intro n pend ha
    obtain ⟨hac, hdm⟩ := h.pending n pend ha
    exact ⟨hcl _ hac, fun h1 h2 => hcon _ (hdm h1 h2)⟩
  · intro a d ha
    rw [get_put] at ha
    split at ha
    · cases ha
      trivial
    · exact taskOk_mono (hcl a) (h.tasks a d ha)

/-! ### The end of a connection -/

section

variable (h : Kept none s) (hget : s.connections.get addr = some c) {kernelReload : Bool}
  (htask : c.task = .ending kernelReload)

include h hget htask

theorem dropClient : Kept (s.endedRegistration addr c) (s.dropClient addr) := by
  have hpeer : ∀ a, (s.dropClient addr).peers.get a = if a = addr then none else s.peers.get a :=
    fun a => get_remove ..
  have hcl : ∀ a, a ≠ addr → s.IsClient a → (s.dropClient addr).IsClient a := by
    rintro a hne ⟨key', ha⟩
    exact ⟨key', (hpeer a).trans ((if_neg hne).trans ha)⟩
  refine ⟨h.daemons, h.senders, ?_, ?_, ?_, ?_, ?_, ?_⟩
  · intro key a he ha
    have hold := h.registered key a nofun ha
    have hne : a ≠ addr := by
      intro heq
      subst heq
      obtain ⟨d, hd, -, hk⟩ := h.live a _ hold
      rw [hget] at hd
      cases hd
      refine he ?_
      unfold endedRegistration
      rw [hk key rfl, hold, Option.filter_eq_some_iff]
      exact ⟨rfl, beq_self_eq_true _⟩
    exact (hpeer a).trans ((if_neg hne).trans hold)
  · intro a peer ha
    rw [hpeer] at ha
    split at ha
    · cases ha
    · exact h.live a peer ha
  · intro cl sn ha
    obtain ⟨hne, ha⟩ := of_get_remove ha
    exact hcl cl hne (h.clients cl sn ha)
  · intro id av ha
    change (s.subscriptions.retain _).get id = some av at ha
    rw [get_retain, Option.filter_eq_some_iff, bne_iff_ne] at ha
    obtain ⟨hac, hdm⟩ := h.subscribed id av ha.1
    exact ⟨hcl _ ha.2 hac, hdm⟩
  · -- the client's entries are dropped if the peer is a client, and there are none otherwise
    intro n pend ha
    have hold : s.pendingClientRequests.get n = some pend ∧ pend.clientAddr ≠ addr := by
      unfold RelayState.dropClient at ha
      split at ha
      · rw [get_retain, Option.filter_eq_some_iff, bne_iff_ne] at ha
        exact ha
      rename_i hn
      refine ⟨ha, fun heq => hn (isSome_connectedClientBinding.2 ?_)⟩
      exact heq ▸ (h.pending n pend ha).1
    obtain ⟨hac, hdm⟩ := h.pending n pend hold.1
    exact ⟨hcl _ hold.2 hac, hdm⟩
  · intro a d ha
    by_cases heq : a = addr
    · subst heq
      have hd : some c = some d := hget.symm.trans ha
      cases hd
      rw [htask]
      trivial
    · exact taskOk_mono (hcl a heq) (h.tasks a d ha)

theorem leave : Kept none (s.leave addr c).1 := by
  have hdrop := h.dropClient hget htask
  unfold RelayState.leave
  split
  · rename_i he
    rw [he] at hdrop
    exact hdrop.release fun o heq => Option.some.inj heq.symm
  rename_i he
  rw [he] at hdrop
  exact hdrop

end

theorem leave_peers : (s.leave addr c).1.peers.get addr = none := by
  have hpeer : (s.peers.remove addr).get addr = none := get_remove_self ..
  unfold RelayState.leave
  split <;> exact hpeer

/-- An answer activates the subscription of a client whose daemon is registered, or removes one. -/
theorem settle (h : Kept none s) {n : Nat} {pend : PendingClientRequest}
    (hp : s.pendingClientRequests.get n = some pend) (er : Option RelayError) :
    Kept none (s.settle addr n pend er).1 := by
  have hsame : Kept none (s.removePending (.request n)) :=
    { h with pending := fun n' pend' hg => h.pending n' pend' (of_get_remove hg).2 }
  unfold RelayState.settle applyAnswer
  dsimp only
  split
  · split
    · exact hsame
    · rename_i id ckey hk
      obtain ⟨hcl, hd⟩ := h.pending n pend hp
      rw [hk] at hd
      have hcon := hd nofun nofun
      split
      · have hact : Kept none { s.removePending (.request n) with
            subscriptions :=
              s.subscriptions.insert id ⟨pend.clientAddr, pend.daemonKey, ckey, s.clock⟩ } :=
          hsame.insertSubscription id hcl hcon
        exact { hact with }
      · exact { hsame with }
    · exact { hsame with
        subscribed := fun id' a hg => h.subscribed id' a (of_get_remove hg).2 }
  · exact hsame

end Kept

/-! ### Steps -/

section

variable (number : Nat) (request : Relayed) (sender : Option DaemonSender)

theorem routed_taskOk : s.TaskOk addr (routed number request sender) := by
  cases sender <;> trivial

theorem routed_isGone : (routed number request sender).isGone = false := by
  cases sender <;> rfl

end

theorem TaskMove.kept (h : TaskMove s addr c x) (hg : s.connections.get addr = some c) (ho : Owned s)
    (hk : Kept none s) (hrole : ∀ ver dlv, s.keepsRole (.advance addr ver dlv) = true) : Kept none x := by
  have hrole := hrole false false
  unfold keepsRole at hrole
  dsimp only at hrole
  rw [hg] at hrole
  dsimp only at hrole
  cases h with
  | quiet n hqt hgo =>
    exact Kept.move (s := s.count n) { hk with } hg (taskOk_of_isQuiet hqt) hgo
  | bound key pkey ht =>
    rw [ht] at hrole
    have hbd := hk.insertClient hg (by rw [ht]; rfl) (Option.isNone_iff_eq_none.1 hrole) key
    exact hbd.move hg ⟨key, get_insert_self ..⟩ rfl
  | connected pkey ht hqt hgo =>
    have hcl := hk.tasks addr c hg
    rw [ht] at hcl
    exact (hk.insertClientSender hcl).move hg (taskOk_of_isQuiet hqt) hgo
  | registered key pkey time ht hke =>
    rw [ht] at hrole
    refine (hk.freeKey addr key).enterDaemon ?_ ?_ hke pkey _
    · rw [(freeKey_frame s addr key).1]
      exact hg
    intro hcl
    have hbind := isSome_connectedClientBinding.2 (Kept.freeKey_isClient hcl)
    rw [Option.isNone_iff_eq_none.1 hrole] at hbind
    cases hbind
  | refreshed key pkey hke hp => exact (hk.refresh hp pkey).move hg trivial rfl
  | requested req hpl hcl =>
    refine Kept.move (s := s.allocate) { hk with } hg ?_ rfl
    cases req with
    | client pend pay =>
      obtain ⟨ha, hbind⟩ := hcl pend pay rfl
      exact ⟨ha, isSome_connectedClientBinding.1 hbind⟩
    | peer => trivial
  | subscribing req hn hcl =>
    refine Kept.move (s := s.allocate) { hk with } hg ?_ rfl
    exact isSome_connectedClientBinding.1 hcl
  | notFound => exact Kept.move (s := s.allocate) { hk with } hg trivial rfl
  | subscribed req ht hf hdm =>
    have hcl := hk.tasks addr c hg
    rw [ht] at hcl
    have hinsd : Kept none (s.insertPending req.number (req.relayed addr)) :=
      hk.insertPending req.number hcl fun _ _ => hdm
    exact hinsd.move hg (routed_taskOk _ _ _) (routed_isGone _ _ _)
  | inserted num req ht =>
    have hok := hk.tasks addr c hg
    have hpl := ho.plain addr c num req hg ht
    rw [ht] at hok
    cases req with
    | client pend =>
      have hcl : s.IsClient pend.clientAddr := hok.1 ▸ hok.2
      refine (hk.insertPending num hcl ?_).move hg trivial rfl
      · -- a plain entry is not for a subscribe message
        intro hre hu
        unfold Relayed.isPlain at hpl
        dsimp only at hpl
        split at hpl
        · cases hpl
        rename_i hot
        cases hkind : pend.kind with
        | request => exact absurd hkind hre
        | subscribe sc id ckey => exact absurd hkind (hot sc id ckey)
        | unsubscribe id => exact absurd hkind (hu id)
    | peer pend pay =>
      exact Kept.move (s := s.insertPending num (.peer pend pay)) { hk with } hg trivial rfl
  | routed => exact hk.move hg (routed_taskOk _ _ _) (routed_isGone _ _ _)
  | forwarded num req sn =>
    exact Kept.move (s := s.forwardTo num req sn) { hk with } hg trivial rfl
  | gaveUp num req =>
    have hrem : Kept none (s.removePending (req.id num)) := by
      cases req with
      | client =>
        exact { hk with
          pending := fun n' pend' hg' => hk.pending n' pend' (of_get_remove hg').2 }
      | peer => exact { hk with }
    exact hrem.move (by rw [removePending_connections]; exact hg) trivial rfl
  | answered num resp er time ht pend hpe =>
    obtain ⟨_, _, n, heq, -⟩ := settle_eq s addr num pend er
    exact (hk.settle hpe er).move (by rw [heq]; exact hg) trivial rfl
  | tookPeer num =>
    exact Kept.move (s := s.removePending (.peerRequest num)) { hk with } hg trivial rfl
  | eventSent e => exact Kept.move (s := s.sendEvent e) { hk with } hg trivial rfl
  | slowClosed sid =>
    unfold closeSlowSubscription
    split
    · exact hk.move hg trivial rfl
    have hclo : Kept none { s with
        subscriptions := s.subscriptions.remove sid
        eventRoutes := s.eventRoutes.remove sid } :=
      { hk with subscribed := fun id av hg' => hk.subscribed id av (of_get_remove hg').2 }
    exact hclo.move hg trivial rfl
  | delivered send rest next ht =>
    exact Kept.next (s := s.take send) { hk with } hg ht rest
  | dropped send rest next ht => exact hk.next hg ht rest
  | gone ht =>
    refine { hk with live := ?_, tasks := ?_ }
    · intro a peer hp
      obtain ⟨d, hd, hgo, hke⟩ := hk.live a peer hp
      refine ⟨d, ?_, hgo, hke⟩
      rw [get_remove, if_neg]
      · exact hd
      intro heq
      rw [heq, hg] at hd
      cases hd
      rw [ht] at hgo
      cases hgo
    · intro a d hd
      obtain ⟨-, hd⟩ := of_get_remove hd
      exact hk.tasks a d hd
  | removed reload ht =>
    refine (hk.leave hg ht).put trivial ?_
    intro peer hp
    rw [Kept.leave_peers] at hp
    cases hp
  | _ => exact hk.move hg trivial rfl

theorem Move.kept {a : Action} (h : Move s a x) (ho : Owned s) (hk : Kept none s)
    (hr : s.keepsRole a = true) : Kept none x := by
  cases h with
  | stay => exact hk
  | opened addr hg =>
    refine @Kept.put s addr ⟨none, .idle⟩ none hk .idle trivial ?_
    intro peer hp
    obtain ⟨d, hd, -⟩ := hk.live addr peer hp
    rw [hg] at hd
    cases hd
  | read addr c hg | ended addr c hg => exact hk.move hg trivial rfl
  | task addr c hg ver dlv ht => exact ht.kept hg ho hk fun _ _ => hr

theorem kept_new : Kept none new where
  daemons := fun _ => rfl
  senders := fun _ => rfl
  registered := fun _ _ _ h => by cases h
  live := fun _ _ h => by cases h
  clients := nofun
  subscribed := fun _ _ h => by cases h
  pending := fun _ _ h => by cases h
  tasks := fun _ _ h => by cases h

/-! ### Runs -/

/-- What the entries refer to, and the owners of the subscriptions, give the agreement of the maps. -/
theorem Kept.consistent (hk : Kept none s) (ho : Owned s) : Consistent s := by
  have hsdrs : ∀ key sn, s.daemonSenders.get key = some sn → s.daemonPeers.get key = some sn.peer := by
    intro key sn hg
    rw [← hk.senders, hg]
    rfl
  have hrts : ∀ id rt, s.eventRoutes.get id = some rt → s.IsClient rt.clientSender := by
    intro id rt hg
    obtain ⟨av, hac, -, hs⟩ := ho.routes id rt hg
    rw [ho.channels _ _ hs]
    exact (hk.subscribed id av hac).1
  refine ⟨hk.daemons, ?_, fun key addr => hk.registered key addr nofun, hk.subscribed, ?_⟩
  · intro key
    rw [← hk.daemons, OrdMap.contains, OrdMap.contains, ← hk.senders, Option.isSome_map]
  intro addr hr
  have hnone : s.peers.get addr = none := by
    rw [Option.eq_none_iff_forall_ne_some]
    intro peer hpeer
    obtain ⟨c, hc, hgo, -⟩ := hk.live addr peer hpeer
    unfold isRemoved at hr
    rw [hc, Option.all_some, hgo] at hr
    cases hr
  have hcl : ∀ a, s.IsClient a → a ≠ addr := by
    rintro a ⟨key, ha⟩ heq
    rw [heq, hnone] at ha
    cases ha
  have hdmn : ∀ key, s.daemonPeers.get key ≠ some addr := by
    intro key hg
    have hpeer := hk.registered key addr nofun hg
    rw [hnone] at hpeer
    cases hpeer
  refine ⟨hnone, hdmn, ?_, ?_, ?_, ?_, ?_⟩
  · intro key sn hg heq
    exact hdmn key (heq ▸ hsdrs key sn hg)
  · intro cl sn hg
    have hne := hcl cl (hk.clients cl sn hg)
    rw [ho.channels cl sn hg]
    exact ⟨hne, hne⟩
  · exact fun id av hg => hcl _ (hk.subscribed id av hg).1
  · exact fun id rt hg => hcl _ (hrts id rt hg)
  · exact fun n pend hg => hcl _ (hk.pending n pend hg).1

theorem run_kept {acts : List Action} (h : everyStep step keepsRole new acts = true) : Kept none (run acts) := by
  have hboth : Owned (run acts) ∧ Kept none (run acts) := by
    refine foldl_induction (P := fun s => Owned s ∧ Kept none s) ?_ ⟨owned_new, kept_new⟩ h
    intro s a hs hr
    have hacted := (act_move s a).kept hs.1 hs.2 hr
    refine ⟨owned_step s a hs.1, ?_⟩
    exact { hacted with }
  exact hboth.2

/-- In every run in which no socket takes both roles, the maps of the registry agree after every step. -/
theorem registry_consistent {actions : List Action} (h : everyStep step keepsRole new actions = true) :
    (run actions).Consistent :=
  (run_kept h).consistent (run_owned actions)

/-! ### Sample runs -/

/-- The daemon that a client of the sample runs registers. -/
def otherKey : DaemonKey := .new "realm" "other"

/-- A client subscribes, the daemon sends a heartbeat and reconnects from another socket, and the old socket ends. -/
def reconnectRun : List Action :=
  sampleClients ++ subscribeRun 2 1 ++
    [.read 1 (.daemonHeartbeat "daemon" (some (sampleKey, "key2")) none), .advance 1 true true,
      .connect 4, .read 4 (.daemonRegister sampleKey "key" none), .advance 4 true true, .disconnect 1,
      .advance 1 true true]

theorem registry_consistent_reconnectRun :
    everyStep step keepsRole new reconnectRun = true ∧ (run reconnectRun).isRemoved 1 = true ∧
      (run reconnectRun).daemonPeers.get sampleKey = some 4 ∧ (run reconnectRun).Consistent :=
  ⟨by decide +kernel, by decide +kernel, by decide +kernel, registry_consistent (by decide +kernel)⟩

/-- A client with an active subscription and a pending request registers as a daemon. -/
def clientRegisters : List Action :=
  sampleClients ++ subscribeRun 2 1 ++
    [.read 2 (.clientRequest "request" "payload" sampleKey none)] ++ advances 2 4 ++
    [.read 2 (.daemonRegister otherKey "key" none)] ++ advances 2 2

/-- A daemon connects as a client, and its connection ends. -/
def daemonConnects : List Action :=
  sampleSockets ++ [.read 1 (.clientConnect sampleKey none)] ++ advances 1 5 ++ [.disconnect 1, .advance 1 true true]

/-- The subscription of the client is then a daemon's, and its request is pending after its end; the daemon stays
registered after its end, with a sender to a channel that nobody reads. -/
theorem second_role_leaves_entries : ((run clientRegisters).peers.get 2 = some (.daemon otherKey) ∧
      ((run clientRegisters).subscriptions.get "s").map ActiveSubscription.clientAddr = some 2) ∧
    ((run (clientRegisters ++ [.disconnect 2, .advance 2 true true])).isRemoved 2 = true ∧
      ((run (clientRegisters ++ [.disconnect 2, .advance 2 true true])).pendingClientRequests.get 2).map
        PendingClientRequest.clientAddr = some 2) ∧
    ((run daemonConnects).isRemoved 1 = true ∧ (run daemonConnects).daemonPeers.get sampleKey = some 1 ∧
      ((run daemonConnects).daemonSenders.get sampleKey).map DaemonSender.peer = some 1) := by
  decide +kernel

end RelayState

end Chariox.RelayRouting
