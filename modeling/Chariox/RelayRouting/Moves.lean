import Chariox.RelayRouting.Model

/-!
# What a step of the relay can do

`Move` lists what one step does to the shared state and to the task that takes it.  The many ways in which a handler
turns a message down, or waits for the next one, are one case: such a task owes nobody an answer, and at most the
counter of the relay request ids has risen.
-/

namespace Chariox.RelayRouting

open List

/-- The task owes no request an answer and has none on its way. -/
def Task.isQuiet : Task → Bool
  | .idle | .admitting _ | .slow .. | .ending _ => true
  | .deliver sends _ => sends.all (fun send => send.answers.isNone)
  | _ => false

/-- The peer of the task's connection is removed. -/
def Task.isGone : Task → Bool
  | .deliver _ .gone => true
  | _ => false

/-- The pending entry is not for a subscribe message. -/
def Relayed.isPlain : Relayed → Bool
  | .client pending _ =>
    match pending.kind with
    | .subscribe .. => false
    | _ => true
  | .peer .. => true

namespace RelayState

/-- Where a request without a sender goes on. -/
def routed (number : Nat) (request : Relayed) : Option DaemonSender → Task
  | some sender => .forward number request sender
  | none => .unrouted number request

/-- The counter after `n` more relay request ids. -/
def count (s : RelayState) (n : Nat) : RelayState := { s with relayRequestCounter := s.relayRequestCounter + n }

/-- One step of the task of `addr`, whose connection is `c`. -/
inductive TaskMove (s : RelayState) (addr : SocketAddr) (c : Connection) : RelayState → Prop
  | quiet (n : Nat) {task : Task} (h : task.isQuiet = true) (hgone : task.isGone = false) :
      TaskMove s addr c ((s.count n).put addr c task)
  | bound (key : DaemonKey) (publicKey : String) (htask : c.task = .admitting key) :
      TaskMove s addr c ({ s with peers := s.peers.insert addr (.client key) }.put addr c (.connecting publicKey))
  | connected (publicKey : String) (htask : c.task = .connecting publicKey) {task : Task} (h : task.isQuiet = true)
      (hgone : task.isGone = false) :
      TaskMove s addr c ({ s with clientSenders := s.clientSenders.insert addr addr }.put addr c task)
  | registered (key : DaemonKey) (publicKey : String) (time : Nat)
      (htask : c.task = .received (.daemonRegister key publicKey none) time)
      (hkey : ∀ current, c.registeredDaemonKey = some current → current = key) :
      TaskMove s addr c (s.registerDaemon addr c key publicKey)
  | refreshed (key : DaemonKey) (publicKey : String) (hkey : c.registeredDaemonKey = some key)
      (hpeer : s.daemonPeers.get key = some addr) :
      TaskMove s addr c ({ s with daemons := s.daemons.insert key publicKey }.put addr c .idle)
  | requested (request : Relayed) (hplain : request.isPlain = true)
      (hclient : ∀ pending payload, request = .client pending payload →
        pending.clientAddr = addr ∧ (s.connectedClientBinding addr).isSome = true)
      (hown : ∀ pending payload subscriptionId, request = .client pending payload →
        pending.kind = .unsubscribe subscriptionId →
          (∃ active, s.subscriptions.get subscriptionId = some active ∧ active.clientAddr = pending.clientAddr) ∧
          ∃ requestId clientPublicKey refused,
            c.task = .received (.clientUnsubscribe requestId subscriptionId clientPublicKey refused) pending.sentAt) :
      TaskMove s addr c (s.allocate.put addr c (.insert (s.relayRequestCounter + 1) request))
  | subscribing (request : SubscribeRequest) (hnumber : request.number = s.relayRequestCounter + 1)
      (hclient : (s.connectedClientBinding addr).isSome = true) :
      TaskMove s addr c (s.allocate.put addr c (.subscribe request))
  | notFound (envelope : Envelope) :
      TaskMove s addr c (s.allocate.put addr c
        (.deliver [⟨addr, envelope, some (.request (s.relayRequestCounter + 1)), true⟩] .idle))
  | unsubscribed (request : SubscribeRequest) (htask : c.task = .subscribe request) (error : RelayError) :
      TaskMove s addr c
        (s.put addr c (.deliver [(request.relayed addr).refusal request.number error addr] .idle))
  | subscribed (request : SubscribeRequest) (htask : c.task = .subscribe request)
      (hfree : s.subscriptionOwnedByOtherClient request.subscriptionId addr = false)
      (hdaemon : s.daemons.contains request.daemonKey = true) :
      TaskMove s addr c ((s.insertPending request.number (request.relayed addr)).put addr c
        (routed request.number (request.relayed addr) (s.daemonSenders.get request.daemonKey)))
  | inserted (number : Nat) (request : Relayed) (htask : c.task = .insert number request) :
      TaskMove s addr c ((s.insertPending number request).put addr c (.lookup number request))
  | routed (number : Nat) (request : Relayed) (htask : c.task = .lookup number request) (sender : Option DaemonSender)
      (hsender : ∀ x, sender = some x → s.daemonSenders.get request.daemonKey = some x) :
      TaskMove s addr c (s.put addr c (routed number request sender))
  | forwarded (number : Nat) (request : Relayed) (sender : DaemonSender)
      (htask : c.task = .forward number request sender) :
      TaskMove s addr c ((s.forwardTo number request sender).put addr c .idle)
  | overloaded (number : Nat) (request : Relayed) (sender : DaemonSender)
      (htask : c.task = .forward number request sender) :
      TaskMove s addr c (s.put addr c (.overloaded number request))
  | gaveUp (number : Nat) (request : Relayed) (error : RelayError)
      (htask : c.task = .unrouted number request ∨ c.task = .overloaded number request) :
      TaskMove s addr c (s.giveUp addr c number request error)
  | answered (number : Nat) (response : Option String) (error : Option RelayError) (time : Nat)
      (htask : c.task = .received (.daemonResponse number response error) time)
      (pending : PendingClientRequest) (hpending : s.pendingClientRequests.get number = some pending)
      (hkey : c.registeredDaemonKey = some pending.daemonKey) (sends : List Send)
      (hanswers : ∀ send ∈ sends, send.answers = some (.request number)) (hlen : sends.length ≤ 1) :
      TaskMove s addr c ((s.settle addr number pending error).1.put addr c
        (.deliver ((s.settle addr number pending error).2 ++ sends) .idle))
  | tookPeer (number : Nat) (pending : PendingDaemonPeerRequest) (response : Option String) (error : Option RelayError)
      (hpending : s.pendingDaemonRequests.get number = some pending) :
      TaskMove s addr c ((s.removePending (.peerRequest number)).put addr c (.answering number pending response error))
  | answering (number : Nat) (pending : PendingDaemonPeerRequest) (response : Option String) (error : Option RelayError)
      (htask : c.task = .answering number pending response error) (send : Send)
      (hanswer : send.answers = some (.peerRequest number)) :
      TaskMove s addr c (s.put addr c (.deliver [send] .idle))
  | eventRouted (event : RoutedEvent) (route : ActiveEventRoute)
      (hroute : s.eventRoutes.get event.subscriptionId = some route) (hkey : route.daemonKey = event.daemonKey)
      (hsender : route.clientSender = event.clientSender)
      (hactive : event.active = s.subscriptions.get event.subscriptionId) :
      TaskMove s addr c (s.put addr c (.event event))
  | eventSent (event : RoutedEvent) (htask : c.task = .event event) :
      TaskMove s addr c ((s.sendEvent event).put addr c .idle)
  | slowClosed (subscriptionId : String) (key : DaemonKey) (htask : c.task = .slow subscriptionId key) :
      TaskMove s addr c (s.closeSlowSubscription addr c subscriptionId key)
  | delivered (send : Send) (rest : List Send) (next : Next) (htask : c.task = .deliver (send :: rest) next) :
      TaskMove s addr c ((s.take send).put addr c (.deliver rest next))
  | dropped (send : Send) (rest : List Send) (next : Next) (htask : c.task = .deliver (send :: rest) next) :
      TaskMove s addr c (s.put addr c (.deliver rest next))
  | gone (htask : c.task = .deliver [] .gone) :
      TaskMove s addr c { s with connections := s.connections.remove addr }
  | removed (kernelReload : Bool) (htask : c.task = .ending kernelReload) :
      TaskMove s addr c (s.removePeer addr c kernelReload)

/-- One step of the relay, its clock apart. -/
inductive Move (s : RelayState) : Action → RelayState → Prop
  | stay (action : Action) : Move s action s
  | opened (addr : SocketAddr) (h : s.connections.get addr = none) :
      Move s (.connect addr) { s with connections := s.connections.insert addr ⟨none, .idle⟩ }
  | read (addr : SocketAddr) (c : Connection) (hget : s.connections.get addr = some c) (message : Incoming) :
      Move s (.read addr message) (s.put addr c (.received message s.clock))
  | task (addr : SocketAddr) (c : Connection) (hget : s.connections.get addr = some c) (verified delivered : Bool)
      {s' : RelayState} (h : TaskMove s addr c s') : Move s (.advance addr verified delivered) s'
  | ended (addr : SocketAddr) (c : Connection) (hget : s.connections.get addr = some c) :
      Move s (.disconnect addr) (s.put addr c (.ending false))

variable {s : RelayState} {addr : SocketAddr} {c : Connection}

theorem get_put (addr other : SocketAddr) (c : Connection) (task : Task) : (s.put addr c task).connections.get other =
      if other = addr then some { c with task := task } else s.connections.get other :=
  OrdMap.get_insert ..

private theorem quiet_zero {task : Task} (h : task.isQuiet = true) (hg : task.isGone = false) :
    TaskMove s addr c (s.put addr c task) :=
  .quiet 0 h hg

theorem closeWith_move (rsn : String) : TaskMove s addr c (s.closeWith addr c rsn) := quiet_zero rfl rfl

theorem refuse_move (env : Envelope) : TaskMove s addr c (s.refuse addr c env) := quiet_zero rfl rfl

theorem daemonHeartbeat_move (daemonId : String) (reg : Option (DaemonKey × String))
    (ref : Option String) : TaskMove s addr c (s.daemonHeartbeat addr c daemonId reg ref) := by
  unfold daemonHeartbeat
  split
  · exact quiet_zero rfl rfl
  rename_i cur hc
  split
  · exact quiet_zero rfl rfl
  split
  · exact quiet_zero rfl rfl
  split
  · exact closeWith_move _
  split
  · exact quiet_zero rfl rfl
  split
  · exact closeWith_move _
  · rename_i hp
    exact .refreshed cur _ hc (not_not.1 hp)

variable (verified : Bool)

theorem clientConnect_move (tg : DaemonKey) : TaskMove s addr c (s.clientConnect addr c verified tg) := by
  unfold clientConnect
  split
  · exact closeWith_move _
  · exact quiet_zero rfl rfl

theorem admitClient_move {key : DaemonKey} (ht : c.task = .admitting key) : TaskMove s addr c (s.admitClient addr c key) := by
  unfold admitClient
  split
  · exact closeWith_move _
  · exact .bound key _ ht

theorem clientRequest_move (time : Nat) (rid pay : String) (tg : DaemonKey) (ref : Option RelayError) :
    TaskMove s addr c (s.clientRequest addr c time rid pay tg ref) := by
  unfold clientRequest
  split
  · exact closeWith_move _
  rename_i hbd
  split
  · exact refuse_move _
  split
  · exact refuse_move _
  split
  · exact refuse_move _
  refine .requested _ rfl ?_ ?_
  · rintro pend _ heq
    cases heq
    exact ⟨rfl, Option.isSome_of_eq_some hbd⟩
  rintro pend _ sid heq hk
  cases heq
  cases hk

theorem clientSubscribe_move (time : Nat) (rid sc sid ckey pay : String) (tg : DaemonKey) (ref : Option RelayError) :
    TaskMove s addr c (s.clientSubscribe addr c verified time rid sc sid ckey pay tg ref) := by
  unfold clientSubscribe
  split
  · exact closeWith_move _
  rename_i hbd
  split
  · exact refuse_move _
  split
  · exact refuse_move _
  split
  · exact refuse_move _
  · exact .subscribing _ rfl (Option.isSome_of_eq_some hbd)

variable {time : Nat}

theorem clientUnsubscribe_move {rid sid ckey : String} {ref : Option RelayError}
    (ht : c.task = .received (.clientUnsubscribe rid sid ckey ref) time) :
    TaskMove s addr c (s.clientUnsubscribe addr c time rid sid ckey ref) := by
  unfold clientUnsubscribe
  split
  · exact closeWith_move _
  rename_i hbd
  split
  · exact refuse_move _
  split
  · exact .notFound _
  rename_i a ha
  rw [Option.filter_eq_some_iff, beq_iff_eq] at ha
  refine .requested _ rfl ?_ ?_
  · rintro pend _ heq
    cases heq
    exact ⟨rfl, Option.isSome_of_eq_some hbd⟩
  rintro pend _ id heq hk
  cases heq
  cases hk
  exact ⟨⟨a, ha⟩, _, _, _, ht⟩

theorem daemonPeerRequest_move (rid pay : String) (tg : DaemonKey) (ref : Option (String × RelayError)) :
    TaskMove s addr c (s.daemonPeerRequest addr c verified rid pay tg ref) := by
  unfold daemonPeerRequest
  split
  · exact closeWith_move _
  split
  · exact refuse_move _
  split
  · exact refuse_move _
  refine .requested _ rfl ?_ ?_
  · rintro pend _ heq
    cases heq
  · rintro pend _ _ heq
    cases heq

theorem daemonResponse_move {n : Nat} {resp : Option String} {er : Option RelayError}
    (ht : c.task = .received (.daemonResponse n resp er) time) :
    TaskMove s addr c (s.daemonResponse addr c n resp er) := by
  unfold daemonResponse
  split
  · exact closeWith_move _
  rename_i hk
  split
  · exact quiet_zero rfl rfl
  rename_i pend hp
  rw [Option.filter_eq_some_iff, beq_iff_eq] at hp
  refine .answered n resp er time ht pend hp.1 (hp.2 ▸ hk) _ ?_ ?_
  · intro send hm
    obtain ⟨_, -, rfl⟩ := mem_map.1 hm
    rfl
  · cases s.clientSenders.get pend.clientAddr <;> simp

theorem daemonIncomingPeerResponse_move (n : Nat) (resp : Option String) (er : Option RelayError) :
    TaskMove s addr c (s.daemonIncomingPeerResponse addr c n resp er) := by
  unfold daemonIncomingPeerResponse
  split
  · exact closeWith_move _
  split
  · exact quiet_zero rfl rfl
  rename_i pend hp
  rw [Option.filter_eq_some_iff] at hp
  exact .tookPeer n pend resp er hp.1

theorem daemonEvent_move (sid : String) (eid : Nat) (e : String) :
    TaskMove s addr c (s.daemonEvent addr c sid eid e) := by
  unfold daemonEvent
  split
  · exact closeWith_move _
  split
  · exact quiet_zero rfl rfl
  rename_i rt hrt
  rw [Option.filter_eq_some_iff, beq_iff_eq] at hrt
  exact .eventRouted _ rt hrt.1 hrt.2 rfl rfl

theorem receive_move {msg : Incoming} (ht : c.task = .received msg time) :
    TaskMove s addr c (s.receive addr c verified time msg) := by
  cases msg with
  | daemonRegister key pkey ref =>
    cases ref with
    | some rsn => exact closeWith_move rsn
    | none =>
      rw [receive]
      split
      · exact closeWith_move _
      rename_i hs
      refine .registered key pkey time ht ?_
      intro cur hc
      simpa [hc] using hs
  | daemonHeartbeat daemonId reg ref => exact daemonHeartbeat_move daemonId reg ref
  | clientConnect tg ref =>
    cases ref with
    | some rsn => exact closeWith_move rsn
    | none => exact clientConnect_move verified tg
  | clientRequest rid pay tg ref => exact clientRequest_move time rid pay tg ref
  | clientSubscribe rid sc sid ckey pay tg ref =>
    exact clientSubscribe_move verified time rid sc sid ckey pay tg ref
  | clientUnsubscribe => exact clientUnsubscribe_move ht
  | daemonPeerRequest rid pay tg ref =>
    exact daemonPeerRequest_move verified rid pay tg ref
  | daemonResponse => exact daemonResponse_move ht
  | daemonIncomingPeerResponse n resp er => exact daemonIncomingPeerResponse_move n resp er
  | daemonEvent sid eid e => exact daemonEvent_move sid eid e
  | close => exact quiet_zero rfl rfl

theorem subscribe_move {req : SubscribeRequest} (ht : c.task = .subscribe req) :
    TaskMove s addr c (s.subscribe addr c verified req) := by
  unfold subscribe
  split
  · exact .unsubscribed req ht _
  rename_i hf
  split
  · exact .unsubscribed req ht _
  rename_i ha
  simp only [daemonRouteIsAdmitted, Bool.not_eq_true', Bool.not_eq_false, Bool.and_eq_true] at ha
  have hmove := @TaskMove.subscribed s addr c req ht (Bool.eq_false_iff.2 hf) ha.1.1
  exact hmove

theorem senderFor_eq_some {ver : Bool} {req : Relayed} {sender : DaemonSender}
    (h : s.senderFor ver req = some sender) : s.daemonSenders.get req.daemonKey = some sender := by
  cases req with
  | client =>
    unfold senderFor routeAdmittedDaemonSender at h
    rw [Option.filter_eq_some_iff] at h
    obtain ⟨_, -, hg⟩ := Option.bind_eq_some_iff.1 h.1
    exact hg
  | peer => exact h

theorem deliver_move {dlv : Bool} {sds : List Send} {next : Next} (ht : c.task = .deliver sds next) :
    TaskMove s addr c (s.deliver addr c dlv sds next) := by
  cases sds with
  | nil =>
    cases next with
    | idle | ending => exact quiet_zero rfl rfl
    | gone => exact .gone ht
  | cons send rest =>
    unfold deliver
    dsimp only
    split
    · exact .delivered send rest next ht
    split
    · exact quiet_zero rfl rfl
    · exact .dropped send rest next ht

theorem cleanups_answers {abandoned : List (String × DaemonKey × String)} {send : Send}
    (h : send ∈ s.cleanups abandoned) : send.answers = none := by
  obtain ⟨i, hi, rfl⟩ := mem_mapIdx.1 h
  rfl

theorem announceClosed_move (sid ckey : String) (key : DaemonKey) (csn : Option SocketAddr) :
    TaskMove s addr c (s.announceClosed addr c sid ckey key csn) := by
  refine .quiet (s.cleanups [(sid, key, ckey)]).length ?_ rfl
  refine all_eq_true.2 fun send hm => ?_
  rcases mem_append.1 hm with hc | hcl
  · rw [cleanups_answers hc]
    rfl
  · obtain ⟨_, -, rfl⟩ := mem_map.1 hcl
    rfl

theorem advance_move (ver dlv : Bool) (hne : c.task ≠ .idle) : TaskMove s addr c (s.advance addr c ver dlv) := by
  unfold advance
  split
  · rename_i hi
    exact absurd hi hne
  · rename_i ht
    exact receive_move ver ht
  · rename_i ht
    exact admitClient_move ht
  · rename_i ht
    exact .connected _ ht rfl rfl
  · rename_i ht
    exact subscribe_move ver ht
  · rename_i ht
    exact .inserted _ _ ht
  · rename_i n req ht
    have hmove := @TaskMove.routed s addr c n req ht (s.senderFor ver req)
      fun _ h => senderFor_eq_some h
    exact hmove
  · rename_i ht
    split
    · exact .forwarded _ _ _ ht
    · exact .overloaded _ _ _ ht
  · rename_i ht
    exact .gaveUp _ _ _ (.inl ht)
  · rename_i ht
    exact .gaveUp _ _ _ (.inr ht)
  · rename_i n pend resp er ht
    cases s.daemonSenders.get pend.requesterDaemonKey with
    | none => exact quiet_zero rfl rfl
    | some => exact .answering n pend resp er ht _ rfl
  · rename_i ht
    split
    · exact .eventSent _ ht
    · exact quiet_zero rfl rfl
  · rename_i ht
    exact .slowClosed _ _ ht
  · exact announceClosed_move _ _ _ _
  · rename_i ht
    exact deliver_move ht
  · rename_i ht
    exact .removed _ ht

theorem act_move (s : RelayState) (a : Action) : Move s a (s.act a) := by
  cases a with
  | connect addr =>
    rw [act]
    split
    · rename_i hg
      exact .opened addr hg
    · exact .stay _
  | read addr msg =>
    rw [act]
    split
    · rename_i c hg
      split
      · exact .read addr c hg msg
      · exact .stay _
    · exact .stay _
  | advance addr ver dlv =>
    rw [act]
    split
    · rename_i c hg
      by_cases hidle : c.task = .idle
      · rw [advance, hidle]
        exact .stay _
      · exact .task addr c hg ver dlv (advance_move ver dlv hidle)
    · exact .stay _
  | disconnect addr =>
    rw [act]
    split
    · rename_i c hg
      split
      · exact .ended addr c hg
      · exact .stay _
    · exact .stay _

end RelayState

end Chariox.RelayRouting
