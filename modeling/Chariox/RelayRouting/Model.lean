import Chariox.RelayTransport.Envelopes
import Chariox.Lib.Runs

/-!
# The relay's request and subscription routes

The relay connects clients with daemons.  Each socket has a task that handles one message after the other; the tasks
share the registry, whose lock makes a section of a handler one step, and the route index, whose single operations are
steps of their own.  A request of a client or of a daemon gets a relay request id, is entered as pending, and is then
sent on to its daemon; the entry is taken out by the daemon's answer, by the requester's own task when the request
cannot be sent on, or by the release of the daemon's registration.

A task is the program point its handler has reached.  One step moves one task by one lock section, one operation on the
route index or one send.  Tokens, identifiers and the meaning of a target are inputs of the steps, as is whether a
channel takes a message.  Fields and arguments marked as history are read by no step.
-/

namespace Chariox.RelayRouting

/-! ### Registry and route index -/

/-- The address of a socket.  It also stands for the channel of the socket's writer. -/
abbrev SocketAddr := Nat

/-- Realm id and daemon id. -/
abbrev DaemonKey := String ×ₗ String

def DaemonKey.new (realmId daemonId : String) : DaemonKey := toLex (realmId, daemonId)

def DaemonKey.daemonId (key : DaemonKey) : String := (ofLex key).2

/-- A connected socket: a client bound to its target daemon, or a daemon with its registration. -/
inductive PeerHandle
  | client (clientDaemonKey : DaemonKey)
  | daemon (registered : DaemonKey)
  deriving DecidableEq

inductive PendingRequestKind
  | request
  | subscribe (scope subscriptionId clientPublicKey : String)
  | unsubscribe (subscriptionId : String)
  deriving DecidableEq

def PendingRequestKind.subscribesTo (kind : PendingRequestKind) (subscriptionId : String) : Bool :=
  match kind with
  | .subscribe _ id _ => id == subscriptionId
  | _ => false

structure PendingClientRequest where
  clientAddr : SocketAddr
  clientRequestId : String
  daemonKey : DaemonKey
  kind : PendingRequestKind
  /-- When the relay read the request (history). -/
  sentAt : Nat
  deriving DecidableEq

structure PendingDaemonPeerRequest where
  requesterDaemonKey : DaemonKey
  requesterRequestId : String
  targetDaemonKey : DaemonKey
  deriving DecidableEq

structure ActiveSubscription where
  clientAddr : SocketAddr
  daemonKey : DaemonKey
  clientPublicKey : String
  /-- When the subscription became active (history). -/
  since : Nat
  deriving DecidableEq

structure ActiveEventRoute where
  scope : String
  daemonKey : DaemonKey
  clientSender : SocketAddr
  deriving DecidableEq

/-- One registration of a daemon, told apart from its others by a number (history). -/
structure Registration where
  key : DaemonKey
  number : Nat
  deriving DecidableEq

structure DaemonSender where
  peer : SocketAddr
  registration : Registration
  deriving DecidableEq

/-! ### Messages -/

abbrev RelayError := RelayTransport.RelayError

def targetNotConnected : RelayError := ⟨"target_not_connected", "target daemon is not connected to relay", true⟩

def targetMismatch : RelayError := ⟨"target_mismatch", "client connection is bound to another relay target", false⟩

def subscriptionConflict : RelayError :=
  ⟨"subscription_conflict", "relay subscription id is already active for another client", true⟩

def subscriptionNotFound : RelayError := ⟨"subscription_not_found", "relay subscription is not active", false⟩

def targetBackpressure : RelayError := ⟨"target_backpressure", "target daemon relay queue is full", true⟩

def targetDisconnected : RelayError := ⟨"target_disconnected", "target daemon disconnected from relay", true⟩

/-- The texts `relay-request-n` and `relay-peer-request-n`. -/
inductive RelayId
  | request (number : Nat)
  | peerRequest (number : Nat)
  deriving DecidableEq

/-- What the relay sends. -/
inductive Envelope
  | clientConnected (daemonPublicKey : String)
  | clientResponse (requestId : String) (response : Option String) (error : Option RelayError)
  | clientEvent (subscriptionId : String) (eventId : Nat) (event : String)
  | daemonRequest (id : RelayId) (payload : String)
  | daemonSubscribe (id : RelayId) (subscriptionId clientPublicKey payload : String)
  | daemonUnsubscribe (id : RelayId) (subscriptionId clientPublicKey : String)
  | daemonIncomingPeerRequest (id : RelayId) (fromDaemonId payload : String)
  | daemonPeerResponse (requestId fromDaemonId : String) (response : Option String) (error : Option RelayError)
  | close (reason : String) (kernelReload : Bool)
  deriving DecidableEq

structure Send where
  receiver : SocketAddr
  envelope : Envelope
  /-- The request that has a relay request id and that this message answers (history). -/
  answers : Option RelayId
  /-- The handler's connection ends when the channel does not take the message. -/
  required : Bool
  deriving DecidableEq

def Send.close (receiver : SocketAddr) (reason : String) : Send := ⟨receiver, .close reason false, none, false⟩

/-- What the relay reads from a socket.  `refused` is the outcome of the token and identifier checks, and `target` is
the daemon that the target names. -/
inductive Incoming
  | daemonRegister (key : DaemonKey) (publicKey : String) (refused : Option String)
  | daemonHeartbeat (daemonId : String) (registration : Option (DaemonKey × String)) (refused : Option String)
  | clientConnect (target : DaemonKey) (refused : Option String)
  | clientRequest (requestId payload : String) (target : DaemonKey) (refused : Option RelayError)
  | clientSubscribe (requestId scope subscriptionId clientPublicKey payload : String) (target : DaemonKey)
      (refused : Option RelayError)
  | clientUnsubscribe (requestId subscriptionId clientPublicKey : String) (refused : Option RelayError)
  | daemonPeerRequest (requestId payload : String) (target : DaemonKey) (refused : Option (String × RelayError))
  | daemonResponse (number : Nat) (response : Option String) (error : Option RelayError)
  | daemonIncomingPeerResponse (number : Nat) (response : Option String) (error : Option RelayError)
  | daemonEvent (subscriptionId : String) (eventId : Nat) (event : String)
  | close (kernelReload : Bool)
  deriving DecidableEq

/-! ### Tasks -/

/-- A request on its way to a daemon, with the part of it that the relay only passes on. -/
inductive Relayed
  | client (pending : PendingClientRequest) (payload : String)
  | peer (pending : PendingDaemonPeerRequest) (payload : String)
  deriving DecidableEq

namespace Relayed

def id (number : Nat) : Relayed → RelayId
  | client .. => .request number
  | peer .. => .peerRequest number

def daemonKey : Relayed → DaemonKey
  | client pending _ => pending.daemonKey
  | peer pending _ => pending.targetDaemonKey

def envelope (number : Nat) : Relayed → Envelope
  | client pending payload =>
    match pending.kind with
    | .request => .daemonRequest (.request number) payload
    | .subscribe _ subscriptionId clientPublicKey =>
      .daemonSubscribe (.request number) subscriptionId clientPublicKey payload
    | .unsubscribe subscriptionId => .daemonUnsubscribe (.request number) subscriptionId payload
  | peer pending payload => .daemonIncomingPeerRequest (.peerRequest number) pending.requesterDaemonKey.daemonId payload

/-- The error that the requester's own task sends to it. -/
def refusal (number : Nat) (error : RelayError) (requester : SocketAddr) (request : Relayed) : Send :=
  match request with
  | client pending _ =>
    ⟨requester, .clientResponse pending.clientRequestId none (some error), some (.request number), true⟩
  | peer pending _ =>
    ⟨requester, .daemonPeerResponse pending.requesterRequestId pending.targetDaemonKey.daemonId none (some error),
      some (.peerRequest number), true⟩

end Relayed

/-- A subscribe message that has passed its checks and has a relay request id. -/
structure SubscribeRequest where
  number : Nat
  requestId : String
  daemonKey : DaemonKey
  scope : String
  subscriptionId : String
  clientPublicKey : String
  payload : String
  sentAt : Nat
  deriving DecidableEq

def SubscribeRequest.pending (request : SubscribeRequest) (addr : SocketAddr) : PendingClientRequest :=
  ⟨addr, request.requestId, request.daemonKey,
    .subscribe request.scope request.subscriptionId request.clientPublicKey, request.sentAt⟩

def SubscribeRequest.relayed (request : SubscribeRequest) (addr : SocketAddr) : Relayed :=
  .client (request.pending addr) request.payload

/-- An event with the channel its route gave. -/
structure RoutedEvent where
  subscriptionId : String
  eventId : Nat
  event : String
  daemonKey : DaemonKey
  clientSender : SocketAddr
  /-- The active subscription when the route was read (history). -/
  active : Option ActiveSubscription
  deriving DecidableEq

/-- What follows the last send of a handler. -/
inductive Next
  | idle
  | ending
  | gone
  deriving DecidableEq

/-- The program point of a connection's handler. -/
inductive Task
  /-- Waiting for the next message. -/
  | idle
  | received (message : Incoming) (time : Nat)
  /-- The target of a client is resolved, the client's peer entry is not written. -/
  | admitting (key : DaemonKey)
  /-- The client's peer entry is written, its sender is not. -/
  | connecting (daemonPublicKey : String)
  /-- Before the lock section of a subscribe message. -/
  | subscribe (request : SubscribeRequest)
  /-- Before the pending entry is written. -/
  | insert (number : Nat) (request : Relayed)
  /-- Before the daemon's sender is looked up. -/
  | lookup (number : Nat) (request : Relayed)
  | forward (number : Nat) (request : Relayed) (sender : DaemonSender)
  /-- There is no sender to use: before the pending entry is removed. -/
  | unrouted (number : Nat) (request : Relayed)
  /-- The daemon's channel is full: before the pending entry is removed. -/
  | overloaded (number : Nat) (request : Relayed)
  /-- The pending peer request is taken, the requester's sender is not looked up. -/
  | answering (number : Nat) (pending : PendingDaemonPeerRequest) (response : Option String)
      (error : Option RelayError)
  | event (event : RoutedEvent)
  /-- The client's channel is full: before the lock section that closes the subscription. -/
  | slow (subscriptionId : String) (daemonKey : DaemonKey)
  /-- A slow subscription is closed: before the daemon's sender is looked up. -/
  | closed (subscriptionId clientPublicKey : String) (daemonKey : DaemonKey) (clientSender : Option SocketAddr)
  | deliver (sends : List Send) (next : Next)
  /-- Before the lock section that removes the peer. -/
  | ending (kernelReload : Bool)
  deriving DecidableEq

/-- A socket's connection: the daemon it has registered and where its handler is. -/
structure Connection where
  registeredDaemonKey : Option DaemonKey
  task : Task
  deriving DecidableEq

/-! ### State -/

structure RelayState where
  peers : OrdMap SocketAddr PeerHandle
  /-- The public key of each registration. -/
  daemons : OrdMap DaemonKey String
  daemonPeers : OrdMap DaemonKey SocketAddr
  subscriptions : OrdMap String ActiveSubscription
  daemonSenders : OrdMap DaemonKey DaemonSender
  clientSenders : OrdMap SocketAddr SocketAddr
  eventRoutes : OrdMap String ActiveEventRoute
  pendingClientRequests : OrdMap Nat PendingClientRequest
  pendingDaemonRequests : OrdMap Nat PendingDaemonPeerRequest
  relayRequestCounter : Nat
  connections : OrdMap SocketAddr Connection
  /-- What the channels have taken. -/
  sent : List Send
  /-- The requests sent on, with the registration they went to (history). -/
  forwarded : List (RelayId × Registration)
  /-- The events the channels have taken (history). -/
  events : List RoutedEvent
  /-- The number of registrations so far (history). -/
  registrations : Nat
  /-- The registrations that were released (history). -/
  released : List Registration
  /-- The number of steps so far (history). -/
  clock : Nat

/-- What a daemon registration leaves behind when it ends. -/
structure ReleasedDaemon where
  clientErrors : List (Nat × SocketAddr × String)
  peerErrors : List (Nat × SocketAddr × String × String)
  subscriptionSenders : List SocketAddr

namespace ReleasedDaemon

def none : ReleasedDaemon := ⟨[], [], []⟩

def clientError : Nat × SocketAddr × String → Send := fun (number, sender, requestId) =>
  ⟨sender, .clientResponse requestId Option.none (some targetDisconnected), some (.request number), false⟩

def peerError : Nat × SocketAddr × String × String → Send := fun (number, sender, requestId, targetDaemonId) =>
  ⟨sender, .daemonPeerResponse requestId targetDaemonId Option.none (some targetDisconnected),
    some (.peerRequest number), false⟩

/-- Tell everyone waiting on a released daemon that it is gone. -/
def announce (released : ReleasedDaemon) (kernelReload : Bool) : List Send :=
  released.clientErrors.map clientError ++ released.peerErrors.map peerError ++
    released.subscriptionSenders.map
      (fun sender => ⟨sender, .close "target daemon disconnected from relay" kernelReload, Option.none, false⟩)

end ReleasedDaemon

namespace RelayState

def new : RelayState where
  peers := .empty
  daemons := .empty
  daemonPeers := .empty
  subscriptions := .empty
  daemonSenders := .empty
  clientSenders := .empty
  eventRoutes := .empty
  pendingClientRequests := .empty
  pendingDaemonRequests := .empty
  relayRequestCounter := 0
  connections := .empty
  sent := []
  forwarded := []
  events := []
  registrations := 0
  released := []
  clock := 0

/-- The requests answered so far, once for each answer. -/
def answers (s : RelayState) : List RelayId := s.sent.filterMap Send.answers

variable (s : RelayState)

/-- Move a connection's handler. -/
def put (addr : SocketAddr) (connection : Connection) (task : Task) : RelayState :=
  { s with connections := s.connections.insert addr { connection with task := task } }

/-- A channel takes a message. -/
def take (send : Send) : RelayState := { s with sent := s.sent ++ [send] }

def isPending : RelayId → Bool
  | .request number => s.pendingClientRequests.contains number
  | .peerRequest number => s.pendingDaemonRequests.contains number

def insertPending (number : Nat) : Relayed → RelayState
  | .client pending _ => { s with pendingClientRequests := s.pendingClientRequests.insert number pending }
  | .peer pending _ => { s with pendingDaemonRequests := s.pendingDaemonRequests.insert number pending }

def removePending : RelayId → RelayState
  | .request number => { s with pendingClientRequests := s.pendingClientRequests.remove number }
  | .peerRequest number => { s with pendingDaemonRequests := s.pendingDaemonRequests.remove number }

/-! ### Lookups -/

def resolveDaemonSender (key : DaemonKey) : Option SocketAddr := do
  let _ ← s.daemons.get key
  let peerAddr ← s.daemonPeers.get key
  let peer ← s.peers.get peerAddr
  if peer = .daemon key then some peerAddr else none

def liveDaemonSender (key : DaemonKey) : Option DaemonSender := do
  let _ ← s.resolveDaemonSender key
  s.daemonSenders.get key

/-- `verified`: the registration's token passes its check now. -/
def daemonRouteIsAdmitted (verified : Bool) (key : DaemonKey) : Bool :=
  s.daemons.contains key && ((s.daemonPeers.get key).bind s.peers.get).isSome && verified

def routeAdmittedDaemonSender (verified : Bool) (key : DaemonKey) : Option DaemonSender :=
  (s.liveDaemonSender key).filter (fun _ => verified)

def resolveTargetDaemonKey (verified : Bool) (target : DaemonKey) : Option DaemonKey :=
  if (s.liveDaemonSender target).isSome && s.daemonRouteIsAdmitted verified target then some target else none

def resolveRegisteredTargetDaemonKey (target : DaemonKey) : Option DaemonKey :=
  if s.daemons.contains target then some target else none

/-- The daemon a client connection is bound to. -/
def connectedClientBinding (addr : SocketAddr) : Option DaemonKey :=
  match s.peers.get addr with
  | some (.client key) => some key
  | _ => none

/-- The id is active for another client, or another client's subscribe request for it is pending. -/
def subscriptionOwnedByOtherClient (subscriptionId : String) (addr : SocketAddr) : Bool :=
  (s.subscriptions.get subscriptionId).any (fun active => active.clientAddr != addr) ||
    s.pendingClientRequests.values.any (fun pending =>
      pending.clientAddr != addr && pending.kind.subscribesTo subscriptionId)

/-! ### Registrations and their release -/

def releaseDaemon (key : DaemonKey) : RelayState × ReleasedDaemon :=
  let daemonSenders := s.daemonSenders.remove key
  let daemonSubscriptions := s.subscriptions.entries.filter (fun e => e.2.daemonKey == key)
  let clientAddrs := (OrdMap.ofList (daemonSubscriptions.map (fun e => (e.2.clientAddr, ())))).keys
  let clientsGone := s.pendingClientRequests.entries.filter (fun e => e.2.daemonKey == key)
  let peersGone := s.pendingDaemonRequests.entries.filter
    (fun e => e.2.targetDaemonKey == key || e.2.requesterDaemonKey == key)
  ({ s with
      daemons := s.daemons.remove key
      daemonPeers := s.daemonPeers.remove key
      daemonSenders := daemonSenders
      subscriptions := s.subscriptions.retain (fun _ active => active.daemonKey != key)
      eventRoutes := s.eventRoutes.retain (fun id _ => (s.subscriptions.get id).all (fun a => a.daemonKey != key))
      pendingClientRequests := s.pendingClientRequests.retain (fun _ pending => !(pending.daemonKey == key))
      pendingDaemonRequests := s.pendingDaemonRequests.retain
        (fun _ pending => !(pending.targetDaemonKey == key || pending.requesterDaemonKey == key))
      released := (s.daemonSenders.get key).toList.map DaemonSender.registration ++ s.released },
    { clientErrors := clientsGone.filterMap (fun e =>
        (s.clientSenders.get e.2.clientAddr).map (fun sender => (e.1, sender, e.2.clientRequestId)))
      peerErrors := peersGone.filterMap (fun e =>
        if e.2.requesterDaemonKey == key then none
        else (daemonSenders.get e.2.requesterDaemonKey).map
          (fun sender => (e.1, sender.peer, e.2.requesterRequestId, e.2.targetDaemonKey.daemonId)))
      subscriptionSenders := clientAddrs.filter (fun addr => s.peers.contains addr) })

/-- The peers of other sockets that have registered `key`. -/
def replacedPeers (addr : SocketAddr) (key : DaemonKey) : List SocketAddr :=
  (s.peers.entries.filter (fun e => e.1 != addr && e.2 == .daemon key)).map Prod.fst

/-- The number of the registration: a socket that registers its key again keeps the one it has. -/
def registrationNumber (addr : SocketAddr) (key : DaemonKey) : Nat :=
  match s.daemonSenders.get key with
  | some sender => if sender.peer = addr then sender.registration.number else s.registrations + 1
  | none => s.registrations + 1

/-- The socket `addr` becomes the peer of `key`. -/
def enterDaemon (addr : SocketAddr) (key : DaemonKey) (publicKey : String) : RelayState :=
  { s with
    peers := s.peers.insert addr (.daemon key)
    daemons := s.daemons.insert key publicKey
    daemonPeers := s.daemonPeers.insert key addr
    daemonSenders := s.daemonSenders.insert key ⟨addr, key, s.registrationNumber addr key⟩
    registrations := max s.registrations (s.registrationNumber addr key) }

/-- Make `key` free for the socket `addr`: when other sockets have registered it, their registration is released. -/
def freeKey (addr : SocketAddr) (key : DaemonKey) : RelayState × ReleasedDaemon :=
  let kept := { s with peers := s.peers.retain (fun other peer => !(other != addr && peer == PeerHandle.daemon key)) }
  if (s.replacedPeers addr key).isEmpty then (kept, ReleasedDaemon.none) else kept.releaseDaemon key

/-- The lock section of a registration. -/
def registerDaemon (addr : SocketAddr) (connection : Connection) (key : DaemonKey) (publicKey : String) : RelayState :=
  ((s.freeKey addr key).1.enterDaemon addr key publicKey).put addr { connection with registeredDaemonKey := some key }
    (.deliver ((s.replacedPeers addr key).map (Send.close · "daemon reconnected") ++
      (s.freeKey addr key).2.announce false) .idle)

/-- Messages that make the daemons forget subscriptions, numbered from the counter on. -/
def cleanups (abandoned : List (String × DaemonKey × String)) : List Send :=
  (abandoned.filterMap (fun e => (s.daemonSenders.get e.2.1).map (fun sender => (sender.peer, e.1, e.2.2)))).mapIdx
    (fun i e => ⟨e.1, .daemonUnsubscribe (.request (s.relayRequestCounter + i + 1)) e.2.1 e.2.2, none, false⟩)

/-- The active subscriptions of a client, and its pending subscribe requests if it is connected as a client. -/
def abandonedSubscriptions (addr : SocketAddr) : List (String × DaemonKey × String) :=
  (s.subscriptions.entries.filter (fun e => e.2.clientAddr == addr)).map
      (fun e => (e.1, e.2.daemonKey, e.2.clientPublicKey)) ++
    (if (s.connectedClientBinding addr).isSome then
      (s.pendingClientRequests.values.filter (fun pending => pending.clientAddr == addr)).filterMap (fun pending =>
        match pending.kind with
        | .subscribe _ id clientPublicKey => some (id, pending.daemonKey, clientPublicKey)
        | _ => none)
    else [])

/-- Take a client's entries out of the registry and the route index. -/
def dropClient (addr : SocketAddr) : RelayState :=
  { s with
    peers := s.peers.remove addr
    subscriptions := s.subscriptions.retain (fun _ active => active.clientAddr != addr)
    eventRoutes := s.eventRoutes.retain (fun id _ => (s.subscriptions.get id).all (fun a => a.clientAddr != addr))
    clientSenders := s.clientSenders.remove addr
    pendingClientRequests :=
      if (s.connectedClientBinding addr).isSome then
        s.pendingClientRequests.retain (fun _ pending => pending.clientAddr != addr)
      else s.pendingClientRequests
    relayRequestCounter := s.relayRequestCounter + (s.cleanups (s.abandonedSubscriptions addr)).length }

/-- The registration that ends with the socket: the one its handler registered, if the socket is still its peer. -/
def endedRegistration (addr : SocketAddr) (connection : Connection) : Option DaemonKey :=
  connection.registeredDaemonKey.filter (fun key => s.peers.get addr == some (.daemon key))

/-- Take a socket out, and release the registration that ends with it. -/
def leave (addr : SocketAddr) (connection : Connection) : RelayState × ReleasedDaemon :=
  match s.endedRegistration addr connection with
  | some key => (s.dropClient addr).releaseDaemon key
  | none => (s.dropClient addr, ReleasedDaemon.none)

/-- The lock section that ends a connection. -/
def removePeer (addr : SocketAddr) (connection : Connection) (kernelReload : Bool) : RelayState :=
  (s.leave addr connection).1.put addr connection
    (.deliver (s.cleanups (s.abandonedSubscriptions addr) ++ (s.leave addr connection).2.announce kernelReload) .gone)

/-! ### Handlers -/

variable (addr : SocketAddr) (connection : Connection)

/-- End the connection after telling the peer why. -/
def closeWith (reason : String) : RelayState :=
  s.put addr connection (.deliver [.close addr reason] .ending)

/-- Answer a request that gets no relay request id. -/
def refuse (envelope : Envelope) : RelayState :=
  s.put addr connection (.deliver [⟨addr, envelope, none, true⟩] .idle)

/-- Take the next number for a relay request id. -/
def allocate : RelayState := { s with relayRequestCounter := s.relayRequestCounter + 1 }

/-- The lock section that refreshes a registration: a socket that was replaced must not take the registry back. -/
def daemonHeartbeat (daemonId : String) (registration : Option (DaemonKey × String)) (refused : Option String) :
    RelayState :=
  match connection.registeredDaemonKey with
  | none => s.put addr connection (.ending false)
  | some current =>
    if current.daemonId ≠ daemonId then s.put addr connection (.ending false)
    else
      match registration with
      | none => s.put addr connection .idle
      | some (key, publicKey) =>
        match refused with
        | some reason => s.closeWith addr connection reason
        | none =>
          if key ≠ current then s.put addr connection (.ending false)
          else if s.daemonPeers.get current ≠ some addr then s.closeWith addr connection "daemon reconnected"
          else { s with daemons := s.daemons.insert current publicKey }.put addr connection .idle

def clientConnect (verified : Bool) (target : DaemonKey) : RelayState :=
  match s.resolveTargetDaemonKey verified target with
  | none => s.closeWith addr connection "target daemon is not connected to relay"
  | some key => s.put addr connection (.admitting key)

/-- The lock section that writes a client's peer entry.  The daemon may be gone by now. -/
def admitClient (key : DaemonKey) : RelayState :=
  if (s.connectedClientBinding addr).any (fun bound => bound != key) then
    s.closeWith addr connection "client connection already bound to target"
  else
    { s with peers := s.peers.insert addr (.client key) }.put addr connection
      (.connecting ((s.daemons.get key).getD ""))

def clientRequest (time : Nat) (requestId payload : String) (target : DaemonKey) (refused : Option RelayError) :
    RelayState :=
  match s.connectedClientBinding addr with
  | none => s.closeWith addr connection "client must connect before sending requests"
  | some bound =>
    match refused with
    | some error => s.refuse addr connection (.clientResponse requestId none (some error))
    | none =>
      match s.resolveRegisteredTargetDaemonKey target with
      | none => s.refuse addr connection (.clientResponse requestId none (some targetNotConnected))
      | some key =>
        if key ≠ bound then s.refuse addr connection (.clientResponse requestId none (some targetMismatch))
        else
          s.allocate.put addr connection
            (.insert s.allocate.relayRequestCounter (.client ⟨addr, requestId, key, .request, time⟩ payload))

def clientSubscribe (verified : Bool) (time : Nat) (requestId scope subscriptionId clientPublicKey payload : String)
    (target : DaemonKey) (refused : Option RelayError) : RelayState :=
  match s.connectedClientBinding addr with
  | none => s.closeWith addr connection "client must connect before subscribing"
  | some bound =>
    match refused with
    | some error => s.refuse addr connection (.clientResponse requestId none (some error))
    | none =>
      match s.resolveTargetDaemonKey verified target with
      | none => s.refuse addr connection (.clientResponse requestId none (some targetNotConnected))
      | some key =>
        if key ≠ bound then s.refuse addr connection (.clientResponse requestId none (some targetMismatch))
        else
          s.allocate.put addr connection
            (.subscribe ⟨s.allocate.relayRequestCounter, requestId, key, scope, subscriptionId, clientPublicKey, payload,
              time⟩)

/-- The active subscription is read by its id; it must be the client's own. -/
def clientUnsubscribe (time : Nat) (requestId subscriptionId clientPublicKey : String) (refused : Option RelayError) :
    RelayState :=
  match s.connectedClientBinding addr with
  | none => s.closeWith addr connection "client must connect before unsubscribing"
  | some _ =>
    match refused with
    | some error => s.refuse addr connection (.clientResponse requestId none (some error))
    | none =>
      match (s.subscriptions.get subscriptionId).filter (fun active => active.clientAddr == addr) with
      | none => s.allocate.put addr connection
          (.deliver [⟨addr, .clientResponse requestId none (some subscriptionNotFound),
            some (.request s.allocate.relayRequestCounter), true⟩] .idle)
      | some active => s.allocate.put addr connection
          (.insert s.allocate.relayRequestCounter
            (.client ⟨addr, requestId, active.daemonKey, .unsubscribe subscriptionId, time⟩ clientPublicKey))

def daemonPeerRequest (verified : Bool) (requestId payload : String) (target : DaemonKey)
    (refused : Option (String × RelayError)) : RelayState :=
  match connection.registeredDaemonKey with
  | none => s.closeWith addr connection "daemon must register before sending peer requests"
  | some requester =>
    match refused with
    | some (fromDaemonId, error) => s.refuse addr connection (.daemonPeerResponse requestId fromDaemonId none (some error))
    | none =>
      match s.resolveTargetDaemonKey verified target with
      | none => s.refuse addr connection (.daemonPeerResponse requestId "" none (some targetNotConnected))
      | some key =>
        s.allocate.put addr connection
          (.insert s.allocate.relayRequestCounter (.peer ⟨requester, requestId, key⟩ payload))

/-- What a successful answer does to the subscriptions, and the messages it calls for. -/
def applyAnswer (pending : PendingClientRequest) : RelayState × List Send :=
  match pending.kind with
  | .request => (s, [])
  | .subscribe scope subscriptionId clientPublicKey =>
    if s.peers.contains pending.clientAddr then
      ({ s with
          subscriptions := s.subscriptions.insert subscriptionId
            ⟨pending.clientAddr, pending.daemonKey, clientPublicKey, s.clock⟩
          eventRoutes :=
            match s.clientSenders.get pending.clientAddr with
            | some clientSender => s.eventRoutes.insert subscriptionId ⟨scope, pending.daemonKey, clientSender⟩
            | none => s.eventRoutes }, [])
    else
      (s.allocate,
        [⟨addr, .daemonUnsubscribe (.request s.allocate.relayRequestCounter) subscriptionId clientPublicKey, none,
          false⟩])
  | .unsubscribe subscriptionId =>
    ({ s with
        subscriptions := s.subscriptions.remove subscriptionId
        eventRoutes := s.eventRoutes.remove subscriptionId }, [])

/-- Take the pending entry and, unless the answer is an error, apply it. -/
def settle (number : Nat) (pending : PendingClientRequest) (error : Option RelayError) : RelayState × List Send :=
  let taken := s.removePending (.request number)
  if error.isNone then taken.applyAnswer addr pending else (taken, [])

def daemonResponse (number : Nat) (response : Option String) (error : Option RelayError) : RelayState :=
  match connection.registeredDaemonKey with
  | none => s.closeWith addr connection "daemon must register before sending responses"
  | some key =>
    match (s.pendingClientRequests.get number).filter (fun pending => pending.daemonKey == key) with
    | none => s.put addr connection .idle
    | some pending =>
      (s.settle addr number pending error).1.put addr connection
        (.deliver ((s.settle addr number pending error).2 ++
          (s.clientSenders.get pending.clientAddr).toList.map (fun sender =>
            ⟨sender, .clientResponse pending.clientRequestId response error, some (.request number), true⟩)) .idle)

def daemonIncomingPeerResponse (number : Nat) (response : Option String) (error : Option RelayError) : RelayState :=
  match connection.registeredDaemonKey with
  | none => s.closeWith addr connection "daemon must register before sending peer responses"
  | some key =>
    match (s.pendingDaemonRequests.get number).filter (fun pending => pending.targetDaemonKey == key) with
    | none => s.put addr connection .idle
    | some pending =>
      (s.removePending (.peerRequest number)).put addr connection (.answering number pending response error)

def daemonEvent (subscriptionId : String) (eventId : Nat) (event : String) : RelayState :=
  match connection.registeredDaemonKey with
  | none => s.closeWith addr connection "daemon must register before sending events"
  | some key =>
    match (s.eventRoutes.get subscriptionId).filter (fun route => route.daemonKey == key) with
    | none => s.put addr connection .idle
    | some route => s.put addr connection
        (.event ⟨subscriptionId, eventId, event, key, route.clientSender, s.subscriptions.get subscriptionId⟩)

def receive (verified : Bool) (time : Nat) : Incoming → RelayState
  | .daemonRegister key publicKey refused =>
    match refused with
    | some reason => s.closeWith addr connection reason
    | none =>
      if connection.registeredDaemonKey.any (fun current => current != key) then
        s.closeWith addr connection "daemon connection already registered"
      else s.registerDaemon addr connection key publicKey
  | .daemonHeartbeat daemonId registration refused => s.daemonHeartbeat addr connection daemonId registration refused
  | .clientConnect target refused =>
    match refused with
    | some reason => s.closeWith addr connection reason
    | none => s.clientConnect addr connection verified target
  | .clientRequest requestId payload target refused =>
    s.clientRequest addr connection time requestId payload target refused
  | .clientSubscribe requestId scope subscriptionId clientPublicKey payload target refused =>
    s.clientSubscribe addr connection verified time requestId scope subscriptionId clientPublicKey payload target refused
  | .clientUnsubscribe requestId subscriptionId clientPublicKey refused =>
    s.clientUnsubscribe addr connection time requestId subscriptionId clientPublicKey refused
  | .daemonPeerRequest requestId payload target refused =>
    s.daemonPeerRequest addr connection verified requestId payload target refused
  | .daemonResponse number response error => s.daemonResponse addr connection number response error
  | .daemonIncomingPeerResponse number response error =>
    s.daemonIncomingPeerResponse addr connection number response error
  | .daemonEvent subscriptionId eventId event => s.daemonEvent addr connection subscriptionId eventId event
  | .close kernelReload => s.put addr connection (.ending (kernelReload && connection.registeredDaemonKey.isSome))

/-- The lock section of a subscribe message: ownership, entry and sender in one. -/
def subscribe (verified : Bool) (request : SubscribeRequest) : RelayState :=
  let relayed := request.relayed addr
  if s.subscriptionOwnedByOtherClient request.subscriptionId addr then
    s.put addr connection (.deliver [relayed.refusal request.number subscriptionConflict addr] .idle)
  else if !s.daemonRouteIsAdmitted verified request.daemonKey then
    s.put addr connection (.deliver [relayed.refusal request.number targetNotConnected addr] .idle)
  else
    (s.insertPending request.number relayed).put addr connection
      (match s.daemonSenders.get request.daemonKey with
      | some sender => .forward request.number relayed sender
      | none => .unrouted request.number relayed)

/-- A client's request looks its daemon up under the registry's lock, a peer's only in the route index. -/
def senderFor (verified : Bool) : Relayed → Option DaemonSender
  | .client pending _ => s.routeAdmittedDaemonSender verified pending.daemonKey
  | .peer pending _ => s.daemonSenders.get pending.targetDaemonKey

/-- The requester's task gives its request up: the entry is removed, whether or not it is still there. -/
def giveUp (number : Nat) (request : Relayed) (error : RelayError) : RelayState :=
  (s.removePending (request.id number)).put addr connection (.deliver [request.refusal number error addr] .idle)

def closeSlowSubscription (subscriptionId : String) (key : DaemonKey) : RelayState :=
  match (s.subscriptions.get subscriptionId).filter (fun active => active.daemonKey == key) with
  | none => s.put addr connection .idle
  | some active =>
    { s with
        subscriptions := s.subscriptions.remove subscriptionId
        eventRoutes := s.eventRoutes.remove subscriptionId }.put addr connection
      (.closed subscriptionId active.clientPublicKey key (s.clientSenders.get active.clientAddr))

/-- Tell the daemon and the client about a subscription that was closed. -/
def announceClosed (subscriptionId clientPublicKey : String) (key : DaemonKey) (clientSender : Option SocketAddr) :
    RelayState :=
  let cleanup := s.cleanups [(subscriptionId, key, clientPublicKey)]
  { s with relayRequestCounter := s.relayRequestCounter + cleanup.length }.put addr connection
    (.deliver (cleanup ++ clientSender.toList.map (Send.close · "relay event consumer is too slow")) .idle)

/-- The next send of a handler; after the last one its connection waits, ends or is gone. -/
def deliver (s : RelayState) (addr : SocketAddr) (connection : Connection) (delivered : Bool) (sends : List Send)
    (next : Next) : RelayState :=
  match sends, next with
  | send :: rest, next =>
    if delivered then (s.take send).put addr connection (.deliver rest next)
    else if send.required then s.put addr connection (.ending false)
    else s.put addr connection (.deliver rest next)
  | [], .idle => s.put addr connection .idle
  | [], .ending => s.put addr connection (.ending false)
  | [], .gone => { s with connections := s.connections.remove addr }

/-- The daemon's channel takes the request. -/
def forwardTo (number : Nat) (request : Relayed) (sender : DaemonSender) : RelayState :=
  { s with
    sent := s.sent ++ [⟨sender.peer, request.envelope number, none, false⟩]
    forwarded := s.forwarded ++ [(request.id number, sender.registration)] }

/-- The client's channel takes the event. -/
def sendEvent (event : RoutedEvent) : RelayState :=
  { s with
    sent := s.sent ++
      [⟨event.clientSender, .clientEvent event.subscriptionId event.eventId event.event, none, false⟩]
    events := s.events ++ [event] }

/-- One step of the handler of `addr`.  `delivered`: the channel of this step's send takes the message. -/
def advance (addr : SocketAddr) (connection : Connection) (verified delivered : Bool) : RelayState :=
  match connection.task with
  | .idle => s
  | .received message time => s.receive addr connection verified time message
  | .admitting key => s.admitClient addr connection key
  | .connecting daemonPublicKey =>
    { s with clientSenders := s.clientSenders.insert addr addr }.put addr connection
      (.deliver [⟨addr, .clientConnected daemonPublicKey, none, true⟩] .idle)
  | .subscribe request => s.subscribe addr connection verified request
  | .insert number request => (s.insertPending number request).put addr connection (.lookup number request)
  | .lookup number request =>
    s.put addr connection
      (match s.senderFor verified request with
      | some sender => .forward number request sender
      | none => .unrouted number request)
  | .forward number request sender =>
    if delivered then (s.forwardTo number request sender).put addr connection .idle
    else s.put addr connection (.overloaded number request)
  | .unrouted number request => s.giveUp addr connection number request targetNotConnected
  | .overloaded number request => s.giveUp addr connection number request targetBackpressure
  | .answering number pending response error =>
    s.put addr connection (.deliver
      ((s.daemonSenders.get pending.requesterDaemonKey).toList.map (fun sender =>
        ⟨sender.peer, .daemonPeerResponse pending.requesterRequestId pending.targetDaemonKey.daemonId response error,
          some (.peerRequest number), true⟩)) .idle)
  | .event event =>
    if delivered then (s.sendEvent event).put addr connection .idle
    else s.put addr connection (.slow event.subscriptionId event.daemonKey)
  | .slow subscriptionId key => s.closeSlowSubscription addr connection subscriptionId key
  | .closed subscriptionId clientPublicKey key clientSender =>
    s.announceClosed addr connection subscriptionId clientPublicKey key clientSender
  | .deliver sends next => s.deliver addr connection delivered sends next
  | .ending kernelReload => s.removePeer addr connection kernelReload

end RelayState

/-! ### Runs -/

inductive Action
  /-- A socket connects. -/
  | connect (addr : SocketAddr)
  /-- The relay reads the next message of a socket. -/
  | read (addr : SocketAddr) (message : Incoming)
  /-- A handler takes its next step. -/
  | advance (addr : SocketAddr) (verified delivered : Bool)
  /-- A waiting connection ends. -/
  | disconnect (addr : SocketAddr)
  deriving DecidableEq

namespace RelayState

def act (s : RelayState) : Action → RelayState
  | .connect addr =>
    match s.connections.get addr with
    | none => { s with connections := s.connections.insert addr ⟨none, .idle⟩ }
    | some _ => s
  | .read addr message =>
    match s.connections.get addr with
    | some connection =>
      if connection.task = .idle then s.put addr connection (.received message s.clock) else s
    | none => s
  | .advance addr verified delivered =>
    match s.connections.get addr with
    | some connection => s.advance addr connection verified delivered
    | none => s
  | .disconnect addr =>
    match s.connections.get addr with
    | some connection => if connection.task = .idle then s.put addr connection (.ending false) else s
    | none => s

def step (s : RelayState) (action : Action) : RelayState :=
  { s.act action with clock := s.clock + 1 }

def run (actions : List Action) : RelayState := actions.foldl step new

end RelayState

end Chariox.RelayRouting
