import AlaFois.Model.Handshake

/-!
# The life of a client

`Client.connect` makes a `WsConnection` and a `Ping`, and once the connection is there a `Messenger`
for it; `dispose` is to end what they do. Containers of documents appear here only with the
connection that they send through.
-/

namespace AlaFois

/-- `timeout` tells whether the timer of `timeoutId` is pending; `others` counts the pending
timers whose ids have been overwritten. -/
structure Ping where
  timeout : Bool
  others : Nat
deriving DecidableEq

namespace Ping

def new : Ping := ⟨false, 0⟩

/-- Setting the timer overwrites `timeoutId`. -/
def tick (ping : Ping) : Ping :=
  ⟨true, if ping.timeout then ping.others + 1 else ping.others⟩

def dispose (ping : Ping) : Ping := { ping with timeout := false }

def pending (ping : Ping) : Bool := ping.timeout ∨ 0 < ping.others

/-- One of the timers has run out. -/
def fire (ping : Ping) (own : Bool) : Option Ping :=
  if own then if ping.timeout then some { ping with timeout := false } else none
  else if 0 < ping.others then some { ping with others := ping.others - 1 } else none

end Ping

/-- What a call of `connect` has made; `connecting` says that the call still waits. -/
structure ClientConnection where
  connection : WsConnection
  ping : Ping
  connecting : Bool
deriving DecidableEq

namespace ClientConnection

/-- The promise that the call of `connect` waits for has resolved. -/
def resumable (c : ClientConnection) : Bool := c.connecting ∧ c.connection.connected

/-- A promise job or a listener of this connection is still to run to its end. -/
def running (c : ClientConnection) : Bool := c.connection.job ≠ none ∨ c.resumable

def isOpen (c : ClientConnection) : Bool := c.connection.ws.any (·.readyState = .open)

end ClientConnection

/-- `this.connection` and `this.ping` are the last ones made. `messenger` is the connection that
`this.messenger` was made with, `docs` are the containers of `Client.docs` and `loose` those that
are not, or not yet, among them, each as the connection of its messenger. `accepted` lists the
connections through whose open socket data was sent. -/
structure ClientLife where
  connections : List ClientConnection
  messenger : Option Nat
  docs : JsMap DocKey Nat
  loose : List Nat
  accepted : List Nat

/-- Who sends: the user by some call, the interval of the awareness of a container that has not
been disposed, or a listener on a message. -/
inductive Sender
  | user
  | awareness
  | listener
deriving DecidableEq

inductive LifeAction
  | connect
  | connection (i : Nat) (a : ConnectionAction)
  | connected (i : Nat)
  | ping (i : Nat) (own : Bool)
  | send (i : Nat) (sender : Sender)
  | construct
  | record (id : DocKey) (i : Nat)
  | disposeDocs
  | dispose
deriving DecidableEq

/-- The calls of the user. The service event `expiredToken` calls `dispose`, too. -/
def LifeAction.byUser : LifeAction → Bool
  | .connect | .construct | .disposeDocs | .send _ .user => true
  | _ => false

namespace ClientLife

def init : ClientLife := ⟨[], none, .empty, [], []⟩

def modify (s : ClientLife) (i : Nat) (f : ClientConnection → ClientConnection) : ClientLife :=
  { s with connections := s.connections.modify i f }

/-- The connection of `this.connection`. -/
def current (s : ClientLife) : Nat := s.connections.length - 1

/-- No code of the client is in the middle of something, so that the next event can come. -/
def idle (s : ClientLife) : Bool := s.connections.all fun c => !c.running

/-- `this.ws?.send`, with the flag for the error that a connecting socket throws. A socket that is
closing or closed discards the data. -/
def send (s : ClientLife) (i : Nat) : ClientLife × Bool :=
  match s.connections[i]?.bind fun c => c.connection.ws with
  | none => (s, false)
  | some socket =>
    match socket.readyState with
    | .connecting => (s, true)
    | .open => ({ s with accepted := s.accepted ++ [i] }, false)
    | .closing => (s, false)
    | .closed => (s, false)

/-! ### Client -/

/-- Up to the first call of `connectFn`. -/
def connect (s : ClientLife) : ClientLife :=
  { s with connections := s.connections ++ [⟨WsConnection.init.connect, .new, true⟩] }

/-- The rest of `connect`, with the connection and the ping that are the current ones by now. -/
def connected (s : ClientLife) (i : Nat) : ClientLife :=
  let s := s.modify i fun c => { c with connecting := false }
  { s.modify s.current fun c => { c with ping := c.ping.tick } with messenger := some s.current }

/-- Disposing a container clears the state of its awareness, and that is sent. -/
def disposeContainers : List Nat → ClientLife → ClientLife × Bool
  | [], s => (s, false)
  | i :: containers, s =>
    match s.send i with
    | (s, true) => (s, true)
    | (s, false) => disposeContainers containers s

def disposeDocs (s : ClientLife) : ClientLife × Bool :=
  match disposeContainers (s.docs.entries.map Prod.snd) s with
  | (s, true) => (s, true)
  | (s, false) => ({ s with docs := .empty }, false)

/-- The flag reports an exception. -/
def dispose (s : ClientLife) : ClientLife × Bool :=
  let s := s.modify s.current fun c =>
    { c with ping := c.ping.dispose, connection := c.connection.dispose }
  match s.messenger with
  | none => (s, true) -- a TypeError on `this.messenger.off`
  | some _ => s.disposeDocs

/-! ### The timers and the messages -/

/-- The callback of the timer: if the message cannot be sent, no new timer is set. -/
def pingFired (s : ClientLife) (i : Nat) (ping : Ping) : ClientLife :=
  match s.send i with
  | (s, true) => s.modify i fun c => { c with ping := ping }
  | (s, false) => s.modify i fun c => { c with ping := ping.tick }

def canSend (s : ClientLife) (i : Nat) : Sender → Bool
  | .user => true
  | .awareness => s.idle ∧ (i ∈ s.loose ∨ i ∈ s.docs.entries.map Prod.snd)
  -- the messages of a socket reach the listeners once its handshake is over
  | .listener => s.connections[i]?.any fun c =>
      c.connection.ws.any fun socket => socket.readyState = .open ∧ socket.promise = .resolved

/-- A `getDoc` is over and records its container; another one of the id is forgotten. -/
def record (s : ClientLife) (id : DocKey) (i : Nat) : ClientLife :=
  { s with
    loose := (s.docs.get id).toList ++ s.loose.erase i
    docs := s.docs.set id i }

def step (s : ClientLife) : LifeAction → Option ClientLife
  | .connect => some s.connect
  | .connection i a =>
    s.connections[i]?.bind fun c =>
      if a = .connect ∨ (a.socketEvent = true ∧ s.idle = false) then none
      else (c.connection.step a).map fun connection =>
        s.modify i fun c => { c with connection := connection }
  | .connected i =>
    s.connections[i]?.bind fun c => if c.resumable then some (s.connected i) else none
  | .ping i own =>
    s.connections[i]?.bind fun c =>
      if s.idle then (c.ping.fire own).map fun ping => s.pingFired i ping else none
  | .send i sender => if s.canSend i sender then some (s.send i).1 else none
  | .construct => s.messenger.map fun i => { s with loose := i :: s.loose }
  | .record id i => if i ∈ s.loose then some (s.record id i) else none
  | .disposeDocs => some s.disposeDocs.1
  | .dispose => some s.dispose.1

end ClientLife

end AlaFois
