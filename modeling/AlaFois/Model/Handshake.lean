import AlaFois.Model.Proxy
import AlaFois.Model.WsConnection

/-!
# The sockets of one connection

`connectFn` makes a socket and a promise that the listeners of the socket settle, `promiseRetry`
calls it until a promise resolves, and only then does `connect` add `handleClose`, which connects
again. What an event of a socket sets off runs to its end before the next event, except that
listeners of the user are called on the way.
-/

namespace AlaFois

inductive PromiseState
  | pending
  | resolved
  | rejected
deriving DecidableEq

/-- `promise` is the one that `connectFn` returned with the socket, and `closeListener` tells
whether `handleClose` listens. -/
structure WebSocket where
  readyState : ReadyState
  promise : PromiseState
  closeListener : Bool
  closeCode : Option Nat
deriving DecidableEq

/-- What is left of a method that has emitted an event: of `connect` after 'connect', and of
`handleClose` after 'disconnect' if the code is not the normal one. -/
inductive ConnectionJob
  | addListeners
  | reconnect
deriving DecidableEq

/-- `this.ws` is the last of the sockets, and `attempts` counts the calls of `connectFn` that
`promiseRetry` has scheduled, the first one of a `connect` or a later one. -/
structure WsConnection where
  sockets : List WebSocket
  attempts : Nat
  job : Option ConnectionJob
  connected : Bool
deriving DecidableEq

/-- Sockets are named by their places. A socket that ends fires 'error' if it has failed, and then
'close'. `again` tells whether `promiseRetry` has an attempt left when a promise is rejected. -/
inductive ConnectionAction
  | connect
  | connectFn
  | resume
  | opened (n : Nat)
  | connectResponse (n : Nat) (status : Status) (again : Bool)
  | ended (n : Nat) (failed : Bool) (code : Nat) (again : Bool)
deriving DecidableEq

/-- The events of the sockets. -/
def ConnectionAction.socketEvent : ConnectionAction → Bool
  | .opened _ | .connectResponse _ _ _ | .ended _ _ _ _ => true
  | _ => false

namespace WebSocket

/-- `new WebSocket(connectUrl)`. -/
def new : WebSocket := ⟨.connecting, .pending, false, none⟩

/-- The promise of the socket is pending and a listener may be called that settles it. -/
def canSettle (socket : WebSocket) : Bool :=
  socket.promise = .pending ∧ socket.readyState ≠ .closed

def ended (code : Nat) (socket : WebSocket) : WebSocket :=
  { socket with readyState := .closed, closeCode := some code }

/-- `ws.close()`. -/
def close (socket : WebSocket) : WebSocket :=
  if socket.readyState = .closed then socket else { socket with readyState := .closing }

def dispose (socket : WebSocket) : WebSocket := { socket with closeListener := false }.close

end WebSocket

namespace WsConnection

def init : WsConnection := ⟨[], 0, none, false⟩

def ws (s : WsConnection) : Option WebSocket := s.sockets[s.sockets.length - 1]?

def modify (s : WsConnection) (n : Nat) (f : WebSocket → WebSocket) : WsConnection :=
  { s with sockets := s.sockets.modify n f }

def modifyWs (s : WsConnection) (f : WebSocket → WebSocket) : WsConnection :=
  s.modify (s.sockets.length - 1) f

/-- Up to the first call of `connectFn`. -/
def connect (s : WsConnection) : WsConnection := { s with attempts := s.attempts + 1 }

def connectFn (s : WsConnection) : WsConnection :=
  { s with sockets := s.sockets ++ [.new], attempts := s.attempts - 1 }

def resolve (s : WsConnection) (n : Nat) : WsConnection :=
  { s.modify n fun socket => { socket with promise := .resolved } with job := some .addListeners }

def reject (s : WsConnection) (n : Nat) (again : Bool) : WsConnection :=
  let s := s.modify n fun socket => { socket with promise := .rejected }
  if again then { s with attempts := s.attempts + 1 } else s

/-- The rest of `connect` adds the listeners to the socket that is the current one by now. -/
def addListeners (s : WsConnection) : WsConnection :=
  { s.modifyWs fun socket => { socket with closeListener := true } with
    job := none, connected := true }

/-- The `messageHandler` of the socket; a promise is settled only once. -/
def messageHandler (s : WsConnection) (n : Nat) (socket : WebSocket) (again : Bool) :
    Status → WsConnection
  | .ok => if socket.promise = .pending then s.resolve n else s
  | .err _ => if socket.promise = .pending then s.reject n again else s

/-- The listener of 'error'. -/
def onError (s : WsConnection) (n : Nat) (socket : WebSocket) (again : Bool) : WsConnection :=
  if socket.promise = .pending then s.reject n again else s

def handleClose (s : WsConnection) (code : Nat) : WsConnection :=
  if code ≠ wsCloseStatusNormal then { s with job := some .reconnect } else s

def ended (s : WsConnection) (n : Nat) (socket : WebSocket) (failed : Bool) (code : Nat)
    (again : Bool) : WsConnection :=
  let s := s.modify n (WebSocket.ended code)
  let s := if failed then s.onError n socket again else s
  if socket.closeListener then s.handleClose code else s

/-- The socket whose event comes next. -/
def waiting (s : WsConnection) (n : Nat) : Option WebSocket :=
  if s.job = none then s.sockets[n]? else none

def step (s : WsConnection) : ConnectionAction → Option WsConnection
  | .connect => some s.connect
  | .connectFn => if 0 < s.attempts then some s.connectFn else none
  | .resume =>
    match s.job with
    | none => none
    | some .addListeners => some s.addListeners
    | some .reconnect => some { s with job := none }.connect
  | .opened n =>
    (s.waiting n).bind fun socket =>
      if socket.readyState = .connecting then
        some (s.modify n fun socket => { socket with readyState := .open })
      else none
  | .connectResponse n status again =>
    (s.waiting n).bind fun socket =>
      -- a socket that is closing delivers no message
      if socket.readyState = .open then some (s.messageHandler n socket again status) else none
  | .ended n failed code again =>
    (s.waiting n).bind fun socket =>
      if socket.readyState ≠ .closed then some (s.ended n socket failed code again) else none

/-- `dispose` adds a listener where it means to remove one, which changes nothing here: no
listener of the connection itself is left. -/
def dispose (s : WsConnection) : WsConnection :=
  s.modifyWs WebSocket.dispose

end WsConnection

/-- An action, or a call of `dispose`, which can come at any point. -/
inductive ConnectionEvent
  | action (a : ConnectionAction)
  | dispose
deriving DecidableEq

def WsConnection.next (s : WsConnection) : ConnectionEvent → Option WsConnection
  | .action a => s.step a
  | .dispose => some s.dispose

end AlaFois
