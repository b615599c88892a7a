import AlaFois.Model.Types

/-!
# The sockets of a client

`Client.connect` makes a `WsConnection` with the token of the configuration, and the connection
opens a new `WebSocket` with it whenever one fails or closes. Which token is in force is recorded
beside; no code of the client knows it.
-/

namespace AlaFois

/-- The part of the configuration that the connection is made with. -/
structure WsConnectionConfig where
  url : String
  token : Option String
deriving DecidableEq

/-- An empty token counts as none. -/
def connectUrl (config : WsConnectionConfig) : String :=
  match config.token with
  | none => config.url
  | some token => if token = "" then config.url else config.url ++ ("?token=" ++ token)

/-- Where a `WsConnection` stands; `retrying` waits for the next attempt of `promiseRetry`. -/
inductive WsState
  | connecting
  | retrying
  | open
  | closed
deriving DecidableEq

/-- A `WebSocket` that has been opened, and the token that was in force at the time. -/
structure OpenedSocket where
  url : String
  inForce : Option String
deriving DecidableEq

/-- `connections` are those that calls of `connect` have made, `settingToken` the tokens of the
`setToken` messages that have no answer yet. -/
structure ClientSockets where
  config : WsConnectionConfig
  connections : List WsState
  opened : List OpenedSocket
  settingToken : List String
  inForce : Option String
deriving DecidableEq

/-- Connections are named by their places; `updateToken` is the service event. -/
inductive SocketAction
  | connect
  | connectResponse (n : Nat) (status : Status)
  | error (n : Nat)
  | retry (n : Nat)
  | close (n : Nat) (code : Nat)
  | setToken (token : String)
  | setTokenResponse (token : String) (status : Status)
  | updateToken (token : String)
  | dispose
deriving DecidableEq

/-- `WS_CLOSE_STATUS_NORMAL`. -/
def wsCloseStatusNormal : Nat := 1000

namespace ClientSockets

def init (config : WsConnectionConfig) : ClientSockets := ⟨config, [], [], [], config.token⟩

/-- `new WebSocket(connectUrl)`. -/
def connectFn (s : ClientSockets) : ClientSockets :=
  { s with opened := s.opened ++ [⟨connectUrl s.config, s.inForce⟩] }

def setState (s : ClientSockets) (n : Nat) (state : WsState) : ClientSockets :=
  { s with connections := s.connections.set n state }

def step (s : ClientSockets) : SocketAction → Option ClientSockets
  | .connect =>
    let connections := s.connections ++ [WsState.connecting]
    some (connectFn { s with connections := connections })
  | .connectResponse n status =>
    if s.connections[n]? = some .connecting then
      some (s.setState n (if status = .ok then .open else .retrying))
    else none
  | .error n =>
    if s.connections[n]? = some .connecting then some (s.setState n .retrying) else none
  | .retry n =>
    if s.connections[n]? = some .retrying then some (s.setState n .connecting).connectFn else none
  | .close n code =>
    if s.connections[n]? = some .open then
      if code = wsCloseStatusNormal then some (s.setState n .closed)
      else some (s.setState n .connecting).connectFn
    else none
  | .setToken token =>
    -- without an open socket the message reaches nobody
    if .open ∈ s.connections then some { s with settingToken := s.settingToken ++ [token] }
    else some s
  | .setTokenResponse token status =>
    if token ∈ s.settingToken ∧ .open ∈ s.connections then
      some { s with
        settingToken := s.settingToken.erase token
        inForce := if status = .ok then some token else s.inForce }
    else none
  | .updateToken token =>
    if .open ∈ s.connections then some { s with inForce := some token } else none
  | .dispose =>
    -- the connection of the last `connect`; `promiseRetry` goes on if it is not open yet
    let n := s.connections.length - 1
    match s.connections[n]? with
    | some .open => some (s.setState n .closed)
    | some .connecting => some (s.setState n .retrying)
    | _ => some s

end ClientSockets

end AlaFois
