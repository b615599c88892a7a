import AlaFois.Model.Handshake

/-!
# The events of a connection

What a `WsConnection` tells its listeners, messages aside: `connectWithRetry` emits 'connect' when
the promise of an attempt has resolved, and `handleClose` emits 'disconnect'. The interface of the
class declares 'reconnect', too, and no method emits it.
-/

namespace AlaFois

inductive EmittedEvent
  | connect
  | disconnect
  | reconnect
deriving DecidableEq

namespace WsConnection

/-- A promise is settled once, and `handleClose` is called for the sockets it listens to. -/
def emits (s : WsConnection) : ConnectionAction → List EmittedEvent
  | .connectResponse n .ok _ =>
    if s.sockets[n]?.any fun socket => socket.promise = .pending then [.connect] else []
  | .ended n _ _ _ =>
    if s.sockets[n]?.any fun socket => socket.closeListener then [.disconnect] else []
  | .connectResponse _ (.err _) _ | .opened _ | .connect | .connectFn | .resume => []

end WsConnection

/-- `emitted` are the events so far. -/
structure EmittingConnection where
  connection : WsConnection
  emitted : List EmittedEvent
deriving DecidableEq

namespace EmittingConnection

def init : EmittingConnection := ⟨.init, []⟩

def step (s : EmittingConnection) (a : ConnectionAction) : Option EmittingConnection :=
  (s.connection.step a).map fun connection => ⟨connection, s.emitted ++ s.connection.emits a⟩

end EmittingConnection

end AlaFois
