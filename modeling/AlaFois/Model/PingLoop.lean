import AlaFois.Model.Proxy

/-!
# The timers of a ping loop

`Ping.start` sets a timer, and the callback of the timer sends a ping through the socket that is
the current one by then and sets the next timer. The timers are those of the runtime, named by the
numbers that `setTimeout` returns, and `timeoutId` remembers the last one.
-/

namespace AlaFois

/-- The calls that begin and end the loop; `dispose` is `stop`. -/
inductive PingCall
  | start
  | stop
deriving DecidableEq

/-- `timers` are the pending ones, `nextId` is the number of the next one, `ws` is the `readyState`
of the socket of the connection, if there is one, and `sent` counts the pings that it was given.
`last` is the last call of `start` or `stop`. -/
structure PingLoop where
  timeoutId : Nat
  timers : List Nat
  nextId : Nat
  ws : Option ReadyState
  sent : Nat
  last : Option PingCall
deriving DecidableEq

inductive PingAction
  | call (c : PingCall)
  | fired (id : Nat)
  | socket (ws : Option ReadyState)
deriving DecidableEq

namespace PingLoop

/-- No timer has the number 0 that `timeoutId` begins with. -/
def new (ws : Option ReadyState) : PingLoop := ⟨0, [], 1, ws, 0, none⟩

/-- `this.timeoutId = setTimeout(...)`. -/
def tick (s : PingLoop) : PingLoop :=
  { s with timeoutId := s.nextId, timers := s.timers ++ [s.nextId], nextId := s.nextId + 1 }

def start (s : PingLoop) : PingLoop := s.tick

/-- The timer is not pending any more, if it was. -/
def clearTimeout (s : PingLoop) (id : Nat) : PingLoop := { s with timers := s.timers.erase id }

def stop (s : PingLoop) : PingLoop := s.clearTimeout s.timeoutId

/-- `this.ws?.send(...)`; `none` is the error that a connecting socket throws. -/
def sendJson (s : PingLoop) : Option PingLoop :=
  match s.ws with
  | none => some s
  | some .connecting => none
  | some .open | some .closing | some .closed => some { s with sent := s.sent + 1 }

/-- The callback of a timer. An error of `sendJson` ends it. -/
def callback (s : PingLoop) : PingLoop :=
  match s.sendJson with
  | none => s
  | some s => s.tick

/-- A timer that has run out is not pending while its callback runs. -/
def fired (s : PingLoop) (id : Nat) : PingLoop := (s.clearTimeout id).callback

def step (s : PingLoop) : PingAction → Option PingLoop
  | .call .start => some { s.start with last := some .start }
  | .call .stop => some { s.stop with last := some .stop }
  | .fired id => if id ∈ s.timers then some (s.fired id) else none
  | .socket ws => some { s with ws := ws }

end PingLoop

end AlaFois
