import AlaFois.Model.Types

/-!
# The calls of a client

`getDoc` and `setToken` send a message and wait with `Messenger.waitFor` for a message of the kind
that answers it. The listeners do not look at the document that a `joinResponse` names.
-/

namespace AlaFois

/-- The promise of a call. -/
inductive CallState
  | pending
  | resolved
  | rejected (message : String)
deriving DecidableEq

namespace CallState

def ofStatus : Status → CallState
  | .ok => .resolved
  | .err message => .rejected message

/-- The listener of a pending call gets the message; that of a settled one is gone. -/
def settle (status : Status) : CallState → CallState
  | .pending => ofStatus status
  | state => state

lemma settle_of_ne_pending {state : CallState} (h : state ≠ .pending) (status : Status) :
    state.settle status = state := by
  cases state with
  | pending => exact absurd rfl h
  | resolved => rfl
  | rejected message => rfl

/-- The timer of `waitFor`. -/
def timeout : CallState → CallState := settle (.err "Timeout")

end CallState

structure GetDocCall where
  id : DocKey
  state : CallState
deriving DecidableEq

/-- `docs` are the keys of `Client.docs`; `getDocs` and `setTokens` are the calls in their order. -/
structure DocClient where
  docs : List DocKey
  getDocs : List GetDocCall
  setTokens : List CallState
deriving DecidableEq

/-- The messages that a client sends. -/
inductive ClientRequest
  | join (docId : DocKey)
  | setToken (token : String)
  | changes (docId : DocKey) (changes : Changes)
  | syncStart (docId : DocKey) (vector : StateVector)
  | syncComplete (docId : DocKey) (changes : Changes)
  | awareness (docId : DocKey) (awareness : Changes)
deriving DecidableEq

inductive ClientEvent
  | getDoc (id : DocKey)
  | setToken (token : String)
  | disposeDocs
  | message (m : ServerMessage)
  | getDocTimeout (n : Nat)
  | setTokenTimeout (n : Nat)
deriving DecidableEq

namespace DocClient

def init : DocClient := ⟨[], [], []⟩

/-- The documents of the pending calls of `getDoc`. -/
def opening (s : DocClient) : List DocKey :=
  (s.getDocs.filter (·.state = .pending)).map GetDocCall.id

/-- A container that is there is returned at once, and so is what every object has under the id. -/
def getDoc (s : DocClient) (id : DocKey) : DocClient × List ClientRequest :=
  if id ∈ s.docs ∨ id ∈ inheritedNames then ({ s with getDocs := s.getDocs ++ [⟨id, .resolved⟩] }, [])
  else ({ s with getDocs := s.getDocs ++ [⟨id, .pending⟩] }, [.join id])

def setToken (s : DocClient) (token : String) : DocClient × List ClientRequest :=
  ({ s with setTokens := s.setTokens ++ [.pending] }, [.setToken token])

def disposeDocs (s : DocClient) : DocClient := { s with docs := [] }

/-- Every pending `getDoc` goes on with the response, whichever document it is for. -/
def onJoinResponse (s : DocClient) (status : Status) : DocClient :=
  { s with
    docs := s.docs ++ if status = .ok then s.opening else []
    getDocs := s.getDocs.map fun call => { call with state := call.state.settle status } }

def onSetTokenResponse (s : DocClient) (status : Status) : DocClient :=
  { s with setTokens := s.setTokens.map (CallState.settle status) }

def onMessage (s : DocClient) : ServerMessage → DocClient
  | .joinResponse _ status => s.onJoinResponse status
  | .setTokenResponse status => s.onSetTokenResponse status
  | _ => s

/-- The messages that the client sends are left out. -/
def step (s : DocClient) : ClientEvent → Option DocClient
  | .getDoc id => some (s.getDoc id).1
  | .setToken token => some (s.setToken token).1
  | .disposeDocs => some s.disposeDocs
  | .message m => some (s.onMessage m)
  | .getDocTimeout n =>
    if (s.getDocs[n]?).any (·.state = .pending) then
      some { s with getDocs := s.getDocs.modify n fun call =>
        { call with state := call.state.timeout } }
    else none
  | .setTokenTimeout n =>
    if s.setTokens[n]? = some .pending then
      some { s with setTokens := s.setTokens.modify n CallState.timeout }
    else none

end DocClient

end AlaFois
