import AlaFois.Lib.JsMap
import AlaFois.Model.Types

/-!
# The containers of a client

`getDoc` constructs a container, which subscribes to the messenger, and records it in `Client.docs`
when its join is over. Between the two other calls run, and `disposeDocs` knows only what has been
recorded.
-/

namespace AlaFois

/-- A call of `getDoc` that waits for `init`. `joined` tells whether `waitFor` has resolved, so that
the call goes on as soon as its promise job runs. -/
structure OpenCall where
  id : DocKey
  container : Nat
  joined : Bool
deriving DecidableEq

/-- The containers are numbered as they are constructed; `constructed` lists their ids and
`disposed` those that `dispose` has been called of. `opening` are the calls of `getDoc` that wait,
and `returned` what the others have returned since the documents were last disposed. -/
structure ClientDocs where
  docs : JsMap DocKey Nat
  constructed : List DocKey
  disposed : List Nat
  opening : List OpenCall
  returned : List (DocKey × Nat)

/-- `joinFailed` is the timer of `waitFor`, or the exception of a join that cannot be sent. The flag
of `disposeDocs` says that the socket is connecting again, so that it throws on every message. -/
inductive DocsAction
  | getDoc (id : DocKey)
  | joinResponse (status : Status)
  | joinFailed (container : Nat)
  | resume
  | disposeDocs (connecting : Bool)
deriving DecidableEq

namespace ClientDocs

def init : ClientDocs := ⟨.empty, [], [], [], []⟩

/-- Up to the wait, or to the end where `docs` has a container. -/
def getDoc (s : ClientDocs) (id : DocKey) : ClientDocs :=
  match s.docs.get id with
  | some container => { s with returned := s.returned ++ [(id, container)] }
  | none =>
    { s with
      constructed := s.constructed ++ [id]
      opening := s.opening ++ [⟨id, s.constructed.length, false⟩] }

/-- `waitFor` does not look at the document of the response: it settles every join that waits. -/
def joinResponse (s : ClientDocs) : Status → ClientDocs
  | .ok => { s with opening := s.opening.map fun call => { call with joined := true } }
  | .err _ => { s with opening := s.opening.filter (·.joined) }

/-- The promise of `init` rejects, and that of `getDoc` with it. -/
def joinFailed (s : ClientDocs) (container : Nat) : ClientDocs :=
  { s with opening := s.opening.filter (·.container ≠ container) }

/-- The rest of `getDoc`. -/
def resume (s : ClientDocs) (call : OpenCall) : ClientDocs :=
  { s with
    docs := s.docs.set call.id call.container
    opening := s.opening.filter (·.container ≠ call.container)
    returned := s.returned ++ [(call.id, call.container)] }

/-- The first join in the order of the promise jobs that has been answered. -/
def next (s : ClientDocs) : Option OpenCall := s.opening.find? (·.joined)

/-- `dispose` of a container sends the end of its awareness. If that throws, the loop ends with the
first container, and `docs` stays. -/
def disposeDocs (s : ClientDocs) (connecting : Bool) : ClientDocs :=
  match s.docs.entries.map Prod.snd, connecting with
  | container :: _, true => { s with disposed := s.disposed ++ [container] }
  | containers, _ =>
    { s with disposed := s.disposed ++ containers, docs := .empty, returned := [] }

/-- A call of `getDoc` with one of the `inheritedNames` is left out: it returns the property that
every object has, and no container. -/
def step (s : ClientDocs) : DocsAction → Option ClientDocs
  | .getDoc id => if id ∈ inheritedNames then none else some (s.getDoc id)
  | .joinResponse status => some (s.joinResponse status)
  | .joinFailed container =>
    if s.opening.any fun call => call.container = container ∧ ¬call.joined then
      some (s.joinFailed container)
    else none
  | .resume => s.next.map s.resume
  | .disposeDocs connecting => some (s.disposeDocs connecting)

end ClientDocs

end AlaFois
