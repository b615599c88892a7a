import AlaFois.Model.Api
import AlaFois.Model.Proxy

/-!
# The API and the message proxies

One API and any number of proxy instances. Every published message can be delivered to every
instance, at any later time and in any order.
-/

namespace AlaFois

structure Cluster where
  api : Api
  proxies : Nat → Proxy

/-- A message is delivered with the documents that the proxy takes those of the message for. -/
inductive ClusterAction
  | api (a : ApiAction)
  | proxy (i : Nat) (op : ProxyOp)
  | deliver (i : Nat) (m : Published) (docs : List AccessData)

namespace Cluster

def init : Cluster := ⟨.init, fun _ => .init⟩

def setProxy (s : Cluster) (i : Nat) (p : Proxy) : Cluster :=
  { s with proxies := Function.update s.proxies i p }

def step (env : ApiEnv) (isPublic : DocKey → Bool) (s : Cluster) : ClusterAction → Option Cluster
  | .api a => (s.api.step env a).map fun api => { s with api := api }
  | .proxy _ (.onUpdateTokenMessage _) => none -- messages arrive by `deliver`
  | .proxy i op => ((s.proxies i).step isPublic op).map (s.setProxy i)
  | .deliver i m docs =>
    if m ∈ s.api.published ∧ takenAs m.message.docs docs then
      some (s.setProxy i ((s.proxies i).onUpdateTokenMessage (m.message.withDocs docs)))
    else none

end Cluster

end AlaFois
