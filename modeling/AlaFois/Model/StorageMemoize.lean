import AlaFois.Lib.JsMap

/-!
# Results kept for a request

`StorageMemoize` keeps the result of a method in the store of the request, under the key of the
method. Whether there is a result it reads off the result itself.
-/

namespace AlaFois

/-- A value, objects and functions by their identity. -/
inductive JsValue
  | undefined
  | null
  | boolean (value : Bool)
  | number (value : Float)
  | bigint (value : Int)
  | string (value : String)
  | symbol (id : Nat)
  | object (ref : Nat)

/-- `!!value`. -/
def JsValue.truthy : JsValue → Bool
  | .undefined | .null => false
  | .boolean value => value
  | .number value => value == value && value != 0
  | .bigint value => value ≠ 0
  | .string value => value ≠ ""
  | .symbol _ | .object _ => true

/-- The symbols of `constants.ts`, and any other ones. -/
inductive StorageKey
  | REQ_KEY
  | RES_KEY
  | symbol (id : Nat)
deriving DecidableEq

/-! ### The stores of the requests -/

/-- `asyncStore`, for every request the map that its calls find there. -/
structure AsyncStorageService (R : Type*) where
  asyncStore : R → Option (JsMap StorageKey JsValue)

namespace AsyncStorageService

variable {R : Type*} [DecidableEq R]

def getInitialStore (req res : JsValue) : JsMap StorageKey JsValue :=
  (JsMap.empty.set .REQ_KEY req).set .RES_KEY res

omit [DecidableEq R] in
def getStore (s : AsyncStorageService R) (r : R) : Except String (JsMap StorageKey JsValue) :=
  match s.asyncStore r with
  | none => .error "Стор отсутствует. Скорее всего не подключена asyncStorageMiddleware"
  | some store => .ok store

def getData (s : AsyncStorageService R) (r : R) (key : StorageKey) : Except String JsValue :=
  match s.getStore r with
  | .error e => .error e
  | .ok store => .ok ((store.get key).getD .undefined)

def setData (s : AsyncStorageService R) (r : R) (key : StorageKey) (value : JsValue) :
    Except String (AsyncStorageService R) :=
  match s.getStore r with
  | .error e => .error e
  | .ok store => .ok ⟨Function.update s.asyncStore r (some (store.set key value))⟩

/-- The middleware `use` runs a request with a store of its own. -/
def use (s : AsyncStorageService R) (r : R) (req res : JsValue) : AsyncStorageService R :=
  ⟨Function.update s.asyncStore r (some (getInitialStore req res))⟩

end AsyncStorageService

/-! ### The decorated methods -/

/-- A running original method, called by the memoizer to keep the result or, once `disableMemoize`
has been called, not to keep it. -/
structure MethodFrame (R M : Type*) where
  request : R
  method : M
  memoized : Bool

/-- What has become of the calls of a method in a request: how often the original method was
started, the values it has returned, and the values the calls have returned. -/
structure MethodCalls where
  started : Nat
  ran : List JsValue
  returned : List JsValue

/-- The process; `original` is the flag of each method and `frames` the stack. -/
structure StorageMemoize (R M : Type*) where
  storage : AsyncStorageService R
  original : M → Bool
  frames : List (MethodFrame R M)
  calls : R → M → MethodCalls

namespace StorageMemoize

variable {R M : Type*} [DecidableEq R] [DecidableEq M]

omit [DecidableEq R] [DecidableEq M] in
def init : StorageMemoize R M := ⟨⟨fun _ => none⟩, fun _ => false, [], fun _ _ => ⟨0, [], []⟩⟩

def record (r : R) (m : M) (f : MethodCalls → MethodCalls) (s : StorageMemoize R M) :
    StorageMemoize R M :=
  { s with calls := fun r' m' => if r' = r ∧ m' = m then f (s.calls r' m') else s.calls r' m' }

/-- `originalMethod.apply`. -/
def apply (r : R) (m : M) (memoized : Bool) (s : StorageMemoize R M) : StorageMemoize R M :=
  record r m (fun c => { c with started := c.started + 1 })
    { s with frames := ⟨r, m, memoized⟩ :: s.frames }

/-- The original method has returned the value. -/
def ran (r : R) (m : M) (value : JsValue) (s : StorageMemoize R M) : StorageMemoize R M :=
  record r m (fun c => { c with ran := c.ran ++ [value] }) s

/-- The call has returned the value. -/
def returns (r : R) (m : M) (value : JsValue) (s : StorageMemoize R M) : StorageMemoize R M :=
  record r m (fun c => { c with returned := c.returned ++ [value] }) s

/-- `memoizer`, up to the call of the original method. -/
def memoizer (key : M → StorageKey) (r : R) (m : M) (s : StorageMemoize R M) :
    Except String (StorageMemoize R M) :=
  if s.original m then .ok (s.apply r m false)
  else
    match s.storage.getData r (key m) with
    | .error e => .error e
    | .ok storedValue =>
      if storedValue.truthy then .ok (s.returns r m storedValue) else .ok (s.apply r m true)

/-- The rest of `memoizer`, when the original method has returned. -/
def applied (key : M → StorageKey) (frame : MethodFrame R M) (value : JsValue)
    (s : StorageMemoize R M) : Except String (StorageMemoize R M) :=
  if frame.memoized then
    match s.storage.setData frame.request (key frame.method) value with
    | .error e => .error e
    | .ok storage => .ok ({ s with storage := storage }.returns frame.request frame.method value)
  else .ok (s.returns frame.request frame.method value)

end StorageMemoize

/-- A request begins; other code keeps data; a decorated method is called; the innermost of the
running methods returns or throws; `disableMemoize`. -/
inductive MemoizeAction (R M : Type*)
  | use (r : R) (req res : JsValue)
  | setData (r : R) (key : StorageKey) (value : JsValue)
  | call (r : R) (m : M)
  | returned (r : R) (value : JsValue)
  | thrown (r : R)
  | disableMemoize (m : M)

namespace StorageMemoize

variable {R M : Type*} [DecidableEq R] [DecidableEq M]

/-- An error leaves the state. -/
def step (key : M → StorageKey) (s : StorageMemoize R M) :
    MemoizeAction R M → Option (StorageMemoize R M)
  | .use r req res =>
    if (s.storage.asyncStore r).isSome then none
    else some { s with storage := s.storage.use r req res }
  | .setData r k value =>
    match s.storage.setData r k value with
    | .error _ => some s
    | .ok storage => some { s with storage := storage }
  | .call r m =>
    match s.memoizer key r m with
    | .error _ => some s
    | .ok t => some t
  | .returned r value =>
    match s.frames with
    | [] => none
    | frame :: frames =>
      if frame.request = r then
        let s := { s with frames := frames }.ran r frame.method value
        match s.applied key frame value with
        | .error _ => some s
        | .ok t => some t
      else none
  | .thrown r =>
    match s.frames with
    | [] => none
    | frame :: frames => if frame.request = r then some { s with frames := frames } else none
  | .disableMemoize m => some { s with original := Function.update s.original m true }

end StorageMemoize

/-! ### The domain of a request -/

/-- What `parseTld` reads of a request. -/
structure TldRequest where
  hostname : Option String
  host : Option String
  headersHost : Option String

/-- `url.parse('//' + host, false, true).hostname` and `isIP`. -/
structure HostNames where
  hostname : String → Option String
  isIP : String → Bool

namespace TldService

/-- `a || b` of texts. -/
def orElse (a b : Option String) : Option String :=
  if a.getD "" = "" then b else a

def parseTld (names : HostNames) (req : TldRequest) : Option String :=
  match orElse req.hostname (orElse req.host (orElse req.headersHost none)) with
  | none => none
  | some host =>
    match orElse (names.hostname host) none with
    | none => none
    | some host =>
      if names.isIP host then none
      else
        let parts := host.splitOn "."
        let tld := parts.getLastD "undefined"
        let sld := parts.dropLast.getLastD "undefined"
        if sld = "com" then some ("com." ++ tld)
        else if tld = "il" then some (sld ++ "." ++ tld)
        else some tld

/-- What `getTld` returns, without the decorator. -/
def getTld (names : HostNames) (req : TldRequest) : JsValue :=
  match parseTld names req with
  | none => .null
  | some tld => .string tld

end TldService

end AlaFois
