import AlaFois.Proofs.ApiAuthority
import Mathlib.Data.List.Infix

/-!
# Runs of the API server

What holds in every interleaving of requests and of the writes of actors: documents keep their owner
and stay public or private, and each has been created by its owner or by an admin.
-/

namespace AlaFois

open Async (Performed Obeys Pool PoolAction Task)

namespace Collections

variable {env : ServerEnv} {s s' : Collections}

/-- What an operation has done. -/
inductive Effect (s : Collections) :
    Performed ApiCall ApiCall.Reply ApiError → Collections → Prop
  | none (e : Performed ApiCall ApiCall.Reply ApiError) : Effect s e s
  | insertConsumer (consumer : StoredConsumer) (hnew : consumer.id ∉ s.consumers.map (·.id)) :
      Effect s ⟨.insertConsumer consumer, .ok ()⟩ { s with consumers := s.consumers ++ [consumer] }
  | saveConsumer (id : String) (publicKey name : Option String) :
      Effect s ⟨.saveConsumer id publicKey name, .ok ()⟩ { s with
        consumers := s.consumers.map fun c => if c.id = id then change publicKey name c else c }
  | insertDoc (doc : StoredDoc) (hnew : doc.id ∉ s.docs.map (·.id)) :
      Effect s ⟨.insertDoc doc, .ok ()⟩ { s with docs := s.docs ++ [doc] }

lemma exec_effect {call : ApiCall} {outcome : Except ApiError call.Reply}
    (h : exec env s call outcome = some s') : Effect s ⟨call, outcome⟩ s' := by
  cases outcome with
  | error e =>
    have h' : (if e = .other then some s else none) = some s' := by
      cases call <;> exact h
    obtain ⟨-, h'⟩ := Option.ite_none_right_eq_some.mp h'
    cases h'
    exact .none _
  | ok x =>
    cases call with
    | generateKeyPair =>
      cases h
      exact .none _
    | insertConsumer consumer =>
      obtain ⟨hnew, h⟩ := Option.ite_none_left_eq_some.mp h
      cases h
      exact .insertConsumer consumer fun hmem => hnew (.inr (.inr hmem))
    | saveConsumer id publicKey name =>
      obtain ⟨-, h⟩ := Option.ite_none_right_eq_some.mp h
      cases h
      exact .saveConsumer id publicKey name
    | insertDoc doc =>
      obtain ⟨hnew, h⟩ := Option.ite_none_left_eq_some.mp h
      cases h
      exact .insertDoc doc hnew
    | _ =>
      obtain ⟨-, h⟩ := Option.ite_none_right_eq_some.mp h
      cases h
      exact .none _

/-- No two records of a collection share an id. -/
structure Unique (s : Collections) : Prop where
  consumers : (s.consumers.map (·.id)).Nodup
  docs : (s.docs.map (·.id)).Nodup

/-- Nothing is removed; documents keep their owner and stay public or private. -/
structure Keeps (s s' : Collections) : Prop where
  consumers : s.consumers.map (·.id) <+: s'.consumers.map (·.id)
  docs : s.docs.map (·.toOwnedDoc) <+: s'.docs.map (·.toOwnedDoc)
  updates : s.updates <+: s'.updates

lemma Keeps.refl (s : Collections) : Keeps s s :=
  ⟨List.prefix_refl _, List.prefix_refl _, List.prefix_refl _⟩

lemma Keeps.trans {s₁ s₂ s₃ : Collections} (h : Keeps s₁ s₂) (h' : Keeps s₂ s₃) : Keeps s₁ s₃ :=
  ⟨h.consumers.trans h'.consumers, h.docs.trans h'.docs, h.updates.trans h'.updates⟩

lemma map_id_save (id : String) (publicKey name : Option String) (cs : List StoredConsumer) :
    (cs.map fun c => if c.id = id then change publicKey name c else c).map (·.id) =
      cs.map (·.id) := by
  rw [List.map_map]
  refine List.map_congr_left fun c _ => ?_
  simp only [Function.comp_apply]
  split <;> rfl

lemma map_toOwnedDoc_saveState (id : String) (state : Bytes) (docs : List StoredDoc) :
    (docs.map fun doc => if doc.id = id then { doc with state := state } else doc).map
      (·.toOwnedDoc) = docs.map (·.toOwnedDoc) := by
  rw [List.map_map]
  refine List.map_congr_left fun doc _ => ?_
  simp only [Function.comp_apply]
  split <;> rfl

lemma map_id_of_map_toOwnedDoc (docs : List StoredDoc) :
    docs.map (·.id) = (docs.map (·.toOwnedDoc)).map (·.id) := by
  rw [List.map_map]
  rfl

lemma Effect.keeps {e : Performed ApiCall ApiCall.Reply ApiError} (h : Effect s e s') :
    Keeps s s' := by
  cases h with
  | none => exact Keeps.refl s
  | insertConsumer consumer hnew =>
    exact ⟨by simp, List.prefix_refl _, List.prefix_refl _⟩
  | saveConsumer id publicKey name =>
    exact ⟨by simp only [map_id_save, List.prefix_refl], List.prefix_refl _, List.prefix_refl _⟩
  | insertDoc doc hnew => exact ⟨List.prefix_refl _, by simp, List.prefix_refl _⟩

lemma Effect.unique {e : Performed ApiCall ApiCall.Reply ApiError} (h : Effect s e s')
    (hs : s.Unique) : s'.Unique := by
  cases h with
  | none => exact hs
  | insertConsumer consumer hnew =>
    refine ⟨?_, hs.docs⟩
    rw [List.map_append, List.map_singleton]
    exact hs.consumers.append (List.nodup_singleton _) (by simpa using hnew)
  | saveConsumer id publicKey name =>
    refine ⟨?_, hs.docs⟩
    rw [map_id_save]
    exact hs.consumers
  | insertDoc doc hnew =>
    refine ⟨hs.consumers, ?_⟩
    rw [List.map_append, List.map_singleton]
    exact hs.docs.append (List.nodup_singleton _) (by simpa using hnew)

lemma Effect.consumers_eq {e : Performed ApiCall ApiCall.Reply ApiError} (h : Effect s e s')
    (hinsert : ∀ consumer, e.call ≠ .insertConsumer consumer)
    (hsave : ∀ id publicKey name, e.call ≠ .saveConsumer id publicKey name) :
    s'.consumers = s.consumers := by
  cases h with
  | none => rfl
  | insertConsumer consumer hnew => exact absurd rfl (hinsert consumer)
  | saveConsumer id publicKey name => exact absurd rfl (hsave id publicKey name)
  | insertDoc doc hnew => rfl

lemma write_keeps (s : Collections) (w : ActorWrite) : Keeps s (s.write w) := by
  cases w with
  | saveState id state =>
    exact ⟨List.prefix_refl _, by simp only [write, map_toOwnedDoc_saveState, List.prefix_refl],
      List.prefix_refl _⟩
  | createUpdate update => exact ⟨List.prefix_refl _, List.prefix_refl _, List.prefix_append _ _⟩

lemma write_unique (hs : s.Unique) (w : ActorWrite) : (s.write w).Unique := by
  cases w with
  | saveState id state =>
    refine ⟨hs.consumers, ?_⟩
    rw [map_id_of_map_toOwnedDoc]
    simp only [write, map_toOwnedDoc_saveState]
    rw [← map_id_of_map_toOwnedDoc]
    exact hs.docs
  | createUpdate update => exact ⟨hs.consumers, hs.docs⟩

end Collections

/-- The documents of the owner that have one of the ids. -/
def Collections.docsOf (s : Collections) (owner : String) (ids : List String) : List StoredDoc :=
  s.docs.filter fun doc => doc.owner = some owner ∧ doc.id ∈ ids

namespace ApiServer

open Collections

variable {env : ServerEnv} {s s' : ApiPool} {as : List ServerAction}

/-! ### A sample run -/

def sampleEnv : ServerEnv where
  toQueryEnv :=
    ApiEnv.queriedByText
      { parseJWT := fun token =>
          if token = "jwt" then
            some ⟨some "token", some (.text "c1"), some "user", none,
              some (.array [.object [("id", .text "d1"), ("rights", .array [.text "read"])]]), none⟩
          else if token = "jwt2" then
            some ⟨some "token", some (.text "c2"), some "user", none, some (.array []), none⟩
          else none
        verify := fun token key =>
          (token = "jwt" && key = "key") || (token = "jwt2" && key = "key2")
        ttl := 0 }
      some
  secret := some "secret"

def sampleConsumer : StoredConsumer := ⟨⟨"c1", "key"⟩, "consumer"⟩

def sampleStore : Collections := ⟨[sampleConsumer], [], []⟩

def sampleDoc : StoredDoc := ⟨⟨"d1", some "c1", false⟩, DocRecord.defaultState⟩

/-- The outcomes of calls that find this consumer and this document. -/
def sampleAnswer (consumer : StoredConsumer) (doc : StoredDoc) :
    ∀ call : ApiCall, Except ApiError call.Reply
  | .newObjectId => .ok doc.id
  | .generateKeyPair => .ok ⟨"key2", "private"⟩
  | .findConsumer _ | .queryConsumer _ => .ok (some consumer)
  | .findDoc _ => .ok (some doc)
  | .findDocs _ _ => .ok [doc]
  | .findUpdates _ => .ok []
  | .insertConsumer _ | .saveConsumer _ _ _ | .insertDoc _ => .ok ()

def proceeds (id n : Nat) (consumer : StoredConsumer) (doc : StoredDoc) : List ServerAction :=
  List.replicate n (.proceed id .main (sampleAnswer consumer doc))

/-- A document is created for the consumer, and then read by it. -/
def sampleRun : List ServerAction :=
  .start 0 ⟨some "jwt", .createDoc .absent⟩ :: proceeds 0 4 sampleConsumer sampleDoc ++
    .start 1 ⟨some "jwt", .getDocsByIds (.array [some "d1"])⟩ ::
      proceeds 1 3 sampleConsumer sampleDoc

/-! ### What stays -/

/-- What a step does to the collections. -/
lemma store_of_step {a : ServerAction} (hs : (apiServer env).step s a = some s') :
    s'.store = s.store ∨ (∃ e, Effect s.store e s'.store) ∨
      ∃ w, s'.store = s.store.write w := by
  cases Async.Server.step_cases hs with
  | start id request hnew => exact .inl rfl
  | proceed id turn answer task call store process hget hcall hexec hstep =>
    exact .inr (.inl ⟨_, exec_effect hexec⟩)
  | outside w store houtside =>
    cases houtside
    exact .inr (.inr ⟨w, rfl⟩)

lemma kept_of_step {a : ServerAction} (hs : (apiServer env).step s a = some s')
    (hunique : s.store.Unique) : s'.store.Unique ∧ Keeps s.store s'.store := by
  rcases store_of_step hs with hsame | ⟨e, heffect⟩ | ⟨w, hwrite⟩
  · rw [hsame]
    exact ⟨hunique, Keeps.refl _⟩
  · exact ⟨heffect.unique hunique, heffect.keeps⟩
  · rw [hwrite]
    exact ⟨write_unique hunique w, write_keeps _ w⟩

/-! ### What requests have been told -/

/-- At some time of the run, the consumer is the one with this value for its id. -/
def FoundInRun (env : ServerEnv) (s : ApiPool) (as : List ServerAction) (value : Json)
    (consumer : StoredConsumer) : Prop :=
  ∃ bs t, bs <+: as ∧ Stepper.run (apiServer env).step s bs = some t ∧
    t.store.findConsumer env.toQueryEnv value = some (some consumer)

/-- At some time of the run, the consumer with the id has a key that verifies the token. -/
def KeyInRun (env : ServerEnv) (s : ApiPool) (as : List ServerAction) (id token : String) : Prop :=
  ∃ bs t consumer, bs <+: as ∧ Stepper.run (apiServer env).step s bs = some t ∧
    consumer ∈ t.store.consumers ∧ consumer.id = id ∧ env.verify token consumer.publicKey = true

/-- The token is a JWT that is verified, in the run, with the key of a consumer that it names. -/
def VerifiedInRun (env : ServerEnv) (s : ApiPool) (as : List ServerAction) (token : String)
    (claims : Claims) : Prop :=
  ∃ value consumer, env.parseJWT token = some claims ∧ claims.signer = some value ∧
    FoundInRun env s as value consumer ∧ env.verify token consumer.publicKey = true

/-- The token is verified in the run, and names the owner. A JWT can name its consumer by a condition,
and then the key may be that of another one; if it does so by a text, the key is the owner's. -/
structure Authentic (env : ServerEnv) (s : ApiPool) (as : List ServerAction) (token : String)
    (claims : Claims) (owner : String) : Prop where
  verified : VerifiedInRun env s as token claims
  named : ∃ value consumer, claims.signer = some value ∧ FoundInRun env s as value consumer ∧
    consumer.id = owner
  text : ∀ id, claims.consumerId = some (.text id) → env.objectId id = some owner ∧
    KeyInRun env s as owner token

/-- What the requests of a run have been told, they were told by the collections of its states. -/
lemma told_in_run (hrun : Stepper.run (apiServer env).step s as = some s') :
    (apiServer env).ToldBy
      (fun store => ∃ bs t, bs <+: as ∧ Stepper.run (apiServer env).step s bs = some t ∧
        store = t.store) s s' :=
  Async.Server.toldBy_run hrun fun bs hbs t ht => ⟨bs, t, hbs, ht, rfl⟩

lemma find_of_exec {id : String} {found : Option StoredConsumer} {store store' : Collections}
    (h : (apiServer env).exec store (.findConsumer id) (.ok found) = some store') :
    found = store.consumers.find? (·.id = id) := by
  have hexec : Collections.exec env store (.findConsumer id) (.ok found) = some store' := h
  exact (Option.ite_none_right_eq_some.mp hexec).1

lemma query_of_exec {value : Json} {found : Option StoredConsumer} {store store' : Collections}
    (h : (apiServer env).exec store (.queryConsumer value) (.ok found) = some store') :
    store.findConsumer env.toQueryEnv value = some found := by
  have hexec : Collections.exec env store (.queryConsumer value) (.ok found) = some store' := h
  exact (Option.ite_none_right_eq_some.mp hexec).1

lemma doc_of_exec {id : String} {doc : StoredDoc} {store store' : Collections}
    (h : (apiServer env).exec store (.findDoc id) (.ok (some doc)) = some store') :
    doc ∈ store.docs ∧ doc.id = id := by
  have hexec : Collections.exec env store (.findDoc id) (.ok (some doc)) = some store' := h
  obtain ⟨h, -⟩ := Option.ite_none_right_eq_some.mp hexec
  exact ⟨List.mem_of_find?_eq_some h.symm, by simpa using List.find?_some h.symm⟩

lemma id_of_findConsumer {c : Collections} {value : Json} {consumer : StoredConsumer}
    (h : c.findConsumer env.toQueryEnv value = some (some consumer)) :
    ∃ id, env.idOf (c.consumers.map (·.id)) value = some (some id) ∧ consumer.id = id := by
  obtain ⟨found, hid, hfind⟩ := Option.map_eq_some_iff.mp h
  obtain ⟨id, rfl, hfind⟩ := Option.bind_eq_some_iff.mp hfind
  exact ⟨id, hid, by simpa using List.find?_some hfind⟩

/-- What is found is one of the consumers; under a text, it is the one with this id. -/
lemma mem_of_findConsumer {c : Collections} {value : Json} {consumer : StoredConsumer}
    (h : c.findConsumer env.toQueryEnv value = some (some consumer)) : consumer ∈ c.consumers ∧
      ∀ id, value = .text id → env.objectId id = some consumer.id := by
  obtain ⟨id, hid, hsame⟩ := id_of_findConsumer h
  obtain ⟨found, -, hfind⟩ := Option.map_eq_some_iff.mp h
  obtain ⟨id', -, hfind⟩ := Option.bind_eq_some_iff.mp hfind
  refine ⟨List.mem_of_find?_eq_some hfind, ?_⟩
  rintro text rfl
  obtain ⟨cast, hcast, heq⟩ := Option.map_eq_some_iff.mp hid
  cases heq
  rw [hcast, hsame]

section Run

variable {id : Nat} {task : ApiTask} (hrun : Stepper.run (apiServer env).step s as = some s')
  (hget : s'.tasks.get id = some task) (hnew : s.tasks.get id = none)

include hrun hget hnew

lemma foundInRun_of_given {value : Json} {consumer : StoredConsumer}
    (h : Given env task.told value consumer) : FoundInRun env s as value consumer := by
  rcases h with ⟨text, rfl, hcast, hfound⟩ | ⟨-, hfound⟩
  · obtain ⟨store, store', ⟨bs, t, hbs, ht, rfl⟩, hexec⟩ :=
      told_in_run hrun id task hget hnew _ hfound
    refine ⟨bs, t, hbs, ht, ?_⟩
    simp [Collections.findConsumer, QueryEnv.idOf, hcast, find_of_exec hexec]
  · obtain ⟨store, store', ⟨bs, t, hbs, ht, rfl⟩, hexec⟩ :=
      told_in_run hrun id task hget hnew _ hfound
    exact ⟨bs, t, hbs, ht, query_of_exec hexec⟩

lemma verifiedInRun_of_signed {token : String} {claims : Claims}
    (h : Signed env task.told token claims) : VerifiedInRun env s as token claims := by
  obtain ⟨value, found, hparse, hsigner, hfound, hverify⟩ := h
  exact ⟨value, found, hparse, hsigner, foundInRun_of_given hrun hget hnew hfound, hverify⟩

end Run

/-- A text names one consumer, whose key it is that verifies the token. -/
lemma VerifiedInRun.key {token id : String} {claims : Claims}
    (h : VerifiedInRun env s as token claims) (hid : claims.consumerId = some (.text id)) :
    ∃ owner, env.objectId id = some owner ∧ KeyInRun env s as owner token := by
  obtain ⟨value, consumer, -, hsigner, ⟨bs, t, hbs, ht, hfound⟩, hverify⟩ := h
  rw [consumerId_of_signer hsigner] at hid
  cases hid
  obtain ⟨hmem, hcast⟩ := mem_of_findConsumer hfound
  exact ⟨consumer.id, hcast id rfl, bs, t, consumer, hbs, ht, hmem, rfl, hverify⟩

lemma authentic_of_authenticated {id : Nat} {task : ApiTask}
    (hrun : Stepper.run (apiServer env).step s as = some s') (hget : s'.tasks.get id = some task)
    (hnew : s.tasks.get id = none) {consumer : StoredConsumer}
    (h : Authenticated env task.request task.told consumer) :
    ∃ token claims, task.request.authorization = some token ∧
      Authentic env s as token claims consumer.id := by
  obtain ⟨token, claims, value, hauth, -, hsigned, hsigner, hgiven⟩ := h
  have hverified := verifiedInRun_of_signed hrun hget hnew hsigned
  have hfound := foundInRun_of_given hrun hget hnew hgiven
  refine ⟨token, claims, hauth, hverified, ⟨value, consumer, hsigner, hfound, rfl⟩,
    fun text htext => ?_⟩
  obtain ⟨owner, howner, hkey⟩ := hverified.key htext
  rw [consumerId_of_signer hsigner] at htext
  obtain ⟨bs, t, -, -, hfind⟩ := hfound
  have hcast := (mem_of_findConsumer hfind).2 text (Option.some.inj htext)
  rw [hcast] at howner
  cases howner
  exact ⟨hcast, hkey⟩

/-! ### Where documents come from -/

/-- A document that was not there at first has been inserted by a request. -/
lemma inserted_of_run (hrun : Stepper.run (apiServer env).step s as = some s') :
    ∀ doc ∈ s'.store.docs, doc.toOwnedDoc ∈ s.store.docs.map (·.toOwnedDoc) ∨
      ∃ id task, s'.tasks.get id = some task ∧ ∃ doc' : StoredDoc,
        ⟨.insertDoc doc', .ok ()⟩ ∈ task.told ∧ doc'.toOwnedDoc = doc.toOwnedDoc := by
  refine Stepper.run_invariant_of_step (fun t : ApiPool => ∀ doc ∈ t.store.docs,
    doc.toOwnedDoc ∈ s.store.docs.map (·.toOwnedDoc) ∨
      ∃ id task, t.tasks.get id = some task ∧ ∃ doc' : StoredDoc,
        ⟨.insertDoc doc', .ok ()⟩ ∈ task.told ∧ doc'.toOwnedDoc = doc.toOwnedDoc) ?_ hrun
    fun doc hdoc => .inl (List.mem_map_of_mem hdoc)
  intro t a t' h hstep doc hdoc
  have hold : ∀ doc ∈ t.store.docs, doc.toOwnedDoc ∈ s.store.docs.map (·.toOwnedDoc) ∨
      ∃ id task, t'.tasks.get id = some task ∧ ∃ doc' : StoredDoc,
        ⟨.insertDoc doc', .ok ()⟩ ∈ task.told ∧ doc'.toOwnedDoc = doc.toOwnedDoc := by
    intro doc hdoc
    rcases h doc hdoc with hinit | ⟨id, task, hget, doc', hmem, heq⟩
    · exact .inl hinit
    · obtain ⟨task', hget', -, hsub⟩ := Async.Server.task_of_step hstep hget
      exact .inr ⟨id, task', hget', doc', hsub hmem, heq⟩
  cases Async.Server.step_cases hstep with
  | start id request hnew => exact hold doc hdoc
  | proceed id turn answer task call store process hget hcall hexec hproc =>
    have heffect := exec_effect hexec
    generalize he : (⟨call, answer call⟩ : Performed ApiCall ApiCall.Reply ApiError) = e at *
    cases heffect with
    | none => exact hold doc hdoc
    | insertConsumer consumer hnew => exact hold doc hdoc
    | saveConsumer id publicKey name => exact hold doc hdoc
    | insertDoc doc' hnew =>
      rcases List.mem_append.mp hdoc with hdoc | hdoc
      · exact hold doc hdoc
      · cases List.mem_singleton.mp hdoc
        exact .inr ⟨id, _, JsMap.get_set_self _ _ _, _, List.mem_cons_self, rfl⟩
  | outside w store houtside =>
    cases houtside
    cases w with
    | saveState id state =>
      obtain ⟨doc', hdoc', rfl⟩ := List.mem_map.mp hdoc
      have hsame := hold doc' hdoc'
      split
      · exact hsame
      · exact hsame
    | createUpdate update => exact hold doc hdoc

lemma obedient_of_run {store : Collections}
    (hrun : Stepper.run (apiServer env).step (Async.Server.init store) as = some s') :
    (apiServer env).Obedient (Allowed env) (Response env) s' :=
  Async.Server.obedient_run (handle_obeys env) hrun (Async.Server.obedient_init store)

/-- What has been called was allowed. -/
lemma allowed_of_told {store : Collections}
    (hrun : Stepper.run (apiServer env).step (Async.Server.init store) as = some s') {id : Nat}
    {task : ApiTask} (hget : s'.tasks.get id = some task) :
    ∀ e ∈ task.told, Allowed env task.request task.told e.call := by
  refine (Stepper.run_invariant_of_step (fun t : ApiPool =>
    (apiServer env).Obedient (Allowed env) (Response env) t ∧ ∀ id task,
      t.tasks.get id = some task → ∀ e ∈ task.told, Allowed env task.request task.told e.call)
    ?_ hrun ⟨Async.Server.obedient_init store, fun id task hget => ?_⟩).2 id task hget
  · rintro t a t' ⟨hobey, htold⟩ hstep
    exact ⟨hobey.step (handle_obeys env) hstep, Async.Server.told_allowed_step
      (fun _ _ _ _ hsub h => h.learn hsub) hobey htold hstep⟩
  · cases hget

/-- The request is for a document of the consumer, public or not, and comes with a JWT of it. -/
def Orders (env : ServerEnv) (s : ApiPool) (as : List ServerAction) (request : HttpRequest)
    (owner : String) (isPublic : Bool) : Prop :=
  ∃ token claims field, request = ⟨some token, .createDoc field⟩ ∧ field.flag = some isPublic ∧
    Authentic env s as token claims owner

/-- Only an admin, or a request with a JWT of the owner, inserts a document. -/
lemma orders_of_inserted {store : Collections}
    (hrun : Stepper.run (apiServer env).step (Async.Server.init store) as = some s') {id : Nat}
    {task : ApiTask} (hget : s'.tasks.get id = some task) {doc : StoredDoc}
    (hmem : ⟨.insertDoc doc, .ok ()⟩ ∈ task.told) :
    .start id task.request ∈ as ∧ ((ByAdmin env task.request ∧ AdminDoc env doc.toOwnedDoc) ∨
      ∃ owner, doc.owner = some owner ∧
        Orders env (Async.Server.init store) as task.request owner doc.isPublic) := by
  refine ⟨Async.Server.start_mem_of_run hrun hget rfl, ?_⟩
  rcases allowed_of_told hrun hget _ hmem with hadmin | ⟨consumer, field, hauth, hend, hflag, howner⟩
  · exact .inl hadmin
  · obtain ⟨token, claims, htoken, hauthentic⟩ := authentic_of_authenticated hrun hget rfl hauth
    refine .inr ⟨consumer.id, howner, token, claims, field, ?_, hflag, hauthentic⟩
    rw [← htoken, ← hend]

/-- Whatever requests interleave, a document that appears in a run has been created by an admin, or
by a request with an authentic JWT of its owner. -/
theorem docs_provenance (env : ServerEnv) (store : Collections) (as : List ServerAction)
    (s' : ApiPool)
    (hrun : Stepper.run (apiServer env).step (Async.Server.init store) as = some s')
    (doc : StoredDoc) (hdoc : doc ∈ s'.store.docs)
    (hnew : doc.toOwnedDoc ∉ store.docs.map (·.toOwnedDoc)) :
    ∃ id request, .start id request ∈ as ∧
      ((ByAdmin env request ∧ AdminDoc env doc.toOwnedDoc) ∨
        ∃ owner, doc.owner = some owner ∧
          Orders env (Async.Server.init store) as request owner doc.isPublic) := by
  rcases inserted_of_run hrun doc hdoc with hinit | ⟨id, task, hget, doc', hmem, heq⟩
  · exact absurd hinit hnew
  · rw [← heq]
    exact ⟨id, task.request, orders_of_inserted hrun hget hmem⟩

theorem docs_provenance_sample : ∃ id request, .start id request ∈ sampleRun ∧
    ((ByAdmin sampleEnv request ∧ AdminDoc sampleEnv sampleDoc.toOwnedDoc) ∨
      ∃ owner, sampleDoc.owner = some owner ∧
        Orders sampleEnv (Async.Server.init sampleStore) sampleRun request owner sampleDoc.isPublic) :=
  docs_provenance sampleEnv sampleStore sampleRun _ rfl sampleDoc (by decide) (by decide)

/-! ### What is answered -/

/-- An answer of the run contains what the request may see of the collections in the states of the
run: as an admin, as the owner, or as a client of the owner that may read the document. -/
def Confined (env : ServerEnv) (s : ApiPool) (as : List ServerAction) (request : HttpRequest) :
    ApiResponse → Prop
  | .consumer _ | .devSetup _ _ _ _ => ByAdmin env request
  | .doc id => ∃ bs t, bs <+: as ∧ Stepper.run (apiServer env).step s bs = some t ∧
      id ∉ t.store.docs.map (·.id)
  | .docs data => ∃ token claims owner ids bs t, request.authorization = some token ∧
      Authentic env s as token claims owner ∧ Asks env request ids ∧ bs <+: as ∧
      Stepper.run (apiServer env).step s bs = some t ∧
      data.Perm ((t.store.docsOf owner ids).map StoredDoc.toDto)
  | .history history => ∃ docId bs t doc bs' t', request.endpoint = .getHistory docId ∧
      bs <+: as ∧ Stepper.run (apiServer env).step s bs = some t ∧ doc ∈ t.store.docs ∧
      env.objectId docId = some doc.id ∧
      (doc.isPublic = true ∨ ∃ token claims owner id, request.authorization = some token ∧
        VerifiedInRun env s as token claims ∧ doc.owner = some owner ∧
        claims.consumerId = some (.text owner) ∧ env.objectId owner = some id ∧
        KeyInRun env s as id token ∧ claims.permission docId = some true) ∧
      bs' <+: as ∧ Stepper.run (apiServer env).step s bs' = some t' ∧
      history = (t'.store.toDatabase []).history docId
  | .isPublic _ => ∃ docId, request.endpoint = .docIsPublic docId

lemma mayRead_in_run {id : Nat} {task : ApiTask} {docId : String}
    (hrun : Stepper.run (apiServer env).step s as = some s')
    (hget : s'.tasks.get id = some task) (hnew : s.tasks.get id = none)
    (h : MayRead env task.request task.told docId) :
    ∃ bs t doc, bs <+: as ∧ Stepper.run (apiServer env).step s bs = some t ∧ doc ∈ t.store.docs ∧
      env.objectId docId = some doc.id ∧
      (doc.isPublic = true ∨ ∃ token claims owner id, task.request.authorization = some token ∧
        VerifiedInRun env s as token claims ∧ doc.owner = some owner ∧
        claims.consumerId = some (.text owner) ∧ env.objectId owner = some id ∧
        KeyInRun env s as id token ∧ claims.permission docId = some true) := by
  obtain ⟨docKey, doc, hcast, hdoc, hread⟩ := h
  obtain ⟨store, store', ⟨bs, t, hbs, ht, rfl⟩, hexec⟩ := told_in_run hrun id task hget hnew _ hdoc
  obtain ⟨hmem, rfl⟩ := doc_of_exec hexec
  refine ⟨bs, t, doc, hbs, ht, hmem, hcast, ?_⟩
  rcases hread with hpublic | ⟨token, claims, owner, hauth, -, hsigned, howner, hnamed, hperm⟩
  · exact .inl hpublic
  · have hverified := verifiedInRun_of_signed hrun hget hnew hsigned
    obtain ⟨id, hid, hkey⟩ := hverified.key hnamed
    exact .inr ⟨token, claims, owner, id, hauth, hverified, howner, hnamed, hid, hkey, hperm⟩

/-- Whatever requests interleave, every answer is confined to what its request may see. -/
theorem replies_confined (env : ServerEnv) (store : Collections) (as : List ServerAction)
    (s' : ApiPool)
    (hrun : Stepper.run (apiServer env).step (Async.Server.init store) as = some s')
    (id : Nat) (task : ApiTask) (hget : s'.tasks.get id = some task) (response : ApiResponse)
    (hresponse : task.response = some (.ok response)) :
    Confined env (Async.Server.init store) as task.request response := by
  have hpost := (obedient_of_run hrun).response hget hresponse
  cases response with
  | consumer consumer => exact hpost
  | devSetup id name privateKey docs => exact hpost
  | isPublic isPublic => exact hpost
  | doc docId =>
    obtain ⟨doc, hmem, rfl⟩ := hpost
    obtain ⟨store₁, store₂, ⟨bs, t, hbs, ht, rfl⟩, hexec⟩ := told_in_run hrun id task hget rfl _ hmem
    have hexec' : Collections.exec env t.store (.insertDoc doc) (.ok ()) = some store₂ := hexec
    exact ⟨bs, t, hbs, ht, (Option.ite_none_left_eq_some.mp hexec').1⟩
  | docs data =>
    obtain ⟨consumer, ids, found, hauth, hasks, hmem, rfl⟩ := hpost
    obtain ⟨token, claims, htoken, hauthentic⟩ := authentic_of_authenticated hrun hget rfl hauth
    obtain ⟨store₁, store₂, ⟨bs, t, hbs, ht, rfl⟩, hexec⟩ := told_in_run hrun id task hget rfl _ hmem
    have hexec' : Collections.exec env t.store (.findDocs consumer.id ids) (.ok found) =
      some store₂ := hexec
    have hfound := (Option.ite_none_right_eq_some.mp hexec').1
    exact ⟨token, claims, consumer.id, ids, bs, t, htoken, hauthentic, hasks, hbs, ht, hfound.map _⟩
  | history history =>
    obtain ⟨docId, hend, hread, hmem⟩ := hpost
    obtain ⟨bs, t, doc, hbs, ht, hdoc, hcast, hmay⟩ := mayRead_in_run hrun hget rfl hread
    obtain ⟨store₁, store₂, ⟨bs', t', hbs', ht', rfl⟩, hexec⟩ :=
      told_in_run hrun id task hget rfl _ hmem
    have hexec' : Collections.exec env t'.store (.findUpdates docId) (.ok history) =
      some store₂ := hexec
    have hhistory := (Option.ite_none_right_eq_some.mp hexec').1
    exact ⟨docId, bs, t, doc, bs', t', hend, hbs, ht, hdoc, hcast, hmay, hbs', ht', hhistory⟩

theorem replies_confined_sample : Confined sampleEnv (Async.Server.init sampleStore) sampleRun
    ⟨some "jwt", .getDocsByIds (.array [some "d1"])⟩ (.docs [sampleDoc.toDto]) :=
  replies_confined sampleEnv sampleStore sampleRun _ rfl 1 _ rfl _ rfl

/-! ### Without an admin -/

/-- A handler for admins refuses a request that does not have the secret. -/
lemma handle_forbidden {request : HttpRequest} (hendpoint : request.endpoint.isAdmin = true)
    (hno : AdminService.isAdmin env request.authorization = false) :
    handle env request = .settled (.error (.http 403 "Forbidden resource")) := by
  have hguard : ∀ handler : ApiPromise ApiResponse,
      AdminGuard.guarded env request.authorization handler =
        .settled (.error (.http 403 "Forbidden resource")) := fun handler => if_neg (by simp [hno])
  unfold handle
  split <;> rename_i hend <;> first
    | exact hguard _
    | simp [hend, Endpoint.isAdmin] at hendpoint

/-- The admin has sent none of the requests. -/
def NoAdmin (env : ServerEnv) (as : List ServerAction) : Prop :=
  ∀ id request, .start id request ∈ as → AdminService.isAdmin env request.authorization = false

lemma consumers_of_noAdmin {store : Collections} (hno : NoAdmin env as)
    (hrun : Stepper.run (apiServer env).step (Async.Server.init store) as = some s') :
    s'.store.consumers = store.consumers := by
  have hmain : ∀ (bs : List ServerAction) (t : ApiPool),
      (apiServer env).Obedient (Allowed env) (Response env) t →
      (∀ id task, t.tasks.get id = some task →
        AdminService.isAdmin env task.request.authorization = false) →
      NoAdmin env bs → Stepper.run (apiServer env).step t bs = some s' →
      s'.store.consumers = t.store.consumers := by
    intro bs
    induction bs with
    | nil =>
      intro t _ _ _ hrun
      cases hrun
      rfl
    | cons a bs ih =>
      intro t hobey htasks hno hrun
      obtain ⟨u, hu, hrun⟩ := Stepper.run_cons_eq_some.mp hrun
      have hno' : NoAdmin env bs := fun id request h => hno id request (List.mem_cons_of_mem _ h)
      have htasks' : ∀ id task, u.tasks.get id = some task →
          AdminService.isAdmin env task.request.authorization = false := by
        intro id task hget
        cases hold : t.tasks.get id with
        | none =>
          have hrun₁ : Stepper.run (apiServer env).step t [a] = some u :=
            Stepper.run_cons_eq_some.mpr ⟨u, hu, rfl⟩
          have hmem := Async.Server.start_mem_of_run hrun₁ hget hold
          cases List.mem_singleton.mp hmem
          exact hno id task.request List.mem_cons_self
        | some task' =>
          obtain ⟨task'', hget'', hreq, -⟩ := Async.Server.task_of_step hu hold
          rw [hget] at hget''
          cases hget''
          rw [hreq]
          exact htasks id task' hold
      refine (ih u (hobey.step (handle_obeys env) hu) htasks' hno' hrun).trans ?_
      cases Async.Server.step_cases hu with
      | start id request hnew => rfl
      | proceed id turn answer task call st process hget hcall hexec hproc =>
        have hallowed := ((hobey id task hget).proceed hcall ⟨_, _, hexec⟩ hproc).1
        have hnot : ¬ByAdmin env task.request := fun h => by
          rw [ByAdmin, htasks id task hget] at h
          exact Bool.noConfusion h.2
        refine (exec_effect hexec).consumers_eq ?_ ?_
        · rintro consumer rfl
          exact hnot hallowed
        · rintro id publicKey name rfl
          exact hnot hallowed
      | outside w st houtside =>
        cases houtside
        cases w <;> rfl
  refine hmain as _ (Async.Server.obedient_init store) (fun id task hget => ?_) hno hrun
  cases hget

/-- Without the secret of the admin, or where none is configured, nobody changes the consumers; a new
document belongs to a consumer that was there, and whose key verifies the JWT of the request; and the
requests to the handlers of the admin are refused. -/
theorem no_admin (env : ServerEnv) (store : Collections) (as : List ServerAction) (s' : ApiPool)
    (hrun : Stepper.run (apiServer env).step (Async.Server.init store) as = some s')
    (hno : NoAdmin env as) :
    s'.store.consumers = store.consumers ∧
      (∀ doc ∈ s'.store.docs, doc.toOwnedDoc ∉ store.docs.map (·.toOwnedDoc) →
        ∃ consumer ∈ store.consumers, doc.owner = some consumer.id ∧
          ∃ id token field, .start id ⟨some token, .createDoc field⟩ ∈ as ∧
            field.flag = some doc.isPublic ∧ env.verify token consumer.publicKey = true) ∧
      ∀ id task, s'.tasks.get id = some task → task.request.endpoint.isAdmin = true →
        task.response = some (.error (.http 403 "Forbidden resource")) := by
  refine ⟨consumers_of_noAdmin hno hrun, fun doc hdoc hnew => ?_, fun id task hget hend => ?_⟩
  · rcases inserted_of_run hrun doc hdoc with hinit | ⟨id, task, hget, doc', hmem, heq⟩
    · exact absurd hinit hnew
    · rw [← heq]
      obtain ⟨hstart, ⟨hadmin, -⟩ | ⟨owner, howner, token, claims, field, hreq, hflag, hver⟩⟩ :=
        orders_of_inserted hrun hget hmem
      · rw [ByAdmin, hno id task.request hstart] at hadmin
        exact Bool.noConfusion hadmin.2
      · -- the consumers are the same in every state, so that both reads find the same one
        have hfind : ∀ value consumer, FoundInRun env (Async.Server.init store) as value consumer →
            Collections.findConsumer env.toQueryEnv store value = some (some consumer) := by
          rintro value consumer ⟨bs, t, hbs, ht, hfound⟩
          rwa [Collections.findConsumer,
            consumers_of_noAdmin (fun id request h => hno id request (hbs.subset h)) ht] at hfound
        obtain ⟨value, signer, -, hsigner, hfound, hverify⟩ := hver.verified
        obtain ⟨value', consumer, hsigner', hfound', rfl⟩ := hver.named
        rw [hsigner] at hsigner'
        cases hsigner'
        obtain rfl : signer = consumer := by
          simpa using (hfind _ _ hfound).symm.trans (hfind _ _ hfound')
        rw [hreq] at hstart
        exact ⟨signer, (mem_of_findConsumer (hfind _ _ hfound)).1, howner, id, token, field, hstart,
          hflag, hverify⟩
  · exact Async.Server.response_of_settled hrun hget
      (handle_forbidden hend (hno id task.request (Async.Server.start_mem_of_run hrun hget rfl)))

theorem no_admin_sample : ∃ s', Stepper.run (apiServer sampleEnv).step
    (Async.Server.init sampleStore) sampleRun = some s' ∧
      s'.store.consumers = sampleStore.consumers := by
  refine ⟨_, rfl, (no_admin sampleEnv sampleStore sampleRun _ rfl ?_).1⟩
  intro id request hstart
  simp only [sampleRun, proceeds, List.replicate, List.cons_append, List.nil_append, List.mem_cons,
    PoolAction.start.injEq, reduceCtorEq, false_or, List.not_mem_nil, or_false] at hstart
  rcases hstart with ⟨-, rfl⟩ | ⟨-, rfl⟩ <;> rfl

/-! ### A key that has been replaced -/

/-- While no key of the consumer verifies a JWT, the requests that come with it create nothing and are
shown nothing but the history of a public document. -/
theorem rotated_key (env : ServerEnv) (store : Collections) (as bs : List ServerAction)
    (s s' : ApiPool)
    (hrun : Stepper.run (apiServer env).step (Async.Server.init store) as = some s)
    (hrun' : Stepper.run (apiServer env).step s bs = some s') (token owner : String)
    (hjwt : ∀ claims value ids id, env.parseJWT token = some claims → claims.signer = some value →
      env.idOf ids value = some (some id) → id = owner)
    (hkey : ∀ cs t, cs <+: bs → Stepper.run (apiServer env).step s cs = some t →
      ∀ consumer ∈ t.store.consumers, consumer.id = owner →
        env.verify token consumer.publicKey = false)
    (id : Nat) (task : ApiTask) (hget : s'.tasks.get id = some task)
    (hnew : s.tasks.get id = none) (hauth : task.request.authorization = some token) :
    (∀ doc : StoredDoc, ⟨.insertDoc doc, .ok ()⟩ ∈ task.told → ByAdmin env task.request) ∧
      (∀ data, task.response ≠ some (.ok (.docs data))) ∧
      ∀ history, task.response = some (.ok (.history history)) → ∃ docId cs t doc,
        task.request.endpoint = .getHistory docId ∧ cs <+: bs ∧
          Stepper.run (apiServer env).step s cs = some t ∧ doc ∈ t.store.docs ∧
          env.objectId docId = some doc.id ∧ doc.isPublic = true := by
  have hall : Stepper.run (apiServer env).step (Async.Server.init store) (as ++ bs) = some s' := by
    rw [Stepper.run_append hrun, hrun']
  have hverified : ∀ claims, ¬VerifiedInRun env s bs token claims := by
    rintro claims ⟨value, consumer, hparse, hsigner, ⟨cs, t, hcs, ht, hfound⟩, hver⟩
    obtain ⟨id, hid, hsame⟩ := id_of_findConsumer hfound
    rw [hkey cs t hcs ht consumer (mem_of_findConsumer hfound).1
      (hsame.trans (hjwt claims value _ id hparse hsigner hid))] at hver
    exact Bool.noConfusion hver
  have hnobody : ∀ consumer, ¬Authenticated env task.request task.told consumer := by
    intro consumer h
    obtain ⟨token', claims, htoken, hver⟩ := authentic_of_authenticated hrun' hget hnew h
    rw [hauth] at htoken
    cases htoken
    exact hverified claims hver.verified
  refine ⟨fun doc hmem => ?_, fun data hr => ?_, fun history hr => ?_⟩
  · rcases allowed_of_told hall hget _ hmem with ⟨hadmin, -⟩ | ⟨consumer, field, h, -⟩
    · exact hadmin
    · exact absurd h (hnobody consumer)
  · obtain ⟨consumer, ids, found, h, -⟩ := (obedient_of_run hall).response hget hr
    exact hnobody consumer h
  · obtain ⟨docId, hend, hread, -⟩ := (obedient_of_run hall).response hget hr
    obtain ⟨cs, t, doc, hcs, ht, hdoc, hcast, hpublic | ⟨token', claims, -, -, htoken, hver, -⟩⟩ :=
      mayRead_in_run hrun' hget hnew hread
    · exact ⟨docId, cs, t, doc, hend, hcs, ht, hdoc, hcast, hpublic⟩
    · rw [hauth] at htoken
      cases htoken
      exact absurd hver (hverified claims)

/-- The admin gives the consumer another key. -/
def rotation : List ServerAction :=
  .start 0 ⟨some "secret", .updateConsumer "c1" ⟨.string "other key", .absent⟩⟩ ::
    proceeds 0 2 sampleConsumer sampleDoc

/-- A document is ordered with a JWT of the old key. -/
def lateOrder : List ServerAction :=
  .start 1 ⟨some "jwt", .createDoc .absent⟩ ::
    proceeds 1 1 ⟨⟨"c1", "other key"⟩, "consumer"⟩ sampleDoc

theorem rotated_key_sample : ∃ s s', Stepper.run (apiServer sampleEnv).step
    (Async.Server.init sampleStore) rotation = some s ∧
      Stepper.run (apiServer sampleEnv).step s lateOrder = some s' ∧
      ∃ task, s'.tasks.get 1 = some task ∧
        ∀ doc : StoredDoc, ⟨.insertDoc doc, .ok ()⟩ ∈ task.told → ByAdmin sampleEnv task.request := by
  refine ⟨_, _, rfl, rfl, _, rfl, (rotated_key sampleEnv sampleStore rotation lateOrder _ _ rfl rfl
    "jwt" "c1" ?_ ?_ 1 _ rfl rfl rfl).1⟩
  · intro claims value ids id hparse hsigner hid
    cases hparse
    cases hsigner
    cases hid
    rfl
  · intro cs t hcs ht consumer hmem _
    have hcs' : cs ∈ lateOrder.inits := (List.mem_inits _ _).mpr hcs
    simp only [lateOrder, proceeds, List.replicate, List.inits, List.map_cons, List.map_nil,
      List.mem_cons, List.not_mem_nil, or_false] at hcs'
    rcases hcs' with rfl | rfl | rfl <;> cases ht <;> cases List.mem_singleton.mp hmem <;> rfl

end ApiServer

end AlaFois
