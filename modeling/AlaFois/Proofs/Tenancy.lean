import AlaFois.Model.Cluster
import AlaFois.Proofs.Permanence
import AlaFois.Proofs.ProxyInvariants

/-!
# Token updates and other tenants

What a token update of one consumer leaves alone. The records are keyed by token and consumer,
but the consumer is the one of the payload and not the one that is authenticated; the lists of
the proxy are keyed by the token alone.
-/

namespace AlaFois

/-- The `updateToken` call that the step belongs to. -/
def ApiAction.updateId : ApiAction → Option Nat
  | .updateAdmit id _ _ _ => some id
  | .updateFind id _ => some id
  | .updateTaint id => some id
  | .updateCreate id => some id
  | .updatePublish id => some id
  | _ => none

/-- The call, where the step writes to the tokens. -/
def ApiAction.writeId : ApiAction → Option Nat
  | .updateTaint id => some id
  | .updateCreate id => some id
  | _ => none

def Api.recordsOf (s : Api) (consumerId : ConsumerId) : List TokenRecord :=
  s.tokens.filter (·.consumerId = consumerId)

namespace Proxy

/-- Token, rights, expiry and membership of the connection are the same. -/
structure Untouched (p q : Proxy) (c : ConnectionId) : Prop where
  tokenId : (q.conns c).tokenId = (p.conns c).tokenId
  access : (q.conns c).access = (p.conns c).access
  tokenExpiredAt : (q.conns c).tokenExpiredAt = (p.conns c).tokenExpiredAt
  member : ∀ d, q.docService.Holds d c ↔ p.docService.Holds d c

lemma Untouched.refl (p : Proxy) (c : ConnectionId) : p.Untouched p c :=
  ⟨rfl, rfl, rfl, fun _ => Iff.rfl⟩

/-- A message touches the connections of the old token only. -/
lemma untouched_of_not_mem {p : Proxy} (h : p.WF) (m : UpdateTokenMessage) {c : ConnectionId}
    (hc : c ∉ p.connectionsOf m.oldTokenId) : p.Untouched (p.onUpdateTokenMessage m) c := by
  rcases h.onUpdateTokenMessage_cases m with ⟨heq, -⟩ | ⟨cs, rights, hup⟩
  · rw [heq]
    exact Untouched.refl p c
  · have hcs : c ∉ cs := fun hm => hc (mem_connectionsOf.mpr ⟨cs, hup.listed, hm⟩)
    have hsame : (p.onUpdateTokenMessage m).conns c = p.conns c := by
      rw [hup.conns, if_neg hcs]
    refine ⟨by rw [hsame], by rw [hsame], by rw [hsame], fun d => ?_⟩
    rw [hup.docService, (holds_updateOps h.docService _ cs c d).2, if_neg hcs]

end Proxy

namespace Api

variable {env : ApiEnv} {s s' : Api}

lemma recordsOf_taintOld (t : ParsedToken) {consumerId : ConsumerId} (h : consumerId ≠ t.consumerId)
    (records : List TokenRecord) :
    (records.map (taintOld t)).filter (·.consumerId = consumerId) =
      records.filter (·.consumerId = consumerId) := by
  induction records with
  | nil => rfl
  | cons record records ih =>
    have hconsumer : (taintOld t record).consumerId = record.consumerId := by
      unfold taintOld
      split <;> rfl
    by_cases hr : record.consumerId = consumerId
    · have hsame : taintOld t record = record := by
        unfold taintOld
        rw [if_neg]
        rintro ⟨-, ht, -⟩
        exact h (hr.symm.trans ht)
      rw [List.map_cons, List.filter_cons_of_pos (by simpa [hconsumer] using hr),
        List.filter_cons_of_pos (by simpa using hr), ih, hsame]
    · rw [List.map_cons, List.filter_cons_of_neg (by simpa [hconsumer] using hr),
        List.filter_cons_of_neg (by simpa using hr), ih]

/-- Only `updateMany` and `create` write to the tokens, and they write records of the consumer
of the payload. -/
lemma recordsOf_update {a : ApiAction} {id : Nat} (ha : a.updateId = some id)
    (hs : s.step env a = some s') {consumerId : ConsumerId}
    (hne : a.writeId = some id → ∀ call ∈ s.updates.get id, ∀ t ∈ call.todo.head?,
      consumerId ≠ t.consumerId) : s'.recordsOf consumerId = s.recordsOf consumerId := by
  cases step_cases hs with
  | updateChecked id' call consumer now owned hget =>
    rw [recordsOf, tokens_nextToken]
    rfl
  | updateRefused id' call consumer now owned response hget => rfl
  | updateAdmitted id' call consumer now owned t tokens hget => rfl
  | updateConflict id' record => rfl
  | updateNew id' call t rest hget htodo hfind => rfl
  | updateTainted id' call t rest hget hstage htodo =>
    cases ha
    exact recordsOf_taintOld t (hne rfl call hget t (by simp [htodo])) s.tokens
  | updateCreated id' call t rest hget hstage htodo =>
    cases ha
    have ht : t.record.consumerId ≠ consumerId := (hne rfl call hget t (by simp [htodo])).symm
    have happend : (s.tokens ++ [t.record]).filter (·.consumerId = consumerId) =
        s.tokens.filter (·.consumerId = consumerId) := by
      rw [List.filter_append, List.filter_cons_of_neg (by simpa using ht), List.filter_nil,
        List.append_nil]
    exact happend
  | updatePublished id' call t rest hget hstage htodo =>
    rw [recordsOf, tokens_nextToken]
    rfl
  | _ => cases ha

end Api

namespace Cluster

/-- A step of an `updateToken` request leaves the records of the other consumers alone, and the
delivery of its message the connections of their tokens. -/
def Isolated (s s' : Cluster) : ClusterAction → Prop
  | .api a => ∀ id ∈ a.updateId, ∀ call ∈ s.api.updates.get id, ∀ other, other ≠ call.consumer →
      s'.api.recordsOf other = s.api.recordsOf other
  | .deliver _ m _ => ∀ i c other, ((s.proxies i).conns c).issuer = some other →
      other ≠ m.consumer → (s.proxies i).Untouched (s'.proxies i) c
  | .proxy _ _ => True

/-- A write is for a payload of the authenticated consumer, and a delivered message finds no
connection of another consumer's token in the list of the old token. -/
def OwnTokens (s : Cluster) : ClusterAction → Prop
  | .api a => ∀ id ∈ a.writeId, ∀ call ∈ s.api.updates.get id, ∀ t ∈ call.todo.head?,
      t.consumerId = call.consumer
  | .deliver i m _ => ∀ c ∈ (s.proxies i).connectionsOf m.message.oldTokenId,
      ∀ issuer ∈ ((s.proxies i).conns c).issuer, issuer = m.consumer
  | .proxy _ _ => True

instance (s : Cluster) (a : ClusterAction) : Decidable (s.OwnTokens a) := by
  unfold OwnTokens
  split <;> infer_instance

variable {env : ApiEnv} {isPublic : DocKey → Bool} {s s' : Cluster}

lemma delivered_of_step {i : Nat} {m : Published} {docs : List AccessData}
    (hs : s.step env isPublic (.deliver i m docs) = some s') :
    s' = s.setProxy i ((s.proxies i).onUpdateTokenMessage (m.message.withDocs docs)) := by
  obtain ⟨-, hs⟩ := Option.ite_none_right_eq_some.mp hs
  exact (Option.some.inj hs).symm

lemma wf_step {a : ClusterAction} (h : ∀ i, (s.proxies i).WF)
    (hs : s.step env isPublic a = some s') : ∀ i, (s'.proxies i).WF := by
  have hset : ∀ i p, p.WF → ∀ j, ((s.setProxy i p).proxies j).WF := by
    intro i p hp j
    simp only [setProxy, Function.update_apply]
    split
    · exact hp
    · exact h j
  cases a with
  | api a =>
    simp only [step, Option.map_eq_some_iff] at hs
    obtain ⟨api, -, rfl⟩ := hs
    exact h
  | proxy i op =>
    have hp : ∃ p, (s.proxies i).step isPublic op = some p ∧ s.setProxy i p = s' := by
      cases op with
      | onUpdateTokenMessage m => cases hs
      | _ => exact Option.map_eq_some_iff.mp hs
    obtain ⟨p, hp, rfl⟩ := hp
    exact hset i p (Proxy.wf_step (h i) hp)
  | deliver i m docs =>
    rw [delivered_of_step hs]
    exact hset i _ ((h i).onUpdateTokenMessage _)

lemma isolated_step {a : ClusterAction} (h : ∀ i, (s.proxies i).WF) (hok : s.OwnTokens a)
    (hs : s.step env isPublic a = some s') : s.Isolated s' a := by
  cases a with
  | api a =>
    simp only [step, Option.map_eq_some_iff] at hs
    obtain ⟨api, hapi, rfl⟩ := hs
    intro id hid call hcall other hother
    refine Api.recordsOf_update hid hapi fun hwrite call' hcall' t ht => ?_
    cases Option.some.inj (hcall.symm.trans hcall')
    rw [hok id hwrite call hcall t ht]
    exact hother
  | proxy i op => trivial
  | deliver i m docs =>
    obtain rfl := delivered_of_step hs
    intro j c other hissuer hother
    simp only [setProxy, Function.update_apply]
    split
    · rename_i he
      subst he
      exact Proxy.untouched_of_not_mem (h j) _ fun hmem => hother (hok c hmem other hissuer)
    · exact Proxy.Untouched.refl _ c

/-- In runs whose steps meet `OwnTokens`, every step is isolated. -/
theorem tenants_isolated (env : ApiEnv) (isPublic : DocKey → Bool) (as bs : List ClusterAction)
    (a : ClusterAction) (s s' : Cluster)
    (hok : Stepper.Guarded (step env isPublic) OwnTokens init (as ++ a :: bs))
    (hrun : Stepper.run (step env isPublic) init as = some s)
    (hs : s.step env isPublic a = some s') : s.Isolated s' a := by
  have hwf := Stepper.run_invariant_of_step (fun s : Cluster => ∀ i, (s.proxies i).WF)
    (fun _ _ _ h hs => wf_step h hs) hrun fun _ => Proxy.wf_init
  exact isolated_step hwf (Stepper.guard_of_guarded hok hrun hs) hs

/-! ### Concrete runs -/

/-- A connection with the token "old" of the given consumer. -/
def connectOld (issuer : ConsumerId) : ClusterAction :=
  .proxy 0 (.handleConnection "c" (some (.ok ⟨"old", issuer, "user", some (.time 10), []⟩)))

/-- The consumer updates its token "old" to "new", and the message is to be delivered. -/
def updateOld : List ClusterAction := (Api.updateOld 0).map .api

def updateMessage : Published := ⟨"consumer", Api.updatePayload.message⟩

/-- The connection has its token from the consumer of the request. -/
theorem tenants_isolated_own_connection :
    ∃ s s', Stepper.run (step Api.twoTokens fun _ => false) init
        (connectOld "consumer" :: updateOld) = some s ∧
      s.step Api.twoTokens (fun _ => false) (.deliver 0 updateMessage []) = some s' ∧
      s.Isolated s' (.deliver 0 updateMessage []) := by
  obtain ⟨s, s', hrun, hs⟩ : ∃ s s', Stepper.run (step Api.twoTokens fun _ => false) init
        (connectOld "consumer" :: updateOld) = some s ∧
      s.step Api.twoTokens (fun _ => false) (.deliver 0 updateMessage []) = some s' :=
    ⟨_, _, rfl, rfl⟩
  exact ⟨s, s', hrun, hs, tenants_isolated _ _ _ [] _ s s' (by decide) hrun hs⟩

/-- The connection has a token "old" of another consumer, and gets the new token all the same. -/
theorem tenant_disturbed :
    ¬∀ (env : ApiEnv) (isPublic : DocKey → Bool) (as : List ClusterAction) (a : ClusterAction)
      (s s' : Cluster), Stepper.run (step env isPublic) init as = some s →
        s.step env isPublic a = some s' → s.Isolated s' a := by
  intro h
  have hrun := (h Api.twoTokens (fun _ => false) (connectOld "other" :: updateOld)
    (.deliver 0 updateMessage []) _ _ rfl rfl 0 "c" "other" (by decide) (by decide)).tokenId
  revert hrun
  decide

end Cluster

end AlaFois
