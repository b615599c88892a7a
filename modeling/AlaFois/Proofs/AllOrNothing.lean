import AlaFois.Model.UpdateToken
import AlaFois.Proofs.HistoryAccess
import AlaFois.Proofs.Permanence

/-!
# Requests that fail halfway

A request of `updateToken` that ends with an exception has written nothing if the exception comes
from the first loop, or from the first token of the second one. Whether a later token of the
second loop meets a record depends on the collection and on the tokens before it.
-/

namespace AlaFois

namespace Database

variable {db : Database} {env : QueryEnv} {consumer : ConsumerId} {tokens : List (Int × String)}
  {t : ParsedToken} {parsed : List ParsedToken} {published : List (UpdateTokenMessage Json)}

/-- The token passes the checks of the first loop, at the time that it is checked. -/
def Passes (db : Database) (env : QueryEnv) (consumer : ConsumerId) (token : Int × String)
    (t : ParsedToken) : Prop :=
  db.admitUpdate env consumer token.1 token.2 = .ok t

/-- There is a record of the token. -/
def Known (db : Database) (t : ParsedToken) : Prop :=
  ∃ record ∈ db.tokens, record.Keyed t.tokenId t.consumerId

/-- The ids of the two tokens differ, or those of their consumers do. -/
def Distinct (t u : ParsedToken) : Prop := ¬(t.tokenId = u.tokenId ∧ t.consumerId = u.consumerId)

/-- Every token is new to the collection and to those before it. -/
def AllNew (db : Database) (parsed : List ParsedToken) : Prop :=
  (∀ t ∈ parsed, ¬db.Known t) ∧ parsed.Pairwise Distinct

lemma findOne_none_iff : db.findOne t.tokenId t.consumerId none = true ↔ ¬db.Known t := by
  simp [findOne, Known, TokenRecord.Keyed]

lemma known_replaceToken {u : ParsedToken} :
    (db.replaceToken t).Known u ↔ db.Known u ∨ ¬Distinct t u := by
  constructor
  · rintro ⟨record, hmem, hkey⟩
    rcases List.mem_append.mp hmem with hmem | hmem
    · obtain ⟨old, hold, rfl⟩ := List.mem_map.mp hmem
      exact .inl ⟨old, hold, (Api.keyed_taintOld t old).mp hkey⟩
    · rw [List.mem_singleton.mp hmem] at hkey
      exact .inr (not_not_intro hkey)
  · rintro (⟨record, hmem, hkey⟩ | hsame)
    · exact ⟨Api.taintOld t record, List.mem_append_left _ (List.mem_map_of_mem hmem),
        (Api.keyed_taintOld t record).mpr hkey⟩
    · exact ⟨t.record, List.mem_append_right _ (List.mem_singleton_self _), not_not.mp hsame⟩

lemma allNew_cons : db.AllNew (t :: parsed) ↔ ¬db.Known t ∧ (db.replaceToken t).AllNew parsed := by
  simp only [AllNew, List.forall_mem_cons, List.pairwise_cons, known_replaceToken, not_or, not_not]
  constructor
  · rintro ⟨⟨ht, hparsed⟩, hdistinct, hpairs⟩
    exact ⟨ht, fun u hu => ⟨hparsed u hu, hdistinct u hu⟩, hpairs⟩
  · rintro ⟨ht, hparsed, hpairs⟩
    exact ⟨⟨ht, fun u hu => (hparsed u hu).1⟩, fun u hu => (hparsed u hu).2, hpairs⟩

lemma parseTokens_eq_ok : db.parseTokens env consumer tokens = .ok parsed ↔
    List.Forall₂ (db.Passes env consumer) tokens parsed := by
  induction tokens generalizing parsed with
  | nil => simp [parseTokens, eq_comm]
  | cons token tokens ih =>
    obtain ⟨now, jwt⟩ := token
    unfold parseTokens
    cases hadmit : db.admitUpdate env consumer now jwt with
    | error ending =>
      simp [List.forall₂_cons_left_iff, Passes, hadmit]
    | ok t =>
      cases hrest : db.parseTokens env consumer tokens with
      | error ending =>
        simp only [reduceCtorEq, List.forall₂_cons_left_iff, false_iff]
        rintro ⟨u, rest, -, hforall, -⟩
        rw [ih.mpr hforall] at hrest
        cases hrest
      | ok rest =>
        simp only [Except.ok.injEq, List.forall₂_cons_left_iff, Passes, hadmit]
        constructor
        · rintro rfl
          exact ⟨t, rest, rfl, ih.mp hrest, rfl⟩
        · rintro ⟨u, rest', rfl, hforall, rfl⟩
          rw [ih.mpr hforall] at hrest
          cases hrest
          rfl

lemma replaceTokens_of_new (h : ¬db.Known t) : db.replaceTokens published (t :: parsed) =
    (db.replaceToken t).replaceTokens (published ++ [t.message]) parsed :=
  if_pos (findOne_none_iff.mpr h)

lemma replaceTokens_of_known (h : db.Known t) :
    db.replaceTokens published (t :: parsed) = ⟨db, published, .responded .conflict⟩ :=
  if_neg fun hnew => findOne_none_iff.mp hnew h

/-- The second loop keeps what has been published. -/
lemma published_replaceTokens : published <+: (db.replaceTokens published parsed).published := by
  induction parsed generalizing db published with
  | nil => exact List.prefix_rfl
  | cons t parsed ih =>
    by_cases hknown : db.Known t
    · simp [replaceTokens_of_known hknown]
    · rw [replaceTokens_of_new hknown]
      exact (List.prefix_append _ _).trans ih

lemma ending_replaceTokens (published : List (UpdateTokenMessage Json)) :
    (db.replaceTokens published parsed).ending = .responded .ok ↔ db.AllNew parsed := by
  induction parsed generalizing db published with
  | nil => simp [replaceTokens, AllNew]
  | cons t parsed ih =>
    rw [allNew_cons]
    by_cases hknown : db.Known t
    · simp [replaceTokens_of_known hknown, hknown]
    · rw [replaceTokens_of_new hknown, ih]
      exact (and_iff_right hknown).symm

/-- For every state of the collections and every list of tokens, a request that ends with an
exception leaves everything as it was, if and only if some token fails the checks of the first
loop, or every token is new, or the first one is known. -/
theorem updateToken_atomic_iff (db : Database) (env : QueryEnv) (consumer : ConsumerId)
    (tokens : List (Int × String)) :
    ((db.updateToken env consumer tokens).ending.isException = true →
      (db.updateToken env consumer tokens).db.tokens = db.tokens ∧
        (db.updateToken env consumer tokens).published = []) ↔
      ∀ parsed, List.Forall₂ (db.Passes env consumer) tokens parsed →
        db.AllNew parsed ∨ ∃ t ∈ parsed.head?, db.Known t := by
  unfold updateToken
  cases hparse : db.parseTokens env consumer tokens with
  | error ending =>
    refine ⟨fun _ parsed hpasses => ?_, fun _ _ => ⟨rfl, rfl⟩⟩
    rw [parseTokens_eq_ok.mpr hpasses] at hparse
    cases hparse
  | ok parsed =>
    have hexception : (db.replaceTokens [] parsed).ending.isException = true ↔
        ¬db.AllNew parsed := by
      rw [← ending_replaceTokens []]
      simp [UpdateTokenEnd.isException]
    have hall : (∀ parsed', List.Forall₂ (db.Passes env consumer) tokens parsed' →
        db.AllNew parsed' ∨ ∃ t ∈ parsed'.head?, db.Known t) ↔
        (db.AllNew parsed ∨ ∃ t ∈ parsed.head?, db.Known t) := by
      refine ⟨fun h => h parsed (parseTokens_eq_ok.mp hparse), fun h parsed' hpasses => ?_⟩
      rw [parseTokens_eq_ok.mpr hpasses] at hparse
      cases hparse
      exact h
    rw [hall]
    simp only [hexception]
    cases parsed with
    | nil => simp [AllNew]
    | cons t parsed =>
      by_cases hknown : db.Known t
      · rw [replaceTokens_of_known hknown]
        exact ⟨fun _ => .inr ⟨t, rfl, hknown⟩, fun _ _ => ⟨rfl, rfl⟩⟩
      · -- the first token is written and published, so that a conflict comes too late
        have hwritten : [t.message] <+: (db.replaceTokens [] (t :: parsed)).published := by
          rw [replaceTokens_of_new hknown]
          exact published_replaceTokens
        constructor
        · intro hatomic
          refine .inl (by_contra fun hnot => ?_)
          rw [(hatomic hnot).2] at hwritten
          simp at hwritten
        · rintro (hnew | ⟨u, hu, hknown'⟩) hnot
          · exact absurd hnew hnot
          · cases hu
            exact absurd hknown' hknown

/-- Every JWT replaces the old token by the new one and lists no document. -/
def replacer : QueryEnv :=
  ApiEnv.queriedByText
    { parseJWT := fun _ => some ⟨some "new", some (.text "consumer"), some "user",
        some (.time 10), some (.array []), some "old"⟩
      verify := fun _ _ => true
      ttl := 100 }
    some

def oldToken : Database :=
  ⟨[⟨"consumer", "key"⟩], [], [⟨"old", "consumer", "user", false, some (.time 10)⟩], []⟩

/-- The second token of a list is in conflict with the first, which has been replaced by then. -/
theorem updateToken_twice :
    let result := oldToken.updateToken replacer "consumer" [(0, "jwt"), (0, "jwt")]
    result.ending = .responded .conflict ∧ result.ending.isException = true ∧
      result.db.tokens = [⟨"old", "consumer", "user", true, some (.time 10)⟩,
        ⟨"new", "consumer", "user", false, some (.time 10)⟩] ∧
      ¬(result.db.tokens = oldToken.tokens ∧ result.published = []) := by
  decide

/-! ### The request as a run of the API -/

/-- An operation of the request. -/
def ofUpdate (id : Nat) : ApiAction → Bool
  | .updateAdmit id' _ _ _ | .updateFind id' _ | .updateTaint id' | .updateCreate id'
  | .updatePublish id' => id' = id
  | _ => false

/-- The operations lead from a state to the other one. -/
def Performs (env : QueryEnv) (id : Nat) (s s' : Api) : Prop :=
  ∃ as, (∀ a ∈ as, ofUpdate id a = true) ∧ Stepper.run (Api.step env.toApiEnv) s as = some s'

lemma Performs.refl {id : Nat} {s : Api} : Performs env id s s := ⟨[], by simp, rfl⟩

lemma Performs.head {id : Nat} {s u s' : Api} {a : ApiAction} (ha : ofUpdate id a = true)
    (hu : s.step env.toApiEnv a = some u) (h : Performs env id u s') : Performs env id s s' := by
  obtain ⟨as, has, hrun⟩ := h
  exact ⟨a :: as, List.forall_mem_cons.mpr ⟨ha, has⟩, Stepper.run_cons_eq_some.mpr ⟨u, hu, hrun⟩⟩

lemma Performs.trans {id : Nat} {s u s' : Api} (h : Performs env id s u)
    (h' : Performs env id u s') : Performs env id s s' := by
  obtain ⟨as, has, hrun⟩ := h
  obtain ⟨bs, hbs, hrest⟩ := h'
  refine ⟨as ++ bs, fun a ha => ?_, by rw [Stepper.run_append hrun, hrest]⟩
  exact (List.mem_append.mp ha).elim (has a) (hbs a)

/-- Unless a query throws, the first loop does with a token what the API does with what the
queries find. -/
lemma exists_admitUpdate {now : Int} {jwt : String}
    (admitted : Except UpdateTokenResponse ParsedToken)
    (h : db.admitUpdate env consumer now jwt = admitted.mapError .responded) :
    ∃ found owned, AlaFois.admitUpdate env.toApiEnv jwt found now owned = admitted := by
  unfold admitUpdate at h
  split at h
  · cases admitted <;> cases h
  · rename_i hclaims
    obtain ⟨found, hfound⟩ := exists_consumer hclaims
    cases admitted <;> cases h
    exact ⟨found, 0, by simp [AlaFois.admitUpdate, hfound]⟩
  · rename_i claims hclaims
    obtain ⟨found, hfound⟩ := exists_consumer hclaims
    split at h
    · rename_i hvalid
      cases admitted <;> cases h
      exact ⟨found, 0, by simp [AlaFois.admitUpdate, hfound, hvalid]⟩
    · rename_i payload hvalid
      split at h
      · rename_i docs hdocs
        split at h
        · cases admitted <;> cases h
        · rename_i owned howned
          refine ⟨found, owned, ?_⟩
          split at h
          · rename_i howns
            cases admitted <;> cases h
            simp [AlaFois.admitUpdate, hfound, hvalid, hdocs, howns]
          · rename_i howns
            cases admitted <;> cases h
            simp [AlaFois.admitUpdate, hfound, hvalid, hdocs, howns]
      · cases admitted <;> cases h

/-- The first loop goes on to the next token. -/
lemma performs_admitted {id : Nat} {s : Api} {call : UpdateCall} {now : Int} {jwt : String}
    {rest : List String}
    (hget : s.updates.get id = some { call with stage := .checking (jwt :: rest) })
    (hpass : db.admitUpdate env consumer now jwt = .ok t) :
    let next : UpdateCall := { call with todo := call.todo ++ [t], stage := .checking rest }
    (s.setUpdate id next).updates.get id = some next ∧ Performs env id s (s.setUpdate id next) := by
  intro next
  obtain ⟨found, owned, hfound⟩ := exists_admitUpdate (.ok t) hpass
  have hstep : s.step env.toApiEnv (.updateAdmit id found now owned) =
      some (s.setUpdate id next) := by
    simp [Api.step, hget, Api.updateAdmit, hfound, next]
  exact ⟨by simp [Api.setUpdate], Performs.refl.head (by simp [ofUpdate]) hstep⟩

lemma performs_parse {id : Nat} {s : Api} {call : UpdateCall}
    (hget : s.updates.get id = some { call with stage := .checking (tokens.map Prod.snd) })
    (hparse : db.parseTokens env consumer tokens = .ok parsed) :
    ∃ updates, updates.get id =
        some { call with todo := call.todo ++ parsed, stage := .checking [] } ∧
      Performs env id s { s with updates := updates } := by
  induction tokens generalizing s call parsed with
  | nil =>
    cases hparse
    exact ⟨s.updates, by simpa using hget, .refl⟩
  | cons token tokens ih =>
    obtain ⟨now, jwt⟩ := token
    unfold parseTokens at hparse
    split at hparse
    · cases hparse
    · rename_i t hadmit
      split at hparse
      · cases hparse
      · rename_i rest hrest
        cases hparse
        obtain ⟨hnext, hstep⟩ := performs_admitted hget hadmit
        obtain ⟨updates, hupdates, hperforms⟩ :=
          @ih _ _ { call with todo := call.todo ++ [t] } hnext hrest
        exact ⟨updates, by simpa using hupdates, hstep.trans hperforms⟩

lemma performs_refused {id : Nat} {s : Api} {call : UpdateCall} {response : UpdateTokenResponse}
    (hget : s.updates.get id = some { call with stage := .checking (tokens.map Prod.snd) })
    (hparse : db.parseTokens env consumer tokens = .error (.responded response)) :
    ∃ updates, Performs env id s ({ s with updates := updates }.reply id response) := by
  induction tokens generalizing s call with
  | nil => cases hparse
  | cons token tokens ih =>
    obtain ⟨now, jwt⟩ := token
    unfold parseTokens at hparse
    split at hparse
    · rename_i ending hadmit
      cases hparse
      obtain ⟨found, owned, hfound⟩ := exists_admitUpdate (.error response) hadmit
      have hstep : s.step env.toApiEnv (.updateAdmit id found now owned) =
          some (s.reply id response) := by
        simp [Api.step, hget, Api.updateAdmit, hfound]
      exact ⟨s.updates, Performs.refl.head (by simp [ofUpdate]) hstep⟩
    · rename_i t hadmit
      split at hparse
      · rename_i ending hrest
        cases hparse
        obtain ⟨hnext, hstep⟩ := performs_admitted hget hadmit
        obtain ⟨updates, hperforms⟩ := @ih _ { call with todo := call.todo ++ [t] } hnext hrest
        exact ⟨updates, hstep.trans hperforms⟩
      · cases hparse

/-- What the request comes to, in terms of the state of the API it began in. -/
structure Ended (s s' : Api) (id : Nat) (consumer : ConsumerId) (base : List Published)
    (result : UpdateTokenResult) : Prop where
  tokens : s'.tokens = result.db.tokens
  published : s'.published = base ++ result.published.map (⟨consumer, ·⟩)
  responses : ∀ response, result.ending = .responded response →
    s'.updateResponses = s.updateResponses ++ [(id, response)]

lemma findOne_setUpdate (id : Nat) {s : Api} (call : UpdateCall) {token : Option TokenRecord} :
    (s.setUpdate id call).findOne t.tokenId t.consumerId token =
      s.findOne t.tokenId t.consumerId token := by
  cases token <;> rfl

/-- The second loop comes to a token that is known. -/
lemma performs_conflict (env : QueryEnv) (id : Nat) {s : Api} {call : UpdateCall}
    (htodo : call.todo = t :: parsed)
    (htokens : s.tokens = db.tokens) (hknown : db.Known t) :
    ∃ updates, Performs env id (s.nextToken id call)
      ({ s with updates := updates }.reply id .conflict) := by
  obtain ⟨record, hmem, hkey⟩ := hknown
  have hnext : s.nextToken id call = s.setUpdate id { call with stage := .finding } := by
    simp [Api.nextToken, htodo]
  have hfound : s.findOne t.tokenId t.consumerId (some record) = true := by
    simp only [Api.findOne, htokens, decide_eq_true_eq]
    exact ⟨hmem, hkey⟩
  have hstep : (s.setUpdate id { call with stage := .finding }).step env.toApiEnv
      (.updateFind id (some record)) =
      some ((s.setUpdate id { call with stage := .finding }).reply id .conflict) := by
    rw [← findOne_setUpdate id { call with stage := .finding }] at hfound
    simp only [Api.step, Api.setUpdate, JsMap.get_set_self, Option.bind_some, Api.updateFind,
      htodo] at hfound ⊢
    rw [if_pos hfound]
  rw [hnext]
  exact ⟨_, Performs.refl.head (by simp [ofUpdate]) hstep⟩

/-- The second loop goes through for a token that is new. -/
lemma performs_token (env : QueryEnv) (id : Nat) {s : Api} {call : UpdateCall}
    (htodo : call.todo = t :: parsed)
    (htokens : s.tokens = db.tokens) (hknown : ¬db.Known t) :
    ∃ (u : Api) (rest : UpdateCall), u.tokens = (db.replaceToken t).tokens ∧
      u.published = s.published ++ [⟨call.consumer, t.message⟩] ∧
      u.updateResponses = s.updateResponses ∧ rest.consumer = call.consumer ∧
      rest.todo = parsed ∧ ∀ s', Performs env id (u.nextToken id rest) s' →
        Performs env id (s.nextToken id call) s' := by
  obtain ⟨caller, done, todo, stage⟩ := call
  obtain rfl : todo = t :: parsed := htodo
  let calling (stage : UpdateStage) : UpdateCall := ⟨caller, done, t :: parsed, stage⟩
  let finding := s.setUpdate id (calling .finding)
  let tainting := finding.setUpdate id (calling .tainting)
  let creating :=
    ({ tainting with tokens := s.tokens.map (Api.taintOld t) } : Api).setUpdate id (calling .creating)
  let publishing :=
    ({ creating with tokens := s.tokens.map (Api.taintOld t) ++ [t.record] } : Api).setUpdate id
      (calling .publishing)
  let sent : Api := { publishing with published := s.published ++ [⟨caller, t.message⟩] }
  let rest : UpdateCall := ⟨caller, done ++ [t], parsed, .publishing⟩
  have hfind : finding.step env.toApiEnv (.updateFind id none) = some tainting := by
    have hmissing : finding.findOne t.tokenId t.consumerId none = true := by
      rw [findOne_setUpdate, ← findOne_none_iff.mpr hknown]
      simp only [Api.findOne, findOne, htokens]
    have hget : finding.updates.get id = some (calling .finding) := by simp [finding, Api.setUpdate]
    simp only [Api.step, hget, Option.bind_some, Api.updateFind, calling]
    rw [if_pos hmissing]
  have htaint : tainting.step env.toApiEnv (.updateTaint id) = some creating := by
    have hget : tainting.updates.get id = some (calling .tainting) := by
      simp [tainting, Api.setUpdate]
    simp only [Api.step, hget, Option.bind_some, Api.updateTaint, calling]
    rfl
  have hcreate : creating.step env.toApiEnv (.updateCreate id) = some publishing := by
    have hget : creating.updates.get id = some (calling .creating) := by
      simp [creating, Api.setUpdate]
    simp only [Api.step, hget, Option.bind_some, Api.updateCreate, calling]
    rfl
  have hpublish : publishing.step env.toApiEnv (.updatePublish id) =
      some (sent.nextToken id rest) := by
    have hget : publishing.updates.get id = some (calling .publishing) := by
      simp [publishing, Api.setUpdate]
    simp only [Api.step, hget, Option.bind_some, Api.updatePublish, calling]
    rfl
  refine ⟨sent, rest, by simp [sent, publishing, Api.setUpdate, replaceToken, htokens], rfl, rfl,
    rfl, rfl, fun s' hperforms => ?_⟩
  exact (((hperforms.head (by simp [ofUpdate]) hpublish).head (by simp [ofUpdate]) hcreate).head
    (by simp [ofUpdate]) htaint).head (by simp [ofUpdate]) hfind

lemma performs_replace (env : QueryEnv) (id : Nat) {s : Api} {call : UpdateCall}
    {base : List Published} (htodo : call.todo = parsed) (htokens : s.tokens = db.tokens)
    (hpublished : s.published = base ++ published.map (⟨call.consumer, ·⟩)) :
    ∃ s', Performs env id (s.nextToken id call) s' ∧
      Ended s s' id call.consumer base (db.replaceTokens published parsed) := by
  induction parsed generalizing s db published call with
  | nil =>
    refine ⟨_, .refl, ?_⟩
    simp only [Api.nextToken, htodo, replaceTokens]
    exact ⟨htokens, hpublished, fun response hok => by cases hok; rfl⟩
  | cons t parsed ih =>
    by_cases hknown : db.Known t
    · obtain ⟨updates, hperforms⟩ := performs_conflict env id htodo htokens hknown
      rw [replaceTokens_of_known hknown]
      exact ⟨_, hperforms, htokens, hpublished, fun response hconflict => by cases hconflict; rfl⟩
    · obtain ⟨u, rest, htokens', hpublished', hresponses, hconsumer, htodo', hperforms⟩ :=
        performs_token env id htodo htokens hknown
      have hbase : u.published =
          base ++ (published ++ [t.message]).map (⟨rest.consumer, ·⟩) := by
        simp [hpublished', hpublished, hconsumer]
      obtain ⟨s', hrest, hended⟩ := ih htodo' htokens' hbase
      rw [replaceTokens_of_new hknown]
      exact ⟨s', hperforms s' hrest, hended.tokens, hconsumer ▸ hended.published,
        hresponses ▸ hended.responses⟩

/-- Unless a query throws, the request is a run of the API in which nothing else happens. -/
theorem exists_run_update {s : Api} (htokens : s.tokens = db.tokens)
    {response : UpdateTokenResponse}
    (hended : (db.updateToken env consumer tokens).ending = .responded response) :
    ∃ s', Performs env s.nextId (s.updateStart consumer (tokens.map Prod.snd)) s' ∧
      Ended s s' s.nextId consumer s.published (db.updateToken env consumer tokens) := by
  let call : UpdateCall := ⟨consumer, [], [], .finding⟩
  have hget : (s.updateStart consumer (tokens.map Prod.snd)).updates.get s.nextId =
      some { call with stage := .checking (tokens.map Prod.snd) } := by
    simp [Api.updateStart, call]
  unfold updateToken at hended ⊢
  cases hparse : db.parseTokens env consumer tokens with
  | error ending =>
    simp only [hparse] at hended ⊢
    cases hended
    obtain ⟨updates, hperforms⟩ := performs_refused hget hparse
    exact ⟨_, hperforms, htokens, by simp [Api.reply, Api.updateStart], fun response hsame => by
      cases hsame; rfl⟩
  | ok parsed =>
    obtain ⟨updates, hupdates, hparsed⟩ := performs_parse hget hparse
    let checked : Api := { s.updateStart consumer (tokens.map Prod.snd) with updates := updates }
    let done : UpdateCall := { call with todo := parsed, stage := .checking [] }
    have hbase : checked.published =
        s.published ++ ([] : List (UpdateTokenMessage Json)).map (⟨done.consumer, ·⟩) := by
      simp [checked, Api.updateStart]
    have hchecked : checked.tokens = db.tokens := htokens
    obtain ⟨s', hwritten, hended'⟩ :=
      performs_replace env s.nextId (show done.todo = parsed from rfl) hchecked hbase
    have hnext : checked.step env.toApiEnv (.updateAdmit s.nextId none 0 0) =
        some (checked.nextToken s.nextId done) := by
      have hdone : checked.updates.get s.nextId = some done := by simpa [checked, done, call]
        using hupdates
      simp only [Api.step, hdone, Option.bind_some]
      rfl
    refine ⟨s', hparsed.trans (hwritten.head (by simp [ofUpdate]) hnext), ?_⟩
    exact ⟨hended'.tokens, hended'.published, hended'.responses⟩

end Database

end AlaFois
