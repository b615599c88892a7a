import AlaFois.Proofs.ReadAccess

/-!
# Token expiration

`checkTokenExpiration` looks at the first connection of each list only. It is exact as long
as each list has one expiry and lists hold every open connection that has one; `ExpiryOk`
says which operations keep this.
-/

namespace AlaFois

def WebSocketConnection.expired (conn : WebSocketConnection) (now : Int) : Bool :=
  conn.tokenExpiredAt.any fun expiredAt => !expiredAt.after now

namespace Proxy

structure Uniform (p : Proxy) : Prop where
  lists : ∀ t cs, p.tokenConnections.get t = some cs → ∀ c ∈ cs, ∀ c' ∈ cs,
    (p.conns c).tokenExpiredAt = (p.conns c').tokenExpiredAt
  covered : ∀ c, (p.conns c).isOpen → (p.conns c).tokenId ≠ none →
    (p.conns c).tokenExpiredAt ≠ none → ∃ t cs, p.tokenConnections.get t = some cs ∧ c ∈ cs

/-- The others in the lists that the connection is in, or gets into with the token, have the
given expiry. -/
def AcceptOk (p : Proxy) (c : ConnectionId) (tokenId : TokenId) (expiry : Option JsDate) : Prop :=
  ∀ e ∈ p.tokenConnections.entries, c ∈ e.2 ∨ e.1 = tokenId →
    ∀ c' ∈ e.2, c' ≠ c → (p.conns c').tokenExpiredAt = expiry

instance (p : Proxy) (c : ConnectionId) (tokenId : TokenId) (expiry : Option JsDate) :
    Decidable (p.AcceptOk c tokenId expiry) :=
  inferInstanceAs (Decidable (∀ e ∈ p.tokenConnections.entries, _))

/-- A list that shares a connection with the updated list `cs` has only connections of `cs` or
with the new expiry. -/
def SharedOk (p : Proxy) (m : UpdateTokenMessage) (cs : List ConnectionId) : Prop :=
  ∀ e ∈ p.tokenConnections.entries, e.1 ≠ m.oldTokenId → e.1 ≠ m.tokenId →
    (∃ c ∈ e.2, c ∈ cs) → ∀ c ∈ e.2, c ∈ cs ∨
      (p.conns c).tokenExpiredAt = some (newDate m.expiredAt)

instance (p : Proxy) (m : UpdateTokenMessage) (cs : List ConnectionId) :
    Decidable (p.SharedOk m cs) :=
  inferInstanceAs (Decidable (∀ e ∈ p.tokenConnections.entries, _))

/-- If the new token has a list already, which the update overwrites, then no open connection
with an expiry is left without a list. -/
def OverwrittenOk (p : Proxy) (m : UpdateTokenMessage) (cs : List ConnectionId) : Prop :=
  m.tokenId ≠ m.oldTokenId → ∀ c ∈ p.connectionsOf m.tokenId,
    (p.conns c).isOpen → (p.conns c).tokenExpiredAt ≠ none → c ∈ cs ∨
      ∃ e ∈ p.tokenConnections.entries, e.1 ≠ m.oldTokenId ∧ e.1 ≠ m.tokenId ∧ c ∈ e.2

instance (p : Proxy) (m : UpdateTokenMessage) (cs : List ConnectionId) :
    Decidable (p.OverwrittenOk m cs) :=
  inferInstanceAs (Decidable (_ → ∀ c ∈ p.connectionsOf m.tokenId, _))

def ExpiryOk (p : Proxy) : ProxyOp → Prop
  | .handleConnection c (some (.ok payload)) => p.AcceptOk c payload.tokenId payload.expiredAt
  | .onSetToken c (.ok payload) =>
    p.AcceptOk c payload.tokenId (payload.expiredAt.or (p.conns c).tokenExpiredAt)
  | .onUpdateTokenMessage m =>
    ∀ cs ∈ p.tokenConnections.get m.oldTokenId, p.SharedOk m cs ∧ p.OverwrittenOk m cs
  | _ => True

instance (p : Proxy) (op : ProxyOp) : Decidable (p.ExpiryOk op) := by
  unfold ExpiryOk
  split <;> infer_instance

/-! ### The check -/

lemma expireConnections_of_dated (cs : List ConnectionId) (p : Proxy)
    (h : ∀ c ∈ cs, (p.conns c).tokenExpiredAt ≠ none) : (expireConnections cs p).2 = false := by
  induction cs generalizing p with
  | nil => rfl
  | cons c cs ih =>
    obtain ⟨d, hd⟩ := Option.ne_none_iff_exists'.mp (h c List.mem_cons_self)
    simp only [expireConnections, hd]
    apply ih
    intro c' hc'
    simp only [conns_close, send_conns]
    split
    · simp [hd]
    · exact h c' (List.mem_cons_of_mem c hc')

lemma conns_expireConnections (cs : List ConnectionId) (p : Proxy)
    (h : ∀ c ∈ cs, (p.conns c).tokenExpiredAt ≠ none) (c : ConnectionId) :
    (expireConnections cs p).1.conns c =
      if c ∈ cs then closeConn (p.conns c) else p.conns c := by
  obtain ⟨-, hconns, -, hall⟩ := expireConnections_eq cs p
  split
  · exact hall (expireConnections_of_dated cs p h) c ‹_›
  · exact (hconns c).resolve_right fun hc => ‹c ∉ cs› hc.1

/-- One round of the outer loop, for a list with one expiry. -/
lemma checkLists_cons (now : Int) (t : TokenId) (es : List (TokenId × List ConnectionId))
    (p : Proxy) {cs : List ConnectionId} (hne : cs ≠ [])
    (huni : ∀ c ∈ cs, ∀ c' ∈ cs, (p.conns c).tokenExpiredAt = (p.conns c').tokenExpiredAt) :
    ∃ q : Proxy, checkLists now ((t, cs) :: es) p = checkLists now es q ∧
      (∀ c, q.conns c =
        if c ∈ cs ∧ (p.conns c).expired now = true then closeConn (p.conns c) else p.conns c) ∧
      ∀ t', q.tokenConnections.get t' =
        if t' = t ∧ ∃ c ∈ cs, (p.conns c).expired now = true then none
        else p.tokenConnections.get t' := by
  obtain ⟨c₀, cs', rfl⟩ := List.exists_cons_of_ne_nil hne
  -- the first connection decides for the whole list
  have hfirst : ∀ c ∈ c₀ :: cs', (p.conns c).expired now = (p.conns c₀).expired now := by
    intro c hc
    rw [WebSocketConnection.expired, WebSocketConnection.expired,
      huni c hc c₀ List.mem_cons_self]
  have hskip : (p.conns c₀).expired now = false → ∀ c ∈ c₀ :: cs',
      ¬(p.conns c).expired now = true := by
    intro hexp c hc hexp'
    rw [hfirst c hc, hexp] at hexp'
    cases hexp'
  have hsame : (p.conns c₀).expired now = false →
      (∀ c, p.conns c = if c ∈ c₀ :: cs' ∧ (p.conns c).expired now = true then
        closeConn (p.conns c) else p.conns c) ∧
      ∀ t', p.tokenConnections.get t' =
        if t' = t ∧ ∃ c ∈ c₀ :: cs', (p.conns c).expired now = true then none
        else p.tokenConnections.get t' := by
    intro hexp
    refine ⟨fun c => (if_neg fun h => hskip hexp c h.1 h.2).symm, fun t' => (if_neg ?_).symm⟩
    rintro ⟨-, c, hc, hexp'⟩
    exact hskip hexp c hc hexp'
  cases hd : (p.conns c₀).tokenExpiredAt with
  | none =>
    refine ⟨p, by simp only [checkLists, hd], hsame ?_⟩
    simp [WebSocketConnection.expired, hd]
  | some d =>
    by_cases hafter : d.after now = true
    · refine ⟨p, by simp only [checkLists, hd, hafter, ↓reduceIte], hsame ?_⟩
      simp [WebSocketConnection.expired, hd, hafter]
    · have hdated : ∀ c ∈ c₀ :: cs', (p.conns c).tokenExpiredAt ≠ none := by
        intro c hc
        simp [huni c hc c₀ List.mem_cons_self, hd]
      have hexp : (p.conns c₀).expired now = true := by
        simp [WebSocketConnection.expired, hd, hafter]
      have hflag := expireConnections_of_dated (c₀ :: cs') p hdated
      have hconns := conns_expireConnections (c₀ :: cs') p hdated
      have hlists := (expireConnections_eq (c₀ :: cs') p).2.2.1
      obtain ⟨q, hq⟩ : ∃ q, expireConnections (c₀ :: cs') p = (q, false) :=
        ⟨_, Prod.ext rfl hflag⟩
      rw [hq] at hconns hlists
      refine ⟨{ q with tokenConnections := q.tokenConnections.delete t }, ?_, fun c => ?_,
        fun t' => ?_⟩
      · simp only [checkLists, hd, hafter, hq, Bool.false_eq_true, ↓reduceIte]
      · change q.conns c = _
        rw [hconns]
        by_cases hc : c ∈ c₀ :: cs'
        · rw [if_pos hc, if_pos ⟨hc, (hfirst c hc).trans hexp⟩]
        · rw [if_neg hc, if_neg fun h => hc h.1]
      · have hlists' : q.tokenConnections = p.tokenConnections := hlists
        simp only [JsMap.get_delete, hlists']
        refine if_congr ?_ rfl rfl
        exact (and_iff_left ⟨c₀, List.mem_cons_self, hexp⟩).symm

/-- The outer loop over lists with one expiry each closes the members of the expired lists and
deletes the lists. -/
lemma conns_checkLists (now : Int) (es : List (TokenId × List ConnectionId)) (p : Proxy)
    (hne : ∀ e ∈ es, e.2 ≠ [])
    (huni : ∀ e ∈ es, ∀ c ∈ e.2, ∀ c' ∈ e.2,
      (p.conns c).tokenExpiredAt = (p.conns c').tokenExpiredAt) :
    (∀ c, (checkLists now es p).conns c =
      if ∃ e ∈ es, c ∈ e.2 ∧ (p.conns c).expired now then closeConn (p.conns c)
      else p.conns c) ∧
      ∀ t, (checkLists now es p).tokenConnections.get t =
        if ∃ e ∈ es, t = e.1 ∧ ∃ c ∈ e.2, (p.conns c).expired now then none
        else p.tokenConnections.get t := by
  induction es generalizing p with
  | nil => simp [checkLists]
  | cons e es ih =>
    obtain ⟨q, hq, hconns, hlists⟩ := checkLists_cons now e.1 es p (hne e List.mem_cons_self)
      (huni e List.mem_cons_self)
    have hexpiry : ∀ c, (q.conns c).tokenExpiredAt = (p.conns c).tokenExpiredAt := by
      intro c
      rw [hconns]
      split
      · rw [closeConn_tokenExpiredAt]
      · rfl
    have hexpired : ∀ c, (q.conns c).expired now = (p.conns c).expired now := by
      intro c
      simp only [WebSocketConnection.expired, hexpiry]
    obtain ⟨ihconns, ihlists⟩ := ih q (fun e he => hne e (List.mem_cons_of_mem _ he))
      (fun e he => by simpa only [hexpiry] using huni e (List.mem_cons_of_mem _ he))
    rw [hq]
    refine ⟨fun c => ?_, fun t => ?_⟩
    · rw [ihconns, hexpired, hconns]
      simp only [List.mem_cons, exists_eq_or_imp]
      by_cases hc : c ∈ e.2 ∧ (p.conns c).expired now = true
      · simp only [hc, if_true, and_self, true_or, closeConn_closeConn, ite_self]
      · simp only [hc, if_false, false_or]
    · rw [ihlists, hlists]
      simp only [hexpired, List.mem_cons, exists_eq_or_imp]
      by_cases ht : t = e.1 ∧ ∃ c ∈ e.2, (p.conns c).expired now = true
      · rw [if_pos ht, ite_self, if_pos (.inl ht)]
      · simp only [ht, if_false, false_or]

lemma Uniform.conns_checkTokenExpiration {p : Proxy} (h : p.WF) (hu : p.Uniform) (now : Int)
    (c : ConnectionId) : (p.checkTokenExpiration now).conns c =
      if ∃ e ∈ p.tokenConnections.entries, c ∈ e.2 ∧ (p.conns c).expired now then
        closeConn (p.conns c) else p.conns c := by
  have hget : ∀ e ∈ p.tokenConnections.entries, p.tokenConnections.get e.1 = some e.2 :=
    fun e he => (JsMap.mem_entries_iff _ _ _).mp he
  exact (conns_checkLists now _ p (fun e he => (h.listed _ _ (hget e he)).1)
    (fun e he => hu.lists _ _ (hget e he))).1 c

lemma Uniform.get_checkTokenExpiration {p : Proxy} (h : p.WF) (hu : p.Uniform) (now : Int)
    (t : TokenId) : (p.checkTokenExpiration now).tokenConnections.get t =
      if ∃ c ∈ p.connectionsOf t, (p.conns c).expired now then none
      else p.tokenConnections.get t := by
  have hget : ∀ e ∈ p.tokenConnections.entries, p.tokenConnections.get e.1 = some e.2 :=
    fun e he => (JsMap.mem_entries_iff _ _ _).mp he
  refine ((conns_checkLists now _ p (fun e he => (h.listed _ _ (hget e he)).1)
    (fun e he => hu.lists _ _ (hget e he))).2 t).trans (if_congr ?_ rfl rfl)
  constructor
  · rintro ⟨e, he, rfl, c, hc, hexp⟩
    exact ⟨c, mem_connectionsOf.mpr ⟨e.2, hget e he, hc⟩, hexp⟩
  · rintro ⟨c, hc, hexp⟩
    obtain ⟨cs, ht, hc⟩ := mem_connectionsOf.mp hc
    exact ⟨(t, cs), (JsMap.mem_entries_iff _ _ _).mpr ht, rfl, c, hc, hexp⟩

/-- With one expiry in each list and every open connection with an expiry in a list, the check
is exact. -/
lemma Uniform.exact {p : Proxy} (h : p.WF) (hu : p.Uniform) (now : Int) (c : ConnectionId) :
    ((p.conns c).isOpen ∧ ((p.checkTokenExpiration now).conns c).readyState = .closing) ↔
      (p.conns c).isOpen ∧ (p.conns c).tokenId ≠ none ∧ (p.conns c).expired now := by
  rw [hu.conns_checkTokenExpiration h]
  refine and_congr_right fun hopen => ?_
  have hstate : (p.conns c).readyState = .open := by simpa [WebSocketConnection.isOpen] using hopen
  split
  · rename_i hlisted
    obtain ⟨e, he, hc, hexp⟩ := hlisted
    have ht := (JsMap.mem_entries_iff _ _ _).mp he
    refine iff_of_true ?_ ⟨((h.listed e.1 e.2 ht).2 c hc).2.2, hexp⟩
    unfold closeConn
    rw [if_pos hopen]
  · rename_i hnot
    refine iff_of_false (by simp [hstate]) fun ⟨htoken, hexp⟩ => ?_
    have hdate : (p.conns c).tokenExpiredAt ≠ none := by
      intro hnone
      simp [WebSocketConnection.expired, hnone] at hexp
    obtain ⟨t, cs, ht, hc⟩ := hu.covered c hopen htoken hdate
    exact hnot ⟨(t, cs), (JsMap.mem_entries_iff _ _ _).mpr ht, hc, hexp⟩

/-! ### The operations -/

lemma uniform_init : init.Uniform where
  lists t cs ht := by simp [init] at ht
  covered c hopen := by simp [init, WebSocketConnection.isOpen, WebSocketConnection.new] at hopen

lemma Uniform.congr {p q : Proxy} (hu : p.Uniform) (hc : q.conns = p.conns)
    (ht : q.tokenConnections = p.tokenConnections) : q.Uniform :=
  ⟨by rw [hc, ht]; exact hu.lists, by rw [hc, ht]; exact hu.covered⟩

lemma mem_listed_accept {p : Proxy} {c c' : ConnectionId} (payload : JWTPayload)
    (h : ∃ t cs, p.tokenConnections.get t = some cs ∧ c' ∈ cs) :
    ∃ t cs, (p.accept c payload).tokenConnections.get t = some cs ∧ c' ∈ cs := by
  obtain ⟨t, cs, ht, hc⟩ := h
  by_cases he : t = payload.tokenId
  · refine ⟨payload.tokenId, _, by rw [get_accept, if_pos rfl], ?_⟩
    exact List.mem_append_left _ (mem_connectionsOf.mpr ⟨cs, he ▸ ht, hc⟩)
  · exact ⟨t, cs, by rw [get_accept, if_neg he, ht], hc⟩

lemma Uniform.accept {p : Proxy} (hu : p.Uniform) (c : ConnectionId) (payload : JWTPayload)
    (hok : p.AcceptOk c payload.tokenId (payload.expiredAt.or (p.conns c).tokenExpiredAt)) :
    (p.accept c payload).Uniform := by
  have hexpiry : ∀ c', ((p.accept c payload).conns c').tokenExpiredAt =
      if c' = c then payload.expiredAt.or (p.conns c).tokenExpiredAt
      else (p.conns c').tokenExpiredAt := by
    intro c'
    rw [conns_accept]
    split <;> rfl
  have hok' : ∀ t cs, p.tokenConnections.get t = some cs → c ∈ cs ∨ t = payload.tokenId →
      ∀ c' ∈ cs, ((p.accept c payload).conns c').tokenExpiredAt =
        payload.expiredAt.or (p.conns c).tokenExpiredAt := by
    intro t cs ht htouch c' hc'
    rw [hexpiry]
    split
    · rfl
    · exact hok (t, cs) ((JsMap.mem_entries_iff _ _ _).mpr ht) htouch c' hc' ‹_›
  refine ⟨fun t cs ht => ?_, fun c' hopen htoken hdate => ?_⟩
  · rw [get_accept] at ht
    split at ht
    · -- the list of the accepted token
      cases ht
      have hall : ∀ c' ∈ p.connectionsOf payload.tokenId ++ [c],
          ((p.accept c payload).conns c').tokenExpiredAt =
            payload.expiredAt.or (p.conns c).tokenExpiredAt := by
        intro c' hc'
        rcases List.mem_append.mp hc' with hold | hnew
        · obtain ⟨old, hget, hmem⟩ := mem_connectionsOf.mp hold
          exact hok' _ old hget (.inr rfl) c' hmem
        · rw [List.mem_singleton.mp hnew, hexpiry, if_pos rfl]
      intro c₁ hc₁ c₂ hc₂
      rw [hall c₁ hc₁, hall c₂ hc₂]
    · by_cases hc : c ∈ cs
      · intro c₁ hc₁ c₂ hc₂
        rw [hok' t cs ht (.inl hc) c₁ hc₁, hok' t cs ht (.inl hc) c₂ hc₂]
      · have hsame : ∀ c' ∈ cs, ((p.accept c payload).conns c').tokenExpiredAt =
            (p.conns c').tokenExpiredAt := by
          intro c' hc'
          have hne : c' ≠ c := fun he => hc (he ▸ hc')
          rw [hexpiry, if_neg hne]
        intro c₁ hc₁ c₂ hc₂
        rw [hsame c₁ hc₁, hsame c₂ hc₂]
        exact hu.lists t cs ht c₁ hc₁ c₂ hc₂
  · by_cases hc : c' = c
    · exact ⟨payload.tokenId, _, by rw [get_accept, if_pos rfl], by simp [hc]⟩
    · rw [conns_accept, if_neg hc] at hopen htoken hdate
      exact mem_listed_accept payload (hu.covered c' hopen htoken hdate)

lemma Uniform.openConnection {p : Proxy} (h : p.WF) (hu : p.Uniform) {c : ConnectionId}
    (hc : (p.conns c).readyState = .connecting) : (p.openConnection c).Uniform where
  lists t cs ht := by
    have hsame : ∀ c' ∈ cs, (p.openConnection c).conns c' = p.conns c' := by
      intro c' hc'
      rw [conns_openConnection, if_neg]
      rintro rfl
      exact ((h.listed t cs ht).2 c' hc').1 hc
    intro c₁ hc₁ c₂ hc₂
    rw [hsame c₁ hc₁, hsame c₂ hc₂]
    exact hu.lists t cs ht c₁ hc₁ c₂ hc₂
  covered c' hopen htoken hdate := by
    rw [conns_openConnection] at hopen htoken hdate
    split at htoken
    · exact absurd rfl htoken
    · rename_i hne
      rw [if_neg hne] at hopen hdate
      exact hu.covered c' hopen htoken hdate

lemma Uniform.handleConnection {p : Proxy} (h : p.WF) (hu : p.Uniform) {c : ConnectionId}
    (hc : (p.conns c).readyState = .connecting) (token : Option CheckClientTokenResponse)
    (hok : p.ExpiryOk (.handleConnection c token)) : (p.handleConnection c token).Uniform := by
  have hopened := hu.openConnection h hc
  unfold Proxy.handleConnection
  rcases token with _ | payload | _
  · refine Uniform.congr (p := (p.openConnection c).modify c
      fun conn => { conn with access := some .empty }) ⟨fun t cs ht => ?_, ?_⟩
      (send_conns _ _ _) (send_tokenConnections _ _ _)
    · have hsame : ∀ c', (((p.openConnection c).modify c
          fun conn => { conn with access := some .empty }).conns c').tokenExpiredAt =
            ((p.openConnection c).conns c').tokenExpiredAt := by
        intro c'
        rw [conns_modify]
        split
        · rename_i he
          rw [he]
        · rfl
      simp only [hsame]
      exact hopened.lists t cs ht
    · intro c' hopen htoken hdate
      rw [conns_modify] at hopen htoken hdate
      split at htoken
      · simp [conns_openConnection, WebSocketConnection.new] at htoken
      · rename_i hne
        rw [if_neg hne] at hopen hdate
        exact hopened.covered c' hopen htoken hdate
  · simp only [Proxy.initClient, applyToken_ok]
    refine (hopened.accept c payload ?_).congr (send_conns _ _ _) (send_tokenConnections _ _ _)
    have hnone : ((p.openConnection c).conns c).tokenExpiredAt = none := by
      rw [conns_openConnection, if_pos rfl]
      rfl
    rw [hnone, Option.or_none]
    intro e he htouch c' hc' hne
    rw [conns_openConnection, if_neg hne]
    exact hok e he htouch c' hc' hne
  · exact hopened.congr (send_conns _ _ _) (send_tokenConnections _ _ _)

lemma Uniform.onSetToken {p : Proxy} (hu : p.Uniform) (c : ConnectionId)
    (response : CheckClientTokenResponse) (hok : p.ExpiryOk (.onSetToken c response)) :
    (p.onSetToken c response).Uniform := by
  cases response with
  | error status => exact hu.congr (send_conns _ _ _) (send_tokenConnections _ _ _)
  | ok payload =>
    refine (hu.accept c payload hok).congr ?_ ?_
    · simp [Proxy.onSetToken, applyToken_ok]
    · simp [Proxy.onSetToken, applyToken_ok]

lemma finishJoin_eq (p : Proxy) (c : ConnectionId) (d : DocKey) (status : Status) :
    (p.finishJoin c d status).conns = p.conns ∧
      (p.finishJoin c d status).tokenConnections = p.tokenConnections := by
  cases status <;> simp [Proxy.finishJoin]

lemma joinAnswered_eq (p : Proxy) (c : ConnectionId) (d : DocKey)
    (response : DocIsPublicResponse) : (p.joinAnswered c d response).conns = p.conns ∧
      (p.joinAnswered c d response).tokenConnections = p.tokenConnections := by
  obtain ⟨h₁, -, h₃⟩ := docIsPublicAnswered_eq p d response
  obtain ⟨hf₁, hf₃⟩ := finishJoin_eq (p.docIsPublicAnswered d response).1 c d
    (p.docIsPublicAnswered d response).2
  exact ⟨hf₁.trans h₁, hf₃.trans h₃⟩

lemma onJoin_eq (p : Proxy) (c : ConnectionId) (d : DocKey) (response : DocIsPublicResponse) :
    (p.onJoin c d response).conns = p.conns ∧
      (p.onJoin c d response).tokenConnections = p.tokenConnections := by
  unfold Proxy.onJoin
  split
  · exact ⟨rfl, rfl⟩
  · exact finishJoin_eq p c d _
  · exact finishJoin_eq p c d _
  · exact joinAnswered_eq p c d response

lemma Uniform.onUpdateTokenMessage {p : Proxy} (h : p.WF) (hu : p.Uniform)
    (m : UpdateTokenMessage) (hok : p.ExpiryOk (.onUpdateTokenMessage m)) :
    (p.onUpdateTokenMessage m).Uniform := by
  rcases h.onUpdateTokenMessage_cases m with ⟨heq, -⟩ | ⟨cs, rights, hup⟩
  · rwa [heq]
  · obtain ⟨hshared, hoverwritten⟩ := hok cs hup.listed
    have hexpiry : ∀ c, ((p.onUpdateTokenMessage m).conns c).tokenExpiredAt =
        if c ∈ cs then some (newDate m.expiredAt) else (p.conns c).tokenExpiredAt := by
      intro c
      rw [hup.conns]
      split <;> rfl
    refine ⟨fun t cs' ht => ?_, fun c hopen htoken hdate => ?_⟩
    · rw [hup.lists] at ht
      split at ht
      · cases ht
        intro c₁ hc₁ c₂ hc₂
        rw [hexpiry, hexpiry, if_pos hc₁, if_pos hc₂]
      · split at ht
        · cases ht
        · rename_i hnew hold
          by_cases hmeet : ∃ c ∈ cs', c ∈ cs
          · have hall : ∀ c ∈ cs', ((p.onUpdateTokenMessage m).conns c).tokenExpiredAt =
                some (newDate m.expiredAt) := by
              intro c hc
              rw [hexpiry]
              split
              · rfl
              · exact (hshared (t, cs') ((JsMap.mem_entries_iff _ _ _).mpr ht) hold hnew hmeet c
                  hc).resolve_left ‹_›
            intro c₁ hc₁ c₂ hc₂
            rw [hall c₁ hc₁, hall c₂ hc₂]
          · have hsame : ∀ c ∈ cs', ((p.onUpdateTokenMessage m).conns c).tokenExpiredAt =
                (p.conns c).tokenExpiredAt := by
              intro c hc
              rw [hexpiry, if_neg fun hc' => hmeet ⟨c, hc, hc'⟩]
            intro c₁ hc₁ c₂ hc₂
            rw [hsame c₁ hc₁, hsame c₂ hc₂]
            exact hu.lists t cs' ht c₁ hc₁ c₂ hc₂
    · by_cases hc : c ∈ cs
      · exact ⟨m.tokenId, cs, by rw [hup.lists, if_pos rfl], hc⟩
      · rw [hup.conns, if_neg hc] at hopen htoken hdate
        obtain ⟨t, cs', ht, hc'⟩ := hu.covered c hopen htoken hdate
        have hold : t ≠ m.oldTokenId := by
          rintro rfl
          exact hc (Option.some.inj (ht.symm.trans hup.listed) ▸ hc')
        by_cases hnew : t = m.tokenId
        · have hother := hoverwritten (hnew ▸ hold) c
            (mem_connectionsOf.mpr ⟨cs', hnew ▸ ht, hc'⟩) hopen hdate
          obtain ⟨e, he, heold, henew, hce⟩ := hother.resolve_left hc
          refine ⟨e.1, e.2, ?_, hce⟩
          rw [hup.lists, if_neg henew, if_neg heold]
          exact (JsMap.mem_entries_iff _ _ _).mp he
        · exact ⟨t, cs', by rw [hup.lists, if_neg hnew, if_neg hold, ht], hc'⟩

lemma Uniform.checkedBy {p p' : Proxy} (hu : p.Uniform) (hp : p.CheckedBy p') : p'.Uniform := by
  have hexpiry : ∀ c, (p'.conns c).tokenExpiredAt = (p.conns c).tokenExpiredAt := by
    intro c
    rcases hp.conns c with hc | hc
    · rw [hc]
    · rw [hc, closeConn_tokenExpiredAt]
  refine ⟨fun t cs ht => ?_, fun c hopen htoken hdate => ?_⟩
  · simp only [hexpiry]
    exact hu.lists t cs (hp.lists t cs ht)
  · have hc : p'.conns c = p.conns c := by
      refine (hp.conns c).resolve_right fun hc => ?_
      rw [hc, closeConn_isOpen] at hopen
      cases hopen
    have hopen' := hopen
    rw [hc] at hopen htoken hdate
    obtain ⟨t, cs, ht, hmem⟩ := hu.covered c hopen htoken hdate
    refine ⟨t, cs, (hp.dropped t cs ht).resolve_right fun hclosed => ?_, hmem⟩
    rw [hclosed c hmem] at hopen'
    cases hopen'

lemma Uniform.handleDisconnect {p : Proxy} (hu : p.Uniform) (c : ConnectionId) :
    (p.handleDisconnect c).Uniform := by
  have hexpiry : ∀ c', ((p.handleDisconnect c).conns c').tokenExpiredAt =
      (p.conns c').tokenExpiredAt := by
    intro c'
    rw [conns_handleDisconnect]
    split
    · rename_i he
      rw [he]
    · rfl
  refine ⟨fun t cs ht => ?_, fun c' hopen htoken hdate => ?_⟩
  · obtain ⟨old, hold, hcs⟩ := get_handleDisconnect p c t cs ht
    have hsub : ∀ c' ∈ cs, c' ∈ old := by
      intro c' hc'
      rw [hcs] at hc'
      split at hc'
      · exact List.mem_of_mem_erase hc'
      · exact hc'
    simp only [hexpiry]
    intro c₁ hc₁ c₂ hc₂
    exact hu.lists t old hold c₁ (hsub c₁ hc₁) c₂ (hsub c₂ hc₂)
  · have hne : c' ≠ c := by
      rintro rfl
      simp [conns_handleDisconnect, WebSocketConnection.isOpen] at hopen
    rw [conns_handleDisconnect, if_neg hne] at hopen htoken hdate
    obtain ⟨t, cs, ht, hc⟩ := hu.covered c' hopen htoken hdate
    unfold Proxy.handleDisconnect
    obtain ⟨cs', hcs', hmem⟩ := mem_removeConnection_of_ne (p := { p.modify c fun conn =>
      { conn with readyState := .closed } with docService := p.docService.disconnect c }) hne ht hc
    exact ⟨t, cs', hcs', hmem⟩

lemma uniform_step {isPublic : DocKey → Bool} {p p' : Proxy} {op : ProxyOp} (h : p.WF)
    (hu : p.Uniform) (hok : p.ExpiryOk op) (hs : p.step isPublic op = some p') : p'.Uniform := by
  cases op with
  | handleConnection c token =>
    simp only [step, Option.ite_none_right_eq_some, Option.some.injEq] at hs
    exact hs.2 ▸ hu.handleConnection h hs.1 token hok
  | onJoin c d response =>
    simp only [step, Option.ite_none_right_eq_some, Option.some.injEq] at hs
    obtain ⟨hc, ht⟩ := onJoin_eq p c d response
    exact hs.2 ▸ hu.congr hc ht
  | onSetToken c response =>
    simp only [step, Option.ite_none_right_eq_some, Option.some.injEq] at hs
    exact hs.2 ▸ hu.onSetToken c response hok
  | onUpdateTokenMessage m =>
    cases hs
    exact hu.onUpdateTokenMessage h m hok
  | checkTokenExpiration now =>
    cases hs
    exact hu.checkedBy (checkTokenExpiration_checkedBy p now)
  | handleDisconnect c =>
    simp only [step, Option.ite_none_right_eq_some, Option.some.injEq] at hs
    exact hs.2 ▸ hu.handleDisconnect c

/-- In runs whose operations meet `ExpiryOk`, the check closes exactly the open connections
with a token that has expired. -/
theorem expires_exactly (isPublic : DocKey → Bool) (ops : List ProxyOp) (p : Proxy)
    (hrun : Stepper.run (step isPublic) init ops = some p)
    (hok : Stepper.Guarded (step isPublic) ExpiryOk init ops) (now : Int) (c : ConnectionId) :
    ((p.conns c).isOpen ∧ ((p.checkTokenExpiration now).conns c).readyState = .closing) ↔
      (p.conns c).isOpen ∧ (p.conns c).tokenId ≠ none ∧ (p.conns c).expired now := by
  have hinv := Stepper.run_invariant (fun q : Proxy => q.WF ∧ q.Uniform)
    (fun q op q' hq hop hs => ⟨wf_step hq.1 hs, uniform_step hq.1 hq.2 hop hs⟩)
    hrun hok ⟨wf_init, uniform_init⟩
  exact hinv.2.exact hinv.1 now c

/-- An answer for a token with an expiry and no documents. -/
def expiring (tokenId : TokenId) (ms : Int) : CheckClientTokenResponse :=
  .ok ⟨tokenId, "consumer", "user", some (.time ms), []⟩

/-- Two connections of one token, updated to a later expiry and checked at that time. -/
theorem expires_exactly_after_update :
    ∃ p, Stepper.run (step fun _ => false) init [.handleConnection "a" (some (expiring "t" 10)),
        .handleConnection "b" (some (expiring "t" 10)),
        .onUpdateTokenMessage ⟨"jwt", "u", "t", "consumer", "user", some (.time 30), []⟩] = some p ∧
      (((p.conns "b").isOpen ∧ ((p.checkTokenExpiration 30).conns "b").readyState = .closing) ↔
        (p.conns "b").isOpen ∧ (p.conns "b").tokenId ≠ none ∧ (p.conns "b").expired 30) := by
  obtain ⟨p, hrun⟩ : ∃ p, Stepper.run (step fun _ => false) init
      [.handleConnection "a" (some (expiring "t" 10)),
        .handleConnection "b" (some (expiring "t" 10)),
        .onUpdateTokenMessage ⟨"jwt", "u", "t", "consumer", "user", some (.time 30), []⟩] =
      some p := ⟨_, rfl⟩
  exact ⟨p, hrun, expires_exactly _ _ p hrun (by decide) 30 "b"⟩

/-- The first connection of the list takes another token with a later expiry and stays in the
list, so the second one outlives its own token. -/
theorem expired_left_open :
    ¬∀ (isPublic : DocKey → Bool) (ops : List ProxyOp) (p : Proxy),
      Stepper.run (step isPublic) init ops = some p → ∀ now c,
        ((p.conns c).isOpen ∧ ((p.checkTokenExpiration now).conns c).readyState = .closing) ↔
          (p.conns c).isOpen ∧ (p.conns c).tokenId ≠ none ∧ (p.conns c).expired now := by
  intro h
  have hrun := h (fun _ => false) [.handleConnection "a" (some (expiring "t" 10)),
    .handleConnection "b" (some (expiring "t" 10)), .onSetToken "a" (expiring "u" 30)] _ rfl 20 "b"
  revert hrun
  decide

end Proxy

end AlaFois
