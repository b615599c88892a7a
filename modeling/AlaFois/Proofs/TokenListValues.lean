import AlaFois.Proofs.ProxySpec
import AlaFois.Proofs.TokenLists

/-!
# The lists as values

As no array is filed under two keys, writing to it is setting the list of its one key. So the
instance with the arrays does what the instance with the lists in the map does, which is the one that
the other modules are about.
-/

namespace AlaFois

namespace Proxy

variable {p : Proxy}

/-! ### What does not look at the lists -/

lemma send_lists (c : ConnectionId) (message : ServerMessage)
    (lists : JsMap TokenId (List ConnectionId)) :
    { p with tokenConnections := lists }.send c message =
      { p.send c message with tokenConnections := lists } := by
  unfold send
  dsimp only
  split <;> rfl

lemma close_lists (c : ConnectionId) (lists : JsMap TokenId (List ConnectionId)) :
    { p with tokenConnections := lists }.close c = { p.close c with tokenConnections := lists } := by
  unfold close
  dsimp only
  split <;> rfl

lemma updateConnections_lists (m : UpdateTokenMessage) (diff : TokenRightsDiff)
    (cs : List ConnectionId) (lists : JsMap TokenId (List ConnectionId)) :
    cs.foldl (updateConnection m diff) { p with tokenConnections := lists } =
      { cs.foldl (updateConnection m diff) p with tokenConnections := lists } := by
  induction cs generalizing p with
  | nil => rfl
  | cons c cs ih =>
    have hround : updateConnection m diff { p with tokenConnections := lists } c =
        { updateConnection m diff p c with tokenConnections := lists } := by
      obtain ⟨q, hq, hq'⟩ : ∃ q : Proxy,
          updateConnection m diff p c = q.send c (.updateToken m.token diff) ∧
            updateConnection m diff { p with tokenConnections := lists } c =
              { q with tokenConnections := lists }.send c (.updateToken m.token diff) :=
        ⟨_, rfl, rfl⟩
      rw [hq, hq', send_lists]
    rw [List.foldl_cons, List.foldl_cons, hround, ih]

lemma expireConnections_lists (cs : List ConnectionId) (lists : JsMap TokenId (List ConnectionId)) :
    expireConnections cs { p with tokenConnections := lists } =
      ({ (expireConnections cs p).1 with tokenConnections := lists },
        (expireConnections cs p).2) := by
  induction cs generalizing p with
  | nil => rfl
  | cons c cs ih =>
    cases hexp : (p.conns c).tokenExpiredAt with
    | none => simp only [expireConnections, hexp]
    | some expiredAt =>
      obtain ⟨q, hq, hq'⟩ : ∃ q : Proxy,
          expireConnections (c :: cs) p = expireConnections cs (q.close c) ∧
            expireConnections (c :: cs) { p with tokenConnections := lists } =
              expireConnections cs ({ q with tokenConnections := lists }.close c) := by
        refine ⟨_, by simp only [expireConnections, hexp]; rfl, ?_⟩
        simp only [expireConnections, hexp, send_lists]
      rw [hq, hq', close_lists, ih]

end Proxy

namespace TokenLists

variable {s : TokenLists} {p : Proxy}

/-- The instance with the same connections and the lists that the arrays hold. -/
structure Shows (s : TokenLists) (p : Proxy) : Prop where
  rest : p = { s.rest with tokenConnections := p.tokenConnections }
  entries : p.tokenConnections.entries.map (Prod.map some id) =
    s.tokenConnections.entries.map (Prod.map id s.lists)

lemma shows_init (rest : Proxy) : (init rest).Shows { rest with tokenConnections := .empty } :=
  ⟨rfl, rfl⟩

lemma Shows.rest_with (h : s.Shows p) (lists : JsMap TokenId (List ConnectionId)) :
    { p with tokenConnections := lists } = { s.rest with tokenConnections := lists } := by
  conv_lhs => rw [h.rest]

lemma Shows.conns (h : s.Shows p) : p.conns = s.rest.conns := by rw [h.rest]

/-- What is filed under a token, and that nothing is filed under `undefined`. -/
lemma Shows.get (h : s.Shows p) (t : TokenId) :
    p.tokenConnections.get t = (s.tokenConnections.get (some t)).map s.lists := by
  have hleft := JsMap.find_map (fun _ _ => Option.some.inj) (id : List ConnectionId → _) t
    p.tokenConnections.entries
  have hright := JsMap.find_map Function.injective_id s.lists (some t) s.tokenConnections.entries
  rw [h.entries] at hleft
  rw [Option.map_id_fun, id] at hleft
  exact hleft.symm.trans hright

lemma Shows.get_none (h : s.Shows p) : s.tokenConnections.get none = none := by
  rw [Option.eq_none_iff_forall_ne_some]
  intro ref hget
  have hmem : (none, s.lists ref) ∈ s.tokenConnections.entries.map (Prod.map id s.lists) :=
    List.mem_map_of_mem (f := Prod.map id s.lists) ((JsMap.mem_entries_iff _ _ _).mpr hget)
  rw [← h.entries] at hmem
  obtain ⟨e, -, he⟩ := List.mem_map.mp hmem
  cases he

/-! ### Operations -/

/-- Another value in the map, and the same in the entries of the arrays. -/
lemma Shows.entries_set (h : s.Shows p) (t : TokenId) (cs : List ConnectionId) :
    (p.tokenConnections.set t cs).entries.map (Prod.map some id) =
      JsMap.put (some t) cs (s.tokenConnections.entries.map (Prod.map id s.lists)) := by
  rw [← h.entries]
  exact JsMap.map_put (fun _ _ => Option.some.inj) id t cs p.tokenConnections.entries

lemma Shows.entries_delete (h : s.Shows p) (t : TokenId) :
    (p.tokenConnections.delete t).entries.map (Prod.map some id) =
      (s.tokenConnections.delete (some t)).entries.map (Prod.map id s.lists) := by
  have hleft := JsMap.map_filter_ne (fun _ _ => Option.some.inj) (id : List ConnectionId → _) t
    p.tokenConnections.entries
  have hright := JsMap.map_filter_ne Function.injective_id s.lists (some t)
    s.tokenConnections.entries
  rw [h.entries] at hleft
  exact hleft.trans hright.symm

/-- Writing to the array of a token is setting the list of the token. -/
lemma Shows.entries_update (h : s.Shows p) (howned : s.Owned) {t : TokenId} {ref : ListRef}
    (hget : s.tokenConnections.get (some t) = some ref) (cs : List ConnectionId) :
    (p.tokenConnections.set t cs).entries.map (Prod.map some id) =
      s.tokenConnections.entries.map (Prod.map id (s.update ref cs).lists) := by
  rw [h.entries_set]
  refine (JsMap.map_update s.tokenConnections.nodup_keys hget (fun e he href => ?_) s.lists cs).symm
  refine howned.unshared e.1 (some t) ref ?_ hget
  rw [← href]
  exact (JsMap.mem_entries_iff _ _ _).mp he

lemma Shows.addConnection (h : s.Shows p) (howned : s.Owned) {c : ConnectionId} {t : TokenId}
    (ht : (s.rest.conns c).tokenId = some t) : (s.addConnection c).Shows (p.addConnection c) := by
  have hp : p.addConnection c =
      { p with tokenConnections := p.tokenConnections.set t (p.connectionsOf t ++ [c]) } := by
    simp only [Proxy.addConnection, h.conns, ht]
  rw [hp]
  cases hget : s.tokenConnections.get (some t) with
  | some ref =>
    have hlist : p.connectionsOf t = s.lists ref := by rw [Proxy.connectionsOf, h.get, hget]; rfl
    rw [addConnection_of_some (ht.symm ▸ hget), ht, hlist]
    refine ⟨h.rest_with _, ?_⟩
    refine (h.entries_update howned hget _).trans ?_
    have hsame : (s.tokenConnections.set (some t) ref).entries = s.tokenConnections.entries :=
      JsMap.put_of_find hget
    exact congrArg (List.map _) hsame.symm
  | none =>
    have hlist : p.connectionsOf t = [] := by rw [Proxy.connectionsOf, h.get, hget]; rfl
    rw [addConnection_of_none (ht.symm ▸ hget), ht, hlist]
    refine ⟨h.rest_with _, ?_⟩
    refine (h.entries_set t [c]).trans ?_
    have hold : s.tokenConnections.entries.map (Prod.map id (s.update s.nextRef [c]).lists) =
        s.tokenConnections.entries.map (Prod.map id s.lists) := by
      refine List.map_congr_left fun e he => Prod.ext rfl ?_
      have hlt := howned.lt e.1 e.2 ((JsMap.mem_entries_iff _ _ _).mp he)
      simp [update, Nat.ne_of_lt hlt]
    have hput := JsMap.map_put Function.injective_id (s.update s.nextRef [c]).lists (some t) s.nextRef
      s.tokenConnections.entries
    rw [hold] at hput
    refine Eq.trans ?_ hput.symm
    simp [update]

lemma Shows.removeConnection (h : s.Shows p) (howned : s.Owned) (c : ConnectionId) :
    (s.removeConnection c).Shows (p.removeConnection c) := by
  cases ht : (s.rest.conns c).tokenId with
  | none =>
    have hp : p.removeConnection c = p := by simp only [Proxy.removeConnection, h.conns, ht]
    rw [hp, removeConnection_of_none (ht.symm ▸ h.get_none)]
    exact h
  | some t =>
    cases hget : s.tokenConnections.get (some t) with
    | none =>
      have hp : p.removeConnection c = p := by
        simp only [Proxy.removeConnection, h.conns, ht, h.get, hget, Option.map_none]
      rw [hp, removeConnection_of_none (ht.symm ▸ hget)]
      exact h
    | some ref =>
      have hp : p.removeConnection c = if ((s.lists ref).erase c).isEmpty then
          { p with tokenConnections := p.tokenConnections.delete t }
          else { p with
            tokenConnections := p.tokenConnections.set t ((s.lists ref).erase c) } := by
        simp only [Proxy.removeConnection, h.conns, ht, h.get, hget, Option.map_some]
      rw [hp, removeConnection_of_some (ht.symm ▸ hget), ht]
      split
      · refine ⟨h.rest_with _, ?_⟩
        refine (h.entries_delete t).trans (List.map_congr_left fun e he => Prod.ext rfl ?_)
        -- the array is not filed any more
        have hkey := (JsMap.mem_entries_iff _ _ _).mp he
        rw [JsMap.get_delete] at hkey
        split at hkey
        · cases hkey
        · rename_i hne
          have href : e.2 ≠ ref := fun href => hne (howned.unshared _ _ ref (href ▸ hkey) hget)
          simp [update, href]
      · refine ⟨h.rest_with _, ?_⟩
        exact h.entries_update howned hget _

/-- What the connections are does not matter. -/
lemma Shows.elsewhere (h : s.Shows p) (rest : Proxy) :
    { s with rest := rest }.Shows { rest with tokenConnections := p.tokenConnections } :=
  ⟨rfl, h.entries⟩

lemma Shows.delete (h : s.Shows p) (t : TokenId) :
    { s with tokenConnections := s.tokenConnections.delete (some t) }.Shows
      { p with tokenConnections := p.tokenConnections.delete t } :=
  ⟨h.rest_with _, h.entries_delete t⟩

lemma Shows.set (h : s.Shows p) (t : TokenId) (ref : ListRef) :
    { s with tokenConnections := s.tokenConnections.set (some t) ref }.Shows
      { p with tokenConnections := p.tokenConnections.set t (s.lists ref) } := by
  refine ⟨h.rest_with _, (h.entries_set t (s.lists ref)).trans ?_⟩
  exact (JsMap.map_put Function.injective_id s.lists (some t) ref s.tokenConnections.entries).symm

lemma Shows.applyToken (h : s.Shows p) (howned : s.Owned) (c : ConnectionId)
    (response : CheckClientTokenResponse) :
    (s.applyToken c response).Shows (p.applyToken c response).1 := by
  cases response with
  | error status => exact h
  | ok payload =>
    let f := fun conn : WebSocketConnection => { conn with
      userId := some payload.userId
      tokenId := some payload.tokenId
      tokenExpiredAt := payload.expiredAt.or conn.tokenExpiredAt
      access := some (createAccessObject payload.docs)
      issuer := some payload.consumerId }
    have hmodify : p.modify c f =
        { s.rest.modify c f with tokenConnections := p.tokenConnections } := by
      conv_lhs => rw [h.rest]
      rfl
    have hshows := h.elsewhere (s.rest.modify c f)
    rw [← hmodify] at hshows
    refine hshows.addConnection (t := payload.tokenId) (howned.elsewhere _) ?_
    simp [Proxy.modify, f]

lemma Shows.onUpdateTokenMessage (h : s.Shows p) (m : UpdateTokenMessage) :
    (s.onUpdateTokenMessage m).1.Shows (p.onUpdateTokenMessage m) := by
  unfold TokenLists.onUpdateTokenMessage Proxy.onUpdateTokenMessage
  rw [h.get]
  cases hget : s.tokenConnections.get (some m.oldTokenId) with
  | none => exact h
  | some ref =>
    dsimp only [Option.map_some]
    cases hlist : s.lists ref with
    | nil => exact h
    | cons c cs =>
      simp only [Proxy.firstAccess, List.head?_cons, Option.bind_some, h.conns]
      cases haccess : (s.rest.conns c).access with
      | none => exact h
      | some access =>
        dsimp only
        have hfold : (c :: cs).foldl (Proxy.updateConnection m (Proxy.updateDiff access m)) p =
            { (c :: cs).foldl (Proxy.updateConnection m (Proxy.updateDiff access m)) s.rest with
              tokenConnections := p.tokenConnections } := by
          conv_lhs => rw [h.rest]
          exact Proxy.updateConnections_lists m _ (c :: cs) _
        rw [hfold]
        have hmoved := ((h.delete m.oldTokenId).set m.tokenId ref).elsewhere
          ((c :: cs).foldl (Proxy.updateConnection m (Proxy.updateDiff access m)) s.rest)
        dsimp only at hmoved
        rw [hlist] at hmoved
        exact hmoved

/-- The keys that are still to come are filed as they were when the loop began. -/
lemma Shows.checkKeys (h : s.Shows p) (now : Int) {es : List (TokenId × List ConnectionId)}
    (hnodup : (es.map Prod.fst).Nodup)
    (hes : ∀ e ∈ es, (s.tokenConnections.get (some e.1)).map s.lists = some e.2) :
    (checkKeys now (es.map fun e => some e.1) s).1.Shows (p.checkLists now es) := by
  induction es generalizing s p with
  | nil => exact h
  | cons e es ih =>
    obtain ⟨t, cs⟩ := e
    obtain ⟨ht, hrestNodup⟩ := List.nodup_cons.mp hnodup
    obtain ⟨ref, hget, hlist⟩ := Option.map_eq_some_iff.mp (hes (t, cs) List.mem_cons_self)
    have hrest : ∀ e ∈ es, (s.tokenConnections.get (some e.1)).map s.lists = some e.2 :=
      fun e he => hes e (List.mem_cons_of_mem _ he)
    rw [List.map_cons, TokenLists.checkKeys]
    simp only [hget, hlist]
    cases cs with
    | nil => exact h
    | cons c cs =>
      simp only [Proxy.checkLists, h.conns]
      cases hexpiry : (s.rest.conns c).tokenExpiredAt with
      | none => exact ih h hrestNodup hrest
      | some expiredAt =>
        dsimp only
        by_cases hafter : expiredAt.after now
        · simp only [hafter, if_true]
          exact ih h hrestNodup hrest
        · simp only [hafter]
          have hexpire : Proxy.expireConnections (c :: cs) p =
              ({ (Proxy.expireConnections (c :: cs) s.rest).1 with
                  tokenConnections := p.tokenConnections },
                (Proxy.expireConnections (c :: cs) s.rest).2) := by
            conv_lhs => rw [h.rest]
            exact Proxy.expireConnections_lists _ _
          rw [hexpire]
          have hshows := h.elsewhere (Proxy.expireConnections (c :: cs) s.rest).1
          generalize Proxy.expireConnections (c :: cs) s.rest = round at hshows ⊢
          obtain ⟨rest, failed⟩ := round
          cases failed with
          | true => exact hshows
          | false =>
            refine ih (hshows.delete t) hrestNodup fun e he => ?_
            have hmem : e.1 ∈ es.map Prod.fst := List.mem_map_of_mem he
            have hne : some e.1 ≠ some t := fun hk => ht (Option.some.inj hk ▸ hmem)
            dsimp only
            rw [JsMap.get_delete_ne _ hne]
            exact hrest e he

lemma Shows.checkTokenExpiration (h : s.Shows p) (now : Int) :
    (s.checkTokenExpiration now).1.Shows (p.checkTokenExpiration now) := by
  have hkeys : s.tokenConnections.keys = p.tokenConnections.entries.map fun e => some e.1 := by
    have hfst := congrArg (List.map Prod.fst) h.entries
    rw [List.map_map, List.map_map] at hfst
    exact hfst.symm
  rw [TokenLists.checkTokenExpiration, hkeys]
  refine h.checkKeys now p.tokenConnections.nodup_keys fun e he => ?_
  rw [← h.get]
  exact (JsMap.mem_entries_iff _ _ _).mp he

/-! ### Runs -/

/-- Only `applyToken` calls `addConnection`, when the connection has its token. -/
lemma Shows.apply (h : s.Shows p) (howned : s.Owned) {op : TokenListOp}
    (hop : ∀ c, op ≠ .addConnection c) : (s.apply op).1.Shows (p.applyListOp op) := by
  cases op with
  | addConnection c => exact absurd rfl (hop c)
  | removeConnection c => exact h.removeConnection howned c
  | applyToken c response => exact h.applyToken howned c response
  | onUpdateTokenMessage m => exact h.onUpdateTokenMessage m
  | checkTokenExpiration now => exact h.checkTokenExpiration now
  | elsewhere rest => exact h.elsewhere rest

lemma Shows.run (h : s.Shows p) (howned : s.Owned) {ops : List TokenListOp}
    (hops : ∀ c, .addConnection c ∉ ops) :
    (ops.foldl (fun s op => (s.apply op).1) s).Shows (ops.foldl Proxy.applyListOp p) := by
  induction ops generalizing s p with
  | nil => exact h
  | cons op ops ih =>
    have hop : ∀ c, op ≠ .addConnection c := fun c hc =>
      hops c (hc ▸ List.mem_cons_self)
    exact ih (h.apply howned hop) (howned.apply op).1
      fun c hc => hops c (List.mem_cons_of_mem op hc)

/-- Over every run, the connections and the lists are those of the instance with the lists. -/
theorem shows_run (rest : Proxy) {ops : List TokenListOp} (hops : ∀ c, .addConnection c ∉ ops) :
    (ops.foldl (fun s op => (s.apply op).1) (init rest)).Shows
      (ops.foldl Proxy.applyListOp { rest with tokenConnections := .empty }) :=
  (shows_init rest).run (owned_init rest) hops

end TokenLists

end AlaFois
