import AlaFois.Proofs.Expiration

/-!
# The index of the tokens

`tokenConnections` files a connection under its token, which is a field of the connection. The
index is exact when every list holds the open connections of its token once each and these have
one table and one expiry; `IndexOk` says which operations keep it so.
-/

namespace AlaFois

/-- Which of the two rights a table gives, if it lists the document. -/
def tableRights (access : Option Access) (d : DocKey) : Option (Bool × Bool) :=
  (access.bind (·.get d)).map fun data => (Right.read ∈ data.rights, Right.write ∈ data.rights)

/-- The same access rights, whatever the order of the documents and of their rights. -/
def SameRights (a b : Option Access) : Prop := ∀ d, tableRights a d = tableRights b d

lemma SameRights.refl (a : Option Access) : SameRights a a := fun _ => rfl

lemma SameRights.symm {a b : Option Access} (h : SameRights a b) : SameRights b a :=
  fun d => (h d).symm

lemma SameRights.trans {a b c : Option Access} (h : SameRights a b) (h' : SameRights b c) :
    SameRights a c := fun d => (h d).trans (h' d)

namespace WebSocketConnection

/-- The connection has the rights and the expiry of a token. -/
def Carries (conn : WebSocketConnection) (access : Access) (expiry : Option JsDate) : Prop :=
  SameRights conn.access (some access) ∧ conn.tokenExpiredAt = expiry

/-- Two connections that the checks cannot tell apart. -/
def Alike (conn conn' : WebSocketConnection) : Prop :=
  SameRights conn.access conn'.access ∧ conn.tokenExpiredAt = conn'.tokenExpiredAt

lemma Carries.alike {conn conn' : WebSocketConnection} {access : Access} {expiry : Option JsDate}
    (h : conn.Carries access expiry) (h' : conn'.Carries access expiry) : conn.Alike conn' :=
  ⟨h.1.trans h'.1.symm, h.2.trans h'.2.symm⟩

end WebSocketConnection

namespace Proxy

/-- Every list holds the open connections with its token, each once, and these are alike. -/
structure IndexExact (p : Proxy) : Prop where
  counted : ∀ t c, (p.connectionsOf t).count c =
    if (p.conns c).isOpen = true ∧ (p.conns c).tokenId = some t then 1 else 0
  alike : ∀ t, ∀ c ∈ p.connectionsOf t, ∀ c' ∈ p.connectionsOf t, (p.conns c).Alike (p.conns c')

/-- A token is accepted for an open connection that has none yet and carried by all connections
that have it; and an update does not meet a list of its new token. -/
def IndexOk (p : Proxy) : ProxyOp → Prop
  | .handleConnection _ (some (.ok payload)) => ∀ c ∈ p.connectionsOf payload.tokenId,
      (p.conns c).Carries (createAccessObject payload.docs) payload.expiredAt
  | .onSetToken c (.ok payload) => (p.conns c).isOpen = true ∧ (p.conns c).tokenId = none ∧
      ∀ c' ∈ p.connectionsOf payload.tokenId, (p.conns c').Carries (createAccessObject payload.docs)
        (payload.expiredAt.or (p.conns c).tokenExpiredAt)
  | .onUpdateTokenMessage m => p.tokenConnections.get m.oldTokenId ≠ none →
      m.tokenId ≠ m.oldTokenId → p.tokenConnections.get m.tokenId = none
  | _ => True

variable {p q : Proxy}

lemma IndexExact.mem_iff (h : p.IndexExact) {t : TokenId} {c : ConnectionId} :
    c ∈ p.connectionsOf t ↔ (p.conns c).isOpen = true ∧ (p.conns c).tokenId = some t := by
  rw [← List.count_pos_iff, h.counted]
  split
  · exact iff_of_true Nat.one_pos ‹_›
  · exact iff_of_false (Nat.lt_irrefl 0) ‹_›

lemma IndexExact.nodup (h : p.IndexExact) (t : TokenId) : (p.connectionsOf t).Nodup := by
  rw [List.nodup_iff_count_le_one]
  intro c
  rw [h.counted]
  split
  · exact le_rfl
  · exact Nat.zero_le 1

/-- The index is exact when its lists are told by their members. -/
lemma IndexExact.of_nodup (hnodup : ∀ t, (p.connectionsOf t).Nodup)
    (hmem : ∀ t c, c ∈ p.connectionsOf t ↔
      (p.conns c).isOpen = true ∧ (p.conns c).tokenId = some t)
    (halike : ∀ t, ∀ c ∈ p.connectionsOf t, ∀ c' ∈ p.connectionsOf t,
      (p.conns c).Alike (p.conns c')) : p.IndexExact where
  counted t c := by
    split
    · exact List.count_eq_one_of_mem (hnodup t) ((hmem t c).mpr ‹_›)
    · exact List.count_eq_zero.mpr (mt (hmem t c).mp ‹_›)
  alike := halike

lemma IndexExact.not_mem_of_tokenId (h : p.IndexExact) {c : ConnectionId}
    (hnone : (p.conns c).tokenId = none) (t : TokenId) : c ∉ p.connectionsOf t := by
  intro hc
  rw [(h.mem_iff.mp hc).2] at hnone
  cases hnone

lemma indexExact_init : init.IndexExact where
  counted t c := by simp [init, connectionsOf, WebSocketConnection.isOpen, WebSocketConnection.new]
  alike t c hc := by simp [init, connectionsOf] at hc

/-- The lists, and of a connection the fields that the index is about. -/
lemma IndexExact.congr (h : p.IndexExact) (hl : ∀ t, q.connectionsOf t = p.connectionsOf t)
    (hopen : ∀ c, (q.conns c).isOpen = (p.conns c).isOpen)
    (htoken : ∀ c, (q.conns c).tokenId = (p.conns c).tokenId)
    (hsame : ∀ t, ∀ c ∈ p.connectionsOf t, (q.conns c).access = (p.conns c).access ∧
      (q.conns c).tokenExpiredAt = (p.conns c).tokenExpiredAt) : q.IndexExact where
  counted t c := by rw [hl, hopen, htoken, h.counted]
  alike t c hc c' hc' := by
    rw [hl] at hc hc'
    obtain ⟨ha, he⟩ := hsame t c hc
    obtain ⟨ha', he'⟩ := hsame t c' hc'
    unfold WebSocketConnection.Alike
    rw [ha, he, ha', he']
    exact h.alike t c hc c' hc'

lemma connectionsOf_congr (h : q.tokenConnections = p.tokenConnections) (t : TokenId) :
    q.connectionsOf t = p.connectionsOf t := by
  unfold connectionsOf
  rw [h]

lemma connectionsOf_accept (p : Proxy) (c : ConnectionId) (payload : JWTPayload) (t : TokenId) :
    (p.accept c payload).connectionsOf t =
      if t = payload.tokenId then p.connectionsOf payload.tokenId ++ [c]
      else p.connectionsOf t := by
  rw [connectionsOf, get_accept]
  split
  · rfl
  · rfl

lemma conns_accept_ne (p : Proxy) {c c' : ConnectionId} (hne : c' ≠ c) (payload : JWTPayload) :
    (p.accept c payload).conns c' = p.conns c' := by
  rw [conns_accept, if_neg hne]

lemma carries_accept (p : Proxy) (c : ConnectionId) (payload : JWTPayload) :
    ((p.accept c payload).conns c).Carries (createAccessObject payload.docs)
      (payload.expiredAt.or (p.conns c).tokenExpiredAt) := by
  rw [conns_accept, if_pos rfl]
  exact ⟨SameRights.refl _, rfl⟩

/-- An accepted token puts a connection that was in no list into that of its token. -/
lemma IndexExact.accept (h : p.IndexExact) {c : ConnectionId} {payload : JWTPayload}
    (hopen : (p.conns c).isOpen = true) (hnone : (p.conns c).tokenId = none)
    (hothers : ∀ c' ∈ p.connectionsOf payload.tokenId,
      (p.conns c').Carries (createAccessObject payload.docs)
        (payload.expiredAt.or (p.conns c).tokenExpiredAt)) : (p.accept c payload).IndexExact := by
  have hnot := h.not_mem_of_tokenId hnone
  refine .of_nodup (fun t => ?_) (fun t c' => ?_) fun t c₁ hc₁ c₂ hc₂ => ?_
  · rw [connectionsOf_accept]
    split
    · exact (h.nodup _).append (List.nodup_singleton c) (by simpa using hnot _)
    · exact h.nodup t
  · rw [connectionsOf_accept]
    by_cases hc : c' = c
    · subst hc
      rw [conns_accept, if_pos rfl]
      by_cases ht : t = payload.tokenId
      · rw [if_pos ht]
        exact iff_of_true (List.mem_append_right _ List.mem_cons_self) ⟨hopen, by rw [ht]⟩
      · rw [if_neg ht]
        exact iff_of_false (hnot t) fun hboth => ht (Option.some.inj hboth.2).symm
    · rw [conns_accept_ne p hc]
      split
      · rename_i ht
        rw [ht, List.mem_append, List.mem_singleton, or_iff_left hc]
        exact h.mem_iff
      · exact h.mem_iff
  · have hall : ∀ c' ∈ (p.accept c payload).connectionsOf payload.tokenId,
        ((p.accept c payload).conns c').Carries (createAccessObject payload.docs)
          (payload.expiredAt.or (p.conns c).tokenExpiredAt) := by
      intro c' hc'
      rw [connectionsOf_accept, if_pos rfl] at hc'
      rcases List.mem_append.mp hc' with hold | hnew
      · rw [conns_accept_ne p fun he => hnot _ (he ▸ hold)]
        exact hothers c' hold
      · rw [List.mem_singleton.mp hnew]
        exact carries_accept p c payload
    by_cases ht : t = payload.tokenId
    · subst ht
      exact (hall c₁ hc₁).alike (hall c₂ hc₂)
    · rw [connectionsOf_accept, if_neg ht] at hc₁ hc₂
      rw [conns_accept_ne p fun he => hnot _ (he ▸ hc₁),
        conns_accept_ne p fun he => hnot _ (he ▸ hc₂)]
      exact h.alike t c₁ hc₁ c₂ hc₂

/-- An accepted token keeps the index exact just when the connection was open and in no list, and
the others with the token carry it. -/
lemma IndexExact.accept_iff (h : p.IndexExact) (c : ConnectionId) (payload : JWTPayload) :
    (p.accept c payload).IndexExact ↔ (p.conns c).isOpen = true ∧ (p.conns c).tokenId = none ∧
      ∀ c' ∈ p.connectionsOf payload.tokenId,
        (p.conns c').Carries (createAccessObject payload.docs)
          (payload.expiredAt.or (p.conns c).tokenExpiredAt) := by
  refine ⟨fun hnew => ?_, fun ⟨hopen, hnone, hothers⟩ => h.accept hopen hnone hothers⟩
  have hlist : (p.accept c payload).connectionsOf payload.tokenId =
      p.connectionsOf payload.tokenId ++ [c] := by
    rw [connectionsOf_accept, if_pos rfl]
  have hin : c ∈ (p.accept c payload).connectionsOf payload.tokenId := by
    rw [hlist]
    exact List.mem_append_right _ List.mem_cons_self
  have hnot : c ∉ p.connectionsOf payload.tokenId := by
    have hnodup := hnew.nodup payload.tokenId
    rw [hlist] at hnodup
    exact fun hold => List.disjoint_of_nodup_append hnodup hold List.mem_cons_self
  have hopen : (p.conns c).isOpen = true := by
    have hopened := (hnew.mem_iff.mp hin).1
    rwa [conns_accept, if_pos rfl] at hopened
  have hnone : (p.conns c).tokenId = none := by
    by_contra hsome
    obtain ⟨t, ht⟩ := Option.ne_none_iff_exists'.mp hsome
    have hlisted : c ∈ p.connectionsOf t := h.mem_iff.mpr ⟨hopen, ht⟩
    have hne : t ≠ payload.tokenId := fun he => hnot (he ▸ hlisted)
    -- its old list has it still
    have hstill : c ∈ (p.accept c payload).connectionsOf t := by
      rwa [connectionsOf_accept, if_neg hne]
    have htoken := (hnew.mem_iff.mp hstill).2
    rw [conns_accept, if_pos rfl] at htoken
    exact hne (Option.some.inj htoken).symm
  refine ⟨hopen, hnone, fun c' hc' => ?_⟩
  have halike := hnew.alike payload.tokenId c' (hlist ▸ List.mem_append_left _ hc') c hin
  have hne : c' ≠ c := fun he => hnot (he ▸ hc')
  rw [conns_accept_ne p hne] at halike
  have hcarries := carries_accept p c payload
  exact ⟨halike.1.trans hcarries.1, halike.2.trans hcarries.2⟩

lemma IndexExact.openConnection (h : p.IndexExact) {c : ConnectionId}
    (hc : (p.conns c).readyState = .connecting) : (p.openConnection c).IndexExact := by
  have hnot : ∀ t, c ∉ p.connectionsOf t := by
    intro t hmem
    have hopen := (h.mem_iff.mp hmem).1
    simp [WebSocketConnection.isOpen, hc] at hopen
  have hother : ∀ c', c' ≠ c → (p.openConnection c).conns c' = p.conns c' := by
    intro c' hne
    rw [conns_openConnection, if_neg hne]
  refine ⟨fun t c' => ?_, fun t c₁ hc₁ c₂ hc₂ => ?_⟩
  · by_cases he : c' = c
    · subst he
      refine (List.count_eq_zero.mpr (hnot t)).trans (if_neg ?_).symm
      simp [conns_openConnection, WebSocketConnection.new]
    · rw [hother c' he]
      exact h.counted t c'
  · rw [hother c₁ fun he => hnot t (he ▸ hc₁), hother c₂ fun he => hnot t (he ▸ hc₂)]
    exact h.alike t c₁ hc₁ c₂ hc₂

lemma UpdatedBy.connectionsOf {m : UpdateTokenMessage} {cs : List ConnectionId} {rights : Access}
    (hup : UpdatedBy p q m cs rights) (t : TokenId) : q.connectionsOf t =
      if t = m.tokenId then cs else if t = m.oldTokenId then [] else p.connectionsOf t := by
  rw [Proxy.connectionsOf, hup.lists]
  split
  · rfl
  · split <;> rfl

lemma UpdatedBy.connectionsOf_old {m : UpdateTokenMessage} {cs : List ConnectionId}
    {rights : Access} (hup : UpdatedBy p q m cs rights) : p.connectionsOf m.oldTokenId = cs := by
  rw [Proxy.connectionsOf, hup.listed]
  rfl

/-- No connection in the list of the update is in a list of another token. -/
lemma IndexExact.not_updated (h : p.IndexExact) {m : UpdateTokenMessage} {cs : List ConnectionId}
    {rights : Access} (hup : UpdatedBy p q m cs rights) {t : TokenId} (ht : t ≠ m.oldTokenId)
    {c : ConnectionId} (hc : c ∈ p.connectionsOf t) : c ∉ cs := by
  intro hcs
  rw [← hup.connectionsOf_old] at hcs
  have htoken := (h.mem_iff.mp hc).2
  rw [(h.mem_iff.mp hcs).2] at htoken
  exact ht (Option.some.inj htoken).symm

/-- An update moves its list to a token without a list. -/
lemma IndexExact.updated (h : p.IndexExact) {m : UpdateTokenMessage} {cs : List ConnectionId}
    {rights : Access} (hup : UpdatedBy p q m cs rights)
    (hfree : m.tokenId ≠ m.oldTokenId → p.connectionsOf m.tokenId = []) : q.IndexExact := by
  have hmem : ∀ c, c ∈ cs ↔ (p.conns c).isOpen = true ∧
      (p.conns c).tokenId = some m.oldTokenId := by
    intro c
    rw [← h.mem_iff, hup.connectionsOf_old]
  refine .of_nodup (fun t => ?_) (fun t c => ?_) fun t c₁ hc₁ c₂ hc₂ => ?_
  · rw [hup.connectionsOf]
    split
    · rw [← hup.connectionsOf_old]
      exact h.nodup _
    · split
      · exact List.nodup_nil
      · exact h.nodup t
  · rw [hup.connectionsOf, hup.conns]
    by_cases hc : c ∈ cs
    · rw [if_pos hc]
      by_cases ht : t = m.tokenId
      · rw [if_pos ht]
        exact iff_of_true hc ⟨((hmem c).mp hc).1, by rw [ht]; rfl⟩
      · rw [if_neg ht]
        refine iff_of_false ?_ fun hboth => ht (Option.some.inj hboth.2).symm
        split
        · exact List.not_mem_nil
        · exact fun hlisted => h.not_updated hup ‹_› hlisted hc
    · rw [if_neg hc, ← h.mem_iff]
      by_cases ht : t = m.tokenId
      · subst ht
        rw [if_pos rfl]
        refine iff_of_false hc fun hlisted => ?_
        by_cases hne : m.tokenId = m.oldTokenId
        · rw [hne, hup.connectionsOf_old] at hlisted
          exact hc hlisted
        · rw [hfree hne] at hlisted
          cases hlisted
      · rw [if_neg ht]
        split
        · rename_i hold
          rw [hold, hup.connectionsOf_old]
          exact iff_of_false List.not_mem_nil hc
        · exact Iff.rfl
  · rw [hup.connectionsOf] at hc₁ hc₂
    rw [hup.conns, hup.conns]
    split at hc₁
    · rename_i ht
      rw [if_pos ht] at hc₂
      rw [if_pos hc₁, if_pos hc₂]
      exact ⟨SameRights.refl _, rfl⟩
    · rename_i ht
      rw [if_neg ht] at hc₂
      split at hc₁
      · cases hc₁
      · rename_i hold
        rw [if_neg hold] at hc₂
        rw [if_neg (h.not_updated hup hold hc₁), if_neg (h.not_updated hup hold hc₂)]
        exact h.alike t c₁ hc₁ c₂ hc₂

/-- An update moves its list, so that it is kept exact just when no list of another token is in
the way. -/
lemma IndexExact.onUpdateTokenMessage_iff (hw : p.WF) (h : p.IndexExact) (m : UpdateTokenMessage) :
    (p.onUpdateTokenMessage m).IndexExact ↔ p.IndexOk (.onUpdateTokenMessage m) := by
  rcases hw.onUpdateTokenMessage_cases m with ⟨heq, hnone⟩ | ⟨cs, rights, hup⟩
  · rw [heq]
    exact iff_of_true h fun hsome => absurd hnone hsome
  · constructor
    · intro hnew _ hne
      by_contra hsome
      obtain ⟨cs', hcs'⟩ := Option.ne_none_iff_exists'.mp hsome
      obtain ⟨c, hc⟩ := List.exists_mem_of_ne_nil cs' (hw.listed _ cs' hcs').1
      have hlisted : c ∈ p.connectionsOf m.tokenId := mem_connectionsOf.mpr ⟨cs', hcs', hc⟩
      have hnot := h.not_updated hup hne hlisted
      -- the overwritten list has lost its connections
      have hstill : c ∈ (p.onUpdateTokenMessage m).connectionsOf m.tokenId := by
        rw [hnew.mem_iff, hup.conns, if_neg hnot]
        exact h.mem_iff.mp hlisted
      rw [hup.connectionsOf, if_pos rfl] at hstill
      exact hnot hstill
    · intro hok
      refine h.updated hup fun hne => ?_
      rw [connectionsOf, hok (by simp [hup.listed]) hne]
      rfl

lemma IndexExact.uniform (h : p.IndexExact) : p.Uniform where
  lists t cs ht c hc c' hc' := (h.alike t c (mem_connectionsOf.mpr ⟨cs, ht, hc⟩) c'
    (mem_connectionsOf.mpr ⟨cs, ht, hc'⟩)).2
  covered c hopen htoken _ := by
    obtain ⟨t, ht⟩ := Option.ne_none_iff_exists'.mp htoken
    obtain ⟨cs, hcs, hc⟩ := mem_connectionsOf.mp (h.mem_iff.mpr ⟨hopen, ht⟩)
    exact ⟨t, cs, hcs, hc⟩

/-- The check closes the lists of expired tokens as a whole. -/
lemma IndexExact.checkTokenExpiration (hw : p.WF) (h : p.IndexExact) (now : Int) :
    (p.checkTokenExpiration now).IndexExact := by
  have hlists : ∀ t, (p.checkTokenExpiration now).connectionsOf t =
      if ∃ c ∈ p.connectionsOf t, (p.conns c).expired now then [] else p.connectionsOf t := by
    intro t
    rw [connectionsOf, h.uniform.get_checkTokenExpiration hw now t]
    split <;> rfl
  have hconns := h.uniform.conns_checkTokenExpiration hw now
  have hkept : ∀ t, (¬∃ c ∈ p.connectionsOf t, (p.conns c).expired now = true) →
      ∀ c ∈ p.connectionsOf t, (p.checkTokenExpiration now).conns c = p.conns c := by
    intro t hlive c hc
    rw [hconns, if_neg]
    rintro ⟨e, -, -, hexp⟩
    exact hlive ⟨c, hc, hexp⟩
  have hclosed : ∀ t, (∃ c ∈ p.connectionsOf t, (p.conns c).expired now = true) →
      ∀ c ∈ p.connectionsOf t, ((p.checkTokenExpiration now).conns c).isOpen = false := by
    rintro t ⟨c₀, hc₀, hexp⟩ c hc
    obtain ⟨cs, hcs, hmem⟩ := mem_connectionsOf.mp hc
    have hexp' : (p.conns c).expired now = true := by
      rw [WebSocketConnection.expired, (h.alike t c hc c₀ hc₀).2]
      exact hexp
    rw [hconns, if_pos ⟨(t, cs), (JsMap.mem_entries_iff _ _ _).mpr hcs, hmem, hexp'⟩]
    exact closeConn_isOpen _
  have hback : ∀ c, ((p.checkTokenExpiration now).conns c).isOpen = true →
      (p.checkTokenExpiration now).conns c = p.conns c := by
    intro c hopen
    rcases (checkTokenExpiration_checkedBy p now).conns c with hc | hc
    · exact hc
    · rw [hc, closeConn_isOpen] at hopen
      cases hopen
  refine .of_nodup (fun t => ?_) (fun t c => ?_) fun t c₁ hc₁ c₂ hc₂ => ?_
  · rw [hlists]
    split
    · exact List.nodup_nil
    · exact h.nodup t
  · rw [hlists]
    have hold : ((p.checkTokenExpiration now).conns c).isOpen = true →
        ((p.checkTokenExpiration now).conns c).tokenId = some t → c ∈ p.connectionsOf t := by
      intro hopen htoken
      rw [hback c hopen] at htoken
      rw [hback c hopen] at hopen
      exact h.mem_iff.mpr ⟨hopen, htoken⟩
    by_cases hexp : ∃ c ∈ p.connectionsOf t, (p.conns c).expired now = true
    · rw [if_pos hexp]
      refine iff_of_false List.not_mem_nil ?_
      rintro ⟨hopen, htoken⟩
      rw [hclosed t hexp c (hold hopen htoken)] at hopen
      cases hopen
    · rw [if_neg hexp]
      refine ⟨fun hc => ?_, fun hboth => hold hboth.1 hboth.2⟩
      rw [hkept t hexp c hc]
      exact h.mem_iff.mp hc
  · rw [hlists] at hc₁ hc₂
    split at hc₁
    · cases hc₁
    · rename_i hexp
      rw [if_neg hexp] at hc₂
      rw [hkept t hexp c₁ hc₁, hkept t hexp c₂ hc₂]
      exact h.alike t c₁ hc₁ c₂ hc₂

lemma connectionsOf_removeConnection (p : Proxy) (c : ConnectionId) (t : TokenId) :
    (p.removeConnection c).connectionsOf t =
      if (p.conns c).tokenId = some t then (p.connectionsOf t).erase c else p.connectionsOf t := by
  unfold removeConnection
  cases htoken : (p.conns c).tokenId with
  | none => simp
  | some t' =>
    dsimp only
    cases hget : p.tokenConnections.get t' with
    | none =>
      dsimp only
      split
      · rename_i he
        cases he
        simp [connectionsOf, hget]
      · rfl
    | some cs =>
      dsimp only
      by_cases ht : t' = t
      · subst ht
        have hcs : p.connectionsOf t' = cs := by simp [connectionsOf, hget]
        rw [if_pos rfl, hcs]
        split
        · rename_i hnil
          simp [connectionsOf, List.isEmpty_iff.mp hnil]
        · simp [connectionsOf]
      · rw [if_neg fun he => ht (Option.some.inj he)]
        unfold connectionsOf
        split
        · rw [JsMap.get_delete_ne _ (Ne.symm ht)]
        · rw [JsMap.get_set_ne _ _ (Ne.symm ht)]

/-- The close event takes the connection out of the list of its token. -/
lemma IndexExact.handleDisconnect (h : p.IndexExact) (c : ConnectionId) :
    (p.handleDisconnect c).IndexExact := by
  have hlists : ∀ t, (p.handleDisconnect c).connectionsOf t =
      if (p.conns c).tokenId = some t then (p.connectionsOf t).erase c
      else p.connectionsOf t := by
    intro t
    unfold Proxy.handleDisconnect
    rw [connectionsOf_removeConnection]
    simp [connectionsOf]
  have hself : ((p.handleDisconnect c).conns c).isOpen = false := by
    simp [conns_handleDisconnect, WebSocketConnection.isOpen]
  have hother : ∀ c', c' ≠ c → (p.handleDisconnect c).conns c' = p.conns c' := by
    intro c' hne
    rw [conns_handleDisconnect, if_neg hne]
  have hmem : ∀ t c', c' ∈ (p.handleDisconnect c).connectionsOf t ↔
      c' ≠ c ∧ c' ∈ p.connectionsOf t := by
    intro t c'
    rw [hlists]
    split
    · exact (h.nodup t).mem_erase_iff
    · rename_i htoken
      refine ⟨fun hc' => ⟨?_, hc'⟩, And.right⟩
      rintro rfl
      exact htoken (h.mem_iff.mp hc').2
  refine .of_nodup (fun t => ?_) (fun t c' => ?_) fun t c₁ hc₁ c₂ hc₂ => ?_
  · rw [hlists]
    split
    · exact (h.nodup t).erase c
    · exact h.nodup t
  · rw [hmem]
    by_cases hc : c' = c
    · subst hc
      exact iff_of_false (fun hin => hin.1 rfl) (by simp [hself])
    · rw [hother c' hc, ← h.mem_iff]
      exact and_iff_right hc
  · obtain ⟨hne₁, hold₁⟩ := (hmem t c₁).mp hc₁
    obtain ⟨hne₂, hold₂⟩ := (hmem t c₂).mp hc₂
    rw [hother c₁ hne₁, hother c₂ hne₂]
    exact h.alike t c₁ hold₁ c₂ hold₂

lemma IndexExact.send_iff (p : Proxy) (c : ConnectionId) (m : ServerMessage) :
    (p.send c m).IndexExact ↔ p.IndexExact :=
  ⟨fun h => h.congr (connectionsOf_congr (send_tokenConnections p c m).symm) (by simp) (by simp)
      (by simp),
    fun h => h.congr (connectionsOf_congr (send_tokenConnections p c m)) (by simp) (by simp)
      (by simp)⟩

lemma IndexExact.handleConnection_iff (h : p.IndexExact) {c : ConnectionId}
    (hc : (p.conns c).readyState = .connecting) (token : Option CheckClientTokenResponse) :
    (p.handleConnection c token).IndexExact ↔ p.IndexOk (.handleConnection c token) := by
  have hopened := h.openConnection hc
  have hnot := hopened.not_mem_of_tokenId (c := c)
    (by simp [conns_openConnection, WebSocketConnection.new])
  unfold Proxy.handleConnection
  rw [IndexExact.send_iff]
  rcases token with _ | payload | status
  · refine iff_of_true (hopened.congr (fun t => rfl) (fun c' => ?_) (fun c' => ?_) ?_) trivial
    · simp only [initClient, conns_modify]
      split
      · rename_i he
        rw [he]
        rfl
      · rfl
    · simp only [initClient, conns_modify]
      split
      · rename_i he
        rw [he]
      · rfl
    · intro t c' hc'
      have hne : c' ≠ c := by
        rintro rfl
        exact hnot t hc'
      simp only [initClient, conns_modify_ne _ _ hne, and_self]
  · simp only [initClient, applyToken_ok]
    rw [hopened.accept_iff]
    have hself : (p.openConnection c).conns c =
        { WebSocketConnection.new with readyState := .open } := by
      rw [conns_openConnection, if_pos rfl]
    rw [hself]
    simp only [WebSocketConnection.isOpen, WebSocketConnection.new, decide_true, true_and,
      Option.or_none, IndexOk]
    refine forall₂_congr fun c' hc' => ?_
    have hne : c' ≠ c := by
      rintro rfl
      exact hnot _ hc'
    rw [conns_openConnection, if_neg hne]
  · exact iff_of_true hopened trivial

lemma IndexExact.onSetToken_iff (h : p.IndexExact) (c : ConnectionId)
    (response : CheckClientTokenResponse) :
    (p.onSetToken c response).IndexExact ↔ p.IndexOk (.onSetToken c response) := by
  cases response with
  | ok payload =>
    simp only [Proxy.onSetToken, applyToken_ok]
    rw [IndexExact.send_iff]
    have hiff := h.accept_iff c payload
    exact ⟨fun hnew => hiff.mp (hnew.congr (fun t => rfl) (by simp) (by simp) (by simp)),
      fun hok => (hiff.mpr hok).congr (fun t => rfl) (by simp) (by simp) (by simp)⟩
  | error status =>
    simp only [Proxy.onSetToken, applyToken]
    rw [IndexExact.send_iff]
    exact iff_of_true h trivial

/-- One operation: the index stays exact just when the operation meets `IndexOk`. -/
theorem indexExact_step_iff {isPublic : DocKey → Bool} {p' : Proxy} {op : ProxyOp} (hw : p.WF)
    (h : p.IndexExact) (hs : p.step isPublic op = some p') : p'.IndexExact ↔ p.IndexOk op := by
  cases op with
  | handleConnection c token =>
    simp only [step, Option.ite_none_right_eq_some, Option.some.injEq] at hs
    exact hs.2 ▸ h.handleConnection_iff hs.1 token
  | onJoin c d response =>
    simp only [step, Option.ite_none_right_eq_some, Option.some.injEq] at hs
    obtain ⟨hconns, htok⟩ := onJoin_eq p c d response
    refine iff_of_true ?_ trivial
    rw [← hs.2]
    exact h.congr (connectionsOf_congr htok) (by simp [hconns]) (by simp [hconns])
      (by simp [hconns])
  | onSetToken c response =>
    simp only [step, Option.ite_none_right_eq_some, Option.some.injEq] at hs
    exact hs.2 ▸ h.onSetToken_iff c response
  | onUpdateTokenMessage m =>
    cases hs
    exact h.onUpdateTokenMessage_iff hw m
  | checkTokenExpiration now =>
    cases hs
    exact iff_of_true (h.checkTokenExpiration hw now) trivial
  | handleDisconnect c =>
    simp only [step, Option.ite_none_right_eq_some, Option.some.injEq] at hs
    exact hs.2 ▸ iff_of_true (h.handleDisconnect c) trivial

/-- In a run the index is exact in every state reached just when every operation of the run meets
`IndexOk`. -/
theorem index_exact_iff (isPublic : DocKey → Bool) (ops : List ProxyOp) :
    (∀ done, done <+: ops → ∀ p, Stepper.run (step isPublic) init done = some p →
      p.IndexExact) ↔ Stepper.Guarded (step isPublic) IndexOk init ops :=
  Stepper.invariant_iff_guarded WF IndexExact (fun _ _ _ => wf_step)
    (fun _ _ _ hw h hs => indexExact_step_iff hw h hs) ops wf_init indexExact_init

/-- After a second token the connection is filed under both. -/
theorem filed_under_old_token :
    ¬∀ (isPublic : DocKey → Bool) (ops : List ProxyOp) (p : Proxy),
      Stepper.run (step isPublic) init ops = some p → p.IndexExact := by
  intro h
  have hrun := (h (fun _ => false)
    [.handleConnection "c" (some (.ok ⟨"t", "consumer", "user", none, []⟩)),
      .onSetToken "c" (.ok ⟨"u", "consumer", "user", none, []⟩)] _ rfl).counted "t" "c"
  revert hrun
  decide

end Proxy

end AlaFois
