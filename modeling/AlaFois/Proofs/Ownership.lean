import Mathlib.Data.List.Induction
import AlaFois.Model.UpdateToken
import AlaFois.Proofs.AllOrNothing
import AlaFois.Proofs.RightsDiff

/-!
# The documents of a consumer

`consumerOwnsDocs` compares the number of documents that it finds with the number of ids asked
for. The two are equal when every id is one of a document of the consumer and no two of them are
ids of the same document.
-/

namespace AlaFois

/-! ### Lists of results -/

/-- No element of the list makes the function fail. -/
lemma mapM_eq_some {α β : Type} {f : α → Option β} {xs : List α} {ys : List β} :
    xs.mapM f = some ys ↔ xs.map f = ys.map some := by
  induction xs generalizing ys with
  | nil => cases ys <;> simp
  | cons x xs ih =>
    cases ys with
    | nil => simp [List.mapM_cons, Option.bind_eq_some_iff]
    | cons y ys =>
      simp only [List.mapM_cons, Option.bind_eq_bind, Option.bind_eq_some_iff, List.map_cons,
        List.cons.injEq, ← ih]
      constructor
      · rintro ⟨_, hx, _, hxs, heq⟩
        cases heq
        exact ⟨hx, hxs⟩
      · rintro ⟨hx, hxs⟩
        exact ⟨y, hx, ys, hxs, rfl⟩

lemma length_eq_of_mapM {α β : Type} {f : α → Option β} {xs : List α} {ys : List β}
    (h : xs.mapM f = some ys) : xs.length = ys.length := by
  simpa using congrArg List.length (mapM_eq_some.mp h)

/-! ### Records found by a list of keys -/

section Selection

variable {α κ : Type} [DecidableEq κ] {records : List α} {key : α → κ} {p : α → Bool}
  {keys : List κ}

/-- With unique keys, as many records are found as keys asked for exactly when no key is asked
for twice and every one is found. -/
theorem length_selected_eq_iff (hkeys : (records.map key).Nodup) :
    (records.filter fun a => p a ∧ key a ∈ keys).length = keys.length ↔
      keys.Nodup ∧ ∀ k ∈ keys, ∃ a ∈ records, p a ∧ key a = k := by
  set found := records.filter fun a => p a ∧ key a ∈ keys with hfound
  have hnodup : (found.map key).Nodup := hkeys.sublist (List.filter_sublist.map key)
  have hmem : ∀ k, k ∈ found.map key ↔ k ∈ keys ∧ ∃ a ∈ records, p a ∧ key a = k := by
    intro k
    simp only [hfound, List.mem_map, List.mem_filter, decide_eq_true_eq]
    constructor
    · rintro ⟨a, ⟨ha, hp, hk⟩, rfl⟩
      exact ⟨hk, a, ha, hp, rfl⟩
    · rintro ⟨hk, a, ha, hp, rfl⟩
      exact ⟨a, ⟨ha, hp, hk⟩, rfl⟩
  have hlength : found.length = (found.map key).length := by rw [List.length_map]
  rw [hlength]
  constructor
  · intro hcount
    have hperm : (found.map key).Perm keys :=
      (List.subperm_of_subset hnodup fun k hk => ((hmem k).mp hk).1).perm_of_length_le hcount.ge
    exact ⟨hperm.nodup_iff.mp hnodup, fun k hk => ((hmem k).mp (hperm.mem_iff.mpr hk)).2⟩
  · rintro ⟨hdistinct, hall⟩
    have hperm : (found.map key).Perm keys :=
      (List.perm_ext_iff_of_nodup hnodup hdistinct).mpr fun k =>
        ⟨fun hk => ((hmem k).mp hk).1, fun hk => (hmem k).mpr ⟨hk, hall k hk⟩⟩
    exact hperm.length_eq

end Selection

/-! ### consumerOwnsDocs -/

/-- The id is one of a document of the consumer. -/
def Database.Owns (db : Database) (env : QueryEnv) (consumerId : ConsumerId) (docId : DocKey) :
    Prop :=
  ∃ doc ∈ db.docs, env.objectId docId = some doc.id ∧
    ∃ owner, env.objectId consumerId = some owner ∧ doc.owner = some owner

section ConsumerOwnsDocs

variable {db : Database} {env : QueryEnv} {consumerId : ConsumerId} {docs : List DocKey}

lemma exists_ids (hdocs : ∀ d ∈ docs, (env.objectId d).isSome) :
    ∃ ids : List String, docs.map env.objectId = ids.map some := by
  induction docs with
  | nil => exact ⟨[], rfl⟩
  | cons d docs ih =>
    obtain ⟨id, hid⟩ := Option.isSome_iff_exists.mp (hdocs d (List.mem_cons_self ..))
    obtain ⟨ids, hids⟩ := ih fun d' hd' => hdocs d' (List.mem_cons_of_mem _ hd')
    exact ⟨id :: ids, by rw [List.map_cons, hid, hids, List.map_cons]⟩

/-- The check succeeds when every id is one of a document of the consumer, and no two of them are
ids of the same document. -/
theorem consumerOwnsDocs_eq_true_iff (hunique : (db.docs.map OwnedDoc.id).Nodup)
    (hconsumer : (env.objectId consumerId).isSome) (hdocs : ∀ d ∈ docs, (env.objectId d).isSome) :
    AuthService.consumerOwnsDocs db env consumerId docs = some true ↔
      (docs.map env.objectId).Nodup ∧ ∀ d ∈ docs, db.Owns env consumerId d := by
  obtain ⟨owner, howner⟩ := Option.isSome_iff_exists.mp hconsumer
  obtain ⟨ids, hids⟩ := exists_ids hdocs
  have hlength : docs.length = ids.length := by simpa using congrArg List.length hids
  have hnodup : (docs.map env.objectId).Nodup ↔ ids.Nodup := by
    rw [hids]
    exact List.nodup_map_iff (Option.some_injective _)
  have howned : (∀ d ∈ docs, db.Owns env consumerId d) ↔
      ∀ id ∈ ids, ∃ doc ∈ db.docs, decide (doc.owner = some owner) = true ∧ doc.id = id := by
    constructor
    · intro h id hid
      obtain ⟨d, hd, heq⟩ := List.mem_map.mp (hids ▸ List.mem_map_of_mem (f := some) hid)
      obtain ⟨doc, hdoc, hdocId, owner', howner', hdocOwner⟩ := h d hd
      rw [howner] at howner'
      cases howner'
      rw [heq] at hdocId
      exact ⟨doc, hdoc, decide_eq_true hdocOwner, (Option.some.inj hdocId).symm⟩
    · intro h d hd
      obtain ⟨id, hid, heq⟩ := List.mem_map.mp (hids ▸ List.mem_map_of_mem (f := env.objectId) hd)
      obtain ⟨doc, hdoc, hdocOwner, rfl⟩ := h id hid
      exact ⟨doc, hdoc, heq.symm, owner, howner, of_decide_eq_true hdocOwner⟩
  have hselected : (db.docs.filter fun doc =>
      decide (doc.owner = some owner) ∧ doc.id ∈ ids).length = ids.length ↔ _ :=
    length_selected_eq_iff hunique
  simp only [decide_eq_true_eq] at hselected
  simp only [AuthService.consumerOwnsDocs, howner, mapM_eq_some.mpr hids,
    Option.some.injEq, decide_eq_true_eq, hlength, hnodup, howned]
  exact hselected

/-- The check decides who owns the documents unless the consumer owns all of them and the list
has one of them twice. -/
theorem consumerOwnsDocs_decides_iff (hunique : (db.docs.map OwnedDoc.id).Nodup)
    (hconsumer : (env.objectId consumerId).isSome) (hdocs : ∀ d ∈ docs, (env.objectId d).isSome) :
    (AuthService.consumerOwnsDocs db env consumerId docs = some true ↔
        ∀ d ∈ docs, db.Owns env consumerId d) ↔
      (docs.map env.objectId).Nodup ∨ ∃ d ∈ docs, ¬db.Owns env consumerId d := by
  rw [consumerOwnsDocs_eq_true_iff hunique hconsumer hdocs]
  by_cases hall : ∀ d ∈ docs, db.Owns env consumerId d
  · have hnone : ¬∃ d ∈ docs, ¬db.Owns env consumerId d := by
      rintro ⟨d, hd, hnot⟩
      exact hnot (hall d hd)
    simp only [hnone, or_false]
    exact ⟨fun h => (h.mpr hall).1, fun h => ⟨fun _ => hall, fun _ => ⟨h, hall⟩⟩⟩
  · have hsome : ∃ d ∈ docs, ¬db.Owns env consumerId d := by
      simpa only [not_forall, exists_prop] using hall
    simp only [hall, hsome, and_false, or_true]

end ConsumerOwnsDocs

namespace Database

/-- One document of one consumer. -/
def single : Database where
  consumers := [⟨"64a000000000000000000000", "key"⟩]
  docs := [⟨"64a000000000000000000001", some "64a000000000000000000000", false⟩]
  tokens := []
  updates := []

/-- Lower case ids are the hexadecimal text of themselves. -/
def lowerCase : QueryEnv :=
  ApiEnv.queriedByText
    { parseJWT := fun _ => none
      verify := fun _ _ => true
      ttl := 0 }
    some

/-- The only document is owned, and the check says so. -/
theorem consumerOwnsDocs_single :
    (AuthService.consumerOwnsDocs single lowerCase "64a000000000000000000000"
        ["64a000000000000000000001"] = some true ↔
      ∀ d ∈ ["64a000000000000000000001"], single.Owns lowerCase "64a000000000000000000000" d) :=
  (consumerOwnsDocs_decides_iff (by decide) rfl
    (by simp [lowerCase, ApiEnv.queriedByText])).mpr (.inl (by decide))

/-- Asked for the same document twice, the check denies that the consumer owns it. -/
theorem consumerOwnsDocs_repeated :
    ¬(AuthService.consumerOwnsDocs single lowerCase "64a000000000000000000000"
        ["64a000000000000000000001", "64a000000000000000000001"] = some true ↔
      ∀ d ∈ ["64a000000000000000000001", "64a000000000000000000001"],
        single.Owns lowerCase "64a000000000000000000000" d) := by
  have howned : single.Owns lowerCase "64a000000000000000000000" "64a000000000000000000001" :=
    ⟨_, List.mem_singleton_self _, rfl, _, rfl, rfl⟩
  have hdenied : AuthService.consumerOwnsDocs single lowerCase "64a000000000000000000000"
      ["64a000000000000000000001", "64a000000000000000000001"] = some false := by decide
  intro h
  have htrue := h.mpr (by simpa using howned)
  rw [hdenied] at htrue
  cases htrue

end Database

/-! ### The table of documents of any type -/

namespace Parsed

/-- The documents are a list, and the id of each is a text that can be a key. -/
def TextIds (docs : Json) : Prop :=
  ∃ elements, docs = .array elements ∧ ∀ doc ∈ elements, ∃ key,
    doc.property "id" = some (.text key) ∧ key ≠ "__proto__"

variable {doc : Json} {docs : List Json} {acc table : JsMap String AccessData}

lemma assign_of_text {key : String} (hid : doc.property "id" = some (.text key))
    (hkey : key ≠ "__proto__") :
    assign acc doc = some (acc.set key ⟨some (.text key), doc.property "rights"⟩) := by
  have hnull : doc ≠ .null := by
    rintro rfl
    cases hid
  simp [assign, Parsed.key, hid, Json.toText, hnull, hkey]

lemma not_has_of_assign (h : assign acc doc = some table) (hacc : ¬acc.has "__proto__") :
    ¬table.has "__proto__" := by
  unfold assign at h
  obtain ⟨-, h⟩ := Option.ite_none_left_eq_some.mp h
  obtain ⟨key, -, rfl⟩ := Option.map_eq_some_iff.mp h
  split
  · exact hacc
  · rename_i hkey
    rwa [JsMap.has, JsMap.get_set, if_neg (Ne.symm hkey)]

/-- There is never an entry under this key. -/
lemma not_has_of_foldlM (h : docs.foldlM assign acc = some table) (hacc : ¬acc.has "__proto__") :
    ¬table.has "__proto__" := by
  induction docs generalizing acc with
  | nil =>
    cases h
    exact hacc
  | cons doc docs ih =>
    rw [List.foldlM_cons] at h
    obtain ⟨acc', hassign, h⟩ := Option.bind_eq_some_iff.mp h
    exact ih h (not_has_of_assign hassign hacc)

/-- If the ids are texts and distinct, each element has its own entry, and the other entries stay. -/
lemma exists_table (hids : ∀ doc ∈ docs, ∃ key, doc.property "id" = some (.text key) ∧
      key ≠ "__proto__") (hdistinct : (docs.map (Json.property "id")).Nodup)
    (acc : JsMap String AccessData) : ∃ table, docs.foldlM assign acc = some table ∧
      (∀ key, some (.text key) ∉ docs.map (Json.property "id") → table.get key = acc.get key) ∧
      ∀ doc ∈ docs, ∀ key, doc.property "id" = some (.text key) →
        table.get key = some ⟨some (.text key), doc.property "rights"⟩ := by
  induction docs generalizing acc with
  | nil => exact ⟨acc, rfl, fun _ _ => rfl, by simp⟩
  | cons doc docs ih =>
    rw [List.map_cons, List.nodup_cons] at hdistinct
    obtain ⟨key, hid, hkey⟩ := hids doc List.mem_cons_self
    obtain ⟨table, htable, hkeep, hentries⟩ := ih (fun d hd => hids d (List.mem_cons_of_mem _ hd))
      hdistinct.2 (acc.set key ⟨some (.text key), doc.property "rights"⟩)
    refine ⟨table, ?_, fun key' hnone => ?_, fun doc' hmem key' hid' => ?_⟩
    · rw [List.foldlM_cons, assign_of_text hid hkey]
      exact htable
    · rw [List.map_cons, List.mem_cons, not_or, hid] at hnone
      rw [hkeep key' hnone.2, JsMap.get_set, if_neg fun h => hnone.1 (by rw [h])]
    · rcases List.mem_cons.mp hmem with rfl | hmem
      · rw [hid] at hid'
        cases hid'
        rw [hkeep key (hid ▸ hdistinct.1), JsMap.get_set_self]
      · exact hentries doc' hmem key' hid'

end Parsed

namespace Database

/-- The table has the entries that are listed and nothing else, and all of them are for documents of
the consumer. -/
structure TableOf (db : Database) (env : QueryEnv) (consumerId : ConsumerId) (docs : List Json)
    (table : JsMap String Parsed.AccessData) : Prop where
  keys : ∀ id, (∃ key, table.has key ∧ id = some (.text key)) ↔ id ∈ docs.map (Json.property "id")
  entries : ∀ doc ∈ docs, ∀ key, doc.property "id" = some (.text key) →
    table.get key = some ⟨some (.text key), doc.property "rights"⟩
  distinct : (docs.map (Json.property "id")).Nodup
  owned : ∀ key, table.has key → db.Owns env consumerId key

/-- The documents are a list that can be made a table, and the table is faithful to it. -/
def FaithfulTable (db : Database) (env : QueryEnv) (consumerId : ConsumerId) (docs : Json) : Prop :=
  ∃ elements table, docs = .array elements ∧ Parsed.createAccessObject docs = some table ∧
    db.TableOf env consumerId elements table

variable {db : Database} {env : QueryEnv} {consumerId : ConsumerId} {docs : List Json}

/-- The ids are those of different documents of the consumer. -/
structure OwnsAll (db : Database) (env : QueryEnv) (consumerId : ConsumerId) (docs : List Json) :
    Prop where
  distinct : (docs.map (Json.property "id")).Nodup
  owned : ∀ doc ∈ docs, ∀ key, doc.property "id" = some (.text key) → db.Owns env consumerId key

lemma ownsAll_nil : db.OwnsAll env consumerId [] := ⟨List.nodup_nil, by simp⟩

/-- If as many documents are found as are listed, they are the ones that are listed. -/
lemma ownsAll_of_counted {owned : Nat} (hunique : (db.docs.map OwnedDoc.id).Nodup)
    (hcount : db.countOwned env consumerId docs = some owned)
    (howns : AlaFois.consumerOwnsDocs owned docs = true) : db.OwnsAll env consumerId docs := by
  unfold countOwned at hcount
  split at hcount
  · rename_i owner ids howner hids
    cases hcount
    have hmap := mapM_eq_some.mp hids
    have hkeys : (db.docs.map fun doc => some doc.id).Nodup := by
      have hcomp := hunique.map (Option.some_injective _)
      rwa [List.map_map] at hcomp
    have hselected : (db.docs.filter fun doc => doc.owner = some owner ∧ some doc.id ∈ ids).length =
        ids.length := by
      rw [← length_eq_of_mapM hids, ← List.countP_eq_length_filter]
      exact of_decide_eq_true howns
    obtain ⟨hdistinct, hall⟩ :=
      (length_selected_eq_iff (p := fun doc : OwnedDoc => doc.owner = some owner) hkeys).mp
        (by simpa only [decide_eq_true_eq] using hselected)
    refine ⟨?_, fun doc hdoc key hid => ?_⟩
    · have hcasts : (docs.map (Json.property "id")).map env.newObjectId = ids.map some := by
        rw [← hmap, List.map_map]
        refine List.map_congr_left fun doc hdoc => ?_
        have hnull : doc ≠ .null := by
          rintro rfl
          obtain ⟨id, -, hid⟩ := List.mem_map.mp (hmap ▸ List.mem_map_of_mem (f := env.docId) hdoc)
          cases hid
        simp [QueryEnv.docId, hnull]
      refine List.Nodup.of_map env.newObjectId ?_
      rw [hcasts]
      exact hdistinct.map (Option.some_injective _)
    · obtain ⟨id, hmem, heq⟩ := List.mem_map.mp (hmap ▸ List.mem_map_of_mem (f := env.docId) hdoc)
      obtain ⟨stored, hstored, hstoredOwner, rfl⟩ := hall id hmem
      have hnull : doc ≠ .null := by
        rintro rfl
        cases hid
      simp only [QueryEnv.docId, hnull, if_false, hid, QueryEnv.newObjectId] at heq
      obtain ⟨cast, hcast, hsame⟩ := Option.map_eq_some_iff.mp heq.symm
      cases hsame
      exact ⟨stored, hstored, hcast, owner, howner, of_decide_eq_true hstoredOwner⟩
  · cases hcount

/-- The table of such a list is faithful to it exactly if its ids are texts. -/
lemma OwnsAll.faithfulTable_iff (h : db.OwnsAll env consumerId docs) :
    db.FaithfulTable env consumerId (.array docs) ↔ Parsed.TextIds (.array docs) := by
  constructor
  · rintro ⟨elements, table, heq, htable, hfaithful⟩
    cases heq
    refine ⟨docs, rfl, fun doc hdoc => ?_⟩
    obtain ⟨key, hkey, hid⟩ := (hfaithful.keys _).mpr (List.mem_map_of_mem hdoc)
    refine ⟨key, hid, ?_⟩
    rintro rfl
    exact Parsed.not_has_of_foldlM htable (by simp [JsMap.has]) hkey
  · rintro ⟨elements, heq, hids⟩
    cases heq
    obtain ⟨table, htable, hkeep, hentries⟩ := Parsed.exists_table hids h.distinct .empty
    have hhas : ∀ key, table.has key ↔ some (.text key) ∈ docs.map (Json.property "id") := by
      intro key
      constructor
      · intro hkey
        by_contra hnone
        rw [JsMap.has, hkeep key hnone] at hkey
        cases hkey
      · intro hmem
        obtain ⟨doc, hdoc, hid⟩ := List.mem_map.mp hmem
        rw [JsMap.has, hentries doc hdoc key hid]
        rfl
    refine ⟨docs, table, rfl, htable, fun id => ?_, hentries, h.distinct, fun key hkey => ?_⟩
    · constructor
      · rintro ⟨key, hkey, rfl⟩
        exact (hhas key).mp hkey
      · intro hmem
        obtain ⟨doc, hdoc, rfl⟩ := List.mem_map.mp hmem
        obtain ⟨key, hid, -⟩ := hids doc hdoc
        rw [hid] at hmem ⊢
        exact ⟨key, (hhas key).mpr hmem, rfl⟩
    · obtain ⟨doc, hdoc, hid⟩ := List.mem_map.mp ((hhas key).mp hkey)
      exact h.owned doc hdoc key hid

/-- Of documents that are no list there is no table. -/
lemma faithfulTable_iff_of_not_array {docs : Json} (h : ∀ elements, docs ≠ .array elements) :
    db.FaithfulTable env consumerId docs ↔ Parsed.TextIds docs := by
  refine iff_of_false ?_ ?_
  · rintro ⟨elements, table, heq, -⟩
    exact h elements heq
  · rintro ⟨elements, heq, -⟩
    exact h elements heq

/-! ### Accepted tokens -/

lemma eq_of_answer {payload payload' : JWTPayload Json} {token : Option TokenRecord}
    (h : answer payload token = .ok payload') : payload = payload' := by
  unfold answer at h
  split at h
  · split at h
    · cases h
      rfl
    · cases h
  · split at h
    · cases h
    · cases h
      rfl

/-- `checkClientToken` accepts a list of documents only if the query finds all of them. -/
lemma ownsAll_of_checkClientToken (hunique : (db.docs.map OwnedDoc.id).Nodup) {now : Int}
    {jwt : String} {token : Option TokenRecord} {payload : JWTPayload Json}
    (h : db.checkClientToken env now jwt token = .ok payload) (hdocs : payload.docs = .array docs) :
    db.OwnsAll env payload.consumerId docs := by
  unfold checkClientToken at h
  split at h
  · cases h
  · cases h
  · split at h
    · cases h
    · rename_i checked _
      split at h
      · split at h
        · rename_i elements helements
          split at h
          · cases h
          · rename_i owned hcount
            split at h
            · rename_i howns
              cases eq_of_answer h
              cases helements.symm.trans hdocs
              exact ownsAll_of_counted hunique hcount howns
            · cases h
        · cases h
      · rename_i hnone
        cases eq_of_answer h
        rw [hdocs] at hnone
        obtain rfl : docs = [] := by simpa [hasDocs] using hnone
        exact ownsAll_nil

/-- The first loop of `updateToken` accepts nothing but lists of documents that the query finds. -/
lemma ownsAll_of_admitUpdate (hunique : (db.docs.map OwnedDoc.id).Nodup) {consumer : ConsumerId}
    {now : Int} {jwt : String} {t : ParsedToken} (h : db.admitUpdate env consumer now jwt = .ok t) :
    ∃ docs, t.payload.payload.docs = .array docs ∧ db.OwnsAll env consumer docs := by
  unfold admitUpdate at h
  split at h
  · cases h
  · cases h
  · split at h
    · cases h
    · split at h
      · rename_i docs hdocs
        split at h
        · cases h
        · rename_i owned hcount
          split at h
          · rename_i howns
            cases h
            exact ⟨docs, hdocs, ownsAll_of_counted hunique hcount howns⟩
          · cases h
      · cases h

/-- The second loop publishes nothing but the messages of the tokens that it is given. -/
lemma mem_published_replaceTokens {parsed : List ParsedToken}
    {published : List (UpdateTokenMessage Json)} {m : UpdateTokenMessage Json}
    (h : m ∈ (db.replaceTokens published parsed).published) :
    m ∈ published ∨ ∃ t ∈ parsed, m = t.message := by
  induction parsed generalizing db published with
  | nil => exact .inl h
  | cons t parsed ih =>
    unfold replaceTokens at h
    split at h
    · rcases ih h with hpublished | ⟨u, hu, rfl⟩
      · rcases List.mem_append.mp hpublished with hpublished | hm
        · exact .inl hpublished
        · exact .inr ⟨t, List.mem_cons_self .., List.mem_singleton.mp hm⟩
      · exact .inr ⟨u, List.mem_cons_of_mem _ hu, rfl⟩
    · exact .inl h

/-- A token of the first loop comes from one of the request. -/
lemma exists_passes {consumer : ConsumerId} {tokens : List (Int × String)}
    {parsed : List ParsedToken} {t : ParsedToken}
    (hforall : List.Forall₂ (db.Passes env consumer) tokens parsed) (ht : t ∈ parsed) :
    ∃ token ∈ tokens, db.Passes env consumer token t := by
  induction hforall with
  | nil => cases ht
  | cons hpass _ ih =>
    rcases List.mem_cons.mp ht with rfl | ht
    · exact ⟨_, List.mem_cons_self .., hpass⟩
    · obtain ⟨token, hmem, hpass⟩ := ih ht
      exact ⟨token, List.mem_cons_of_mem _ hmem, hpass⟩

lemma admitted_of_published {consumer : ConsumerId} {tokens : List (Int × String)}
    {m : UpdateTokenMessage Json} (h : m ∈ (db.updateToken env consumer tokens).published) :
    ∃ token ∈ tokens, ∃ t, db.Passes env consumer token t ∧ m = t.message := by
  unfold updateToken at h
  split at h
  · cases h
  · rename_i parsed hparsed
    rcases mem_published_replaceTokens h with hm | ⟨t, ht, rfl⟩
    · cases hm
    · obtain ⟨token, hmem, hpass⟩ := exists_passes (parseTokens_eq_ok.mp hparsed) ht
      exact ⟨token, hmem, t, hpass, rfl⟩

/-- For every state of the collections and every payload that `checkClientToken` accepts, or that
`updateToken` accepts or publishes, the access table built from it is faithful to it if and only if its
documents are a list and all of their ids are texts. -/
theorem accepted_table_faithful_iff (env : QueryEnv) (hunique : (db.docs.map OwnedDoc.id).Nodup) :
    (∀ now jwt token payload, db.checkClientToken env now jwt token = .ok payload →
      (db.FaithfulTable env payload.consumerId payload.docs ↔ Parsed.TextIds payload.docs)) ∧
    (∀ consumer token t, db.Passes env consumer token t →
      (db.FaithfulTable env consumer t.payload.payload.docs ↔
        Parsed.TextIds t.payload.payload.docs)) ∧
    ∀ consumer tokens, ∀ m ∈ (db.updateToken env consumer tokens).published,
      (db.FaithfulTable env consumer m.docs ↔ Parsed.TextIds m.docs) := by
  have hpasses : ∀ consumer token t, db.Passes env consumer token t →
      (db.FaithfulTable env consumer t.payload.payload.docs ↔
        Parsed.TextIds t.payload.payload.docs) := by
    intro consumer token t hpass
    obtain ⟨docs, hdocs, howns⟩ := ownsAll_of_admitUpdate hunique hpass
    rw [hdocs]
    exact howns.faithfulTable_iff
  refine ⟨?_, hpasses, ?_⟩
  · intro now jwt token payload haccepted
    by_cases harray : ∃ docs, payload.docs = .array docs
    · obtain ⟨docs, hdocs⟩ := harray
      have howns := ownsAll_of_checkClientToken hunique haccepted hdocs
      rw [hdocs]
      exact howns.faithfulTable_iff
    · exact faithfulTable_iff_of_not_array fun docs hdocs => harray ⟨docs, hdocs⟩
  · intro consumer tokens m hm
    obtain ⟨token, -, t, hpass, rfl⟩ := admitted_of_published hm
    exact hpasses consumer token t hpass

/-- The documents of every JWT, and a cast that takes texts of the length of an id. -/
def lister (docs : Json) : QueryEnv :=
  ApiEnv.queriedByText
    { parseJWT := fun _ => some ⟨some "new", some (.text "64a000000000000000000000"), some "user",
        some (.time 9), some docs, some "old"⟩
      verify := fun _ _ => true
      ttl := 10 }
    fun text => if text.length = 24 then some text else none

def listed (docs : Json) : JWTPayload Json :=
  ⟨"new", "64a000000000000000000000", "user", some (.time 9), docs⟩

def singleDocs : Json := .array [accessData "64a000000000000000000001" ["read"]]

theorem single_table_faithful :
    single.FaithfulTable (lister singleDocs) "64a000000000000000000000" singleDocs ∧
      ∀ m ∈ (single.updateToken (lister singleDocs) "64a000000000000000000000"
          [(0, "jwt")]).published,
        (single.FaithfulTable (lister singleDocs) "64a000000000000000000000" m.docs ↔
          Parsed.TextIds m.docs) := by
  obtain ⟨hcheck, -, hpublished⟩ := @accepted_table_faithful_iff single (lister singleDocs) (by decide)
  refine ⟨(hcheck 0 "jwt" none (listed singleDocs) (by decide)).mpr ?_, hpublished _ _⟩
  exact ⟨_, rfl, by simp [accessData, Json.property]⟩

/-- Two documents of one consumer. -/
def double : Database where
  consumers := [⟨"64a000000000000000000000", "key"⟩]
  docs := [⟨"64a000000000000000000001", some "64a000000000000000000000", false⟩,
    ⟨"64a000000000000000000002", some "64a000000000000000000000", false⟩]
  tokens := []
  updates := []

/-- The ids are objects, which can be cast like the texts that they hold. -/
def doubleDocs : Json := .array [
  .object [("id", .object [("id", .text "64a000000000000000000001")]),
    ("rights", .array [.text "read"])],
  .object [("id", .object [("id", .text "64a000000000000000000002")]),
    ("rights", .array [.text "write"])]]

/-- Both entries have the same key, so that the first one is overwritten. -/
theorem table_overwritten :
    double.checkClientToken (lister doubleDocs) 0 "jwt" none = .ok (listed doubleDocs) ∧
      double.Passes (lister doubleDocs) "64a000000000000000000000" (0, "jwt")
        ⟨"jwt", listed doubleDocs, "old"⟩ ∧
      (Parsed.createAccessObject doubleDocs).map JsMap.keys = some ["[object Object]"] ∧
      ¬double.FaithfulTable (lister doubleDocs) "64a000000000000000000000" doubleDocs := by
  refine ⟨by decide, rfl, by decide, ?_⟩
  rintro ⟨elements, table, heq, htable, hfaithful⟩
  cases heq
  obtain ⟨key, -, hid⟩ := (hfaithful.keys _).mpr List.mem_cons_self
  cases hid

/-! ### The table of documents as their type declares them -/

/-- The table has the entries of the token and nothing else, and all of them are for documents of
the consumer. -/
structure FaithfulAccess (db : Database) (env : QueryEnv) (consumerId : ConsumerId)
    (docs : List AccessData) : Prop where
  keys : ∀ d, (createAccessObject docs).has d ↔ d ∈ docs.map AccessData.id
  entries : ∀ data ∈ docs, (createAccessObject docs).get data.id = some data
  distinct : (docs.map AccessData.id).Nodup
  owned : ∀ d, (createAccessObject docs).has d → db.Owns env consumerId d

end Database

/-- The last entry for a document is the one that stays. -/
lemma get_createAccessObject (docs : List AccessData) (d : DocKey) :
    (createAccessObject docs).get d = docs.reverse.find? (·.id = d) := by
  induction docs using List.reverseRecOn with
  | nil => rfl
  | append_singleton docs data ih =>
    have hset : createAccessObject (docs ++ [data]) =
        (createAccessObject docs).set data.id ⟨data.id, data.rights⟩ := by
      simp only [createAccessObject, List.foldl_append, List.foldl_cons, List.foldl_nil]
    rw [hset, JsMap.get_set, ih, List.reverse_append, List.reverse_singleton,
      List.singleton_append, List.find?_cons]
    by_cases hd : d = data.id
    · simp [hd]
    · simp [hd, Ne.symm hd]

lemma has_createAccessObject (docs : List AccessData) (d : DocKey) :
    (createAccessObject docs).has d ↔ d ∈ docs.map AccessData.id := by
  rw [JsMap.has, get_createAccessObject, List.find?_isSome]
  simp [List.mem_map]

lemma get_createAccessObject_of_nodup {docs : List AccessData} {data : AccessData}
    (hnodup : (docs.map AccessData.id).Nodup) (hdata : data ∈ docs) :
    (createAccessObject docs).get data.id = some data := by
  obtain ⟨found, hfound⟩ : ∃ found, (createAccessObject docs).get data.id = some found := by
    rw [← Option.isSome_iff_exists]
    exact (has_createAccessObject docs data.id).mpr (List.mem_map_of_mem hdata)
  rw [hfound]
  rw [get_createAccessObject] at hfound
  have hmem : found ∈ docs := List.mem_reverse.mp (List.mem_of_find?_eq_some hfound)
  have hid : found.id = data.id := by simpa using List.find?_some hfound
  exact congrArg some (List.inj_on_of_nodup_map hnodup hmem hdata hid)

lemma property_of_declaredDoc {doc : Json} {data : AccessData} (h : declaredDoc doc = some data) :
    doc.property "id" = some (.text data.id) := by
  unfold declaredDoc at h
  split at h
  · rename_i hid _
    obtain ⟨rights, -, rfl⟩ := Option.map_eq_some_iff.mp h
    exact hid
  · cases h

lemma map_property_of_declared {docs : List Json} {declared : List AccessData}
    (h : declaredDocs (.array docs) = some declared) :
    docs.map (Json.property "id") = declared.map fun data => some (.text data.id) := by
  have hmap := mapM_eq_some.mp h
  clear h
  induction docs generalizing declared with
  | nil => cases declared <;> simp_all
  | cons doc docs ih =>
    cases declared with
    | nil => simp at hmap
    | cons data declared =>
      rw [List.map_cons, List.map_cons, List.cons.injEq] at hmap
      rw [List.map_cons, List.map_cons, property_of_declaredDoc hmap.1, ih hmap.2]

/-- A list of different documents of a consumer, as a proxy reads it, has a faithful table. -/
lemma Database.OwnsAll.faithfulAccess {db : Database} {env : QueryEnv} {consumerId : ConsumerId}
    {docs : List Json} {declared : List AccessData} (h : db.OwnsAll env consumerId docs)
    (hdeclared : declaredDocs (.array docs) = some declared) :
    db.FaithfulAccess env consumerId declared := by
  have hmap := map_property_of_declared hdeclared
  have hdistinct : (declared.map AccessData.id).Nodup := by
    have hids := h.distinct
    rw [hmap] at hids
    refine List.Nodup.of_map (fun id : DocKey => some (Json.text id)) ?_
    rw [List.map_map]
    exact hids
  refine ⟨has_createAccessObject declared,
    fun data hdata => get_createAccessObject_of_nodup hdistinct hdata, hdistinct, fun d hd => ?_⟩
  obtain ⟨data, hdata, rfl⟩ := List.mem_map.mp ((has_createAccessObject declared d).mp hd)
  have hmem : some (.text data.id) ∈ docs.map (Json.property "id") := by
    rw [hmap]
    exact List.mem_map_of_mem hdata
  obtain ⟨doc, hdoc, hid⟩ := List.mem_map.mp hmem
  exact h.owned doc hdoc data.id hid

def Right.toJson : Right → Json
  | .read => .text "read"
  | .write => .text "write"

def AccessData.toParsed (data : AccessData) : Parsed.AccessData :=
  ⟨some (.text data.id), some (.array (data.rights.map Right.toJson))⟩

lemma eq_toJson_of_declaredRight {value : Json} {right : Right}
    (h : declaredRight value = some right) : value = right.toJson := by
  unfold declaredRight at h
  split at h <;> cases h <;> rfl

lemma rights_of_declaredDoc {doc : Json} {data : AccessData} (h : declaredDoc doc = some data) :
    doc.property "rights" = some (.array (data.rights.map Right.toJson)) := by
  unfold declaredDoc at h
  split at h
  · rename_i _ rights _ hrights
    obtain ⟨declared, hdeclared, rfl⟩ := Option.map_eq_some_iff.mp h
    rw [hrights]
    have hmap := mapM_eq_some.mp hdeclared
    clear h hdeclared hrights
    induction rights generalizing declared with
    | nil => cases declared <;> simp_all
    | cons value rights ih =>
      cases declared with
      | nil => simp at hmap
      | cons right declared =>
        rw [List.map_cons, List.map_cons, List.cons.injEq] at hmap
        have hrest := ih declared hmap.2
        simp only [Option.some.injEq, Json.array.injEq] at hrest ⊢
        rw [eq_toJson_of_declaredRight hmap.1, hrest, List.map_cons]
  · cases h

/-- Where the documents are what their type says, the table that the code builds is the one of the
proxies, since none of its keys is `__proto__`. -/
theorem createAccessObject_declared {docs : Json} {declared : List AccessData}
    (hdeclared : declaredDocs docs = some declared)
    (hproto : "__proto__" ∉ declared.map AccessData.id) :
    ∃ table, Parsed.createAccessObject docs = some table ∧
      ∀ d, table.get d = ((createAccessObject declared).get d).map AccessData.toParsed := by
  have hmain : ∀ (elements : List Json) (declared : List AccessData) (acc : JsMap _ _)
      (access : Access), elements.map declaredDoc = declared.map some →
      "__proto__" ∉ declared.map AccessData.id →
      (∀ d, acc.get d = (access.get d).map AccessData.toParsed) →
      ∃ table, elements.foldlM Parsed.assign acc = some table ∧ ∀ d, table.get d =
        ((declared.foldl (fun acc data => acc.set data.id ⟨data.id, data.rights⟩) access).get d).map
          AccessData.toParsed := by
    intro elements
    induction elements with
    | nil =>
      intro declared acc access hmap _ hacc
      cases declared with
      | nil => exact ⟨acc, rfl, hacc⟩
      | cons data declared => simp at hmap
    | cons doc elements ih =>
      intro declared acc access hmap hproto hacc
      cases declared with
      | nil => simp at hmap
      | cons data declared =>
        rw [List.map_cons, List.map_cons, List.cons.injEq] at hmap
        rw [List.map_cons, List.mem_cons, not_or] at hproto
        rw [List.foldlM_cons, Parsed.assign_of_text (property_of_declaredDoc hmap.1)
          (Ne.symm hproto.1), rights_of_declaredDoc hmap.1]
        refine ih declared _ _ hmap.2 hproto.2 fun d => ?_
        rw [JsMap.get_set, JsMap.get_set, hacc d]
        split <;> rfl
  unfold declaredDocs at hdeclared
  split at hdeclared
  · exact hmain _ _ _ _ (mapM_eq_some.mp hdeclared) hproto fun d => rfl
  · cases hdeclared

end AlaFois
