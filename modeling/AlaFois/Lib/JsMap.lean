import Mathlib.Data.List.Nodup
import Mathlib.Tactic.Common

/-!
# Insertion-ordered maps

A `JsMap` is the map of a JavaScript program: setting a present key keeps its
position, setting a new key appends it, and iteration follows the entries. The
entries carry the proof that no key occurs twice.
-/

/-- An insertion-ordered map without duplicate keys. -/
structure JsMap (κ ν : Type*) where
  entries : List (κ × ν)
  nodup_keys : (entries.map Prod.fst).Nodup

namespace JsMap

variable {κ ν : Type*} [DecidableEq κ]

/-- The map without entries. -/
def empty : JsMap κ ν := ⟨[], List.nodup_nil⟩

/-- The keys in insertion order. -/
def keys (m : JsMap κ ν) : List κ := m.entries.map Prod.fst

/-- The first value filed under `k`. -/
def find (k : κ) : List (κ × ν) → Option ν
  | [] => none
  | e :: es => if e.1 = k then some e.2 else find k es

/-- The value under `k`, if there is one. -/
def get (m : JsMap κ ν) (k : κ) : Option ν := find k m.entries

/-- Whether `k` is a key. -/
def has (m : JsMap κ ν) (k : κ) : Bool := (m.get k).isSome

/-- Replaces the value of `k` in place, or appends a new entry. -/
def put (k : κ) (v : ν) : List (κ × ν) → List (κ × ν)
  | [] => [(k, v)]
  | e :: es => if e.1 = k then (k, v) :: es else e :: put k v es

lemma keys_put (k : κ) (v : ν) (es : List (κ × ν)) :
    (put k v es).map Prod.fst =
      if k ∈ es.map Prod.fst then es.map Prod.fst else es.map Prod.fst ++ [k] := by
  induction es with
  | nil => simp [put]
  | cons e es ih =>
    by_cases h : e.1 = k
    · simp [put, h]
    · have h' : ¬k = e.1 := fun hk => h hk.symm
      simp only [put, h, if_false, List.map_cons, ih, List.mem_cons, h', false_or]
      split <;> simp

lemma nodup_put (k : κ) (v : ν) (es : List (κ × ν)) (h : (es.map Prod.fst).Nodup) :
    ((put k v es).map Prod.fst).Nodup := by
  rw [keys_put]
  split
  · exact h
  · rename_i hk
    exact List.Nodup.append h (List.nodup_singleton k) (by simpa using hk)

/-- Files `v` under `k`. -/
def set (m : JsMap κ ν) (k : κ) (v : ν) : JsMap κ ν :=
  ⟨put k v m.entries, nodup_put k v m.entries m.nodup_keys⟩

omit [DecidableEq κ] in
lemma nodup_filter_keys (p : κ × ν → Bool) (es : List (κ × ν)) (h : (es.map Prod.fst).Nodup) :
    ((es.filter p).map Prod.fst).Nodup :=
  h.sublist (List.filter_sublist.map Prod.fst)

/-- Removes the entry of `k`. -/
def delete (m : JsMap κ ν) (k : κ) : JsMap κ ν :=
  ⟨m.entries.filter (fun e => e.1 ≠ k), nodup_filter_keys _ _ m.nodup_keys⟩

@[simp] lemma get_empty (k : κ) : (empty : JsMap κ ν).get k = none := rfl

lemma find_put (k k' : κ) (v : ν) (es : List (κ × ν)) :
    find k' (put k v es) = if k' = k then some v else find k' es := by
  induction es with
  | nil => simp [put, find, eq_comm]
  | cons e es ih =>
    by_cases h : e.1 = k
    · simp only [put, h, if_true, find]
      by_cases hk : k = k'
      · simp [hk]
      · simp [hk, Ne.symm hk]
    · simp only [put, h, if_false, find, ih]
      by_cases hk : e.1 = k'
      · have : ¬k' = k := fun he => h (hk.trans he)
        simp [hk, this]
      · simp [hk]

lemma get_set (m : JsMap κ ν) (k k' : κ) (v : ν) :
    (m.set k v).get k' = if k' = k then some v else m.get k' :=
  find_put k k' v m.entries

@[simp] lemma get_set_self (m : JsMap κ ν) (k : κ) (v : ν) : (m.set k v).get k = some v := by
  simp [get_set]

lemma get_set_ne (m : JsMap κ ν) {k k' : κ} (v : ν) (h : k' ≠ k) :
    (m.set k v).get k' = m.get k' := by
  simp [get_set, h]

lemma find_filter_ne (k k' : κ) (es : List (κ × ν)) :
    find k' (es.filter (fun e => e.1 ≠ k)) = if k' = k then none else find k' es := by
  induction es with
  | nil => simp [find]
  | cons e es ih =>
    by_cases h : e.1 = k
    · rw [List.filter_cons_of_neg (by simpa using h), ih]
      by_cases hk : k' = k
      · simp [hk]
      · have : ¬e.1 = k' := fun he => hk (he.symm.trans h)
        simp [hk, find, this]
    · rw [List.filter_cons_of_pos (by simpa using h)]
      simp only [find, ih]
      by_cases hk : e.1 = k'
      · have : ¬k' = k := fun he => h (hk.trans he)
        simp [hk, this]
      · simp [hk]

lemma get_delete (m : JsMap κ ν) (k k' : κ) :
    (m.delete k).get k' = if k' = k then none else m.get k' :=
  find_filter_ne k k' m.entries

@[simp] lemma get_delete_self (m : JsMap κ ν) (k : κ) : (m.delete k).get k = none := by
  simp [get_delete]

lemma get_delete_ne (m : JsMap κ ν) {k k' : κ} (h : k' ≠ k) :
    (m.delete k).get k' = m.get k' := by
  simp [get_delete, h]

@[simp] lemma has_set_self (m : JsMap κ ν) (k : κ) (v : ν) : (m.set k v).has k = true := by
  rw [has, get_set_self, Option.isSome_some]

lemma has_set_ne (m : JsMap κ ν) {k k' : κ} (v : ν) (h : k' ≠ k) :
    (m.set k v).has k' = m.has k' := by
  rw [has, get_set_ne m v h, has]

@[simp] lemma has_delete_self (m : JsMap κ ν) (k : κ) : (m.delete k).has k = false := by
  rw [has, get_delete_self, Option.isSome_none]

lemma has_delete_ne (m : JsMap κ ν) {k k' : κ} (h : k' ≠ k) : (m.delete k).has k' = m.has k' := by
  rw [has, get_delete_ne m h, has]

lemma find_eq_some_iff (k : κ) (v : ν) (es : List (κ × ν)) (h : (es.map Prod.fst).Nodup) :
    find k es = some v ↔ (k, v) ∈ es := by
  induction es with
  | nil => simp [find]
  | cons e es ih =>
    obtain ⟨hk, hes⟩ := List.nodup_cons.mp h
    by_cases he : e.1 = k
    · have hnot : (k, v) ∉ es := fun hm => hk (he ▸ List.mem_map_of_mem (f := Prod.fst) hm)
      simp only [find, he, if_true, Option.some.injEq, List.mem_cons, hnot, or_false]
      constructor
      · rintro rfl; exact Prod.ext he.symm rfl
      · rintro rfl; rfl
    · have hne : (k, v) ≠ e := fun hv => he (hv ▸ rfl)
      simp [find, he, ih hes, hne]

/-- Iteration meets exactly the entries that `get` finds. -/
theorem mem_entries_iff (m : JsMap κ ν) (k : κ) (v : ν) :
    (k, v) ∈ m.entries ↔ m.get k = some v :=
  (find_eq_some_iff k v m.entries m.nodup_keys).symm

lemma exists_entry_of_set (P : ν → Bool) {m : JsMap κ ν} {k : κ} {v : ν}
    (h : ∃ e ∈ (m.set k v).entries, P e.2) : P v ∨ ∃ e ∈ m.entries, P e.2 := by
  obtain ⟨e, he, hp⟩ := h
  rw [mem_entries_iff, get_set] at he
  split at he
  · exact .inl (Option.some.inj he ▸ hp)
  · exact .inr ⟨e, (m.mem_entries_iff _ _).mpr he, hp⟩

lemma exists_entry_of_delete (P : ν → Bool) {m : JsMap κ ν} {k : κ}
    (h : ∃ e ∈ (m.delete k).entries, P e.2) : ∃ e ∈ m.entries, P e.2 := by
  obtain ⟨e, he, hp⟩ := h
  rw [mem_entries_iff, get_delete] at he
  split at he
  · cases he
  · exact ⟨e, (m.mem_entries_iff _ _).mpr he, hp⟩

lemma exists_entry_of_get (P : ν → Bool) {m : JsMap κ ν} {k : κ} {v : ν}
    (h : m.get k = some v) (hp : P v) : ∃ e ∈ m.entries, P e.2 :=
  ⟨(k, v), (m.mem_entries_iff k v).mpr h, hp⟩

lemma mem_keys_iff (m : JsMap κ ν) (k : κ) : k ∈ m.keys ↔ ∃ v, m.get k = some v := by
  simp only [keys, List.mem_map, Prod.exists, exists_and_right, exists_eq_right]
  exact exists_congr fun v => m.mem_entries_iff k v

lemma has_iff (m : JsMap κ ν) (k : κ) : m.has k = true ↔ k ∈ m.keys := by
  rw [has, Option.isSome_iff_exists, mem_keys_iff]

lemma keys_set (m : JsMap κ ν) (k : κ) (v : ν) :
    (m.set k v).keys = if k ∈ m.keys then m.keys else m.keys ++ [k] :=
  keys_put k v m.entries

lemma keys_delete (m : JsMap κ ν) (k : κ) : (m.delete k).keys = m.keys.filter (· ≠ k) := by
  simp only [keys, delete, List.filter_map]
  rfl

/-! ### Maps to references -/

/-- No reference is filed under two keys. -/
def Unshared (m : JsMap κ ν) : Prop :=
  ∀ k k' r, m.get k = some r → m.get k' = some r → k = k'

lemma unshared_empty : (empty : JsMap κ ν).Unshared := fun k k' r h => by simp at h

lemma Unshared.delete {m : JsMap κ ν} (h : m.Unshared) (k : κ) : (m.delete k).Unshared := by
  intro k₁ k₂ r h₁ h₂
  rw [get_delete] at h₁ h₂
  split at h₁
  · cases h₁
  · split at h₂
    · cases h₂
    · exact h k₁ k₂ r h₁ h₂

lemma Unshared.set {m : JsMap κ ν} (h : m.Unshared) {k : κ} {r : ν}
    (hother : ∀ k', m.get k' = some r → k' = k) : (m.set k r).Unshared := by
  intro k₁ k₂ r' h₁ h₂
  rw [get_set] at h₁ h₂
  split at h₁
  · rename_i hk₁
    cases h₁
    split at h₂
    · rename_i hk₂
      exact hk₁.trans hk₂.symm
    · exact hk₁.trans (hother k₂ h₂).symm
  · split at h₂
    · rename_i hk₂
      cases h₂
      exact (hother k₁ h₁).trans hk₂.symm
    · exact h k₁ k₂ r' h₁ h₂

/-- A reference moves from one key to another. -/
lemma Unshared.rename {m : JsMap κ ν} (h : m.Unshared) {k : κ} {r : ν} (hk : m.get k = some r)
    (k' : κ) : ((m.delete k).set k' r).Unshared := by
  refine (h.delete k).set fun k₁ h₁ => ?_
  rw [get_delete] at h₁
  split at h₁
  · cases h₁
  · rename_i hne
    exact absurd (h k₁ k r h₁ hk) hne

/-! ### Entries under other keys and with other values -/

section

variable {κ' ν' : Type*} [DecidableEq κ'] {f : κ → κ'} (hf : Function.Injective f) (g : ν → ν')
include hf

lemma map_put (k : κ) (v : ν) (es : List (κ × ν)) :
    (put k v es).map (Prod.map f g) = put (f k) (g v) (es.map (Prod.map f g)) := by
  induction es with
  | nil => rfl
  | cons e es ih =>
    by_cases h : e.1 = k
    · simp [put, h]
    · have hne : f e.1 ≠ f k := fun he => h (hf he)
      simp [put, h, hne, ih]

lemma map_filter_ne (k : κ) (es : List (κ × ν)) :
    (es.filter fun e => e.1 ≠ k).map (Prod.map f g) =
      (es.map (Prod.map f g)).filter fun e => e.1 ≠ f k := by
  rw [List.filter_map]
  refine congrArg _ (List.filter_congr fun e _ => ?_)
  simp [hf.eq_iff]

lemma find_map (k : κ) (es : List (κ × ν)) :
    find (f k) (es.map (Prod.map f g)) = (find k es).map g := by
  induction es with
  | nil => rfl
  | cons e es ih =>
    by_cases h : e.1 = k
    · simp [find, h]
    · have hne : f e.1 ≠ f k := fun he => h (hf he)
      simp [find, h, hne, ih]

end

lemma put_of_find {k : κ} {v : ν} {es : List (κ × ν)} (h : find k es = some v) :
    put k v es = es := by
  induction es with
  | nil => cases h
  | cons e es ih =>
    by_cases he : e.1 = k
    · simp only [find, he, if_true, Option.some.injEq] at h
      simp only [put, he, if_true, List.cons.injEq, and_true]
      exact Prod.ext he.symm h.symm
    · simp only [find, he, if_false] at h
      simp [put, he, ih h]

/-- Writing to a reference that is filed once is setting its key. -/
lemma map_update [DecidableEq ν] {ν' : Type*} {k : κ} {r : ν} {es : List (κ × ν)}
    (hnd : (es.map Prod.fst).Nodup) (hk : find k es = some r) (hother : ∀ e ∈ es, e.2 = r → e.1 = k)
    (g : ν → ν') (v : ν') :
    es.map (Prod.map id (Function.update g r v)) = put k v (es.map (Prod.map id g)) := by
  induction es with
  | nil => cases hk
  | cons e es ih =>
    obtain ⟨hnot, hnd⟩ := List.nodup_cons.mp hnd
    by_cases he : e.1 = k
    · simp only [find, he, if_true, Option.some.injEq] at hk
      have hrest : es.map (Prod.map id (Function.update g r v)) = es.map (Prod.map id g) := by
        refine List.map_congr_left fun e' he' => ?_
        have hne : e'.2 ≠ r := fun h => by
          have hkey := hother e' (List.mem_cons_of_mem e he') h
          exact hnot (he.trans hkey.symm ▸ List.mem_map_of_mem (f := Prod.fst) he')
        refine Prod.ext rfl ?_
        rw [Prod.map_snd, Prod.map_snd, Function.update_of_ne hne]
      have hhead : Prod.map id (Function.update g r v) e = (k, v) := by
        refine Prod.ext he ?_
        rw [Prod.map_snd, hk, Function.update_self]
      rw [List.map_cons, List.map_cons, hhead, hrest]
      simp [put, he]
    · have hne : e.2 ≠ r := fun h => he (hother e List.mem_cons_self h)
      simp only [find, he, if_false] at hk
      have hrest := ih hnd hk fun e' he' => hother e' (List.mem_cons_of_mem e he')
      have hhead : Prod.map id (Function.update g r v) e = Prod.map id g e := by
        refine Prod.ext rfl ?_
        rw [Prod.map_snd, Prod.map_snd, Function.update_of_ne hne]
      rw [List.map_cons, List.map_cons, hhead, hrest]
      simp [put, he]

end JsMap
