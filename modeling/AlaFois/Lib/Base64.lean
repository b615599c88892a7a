import Mathlib.Data.List.TakeWhile
import Mathlib.Tactic.Common

/-!
# Base64

The encoding with the alphabet for URLs and without padding, and two decoders. The lenient one reads
the standard alphabet as well, passes over what is in neither of them, and stops at padding; the strict
one takes unpadded text in the alphabet for URLs and nothing else.
-/

namespace Base64

/-- The groups of six bits of some bytes, the last one filled up with zeros. -/
def sextets : List UInt8 → List Nat
  | [] => []
  | [a] => [a.toNat / 4, a.toNat % 4 * 16]
  | [a, b] => [a.toNat / 4, a.toNat % 4 * 16 + b.toNat / 16, b.toNat % 16 * 4]
  | a :: b :: c :: rest =>
    a.toNat / 4 :: (a.toNat % 4 * 16 + b.toNat / 16) :: (b.toNat % 16 * 4 + c.toNat / 64) ::
      c.toNat % 64 :: sextets rest

/-- The whole bytes in some groups of six bits. -/
def ofSextets : List Nat → List UInt8
  | x :: y :: z :: w :: rest =>
    .ofNat (x * 4 + y / 16) :: .ofNat (y % 16 * 16 + z / 4) :: .ofNat (z % 4 * 64 + w) ::
      ofSextets rest
  | [x, y, z] => [.ofNat (x * 4 + y / 16), .ofNat (y % 16 * 16 + z / 4)]
  | [x, y] => [.ofNat (x * 4 + y / 16)]
  | _ => []

lemma ofNat_eq {a : UInt8} {n : Nat} (h : n = a.toNat) : UInt8.ofNat n = a := by
  rw [h]
  exact UInt8.ofNat_toNat

lemma ofSextets_sextets (bytes : List UInt8) : ofSextets (sextets bytes) = bytes := by
  induction bytes using sextets.induct with
  | case1 => rfl
  | case2 a =>
    have ha := a.toNat_lt
    simp only [sextets, ofSextets, List.cons.injEq, and_true]
    exact ofNat_eq (by omega)
  | case3 a b =>
    have ha := a.toNat_lt
    have hb := b.toNat_lt
    simp only [sextets, ofSextets, List.cons.injEq, and_true]
    exact ⟨ofNat_eq (by omega), ofNat_eq (by omega)⟩
  | case4 a b c rest ih =>
    have ha := a.toNat_lt
    have hb := b.toNat_lt
    have hc := c.toNat_lt
    simp only [sextets, ofSextets, List.cons.injEq]
    exact ⟨ofNat_eq (by omega), ofNat_eq (by omega), ofNat_eq (by omega), ih⟩

lemma sextets_lt (bytes : List UInt8) : ∀ n ∈ sextets bytes, n < 64 := by
  induction bytes using sextets.induct with
  | case1 => simp [sextets]
  | case2 a =>
    have ha := a.toNat_lt
    simp only [sextets, List.forall_mem_cons, List.not_mem_nil, false_implies, implies_true, and_true]
    omega
  | case3 a b =>
    have ha := a.toNat_lt
    have hb := b.toNat_lt
    simp only [sextets, List.forall_mem_cons, List.not_mem_nil, false_implies, implies_true, and_true]
    omega
  | case4 a b c rest ih =>
    have ha := a.toNat_lt
    have hb := b.toNat_lt
    have hc := c.toNat_lt
    simp only [sextets, List.forall_mem_cons]
    exact ⟨by omega, by omega, by omega, by omega, ih⟩

/-! ### The alphabets -/

/-- The character for a group of six bits in the alphabet for URLs. -/
def digit (n : Nat) : Char :=
  if n < 26 then Char.ofNat (65 + n)
  else if n < 52 then Char.ofNat (97 + (n - 26))
  else if n < 62 then Char.ofNat (48 + (n - 52))
  else if n = 62 then '-'
  else '_'

/-- The group of six bits that a character stands for in one of the alphabets. -/
def sextet? (c : Char) : Option Nat :=
  if 65 ≤ c.toNat ∧ c.toNat ≤ 90 then some (c.toNat - 65)
  else if 97 ≤ c.toNat ∧ c.toNat ≤ 122 then some (c.toNat - 97 + 26)
  else if 48 ≤ c.toNat ∧ c.toNat ≤ 57 then some (c.toNat - 48 + 52)
  else if c = '+' ∨ c = '-' then some 62
  else if c = '/' ∨ c = '_' then some 63
  else none

def urlSextet? (c : Char) : Option Nat := if c = '+' ∨ c = '/' then none else sextet? c

lemma urlSextet?_digit {n : Nat} (hn : n < 64) : urlSextet? (digit n) = some n := by
  have hall : ∀ n < 64, urlSextet? (digit n) = some n := by decide
  exact hall n hn

lemma ne_of_sextet? {c : Char} {n : Nat} (h : sextet? c = some n) : c ≠ '=' ∧ c ≠ '.' := by
  have hnone : sextet? '=' = none ∧ sextet? '.' = none := by decide
  constructor
  · rintro rfl
    exact Option.some_ne_none n (h.symm.trans hnone.1)
  · rintro rfl
    exact Option.some_ne_none n (h.symm.trans hnone.2)

lemma sextet?_of_urlSextet? {c : Char} {n : Nat} (h : urlSextet? c = some n) :
    sextet? c = some n :=
  (Option.ite_none_left_eq_some.mp h).2

/-! ### Texts -/

def encodeUrl (bytes : List UInt8) : String := String.ofList ((sextets bytes).map digit)

/-- The lenient decoder. -/
def decode (text : String) : List UInt8 :=
  ofSextets ((text.toList.takeWhile (· ≠ '=')).filterMap sextet?)

/-- The strict decoder. -/
def decodeUrl (text : String) : Option (List UInt8) := (text.toList.mapM urlSextet?).map ofSextets

lemma mapM_urlSextet? {cs : List Char} {ns : List Nat} (h : cs.mapM urlSextet? = some ns) :
    cs.filterMap sextet? = ns ∧ ∀ c ∈ cs, c ≠ '=' ∧ c ≠ '.' := by
  induction cs generalizing ns with
  | nil =>
    cases h
    exact ⟨rfl, by simp⟩
  | cons c cs ih =>
    rw [List.mapM_cons] at h
    obtain ⟨n, hn, h⟩ := Option.bind_eq_some_iff.mp h
    obtain ⟨ns', hns, h⟩ := Option.bind_eq_some_iff.mp h
    cases h
    have hsextet := sextet?_of_urlSextet? hn
    obtain ⟨hrest, hall⟩ := ih hns
    exact ⟨by rw [List.filterMap_cons, hsextet, hrest],
      List.forall_mem_cons.mpr ⟨ne_of_sextet? hsextet, hall⟩⟩

/-- What the strict decoder accepts, the lenient one reads in the same way. -/
theorem decode_eq_of_decodeUrl {text : String} {bytes : List UInt8}
    (h : decodeUrl text = some bytes) : decode text = bytes ∧ '.' ∉ text.toList := by
  obtain ⟨ns, hns, rfl⟩ := Option.map_eq_some_iff.mp h
  obtain ⟨hsextets, hne⟩ := mapM_urlSextet? hns
  refine ⟨?_, fun hdot => (hne '.' hdot).2 rfl⟩
  have htake : text.toList.takeWhile (· ≠ '=') = text.toList :=
    List.takeWhile_eq_self_iff.mpr fun c hc => decide_eq_true (hne c hc).1
  rw [decode, htake, hsextets]

lemma decodeUrl_encodeUrl (bytes : List UInt8) : decodeUrl (encodeUrl bytes) = some bytes := by
  have hdigits : ∀ ns : List Nat, (∀ n ∈ ns, n < 64) →
      (ns.map digit).mapM urlSextet? = some ns := by
    intro ns hns
    induction ns with
    | nil => rfl
    | cons n ns ih =>
      obtain ⟨hn, hrest⟩ := List.forall_mem_cons.mp hns
      rw [List.map_cons, List.mapM_cons, urlSextet?_digit hn, ih hrest]
      rfl
  rw [decodeUrl, encodeUrl, String.toList_ofList, hdigits _ (sextets_lt bytes), Option.map_some,
    ofSextets_sextets]

end Base64
