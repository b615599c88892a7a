import Mathlib.Tactic.Common

/-!
# Byte arrays over buffers

A `Uint8Array` is a view of a part of a buffer. Reading and writing go through the offset of the
view, and what is proved is about the bytes that the view shows. Where JavaScript throws a
`RangeError`, the result is `none`.
-/

/-- A part of a buffer. -/
structure Uint8Array where
  buffer : List UInt8
  byteOffset : Nat
  length : Nat
  inBounds : byteOffset + length ≤ buffer.length

namespace Uint8Array

/-- What the view shows. -/
def bytes (v : Uint8Array) : List UInt8 := (v.buffer.drop v.byteOffset).take v.length

/-- The view of a whole buffer, as of an array that is copied into a new one. -/
def ofList (buffer : List UInt8) : Uint8Array := ⟨buffer, 0, buffer.length, by simp⟩

/-- An array of this length, and of zeros. -/
def zeros (length : Nat) : Uint8Array := ofList (List.replicate length 0)

/-- The view from an offset to the end. -/
def ofBuffer (buffer : List UInt8) (byteOffset : Nat) : Option Uint8Array :=
  if h : byteOffset ≤ buffer.length then
    some ⟨buffer, byteOffset, buffer.length - byteOffset, by omega⟩
  else none

/-- `v[i]`, `none` where it is `undefined`. -/
def get (v : Uint8Array) (i : Nat) : Option UInt8 :=
  if i < v.length then v.buffer[v.byteOffset + i]? else none

/-- `v[i] = byte`, which does nothing out of bounds. -/
def put (v : Uint8Array) (i : Nat) (byte : UInt8) : Uint8Array :=
  if i < v.length then
    { v with buffer := v.buffer.set (v.byteOffset + i) byte, inBounds := by simpa using v.inBounds }
  else v

/-- Copies the first bytes of the source, one after the other. -/
def copy (v source : Uint8Array) (offset count : Nat) : Uint8Array :=
  (List.range count).foldl (fun w i => w.put (offset + i) ((source.get i).getD 0)) v

/-- `v.set(source, offset)`. -/
def set (v source : Uint8Array) (offset : Nat) : Option Uint8Array :=
  if offset + source.length ≤ v.length then some (v.copy source offset source.length) else none

/-! ### What is read -/

@[simp] lemma length_bytes (v : Uint8Array) : v.bytes.length = v.length := by
  have := v.inBounds
  simp [bytes]
  omega

@[simp] lemma bytes_ofList (buffer : List UInt8) : (ofList buffer).bytes = buffer := by
  simp [bytes, ofList]

@[simp] lemma length_ofList (buffer : List UInt8) : (ofList buffer).length = buffer.length := rfl

@[simp] lemma bytes_zeros (length : Nat) : (zeros length).bytes = List.replicate length 0 :=
  bytes_ofList _

@[simp] lemma length_zeros (n : Nat) : (zeros n).length = n := List.length_replicate

lemma get_eq (v : Uint8Array) (i : Nat) : v.get i = v.bytes[i]? := by
  simp only [get, bytes, List.getElem?_take, List.getElem?_drop]

lemma bytes_ofBuffer {buffer : List UInt8} {byteOffset : Nat} {v : Uint8Array}
    (h : ofBuffer buffer byteOffset = some v) : v.bytes = buffer.drop byteOffset := by
  unfold ofBuffer at h
  split at h
  · cases h
    exact List.take_of_length_le (by simp)
  · cases h

/-! ### What is written -/

lemma bytes_put (v : Uint8Array) (i : Nat) (byte : UInt8) :
    (v.put i byte).bytes = v.bytes.set i byte := by
  unfold put
  split
  · rw [bytes, List.drop_set, if_neg (Nat.not_lt.mpr (Nat.le_add_right _ i)),
      Nat.add_sub_cancel_left, List.take_set, bytes]
  · rename_i hi
    rw [List.set_eq_of_length_le (by simpa using hi)]

lemma copy_succ (v source : Uint8Array) (offset count : Nat) :
    v.copy source offset (count + 1) =
      (v.copy source offset count).put (offset + count) ((source.get count).getD 0) := by
  simp [copy, List.range_succ]

/-- After each round the bytes so far are those of the source, and the other ones as before. -/
lemma bytes_copy {v source : Uint8Array} {offset count : Nat} (hsource : count ≤ source.length)
    (hv : offset + count ≤ v.length) :
    (v.copy source offset count).bytes =
      v.bytes.take offset ++ source.bytes.take count ++ v.bytes.drop (offset + count) := by
  induction count with
  | zero => simp [copy]
  | succ count ih =>
    have hcount : count < source.bytes.length := by
      rw [length_bytes]
      exact hsource
    have hget : source.get count = some source.bytes[count] := by
      rw [get_eq, List.getElem?_eq_getElem]
    have hoffset : offset + count < v.bytes.length := by
      rw [length_bytes]
      omega
    have hdrop : v.bytes.drop (offset + count) =
        v.bytes[offset + count] :: v.bytes.drop (offset + (count + 1)) :=
      List.drop_eq_getElem_cons _
    have hlength : (v.bytes.take offset ++ source.bytes.take count).length = offset + count := by
      simp only [List.length_append, List.length_take, length_bytes]
      omega
    rw [copy_succ, bytes_put, ih (by omega) (by omega), hget, Option.getD_some,
      List.set_append_right _ _ (by omega), hlength, Nat.sub_self, hdrop, List.set_cons_zero,
      List.take_succ_eq_append_getElem hcount]
    simp only [List.append_assoc, List.singleton_append]

lemma bytes_set {v source w : Uint8Array} {offset : Nat} (h : v.set source offset = some w) :
    w.bytes = v.bytes.take offset ++ source.bytes ++ v.bytes.drop (offset + source.length) := by
  unfold set at h
  split at h
  · rename_i hle
    cases h
    rw [bytes_copy (Nat.le_refl _) hle, List.take_of_length_le (Nat.le_of_eq (length_bytes source))]
  · cases h

/-! ### Views of whole buffers -/

/-- The view shows the whole buffer. -/
structure Whole (v : Uint8Array) : Prop where
  byteOffset : v.byteOffset = 0
  length : v.length = v.buffer.length

lemma whole_ofList (buffer : List UInt8) : (ofList buffer).Whole := ⟨rfl, rfl⟩

lemma Whole.bytes_eq {v : Uint8Array} (h : v.Whole) : v.bytes = v.buffer := by
  rw [bytes, h.byteOffset, h.length, List.drop_zero, List.take_length]

lemma Whole.put {v : Uint8Array} (h : v.Whole) (i : Nat) (byte : UInt8) : (v.put i byte).Whole := by
  unfold Uint8Array.put
  split
  · exact ⟨h.byteOffset, by simpa using h.length⟩
  · exact h

lemma Whole.copy {v : Uint8Array} (h : v.Whole) (source : Uint8Array) (offset count : Nat) :
    (v.copy source offset count).Whole := by
  induction count with
  | zero => exact h
  | succ count ih =>
    rw [copy_succ]
    exact ih.put _ _

end Uint8Array
