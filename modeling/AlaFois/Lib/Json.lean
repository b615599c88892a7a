import Mathlib.Data.List.Infix
import Mathlib.Tactic.Common

/-!
# JSON values in JavaScript

What JavaScript makes of a value that comes out of `JSON.parse`, where a program takes it for one of
another type. `none` is an exception, and also the value `undefined` of a property that is not there.
-/

/-- A number is given by the text that JavaScript prints for it; no object has a key twice. -/
inductive Json
  | null
  | boolean (value : Bool)
  | number (numeral : String)
  | text (value : String)
  | array (elements : List Json)
  | object (fields : List (String × Json))

namespace Json

mutual

def decEq : ∀ a b : Json, Decidable (a = b)
  | .null, .null => isTrue rfl
  | .boolean x, .boolean y => decidable_of_iff (x = y) (by simp)
  | .number x, .number y => decidable_of_iff (x = y) (by simp)
  | .text x, .text y => decidable_of_iff (x = y) (by simp)
  | .array xs, .array ys =>
    have := decEqElements xs ys
    decidable_of_iff (xs = ys) (by simp)
  | .object xs, .object ys =>
    have := decEqFields xs ys
    decidable_of_iff (xs = ys) (by simp)
  | .null, .boolean _ | .null, .number _ | .null, .text _ | .null, .array _ | .null, .object _
  | .boolean _, .null | .boolean _, .number _ | .boolean _, .text _ | .boolean _, .array _
  | .boolean _, .object _ | .number _, .null | .number _, .boolean _ | .number _, .text _
  | .number _, .array _ | .number _, .object _ | .text _, .null | .text _, .boolean _
  | .text _, .number _ | .text _, .array _ | .text _, .object _ | .array _, .null
  | .array _, .boolean _ | .array _, .number _ | .array _, .text _ | .array _, .object _
  | .object _, .null | .object _, .boolean _ | .object _, .number _ | .object _, .text _
  | .object _, .array _ => isFalse nofun

def decEqElements : ∀ xs ys : List Json, Decidable (xs = ys)
  | [], [] => isTrue rfl
  | x :: xs, y :: ys =>
    have := decEq x y
    have := decEqElements xs ys
    decidable_of_iff (x = y ∧ xs = ys) (by simp)
  | [], _ :: _ | _ :: _, [] => isFalse nofun

def decEqFields : ∀ xs ys : List (String × Json), Decidable (xs = ys)
  | [], [] => isTrue rfl
  | (k, x) :: xs, (l, y) :: ys =>
    have := decEq x y
    have := decEqFields xs ys
    decidable_of_iff ((k = l ∧ x = y) ∧ xs = ys) (by simp)
  | [], _ :: _ | _ :: _, [] => isFalse nofun

end

instance : DecidableEq Json := decEq

def truthy : Json → Bool
  | .null => false
  | .boolean value => value
  | .number numeral => numeral ≠ "0"
  | .text value => value ≠ ""
  | .array _ | .object _ => true

/-- A property that no prototype has. -/
def property (name : String) : Json → Option Json
  | .object fields => (fields.find? (·.1 = name)).map (·.2)
  | _ => none

/-- The method `includes` with a text. -/
def includes (word : String) : Json → Option Bool
  | .array elements => some (.text word ∈ elements)
  | .text value => some (word.toList <:+: value.toList)
  | _ => none

mutual

/-- The conversion to a text, as of a key of an object. An object that has a property `toString` of its
own cannot be converted. -/
def toText : Json → Option String
  | .null => some "null"
  | .boolean value => some (if value then "true" else "false")
  | .number numeral => some numeral
  | .text value => some value
  | .array elements => (joinable elements).map fun texts => ",".intercalate texts
  | .object fields =>
    if (fields.find? (·.1 = "toString")).isSome then none else some "[object Object]"

/-- The texts of the elements of an array, where `null` counts as nothing. -/
def joinable : List Json → Option (List String)
  | [] => some []
  | .null :: elements => (joinable elements).map ("" :: ·)
  | element :: elements =>
    match element.toText, joinable elements with
    | some first, some texts => some (first :: texts)
    | _, _ => none

end

example : toText (.array [.text "a", .null, .object []]) = some "a,,[object Object]" := by decide

end Json
