import Mathlib.Algebra.Group.Int.Defs
import Mathlib.Data.List.Basic

/-!
# JSON values

The values of `serde_json::Value`.  An object is the list of its fields in key
order, so that two objects are equal exactly when they have the same fields.
A text column that is read back as JSON is a `JsonText`: its value, or the text
itself where it does not parse.
-/

namespace Awiki

inductive Json where
  | null
  | bool (value : Bool)
  | num (value : Int)
  | real (literal : String)
  | str (value : String)
  | arr (items : List Json)
  | obj (fields : List (String × Json))
  deriving Inhabited

inductive JsonText where
  | malformed (text : String)
  | parsed (value : Json)
  deriving Inhabited

namespace Json

mutual

def decEq : (a b : Json) → Decidable (a = b)
  | .null, .null => .isTrue rfl
  | .bool x, .bool y => decidable_of_iff (x = y) (by simp)
  | .num x, .num y => decidable_of_iff (x = y) (by simp)
  | .real x, .real y => decidable_of_iff (x = y) (by simp)
  | .str x, .str y => decidable_of_iff (x = y) (by simp)
  | .arr xs, .arr ys =>
    match decEqItems xs ys with
    | .isTrue h => .isTrue (by rw [h])
    | .isFalse h => .isFalse (by simpa using h)
  | .obj xs, .obj ys =>
    match decEqFields xs ys with
    | .isTrue h => .isTrue (by rw [h])
    | .isFalse h => .isFalse (by simpa using h)
  | .null, .bool _ | .null, .num _ | .null, .real _ | .null, .str _ | .null, .arr _
  | .null, .obj _ | .bool _, .null | .bool _, .num _ | .bool _, .real _ | .bool _, .str _
  | .bool _, .arr _ | .bool _, .obj _ | .num _, .null | .num _, .bool _ | .num _, .real _
  | .num _, .str _ | .num _, .arr _ | .num _, .obj _ | .real _, .null | .real _, .bool _
  | .real _, .num _ | .real _, .str _ | .real _, .arr _ | .real _, .obj _ | .str _, .null
  | .str _, .bool _ | .str _, .num _ | .str _, .real _ | .str _, .arr _ | .str _, .obj _
  | .arr _, .null | .arr _, .bool _ | .arr _, .num _ | .arr _, .real _ | .arr _, .str _
  | .arr _, .obj _ | .obj _, .null | .obj _, .bool _ | .obj _, .num _ | .obj _, .real _
  | .obj _, .str _ | .obj _, .arr _ => .isFalse (by simp)

def decEqItems : (xs ys : List Json) → Decidable (xs = ys)
  | [], [] => .isTrue rfl
  | [], _ :: _ => .isFalse (by simp)
  | _ :: _, [] => .isFalse (by simp)
  | x :: xs, y :: ys =>
    match decEq x y, decEqItems xs ys with
    | .isTrue h, .isTrue h' => .isTrue (by rw [h, h'])
    | .isFalse h, _ => .isFalse (by simp [h])
    | _, .isFalse h => .isFalse (by simp [h])

def decEqFields : (xs ys : List (String × Json)) → Decidable (xs = ys)
  | [], [] => .isTrue rfl
  | [], _ :: _ => .isFalse (by simp)
  | _ :: _, [] => .isFalse (by simp)
  | (k, x) :: xs, (l, y) :: ys =>
    match decEq x y, decEqFields xs ys with
    | .isTrue h, .isTrue h' => decidable_of_iff (k = l) (by simp [h, h'])
    | .isFalse h, _ => .isFalse (by simp [h])
    | _, .isFalse h => .isFalse (by simp [h])

end

instance : DecidableEq Json := decEq

/-- `Value::get` with a field name. -/
def get (value : Json) (key : String) : Option Json :=
  match value with
  | .obj fields => (fields.find? fun field => field.1 == key).map (·.2)
  | _ => none

def isObject : Json → Bool
  | .obj _ => true
  | _ => false

def asStr : Json → Option String
  | .str value => some value
  | _ => none

def asU64 : Json → Option Nat
  | .num value => if 0 ≤ value ∧ value < 2 ^ 64 then some value.toNat else none
  | _ => none

/-- `Value::pointer` along field names. -/
def pointer (value : Json) : List String → Option Json
  | [] => some value
  | key :: path => (value.get key).bind fun inner => inner.pointer path

/-- `value[key] = new` on an object. -/
def set (value : Json) (key : String) (new : Json) : Json :=
  match value with
  | .obj fields =>
    .obj ((fields.takeWhile fun field => field.1 < key) ++
      (key, new) :: (fields.dropWhile fun field => field.1 < key).filter fun field => field.1 != key)
  | other => other

theorem get_set_ne (value new : Json) {key other : String} (h : other ≠ key) :
    (value.set key new).get other = value.get other := by
  cases value with
  | obj fields =>
    have hnew : ((key, new).1 == other) = false := by simpa using fun heq => h heq.symm
    have hrest : ∀ rest : List (String × Json),
        (rest.filter fun field => field.1 != key).find? (fun field => field.1 == other) =
          rest.find? fun field => field.1 == other := by
      intro rest
      rw [List.find?_filter]
      congr 1
      funext field
      by_cases hfield : field.1 = other
      · simp [hfield, h]
      · simp [hfield]
    simp only [set, get, List.find?_append, List.find?_cons, hnew, hrest]
    rw [← List.find?_append, List.takeWhile_append_dropWhile]
  | _ => rfl

/-- `Option<Value>` inside `json!`. -/
def ofOption : Option Json → Json
  | some value => value
  | none => .null

end Json

deriving instance DecidableEq for JsonText

namespace JsonText

/-- `serde_json::from_str(..).ok()`. -/
def value? : JsonText → Option Json
  | .malformed _ => none
  | .parsed value => some value

end JsonText
end Awiki
