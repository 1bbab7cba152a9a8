import Mathlib.Algebra.Order.Ring.Int
import Mathlib.Algebra.Order.Ring.Rat
import Mathlib.Data.Rat.Init
import Mathlib.Data.String.Basic

/-!
# JSON values

`Json::Value` of the JSON library: a tree whose objects keep their members in
ascending order of the names, as the library's map does. What the library
rejects with an exception is `none`.

A `real` is a finite `double`; `valueToString` is the library's text of one.
-/

namespace DeviceClient

/-- A JSON value. -/
inductive JsonValue where
  | null
  | int (value : ℤ)
  | uint (value : ℕ)
  | real (value : ℚ)
  | boolean (value : Bool)
  | string (value : String)
  | array (values : List JsonValue)
  | object (members : List (String × JsonValue))

namespace JsonValue

/-! ## Equality -/

mutual

/-- `operator==`. -/
def decEqValue : (v w : JsonValue) → Decidable (v = w)
  | .null, .null => isTrue rfl
  | .int a, .int b => decidable_of_iff (a = b) ⟨congrArg _, JsonValue.int.inj⟩
  | .uint a, .uint b => decidable_of_iff (a = b) ⟨congrArg _, JsonValue.uint.inj⟩
  | .real a, .real b => decidable_of_iff (a = b) ⟨congrArg _, JsonValue.real.inj⟩
  | .boolean a, .boolean b => decidable_of_iff (a = b) ⟨congrArg _, JsonValue.boolean.inj⟩
  | .string a, .string b => decidable_of_iff (a = b) ⟨congrArg _, JsonValue.string.inj⟩
  | .array vs, .array ws =>
    have := decEqValues vs ws
    decidable_of_iff (vs = ws) ⟨congrArg _, JsonValue.array.inj⟩
  | .object vs, .object ws =>
    have := decEqMembers vs ws
    decidable_of_iff (vs = ws) ⟨congrArg _, JsonValue.object.inj⟩
  | .null, .int _ | .null, .uint _ | .null, .real _ | .null, .boolean _ | .null, .string _
  | .null, .array _ | .null, .object _ => isFalse nofun
  | .int _, .null | .int _, .uint _ | .int _, .real _ | .int _, .boolean _ | .int _, .string _
  | .int _, .array _ | .int _, .object _ => isFalse nofun
  | .uint _, .null | .uint _, .int _ | .uint _, .real _ | .uint _, .boolean _ | .uint _, .string _
  | .uint _, .array _ | .uint _, .object _ => isFalse nofun
  | .real _, .null | .real _, .int _ | .real _, .uint _ | .real _, .boolean _ | .real _, .string _
  | .real _, .array _ | .real _, .object _ => isFalse nofun
  | .boolean _, .null | .boolean _, .int _ | .boolean _, .uint _ | .boolean _, .real _
  | .boolean _, .string _ | .boolean _, .array _ | .boolean _, .object _ => isFalse nofun
  | .string _, .null | .string _, .int _ | .string _, .uint _ | .string _, .real _
  | .string _, .boolean _ | .string _, .array _ | .string _, .object _ => isFalse nofun
  | .array _, .null | .array _, .int _ | .array _, .uint _ | .array _, .real _
  | .array _, .boolean _ | .array _, .string _ | .array _, .object _ => isFalse nofun
  | .object _, .null | .object _, .int _ | .object _, .uint _ | .object _, .real _
  | .object _, .boolean _ | .object _, .string _ | .object _, .array _ => isFalse nofun

def decEqValues : (vs ws : List JsonValue) → Decidable (vs = ws)
  | [], [] => isTrue rfl
  | v :: vs, w :: ws =>
    have := decEqValue v w
    have := decEqValues vs ws
    decidable_of_iff (v = w ∧ vs = ws) List.cons_eq_cons.symm
  | [], _ :: _ => isFalse nofun
  | _ :: _, [] => isFalse nofun

def decEqMembers : (vs ws : List (String × JsonValue)) → Decidable (vs = ws)
  | [], [] => isTrue rfl
  | (k, v) :: vs, (l, w) :: ws =>
    have := decEqValue v w
    have := decEqMembers vs ws
    decidable_of_iff ((k = l ∧ v = w) ∧ vs = ws)
      (by rw [List.cons_eq_cons, Prod.mk.injEq])
  | [], _ :: _ => isFalse nofun
  | _ :: _, [] => isFalse nofun

end

instance : DecidableEq JsonValue := decEqValue

/-! ## Kinds and texts -/

def isNull : JsonValue → Bool
  | .null => true
  | _ => false

def isArray : JsonValue → Bool
  | .array _ => true
  | _ => false

def isObject : JsonValue → Bool
  | .object _ => true
  | _ => false

/-- `empty`: scalars are not. -/
def empty : JsonValue → Bool
  | .null => true
  | .array values => values.isEmpty
  | .object members => members.isEmpty
  | _ => false

/-- `asString`. -/
def asString (valueToString : ℚ → String) : JsonValue → Option String
  | .null => some ""
  | .string value => some value
  | .boolean value => some (if value then "true" else "false")
  | .int value => some (toString value)
  | .uint value => some (toString value)
  | .real value => some (valueToString value)
  | .array _ => none
  | .object _ => none

/-- `asInt` of a value for which `isInt` holds; `none` if it does not. -/
def asIntOfInt : JsonValue → Option ℤ
  | .int value => if -2 ^ 31 ≤ value ∧ value < 2 ^ 31 then some value else none
  | .uint value => if value < 2 ^ 31 then some value else none
  | .real value =>
    if -2 ^ 31 ≤ value ∧ value ≤ 2 ^ 31 - 1 ∧ value.den = 1 then some value.num else none
  | _ => none

end JsonValue

end DeviceClient
