import Mathlib.Algebra.Group.Int.Defs
import Mathlib.Data.Rat.Defs

/-!
# JSON values

What `json.loads` makes of a text without NaN and the infinities. An object lists its fields in one
fixed order of their names. Two values may be told apart by `==` (`canonical`), as JSON (`value`),
and by what comes back when `jsonb` has kept them (`reloaded`); all of this is said of the atoms.
-/

namespace FaceRecognition

/-- A finite `float`. -/
structure PyFloat where
  exact : ℚ
  /-- what `repr` writes -/
  decimal : ℚ
  deriving DecidableEq, Repr

inductive JsonAtom where
  | null
  | bool (b : Bool)
  | int (n : ℤ)
  | float (x : PyFloat)
  | str (s : String)
  deriving DecidableEq, Repr

inductive JsonSort where
  | value
  | items
  | fields

/-- A value, the items of an array, or the fields of an object. -/
inductive JsonTree : JsonSort → Type where
  | atom (a : JsonAtom) : JsonTree .value
  | array (items : JsonTree .items) : JsonTree .value
  | object (fields : JsonTree .fields) : JsonTree .value
  | noItems : JsonTree .items
  | item (value : JsonTree .value) (items : JsonTree .items) : JsonTree .items
  | noFields : JsonTree .fields
  | field (name : String) (value : JsonTree .value) (fields : JsonTree .fields) : JsonTree .fields
  deriving DecidableEq, Repr

abbrev Json := JsonTree .value

namespace JsonTree

/-- `f` on every atom. -/
def map (f : JsonAtom → JsonAtom) : {i : JsonSort} → JsonTree i → JsonTree i
  | _, .atom a => .atom (f a)
  | _, .array items => .array (items.map f)
  | _, .object fields => .object (fields.map f)
  | _, .noItems => .noItems
  | _, .item value items => .item (value.map f) (items.map f)
  | _, .noFields => .noFields
  | _, .field name value fields => .field name (value.map f) (fields.map f)

/-- `p` holds of every atom. -/
def all (p : JsonAtom → Bool) : {i : JsonSort} → JsonTree i → Bool
  | _, .atom a => p a
  | _, .array items => items.all p
  | _, .object fields => fields.all p
  | _, .noItems => true
  | _, .item value items => value.all p && items.all p
  | _, .noFields => true
  | _, .field _ value fields => value.all p && fields.all p

end JsonTree

namespace JsonAtom

/-- A number by its value, an integer whenever it is one. -/
def number (q : ℚ) : JsonAtom := if q.den = 1 then .int q.num else .float ⟨q, q⟩

/-- As JSON a number is what is written. -/
def value : JsonAtom → JsonAtom
  | .float x => number x.decimal
  | a => a

/-- For `==` a number is its exact value, and true and false are numbers as well. -/
def canonical : JsonAtom → JsonAtom
  | .bool b => .int b.toNat
  | .float x => number x.exact
  | a => a

/-- `json.dumps` writes a float from 1e16 on with an exponent, `jsonb` writes it out, and
`json.loads` reads an integer. -/
def reloaded : JsonAtom → JsonAtom
  | .float x =>
    if x.decimal.den = 1 ∧ (x.decimal ≤ -10 ^ 16 ∨ 10 ^ 16 ≤ x.decimal) then .int x.decimal.num
    else .float x
  | a => a

/-- The integers that ORJSON renders. -/
def fits64 : JsonAtom → Bool
  | .int n => -2 ^ 63 ≤ n ∧ n < 2 ^ 64
  | _ => true

end JsonAtom

namespace Json

def null : Json := .atom .null

def emptyObject : Json := .object .noFields

/-- A `dict`. -/
def isObject : Json → Bool
  | .object _ => true
  | _ => false

def value (j : Json) : Json := j.map JsonAtom.value

def canonical (j : Json) : Json := j.map JsonAtom.canonical

/-- `j == k` -/
def eq (j k : Json) : Bool := j.canonical = k.canonical

def reloaded (j : Json) : Json := j.map JsonAtom.reloaded

def fits64 (j : Json) : Bool := j.all JsonAtom.fits64

theorem isObject_reloaded (j : Json) : j.reloaded.isObject = j.isObject := by
  cases j <;> rfl

end Json

end FaceRecognition
