import Forth.Number.FloatText
import Forth.Text.Quoted

/-!
# Values

What can lie on the data stack, in a variable or inside a thread.  Words are
values too, held by a handle: two handles are the same exactly if they name
the same definition, so an older definition is never its replacement.

Values of different types can be compared when both are numbers, and then
both are taken as floats unless both are integers.  Since that conversion
rounds, equality across the two number types is not transitive.

`order?` is the comparison behind all four ordering words; it has no answer
where two values have no order.
-/

namespace Forth

/-- The identity of a definition: its place in the store of all definitions,
and the name it was defined under. -/
structure Handle where
  serial : Nat
  name : String
deriving DecidableEq, Repr

/-- A value of the language. -/
inductive Value where
  | int (n : Int64)
  | float (x : Float)
  | bool (b : Bool)
  | string (s : String)
  | word (w : Handle)

/-- Truth values by name. -/
def boolText (b : Bool) : String := if b then "true" else "false"

/-- The order of two floats, if neither is missing. -/
def floatOrder? (x y : Float) : Option Ordering :=
  if x < y then some .lt
  else if x == y then some .eq
  else if y < x then some .gt
  else none

namespace Value

/-- How a value is written. -/
def text : Value → String
  | int n => toString n.toInt
  | float x => floatText x
  | bool b => boolText b
  | string s => s
  | word w => w.name

/-- How a value is written with its type, for diagnosis. -/
def described : Value → String
  | int n => "Int(" ++ toString n.toInt ++ ")"
  | float x => "Float(" ++ floatText x ++ ")"
  | bool b => "Bool(" ++ boolText b ++ ")"
  | string s => "String(" ++ Text.quoted s ++ ")"
  | word w => "Word(Word(" ++ w.name ++ "))"

/-- The name of a value's type in messages. -/
def typeName : Value → String
  | int _ => "integer"
  | float _ => "float"
  | bool _ => "boolean"
  | string _ => "string"
  | word _ => "word"

/-- Integers and floats are numbers. -/
def isNumber : Value → Bool
  | int _ | float _ => true
  | _ => false

/-- Whether a value is a word. -/
def isWord : Value → Bool
  | word _ => true
  | _ => false

/-- Zero, `false` and the empty string are false, everything else is true. -/
def isTruthy : Value → Bool
  | int n => n != 0
  | float x => x != 0.0
  | bool b => b
  | string s => !s.isEmpty
  | word _ => true

/-- A value as a float; strings and words have none. -/
def toFloat : Value → Float
  | int n => Float.ofInt n.toInt
  | float x => x
  | bool b => if b then 1.0 else 0.0
  | string _ | word _ => 0.0 / 0.0

/-- Whether both values are numbers. -/
def areNumbers (a b : Value) : Bool := a.isNumber && b.isNumber

/-- Whether two values are equal; any two can be asked about. -/
def equal : Value → Value → Bool
  | word v, word w => v == w
  | string s, string t => s == t
  | bool a, bool b => a == b
  | int m, int n => m == n
  | a, b => areNumbers a b && a.toFloat == b.toFloat

/-- The order of two values: numbers by size, strings by their characters,
`false` before `true`. -/
def order? : Value → Value → Option Ordering
  | int m, int n => some (compare m.toInt n.toInt)
  | string s, string t => some (compare s t)
  | bool a, bool b => some (compare a b)
  | a, b => if areNumbers a b then floatOrder? a.toFloat b.toFloat else none

/-- Counts are pushed as integers. -/
def ofNat (n : Nat) : Value := int (Int64.ofNat n)

end Value

end Forth
