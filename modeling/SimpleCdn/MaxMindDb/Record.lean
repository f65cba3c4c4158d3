import SimpleCdn.Lib.Dict
import SimpleCdn.Lib.Bytes
import Mathlib.Data.Rat.Defs

namespace SimpleCdn.MaxMindDb

/-- A float. The two zeros are told apart, the values that are not a number are
not. -/
inductive PyFloat
  | finite (negative : Bool) (magnitude : ℚ)
  | infinite (negative : Bool)
  | nan
  deriving DecidableEq

def signed (negative : Bool) (magnitude : ℚ) : ℚ := if negative then -magnitude else magnitude

/-- The float with some bits in the IEEE 754 format of these sizes. -/
def PyFloat.ofBits (exponentSize fractionSize bits : Nat) : PyFloat :=
  let negative := decide (bits / 2 ^ (exponentSize + fractionSize) % 2 = 1)
  let exponent := bits / 2 ^ fractionSize % 2 ^ exponentSize
  let fraction := bits % 2 ^ fractionSize
  let bias := 2 ^ (exponentSize - 1) - 1
  if exponent = 2 ^ exponentSize - 1 then
    if fraction = 0 then .infinite negative else .nan
  else if exponent = 0 then .finite negative (fraction / 2 ^ (bias + fractionSize - 1))
  else .finite negative ((2 ^ fractionSize + fraction) * 2 ^ exponent / 2 ^ (bias + fractionSize))

def PyFloat.ofDouble (bits : Nat) : PyFloat := .ofBits 11 52 bits

def PyFloat.ofSingle (bits : Nat) : PyFloat := .ofBits 8 23 bits

/-- A hashable value as a dictionary tells it from others: `True`, `1` and
`1.0` are one key. A value that is not a number is not even equal to itself. -/
inductive RecordKey
  | string (text : String)
  | bytes (content : List UInt8)
  | number (value : ℚ)
  | infinite (negative : Bool)
  | nan
  deriving DecidableEq

/-- What the data section holds, as Python values. A dictionary lists its items
in the order in which the keys were first met. -/
inductive Record
  | string (text : String)
  | float (value : PyFloat)
  | bytes (content : List UInt8)
  | int (value : ℤ)
  | bool (value : Bool)
  | array (items : List Record)
  | map (items : List (RecordKey × Record))

/-- The exceptions of the reader. `struct.error` and `UnicodeDecodeError` pass
through the source without being caught, like the others. -/
inductive ReadError
  | invalidDatabaseError (message : String)
  | indexError
  | structError
  | unicodeDecodeError
  | recursionError
  | typeError (message : String)
  | valueError (message : String)
  | keyError (key : String)
  | attributeError (message : String)
  | addressNotFoundError (message : String) (ipAddress : String) (prefixLen : Nat)
  deriving DecidableEq

/-- The key that a value is in a dictionary. -/
def Record.hashed : Record → Except ReadError RecordKey
  | .string text => .ok (.string text)
  | .float (.finite negative magnitude) => .ok (.number (signed negative magnitude))
  | .float (.infinite negative) => .ok (.infinite negative)
  | .float .nan => .ok .nan
  | .bytes content => .ok (.bytes content)
  | .int value => .ok (.number value)
  | .bool value => .ok (.number value.toNat)
  | .array _ => .error (.typeError "unhashable type: 'list'")
  | .map _ => .error (.typeError "unhashable type: 'dict'")

/-- The values that can be calculated with. `True` is the integer 1. -/
inductive PyNumber
  | int (value : ℤ)
  | float (value : PyFloat)
  deriving DecidableEq

def Record.number? : Record → Option PyNumber
  | .int value => some (.int value)
  | .bool value => some (.int value.toNat)
  | .float value => some (.float value)
  | _ => none

/-- How an integer compares with a number. With `nan` it is neither equal, nor
less or greater. -/
def PyNumber.order (n : ℤ) : PyNumber → Option Ordering
  | .int value => some (compare n value)
  | .float (.finite negative magnitude) => some (compare (n : ℚ) (signed negative magnitude))
  | .float (.infinite negative) => some (if negative then .gt else .lt)
  | .float .nan => none

/-- `value == n`. -/
def Record.equals (value : Record) (n : ℤ) : Bool := value.number?.bind (PyNumber.order n) == some .eq

/-- `container[key] = value`. Every decoded value is an object of its own, so a
key that is not a number is always a new one. -/
def setItem (key : RecordKey) (value : Record) (container : List (RecordKey × Record)) :
    List (RecordKey × Record) :=
  if key = .nan then container ++ [(key, value)] else putEntry key value container

end SimpleCdn.MaxMindDb
