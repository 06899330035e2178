/-
Values of the language.

Numbers, truth values, characters and texts are held directly.  Arrays and objects
are held by reference: a value names the place in the store where the shared array
or object lives, and two values are the same array when they name the same place.
-/
namespace Primer

/-- What kind of thing a value is. -/
inductive Kind where
  | integer | real | text | boolean | character | array | object | null
  deriving DecidableEq, Repr, Inhabited

/-- The name of a kind, as messages write it. -/
def Kind.name : Kind → String
  | .integer => "Integer"
  | .real => "Real"
  | .text => "String"
  | .boolean => "Boolean"
  | .character => "Character"
  | .array => "Array"
  | .object => "Object"
  | .null => "Null"

/-- The declared type of a variable, parameter, field or array element. -/
inductive TypeName where
  | integer | real | text | boolean | character
  /-- A class, known by name until all classes have been read. -/
  | ofClass (name : String)
  deriving DecidableEq, Repr, Inhabited

namespace TypeName

/-- The built-in type that a reserved word names. -/
def ofWord? : String → Option TypeName
  | "Integer" => some .integer
  | "Real" => some .real
  | "String" => some .text
  | "Boolean" => some .boolean
  | "Character" => some .character
  | _ => none

/-- The kind of the values that a variable of this type holds. -/
def kind : TypeName → Kind
  | .integer => .integer
  | .real => .real
  | .text => .text
  | .boolean => .boolean
  | .character => .character
  | .ofClass _ => .object

def isPrimitive : TypeName → Bool
  | .ofClass _ => false
  | _ => true

/-- The type as it is written in a program. -/
def name : TypeName → String
  | .ofClass name => name
  | .integer => "Integer"
  | .real => "Real"
  | .text => "String"
  | .boolean => "Boolean"
  | .character => "Character"

end TypeName

/-- The place of an array in the store. -/
structure ArrayRef where
  index : Nat
  deriving DecidableEq, Repr, Inhabited

/-- The place of an object in the store. -/
structure ObjectRef where
  index : Nat
  deriving DecidableEq, Repr, Inhabited

inductive Value where
  | null
  | integer (n : Int64)
  | real (x : Float)
  | text (s : String)
  | boolean (b : Bool)
  | character (c : Char)
  | array (ref : ArrayRef)
  | object (ref : ObjectRef)
  deriving Repr, Inhabited

namespace Value

def kind : Value → Kind
  | .null => .null
  | .integer _ => .integer
  | .real _ => .real
  | .text _ => .text
  | .boolean _ => .boolean
  | .character _ => .character
  | .array _ => .array
  | .object _ => .object

/-- What stands in for the result of a failed operation of this kind. -/
def zeroOf : Kind → Value
  | .integer => .integer 0
  | .real => .real 0.0
  | .text => .text ""
  | .boolean => .boolean false
  | .character => .character ' '
  | .array | .object | .null => .null

/-- What a freshly declared variable of this type holds. -/
def default (type : TypeName) : Value := zeroOf type.kind

/-- The same thing: equal scalars of one kind, or one and the same array or object. -/
def same : Value → Value → Bool
  | .null, .null => true
  | .integer m, .integer n => m == n
  | .real x, .real y => x == y
  | .text s, .text t => s == t
  | .boolean a, .boolean b => a == b
  | .character c, .character d => c == d
  | .array a, .array b => a == b
  | .object a, .object b => a == b
  | _, _ => false

end Value

/-- The operators between two operands. -/
inductive BinaryOp where
  | add | subtract | multiply | divide | modulo | power
  | equal | notEqual | less | lessEqual | greater | greaterEqual
  deriving DecidableEq, Repr, Inhabited

/-- The operators between two tests, of which the second may not be needed. -/
inductive LogicalOp where
  | and | or
  deriving DecidableEq, Repr, Inhabited

/-- The operators in front of one operand. -/
inductive UnaryOp where
  | negate | not
  deriving DecidableEq, Repr, Inhabited

/-- Why an operation on values fails. -/
inductive ValueError where
  | conversion (source target : Kind)
  | operands (op : String) (left right : Kind)
  | divisionByZero
  deriving DecidableEq, Repr, Inhabited

def ValueError.message : ValueError → String
  | conversion source target => s!"cannot convert {source.name} to {target.name}"
  | operands op left right =>
    s!"operator '{op}' cannot be applied to {left.name} and {right.name}"
  | divisionByZero => "division by zero"

end Primer
