/-
A tree as one line of text, to look at what was read.

Every node is a pair of round brackets with its name, its parts and the part of the
source it came from.  Lists of expressions stand in square brackets and lists of
starting values in curly ones; a part that is absent is a hyphen.
-/
import Primer.Tree

namespace Primer

/-- Where a node came from: start, end and line. -/
def Span.mark (s : Span) : String := s!"@{s.start}-{s.stop}:{s.line}"

namespace Sketch

/-- A node with its name and parts. -/
def node (parts : List String) (span : Span) : String :=
  "(" ++ String.intercalate " " (parts ++ [span.mark]) ++ ")"

def bracketed (items : List String) : String := "[" ++ String.intercalate " " items ++ "]"

/-- A text in double quotes. -/
def quoted (s : String) : String :=
  "\"" ++ String.join (s.toList.map fun c =>
    if c = '"' || c = '\\' then "\\" ++ String.singleton c else String.singleton c) ++ "\""

/-- A number of 64 bits in sixteen digits of base sixteen. -/
def hexWord (n : UInt64) : String :=
  let digits := Nat.toDigits 16 n.toNat
  String.ofList (List.replicate (16 - digits.length) '0' ++ digits)

/-- The bits of a real; there is only one way to be no number. -/
def realBits (x : Float) : String := if x == x then hexWord x.toBits else "nan"

def value : Value → String
  | .null => "Null"
  | .integer n => s!"Integer {n.toInt}"
  | .real x => "Real " ++ realBits x
  | .boolean true => "Boolean True"
  | .boolean false => "Boolean False"
  | .text s => "String " ++ quoted s
  | .character c => "Character " ++ quoted (String.singleton c)
  | .array _ => "Array"
  | .object _ => "Object"

def binaryOp : BinaryOp → String
  | .add => "Add"
  | .subtract => "Subtract"
  | .multiply => "Multiply"
  | .divide => "Divide"
  | .modulo => "Modulo"
  | .power => "Power"
  | .equal => "Equal"
  | .notEqual => "NotEqual"
  | .less => "Less"
  | .lessEqual => "LessEqual"
  | .greater => "Greater"
  | .greaterEqual => "GreaterEqual"

def logicalOp : LogicalOp → String
  | .and => "And"
  | .or => "Or"

def unaryOp : UnaryOp → String
  | .negate => "Negate"
  | .not => "Not"

mutual

def expr : Expr → String
  | .literal v s => node ["lit", value v] s
  | .variableRef id name s => node ["var", Nat.repr id, name] s
  | .index base indices s => node ["index", expr base, bracketed (exprs indices)] s
  | .field object name s => node ["field", expr object, name] s
  | .binary op left right s => node ["binary", binaryOp op, expr left, expr right] s
  | .logical op left right s => node ["logical", logicalOp op, expr left, expr right] s
  | .unary op operand s => node ["unary", unaryOp op, expr operand] s
  | .call name args s => node ["call", name, bracketed (exprs args)] s
  | .methodCall object name args s =>
    node ["method", expr object, name, bracketed (exprs args)] s
  | .new className args s => node ["new", className, bracketed (exprs args)] s
  | .grouping inner s => node ["group", expr inner] s
  | .invalid s => node ["error"] s

def exprs : List Expr → List String
  | [] => []
  | e :: rest => expr e :: exprs rest

end

mutual

def initializer : Initializer → String
  | .one e => expr e
  | .list items => "\x7b" ++ String.intercalate " " (initializers items) ++ "\x7d"

def initializers : List Initializer → List String
  | [] => []
  | item :: rest => initializer item :: initializers rest

end

def declaration (d : Declaration) : String :=
  let init := (d.init.map initializer).getD "-"
  node ["decl", Nat.repr d.id, bracketed (exprs d.dims), init] d.span

def optionalExpr (e : Option Expr) : String := (e.map expr).getD "-"

mutual

def stmt : Stmt → String
  | .declare ds s => node ("declare" :: ds.map declaration) s
  | .assign target v s => node ["assign", expr target, expr v] s
  | .display items s => node ["display", bracketed (exprs items)] s
  | .input target s => node ["input", expr target] s
  | .call e s => node ["callstmt", expr e] s
  | .choose branches otherwise s =>
    node ("if" :: branchParts branches ++ ["else", optionalBlock otherwise]) s
  | .select subject cases otherwise s =>
    node ("select" :: expr subject :: caseParts cases ++ ["default", optionalBlock otherwise]) s
  | .whileLoop condition body s => node ["while", expr condition, block body] s
  | .doLoop body condition exit s =>
    node [if exit then "dountil" else "dowhile", block body, expr condition] s
  | .forLoop counter start stop step body s =>
    node ["for", expr counter, expr start, expr stop, optionalExpr step, block body] s
  | .forEach item array body s => node ["foreach", expr item, expr array, block body] s
  | .returnWith v s => node ["return", optionalExpr v] s
  | .breakLoop s => node ["break"] s
  | .continueLoop s => node ["continue"] s
  | .stop s => node ["stop"] s

def block : Block Stmt → String
  | ⟨statements, s⟩ => node ("block" :: stmts statements) s

def optionalBlock : Option (Block Stmt) → String
  | none => "-"
  | some b => block b

def branch : Branch Stmt → List String
  | ⟨condition, body⟩ => [expr condition, block body]

def branchParts : List (Branch Stmt) → List String
  | [] => []
  | b :: rest => branch b ++ branchParts rest

def case : Case Stmt → String
  | ⟨labels, body, s⟩ => node ["case", bracketed (exprs labels), block body] s

def caseParts : List (Case Stmt) → List String
  | [] => []
  | c :: rest => case c :: caseParts rest

def stmts : List Stmt → List String
  | [] => []
  | s :: rest => stmt s :: stmts rest

end

end Sketch

end Primer
