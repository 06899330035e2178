/-
What can be wrong with a program as it is written.

Each cause carries what its wording needs and nothing else.  The wording of all of
them is in one place, `Problem.wording`; two of them are warnings, the others errors.
-/
import Primer.Diagnostic
import Primer.Value

namespace Primer.Grammar

/-- Constructs that run until a closing line. -/
inductive BlockKind where
  | choose | select | whileLoop | doLoop | forLoop | module | function | classBody
  deriving DecidableEq, Repr, Inhabited

/-- The word that opens a construct, which also names it in messages. -/
def BlockKind.name : BlockKind → String
  | choose => "If"
  | select => "Select"
  | whileLoop => "While"
  | doLoop => "Do"
  | forLoop => "For"
  | module => "Module"
  | function => "Function"
  | classBody => "Class"

inductive Problem where
  -- ends of constructs and statements
  | missingEnd (kind : BlockKind) (openedOn : Nat)
  | missingEndBefore (kind : BlockKind) (openedOn : Nat)
  | wrongEnd (kind : BlockKind) (openedOn : Nat) (found : String)
  | extraTokens (found : String)
  -- expressions
  | equalInTest
  | expectedIndexEnd
  | expectedMemberName
  | notAnArray (name : String)
  | integerTooLarge (lexeme : String)
  | expectedGroupEnd
  | typeAsValue (type : String)
  | expectedValue (found : String)
  | undefinedVariable (name : String) (isRoutine : Bool)
  | expectedArguments
  | expectedArgumentsEnd
  | expectedNewClass
  | newWithoutBrackets (name : String)
  -- statements
  | strayEnd
  | strayElse
  | strayCase (word : String)
  | strayLoop
  | expectedStatement (found : String)
  | missingDeclare
  | equalEqualInAssignment
  | expectedAssignment
  | changesConstant (name : String)
  | notAssignable
  | missingInputTarget
  | callWithoutBrackets (name : String)
  | expectedCall
  | missingSet (name : String)
  | missingCall (name : String)
  | bareExpression (name : String)
  | missingTest (word : String)
  | missingThen
  | elseIfAfterElse
  | secondElse
  | missingSubject
  | secondDefault
  | expectedCase (found : String)
  | missingCaseValue
  | missingColon
  | expectedLoopTest
  | missingLoop (openedOn : Nat)
  | expectedTo
  | expectedIn
  | returnOutsideRoutine
  | moduleReturnsValue
  | functionReturnsNothing
  | jumpOutsideLoop (word : String)
  -- declarations
  | expectedVariableName
  | expectedSizeEnd
  | equalEqualInDeclaration (name : String)
  | missingType (name : String) (assumed : TypeName)
  | alreadyDeclared (name : String) (firstLine : Nat)
  | constantWithoutValue (type : TypeName) (name : String)
  | expectedType
  | listForScalar
  | expectedList
  | expectedListEnd
  | arrayWithoutSize (name : String)
  | literalMismatch (found declared : TypeName)
  -- routines
  | nestedRoutine (word : String)
  | missingReturnType
  | expectedRoutineName (word : String)
  | neverReturns (name : String)
  | routineAlreadyDefined (name : String) (firstLine : Nat)
  | missingParameterList (word : String)
  | expectedParametersEnd
  | refBeforeType
  | refWithoutType
  | expectedAfterRef
  | missingParameterType (name : String)
  | expectedParameter
  | refTwice
  | expectedParameterName
  | sizedParameter (type : TypeName) (name : String)
  | expectedParameterSizeEnd
  -- classes
  | modifierOutsideClass (word : String)
  | nestedClass
  | expectedClassName
  | classAlreadyDefined (name : String) (firstLine : Nat)
  | modifierWithoutMember
  | expectedMember (className : String)
  -- what needs the whole program
  | undefinedType (name : String)
  | noConstructor (className : String)
  | noMethod (className method : String)
  /-- The signature is known for routines of the program, not for built-ins. -/
  | argumentCount (name : String) (expected found : Nat) (signature : Option String)
  | refNeedsVariable (position : Nat) (routine param : String)
  | undefinedRoutine (name : String)
  | mainWithParameters
  deriving DecidableEq, Repr, Inhabited

namespace Problem

private def syntacticError (message : String) : Wording := { kind := .syntactic, message }

private def syntacticAdvice (message help : String) : Wording :=
  { kind := .syntactic, message, help := some help }

private def semanticError (message : String) : Wording := { kind := .semantic, message }

private def semanticAdvice (message help : String) : Wording :=
  { kind := .semantic, message, help := some help }

/-- The kind, severity and text of a problem. -/
def wording : Problem → Wording
  | missingEnd kind line => syntacticAdvice
      s!"Missing 'End {kind.name}' for the {kind.name} on line {line}"
      s!"Close it with 'End {kind.name}'."
  | missingEndBefore kind line => syntacticAdvice
      s!"Missing 'End {kind.name}' for the {kind.name} on line {line}"
      s!"Add 'End {kind.name}' before this line."
  | wrongEnd kind line found => syntacticAdvice
      s!"Expected 'End {kind.name}' to close the {kind.name} on line {line}, found '{found}'"
      s!"Change this to 'End {kind.name}'."
  | extraTokens found => syntacticAdvice
      s!"Unexpected {found} after the end of the statement"
      "Each statement goes on its own line."
  | equalInTest => syntacticAdvice
      "'=' assigns; use '==' to compare"
      "Write: If count == 10 Then"
  | expectedIndexEnd => syntacticError "Expected ']' after the index"
  | expectedMemberName => syntacticAdvice
      "Expected a field or method name after '.'"
      "Write: shape.area() or point.x"
  | notAnArray name => semanticAdvice
      s!"'{name}' is not an array"
      s!"Declare it with a size, for example: Declare Integer {name}[10]"
  | integerTooLarge lexeme =>
      { kind := .lexical, message := s!"Integer literal '{lexeme}' is too large" }
  | expectedGroupEnd => syntacticAdvice
      "Expected ')' after the expression"
      "Every '(' needs a matching ')'."
  | typeAsValue type => syntacticError s!"'{type}' is a type, not a value"
  | expectedValue found => syntacticAdvice
      s!"Expected a value, found {found}"
      "A value is a number, text in quotes, a variable or a call."
  | undefinedVariable name isRoutine => semanticAdvice
      s!"Undefined variable '{name}'"
      (if isRoutine then s!"'{name}' is a routine; call it with {name}(...)"
       else s!"Declare it before use: Declare Integer {name}")
  | expectedArguments => syntacticError "Expected '('"
  | expectedArgumentsEnd => syntacticAdvice
      "Expected ')' after the arguments"
      "Separate arguments with ',' and close the list with ')'."
  | expectedNewClass => syntacticAdvice
      "Expected a class name after 'New'"
      "Write: New Point(1, 2)"
  | newWithoutBrackets name => syntacticAdvice
      s!"Missing '()' after '{name}'"
      s!"Write: New {name}()"
  | strayEnd => syntacticAdvice
      "'End' does not close anything here"
      "Remove it, or check which construct it was meant to close."
  | strayElse => syntacticAdvice
      "'Else' without a matching 'If'"
      "'Else' must appear between 'If ... Then' and 'End If'."
  | strayCase word => syntacticAdvice
      s!"'{word}' outside a Select"
      "Case labels must appear between 'Select' and 'End Select'."
  | strayLoop => syntacticAdvice
      "'Loop' without a matching 'Do'"
      "Start the loop with 'Do' on its own line."
  | expectedStatement found => syntacticAdvice
      s!"Expected a statement, found {found}"
      "Statements start with a keyword such as Declare, Set, Display, If or While."
  | missingDeclare => syntacticAdvice
      "Missing 'Declare' before the variable declaration"
      "Write: Declare Integer count"
  | equalEqualInAssignment => syntacticAdvice
      "'==' compares values; use '=' to assign"
      "Write: Set count = 10"
  | expectedAssignment => syntacticAdvice
      "Expected '=' in the assignment"
      "Write: Set count = 10"
  | changesConstant name => semanticAdvice
      s!"Cannot change the constant '{name}'"
      "Declare it with 'Declare' instead of 'Constant' if it must change."
  | notAssignable => semanticAdvice
      "Only variables, array elements and fields can be assigned"
      "Put a variable name on the left of '='."
  | missingInputTarget => syntacticAdvice
      "Missing variable after 'Input'"
      "Write: Input name"
  | callWithoutBrackets name => syntacticAdvice
      s!"Missing '()' after '{name}'"
      s!"Write: Call {name}()"
  | expectedCall => syntacticAdvice
      "'Call' must be followed by a Module or Function call"
      "Write: Call showTotal()"
  | missingSet name => syntacticAdvice
      "Missing 'Set' before the assignment"
      s!"Write: Set {name} = ..."
  | missingCall name => syntacticAdvice
      "Missing 'Call' before the routine call"
      s!"Write: Call {name}(...)"
  | bareExpression name => syntacticAdvice
      s!"Expected a statement, found '{name}'"
      s!"To assign, write: Set {name} = ..."
  | missingTest word => syntacticAdvice
      s!"Missing test after '{word}'"
      s!"Write the condition to test, for example: {word} count < 10"
  | missingThen => syntacticAdvice
      "Missing 'Then' after the If test"
      "Write: If count > 0 Then"
  | elseIfAfterElse => syntacticAdvice
      "'Else If' after the final 'Else'"
      "Move this branch above the 'Else'."
  | secondElse => syntacticError "An If can only have one 'Else'"
  | missingSubject => syntacticAdvice
      "Missing value after 'Select'"
      "Write: Select choice"
  | secondDefault => syntacticError "A Select can only have one 'Default'"
  | expectedCase found => syntacticAdvice
      s!"Expected 'Case' or 'Default', found {found}"
      "Statements inside a Select belong to a 'Case value:' label."
  | missingCaseValue => syntacticAdvice
      "Missing value after 'Case'"
      "Write: Case 1:"
  | missingColon => syntacticAdvice
      "Missing ':' after the case label"
      "Write: Case 1:"
  | expectedLoopTest => syntacticAdvice
      "Expected 'While' or 'Until' after 'Loop'"
      "Write: Loop While count < 10"
  | missingLoop line => syntacticAdvice
      s!"Missing 'Loop While' or 'Loop Until' for the Do on line {line}"
      "Close the loop with: Loop While count < 10"
  | expectedTo => syntacticAdvice
      "Expected 'To' after the start value"
      "Write: For i = 1 To 10"
  | expectedIn => syntacticAdvice
      "Expected 'In' after the loop variable"
      "Write: For Each item In values"
  | returnOutsideRoutine => semanticAdvice
      "'Return' outside a Module or Function"
      "Use 'Stop' to end the program early."
  | moduleReturnsValue => semanticAdvice
      "A Module cannot return a value"
      "Make it a Function, or remove the value after 'Return'."
  | functionReturnsNothing => semanticAdvice
      "A Function must return a value"
      "Write: Return result"
  | jumpOutsideLoop word => semanticError s!"'{word}' can only be used inside a loop"
  | expectedVariableName => syntacticAdvice
      "Expected a variable name"
      "Write: Declare Integer count"
  | expectedSizeEnd => syntacticError "Expected ']' after the array size"
  | equalEqualInDeclaration name => syntacticAdvice
      "'==' compares values; use '=' to give a starting value"
      s!"Write: Declare Integer {name} = 0"
  | missingType name assumed => syntacticAdvice
      s!"Missing type for '{name}'; assuming {assumed.name}"
      s!"Write: Declare {assumed.name} {name}"
  | alreadyDeclared name firstLine => semanticAdvice
      s!"'{name}' is already declared in this scope"
      s!"The first declaration is on line {firstLine}. Pick a different name."
  | constantWithoutValue type name => semanticAdvice
      s!"Constant '{name}' needs a value"
      s!"Write: Constant {type.name} {name} = ..."
  | expectedType => syntacticAdvice
      "Expected a type such as Integer, Real, String, Boolean or Character"
      "Write: Declare Integer count"
  | listForScalar => semanticAdvice
      "A list of values can only initialise an array"
      "Give the variable a size, for example: Declare Integer values[3] = [1, 2, 3]"
  | expectedList => syntacticError "Expected '['"
  | expectedListEnd => syntacticAdvice
      "Expected ']' to close the list of values"
      "Write: [1, 2, 3]"
  | arrayWithoutSize name => semanticAdvice
      s!"Array '{name}' needs a size"
      s!"Write: Declare Integer {name}[10]"
  | literalMismatch found declared => semanticAdvice
      s!"A {found.name} value cannot be stored in a {declared.name} variable"
      s!"Use a {declared.name} value, or declare the variable as {found.name}."
  | nestedRoutine word => semanticAdvice
      s!"A {word} cannot be defined inside another Module or Function"
      "Move it after the 'End' of the enclosing routine."
  | missingReturnType => syntacticAdvice
      "Missing return type after 'Function'; assuming Integer"
      "Write: Function Integer square(Integer n)"
  | expectedRoutineName word => syntacticAdvice
      s!"Expected a name after '{word}'"
      s!"Write: {word} showTotal()"
  | neverReturns name =>
      { kind := .semantic
        message := s!"Function '{name}' never returns a value"
        help := some "Add 'Return' followed by the result before 'End Function'."
        severity := .warning }
  | routineAlreadyDefined name firstLine => semanticAdvice
      s!"'{name}' is already defined"
      s!"The first definition is on line {firstLine}. Pick a different name."
  | missingParameterList word => syntacticAdvice
      s!"Missing '()' after the {word} name"
      s!"Write: {word} showTotal()"
  | expectedParametersEnd => syntacticError "Expected ')' after the parameters"
  | refBeforeType => syntacticAdvice
      "'Ref' goes after the parameter type"
      "Write: Integer Ref count"
  | refWithoutType => syntacticAdvice
      "Missing type before 'Ref'; assuming Integer"
      "Write: Integer Ref count"
  | expectedAfterRef => syntacticAdvice
      "Expected a parameter after 'Ref'"
      "Write: Integer Ref count"
  | missingParameterType name => syntacticAdvice
      s!"Missing type for parameter '{name}'; assuming Integer"
      s!"Write: Integer {name}"
  | expectedParameter => syntacticAdvice
      "Expected a parameter"
      "Write: Integer count"
  | refTwice => syntacticError "'Ref' is written twice"
  | expectedParameterName => syntacticAdvice
      "Expected a parameter name"
      "Write: Integer Ref count"
  | sizedParameter type name => semanticAdvice
      "Array parameters take their size from the argument"
      s!"Write: {type.name} {name}[]"
  | expectedParameterSizeEnd => syntacticError "Expected ']' in the array parameter"
  | modifierOutsideClass word => syntacticAdvice
      s!"'{word}' is only allowed on class members"
      "Remove it, or move the declaration inside a Class."
  | nestedClass => semanticAdvice
      "Classes must be defined at the top level of the program"
      "Move the class outside every Module, Function and Class."
  | expectedClassName => syntacticAdvice
      "Expected a class name after 'Class'"
      "Write: Class Point"
  | classAlreadyDefined name firstLine => semanticAdvice
      s!"Class '{name}' is already defined"
      s!"The first definition is on line {firstLine}."
  | modifierWithoutMember =>
      syntacticError "Expected a field or method after the access modifier"
  | expectedMember className => syntacticAdvice
      s!"Expected a field or method inside Class '{className}'"
      "A class body holds field declarations, Modules and Functions."
  | undefinedType name => semanticAdvice
      s!"Undefined type '{name}'"
      (s!"Define it with 'Class {name}' ... 'End Class', "
        ++ "or use a built-in type such as Integer or String.")
  | noConstructor className => semanticAdvice
      s!"Class '{className}' has no constructor that takes arguments"
      s!"Add 'Module {className}(...)' inside the class."
  | noMethod className method => semanticError s!"Class '{className}' has no method '{method}'"
  | argumentCount name expected found signature =>
      { kind := .semantic
        message := s!"'{name}' expects {expected} argument(s) but {found} were given"
        help := signature.map fun s => s!"It is declared as {name}{s}" }
  | refNeedsVariable position routine param => semanticAdvice
      (s!"Argument {position} of '{routine}' must be a variable because "
        ++ s!"parameter '{param}' is 'Ref'")
      "Store the value in a variable first and pass the variable."
  | undefinedRoutine name =>
      { kind := .semantic
        message := s!"'{name}' is not defined in this program"
        help := some "It must be supplied by the host application when the program runs."
        severity := .warning }
  | mainWithParameters => semanticAdvice
      "'main' cannot take parameters"
      "The program calls main() with no arguments. Write: Module main()"

/-- Whether a problem stands in the way of running the program. -/
def isError (p : Problem) : Bool := p.wording.severity == .error

end Problem

end Primer.Grammar
