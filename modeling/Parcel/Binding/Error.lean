import Parcel.Syntax.Tree
import Parcel.Symbol.Ty
import Parcel.Text.Suggestion

/-!
# Errors of binding

What can be wrong with a source file that is written correctly: names that refer to nothing, types
that do not fit, statements out of place.
-/

namespace Parcel

/-- The classes of errors. -/
inductive BindKind where
  | duplicateSymbol
  | unknownName
  | unknownFunction
  | unknownType
  | unknownPackage
  | arityMismatch
  | noConversion
  | missingExplicitCast
  | invalidStatement
  | loopControlOutsideLoop
  | malformedLiteral
  | returnMismatch
  | noOperator
  | invalidAssignmentTarget
  | invalidDeclaration
  | invalidArrayConstruction
  | notAnArray
  deriving DecidableEq, Repr

def BindKind.name : BindKind → String
  | .duplicateSymbol => "DuplicateSymbol"
  | .unknownName => "UnknownName"
  | .unknownFunction => "UnknownFunction"
  | .unknownType => "UnknownType"
  | .unknownPackage => "UnknownPackage"
  | .arityMismatch => "ArityMismatch"
  | .noConversion => "NoConversion"
  | .missingExplicitCast => "MissingExplicitCast"
  | .invalidStatement => "InvalidStatement"
  | .loopControlOutsideLoop => "LoopControlOutsideLoop"
  | .malformedLiteral => "MalformedLiteral"
  | .returnMismatch => "ReturnMismatch"
  | .noOperator => "NoOperator"
  | .invalidAssignmentTarget => "InvalidAssignmentTarget"
  | .invalidDeclaration => "InvalidDeclaration"
  | .invalidArrayConstruction => "InvalidArrayConstruction"
  | .notAnArray => "NotAnArray"

/-- The causes of errors. A suggestion is a known name close to the unknown one. -/
inductive BindCause where
  | unknownPackage (name : String) (suggestion : Option String)
  | packageNotLoaded (name package : String)
  | duplicateFunction (name package : String)
  | duplicateGlobal (name package : String)
  | duplicateParameter (name : String)
  | duplicateVariable (name : String)
  | unknownType (name : String) (suggestion : Option String)
  /-- A type that takes no arguments has some. -/
  | typeArguments (name : String)
  /-- An array type has no argument, or more than one. -/
  | arrayArguments
  /-- The conversion has to be written out. -/
  | explicitOnly (source target : Ty)
  | noConversion (source target : Ty)
  | breakOutsideLoop
  | continueOutsideLoop
  | invalidStatement
  | untypedVariable (name : String)
  | voidVariable (name : String)
  | returnOutsideFunction
  | missingReturnValue (function : String) (expected : Ty)
  | unexpectedReturnValue (function : String)
  | returnMismatch (function : String) (expected found : Ty)
  | invalidTarget
  | noUnaryOperator (op : Syntax.UnaryOp) (operand : Ty)
  | noBinaryOperator (op : Syntax.BinaryOp) (left right : Ty)
  | unknownName (name : String) (suggestion : Option String)
  | unknownFunction (name : String) (suggestion : Option String)
  | unknownMethod (type : Ty) (name : String) (suggestion : Option String)
  | noMethods (type : Ty)
  | arityMismatch (function : String) (expected found : Nat)
  | malformedNumber (text : String)
  | notAnArray (type : Ty)
  /-- An array is made of a type that is none. -/
  | notAnArrayType (type : Ty)
  /-- An array is made without a length and elements, or with both. -/
  | lengthOrElements
  deriving DecidableEq, Repr

namespace BindCause

def kind : BindCause → BindKind
  | unknownPackage _ _ | packageNotLoaded _ _ => .unknownPackage
  | duplicateFunction _ _ | duplicateGlobal _ _ | duplicateParameter _ | duplicateVariable _ =>
    .duplicateSymbol
  | unknownType _ _ | typeArguments _ | arrayArguments => .unknownType
  | explicitOnly _ _ => .missingExplicitCast
  | noConversion _ _ => .noConversion
  | breakOutsideLoop | continueOutsideLoop => .loopControlOutsideLoop
  | invalidStatement => .invalidStatement
  | untypedVariable _ | voidVariable _ => .invalidDeclaration
  | returnOutsideFunction | missingReturnValue _ _ | unexpectedReturnValue _
  | returnMismatch _ _ _ => .returnMismatch
  | invalidTarget => .invalidAssignmentTarget
  | noUnaryOperator _ _ | noBinaryOperator _ _ _ => .noOperator
  | unknownName _ _ => .unknownName
  | unknownFunction _ _ | unknownMethod _ _ _ | noMethods _ => .unknownFunction
  | arityMismatch _ _ _ => .arityMismatch
  | malformedNumber _ => .malformedLiteral
  | notAnArray _ => .notAnArray
  | notAnArrayType _ | lengthOrElements => .invalidArrayConstruction

def message : BindCause → String
  | unknownPackage name suggestion =>
    s!"unknown package `{name}`" ++ Text.suggestionSuffix suggestion
  | packageNotLoaded name package => s!"package `{name}` is not loaded by `{package}`"
  | duplicateFunction name package =>
    s!"function `{name}` is already defined in package `{package}`"
  | duplicateGlobal name package => s!"global `{name}` is already defined in package `{package}`"
  | duplicateParameter name => s!"parameter `{name}` is declared twice"
  | duplicateVariable name => s!"variable `{name}` is already declared in this scope"
  | unknownType name suggestion => s!"unknown type `{name}`" ++ Text.suggestionSuffix suggestion
  | typeArguments name => s!"type `{name}` takes no type arguments"
  | arrayArguments => "`array` takes exactly one element type"
  | explicitOnly source target =>
    s!"cannot convert `{source.shown}` to `{target.shown}` implicitly; " ++
      s!"an explicit conversion `{target.shown}(..)` exists"
  | noConversion source target => s!"cannot convert `{source.shown}` to `{target.shown}`"
  | breakOutsideLoop => "`break` outside of a loop"
  | continueOutsideLoop => "`continue` outside of a loop"
  | invalidStatement => "only calls and assignments can be used as statements"
  | untypedVariable name => s!"variable `{name}` needs a type or an initializer"
  | voidVariable name => s!"variable `{name}` cannot have type `void`"
  | returnOutsideFunction => "`return` outside of a function"
  | missingReturnValue function expected =>
    s!"function `{function}` must return a value of type `{expected.shown}`"
  | unexpectedReturnValue function =>
    s!"function `{function}` returns `void` and cannot return a value"
  | returnMismatch function expected found =>
    s!"function `{function}` returns `{expected.shown}`, found `{found.shown}`"
  | invalidTarget => "only variables and array elements can be assigned"
  | noUnaryOperator op operand =>
    s!"operator `{op.spelling}` is not defined for `{operand.shown}`"
  | noBinaryOperator op left right =>
    s!"operator `{op.spelling}` is not defined for `{left.shown}` and `{right.shown}`"
  | unknownName name suggestion => s!"unknown name `{name}`" ++ Text.suggestionSuffix suggestion
  | unknownFunction name suggestion =>
    s!"unknown function `{name}`" ++ Text.suggestionSuffix suggestion
  | unknownMethod type name suggestion =>
    s!"type `{type.shown}` has no method `{name}`" ++ Text.suggestionSuffix suggestion
  | noMethods type => s!"type `{type.shown}` has no methods"
  | arityMismatch function expected found =>
    s!"function `{function}` expects {expected} argument(s), found {found}"
  | malformedNumber text => s!"malformed number `{text}`"
  | notAnArray type => s!"cannot index a value of type `{type.shown}`"
  | notAnArrayType type => s!"`make` needs an array type, found `{type.shown}`"
  | lengthOrElements => "`make` takes either a length or an element list"

end BindCause

/-- A cause and where it stands. -/
structure BindError where
  cause : BindCause
  span : Span
  deriving DecidableEq, Repr

namespace BindError

def kind (e : BindError) : BindKind :=
  e.cause.kind

def message (e : BindError) : String :=
  e.cause.message

end BindError

/-- An error and the file in which it stands, if one is bound. -/
structure FileError where
  file : Option Nat
  error : BindError
  deriving DecidableEq, Repr

end Parcel
