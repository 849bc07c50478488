import Parcel.Binding.Binder
import Parcel.Binding.Conversion
import Parcel.Binding.Operator
import Parcel.Number.Numeral

/-!
# Binding of expressions

Names, types, calls and operators of an expression are resolved. What cannot be resolved becomes an
unresolved expression and is reported once; nothing further is reported about an expression that
depends on it.
-/

namespace Parcel

open BindM

/-- Reports an error in place of an expression. -/
def unresolvedAfter (cause : BindCause) (reported span : Span) : BindM Code.Expr := do
  report cause reported
  return .unresolved span

/-! ### Types and conversions -/

def arrayName : String := "array"

/-- The type of a name. -/
def bindNamedType (name : String) (hasArguments : Bool) (span : Span) : BindM Ty := do
  let catalog := (← get).catalog
  match catalog.type? name with
  | some type =>
    if hasArguments then
      report (.typeArguments name) span
      return .unresolved
    else return type
  | none =>
    report (.unknownType name (Text.closest name (catalog.types.map (·.name)))) span
    return .unresolved

/-- The type that a clause stands for. -/
def bindType : Syntax.TypeClause → BindM Ty
  | .mk name [element] span =>
    if name = arrayName then do
      let element ← bindType element
      return .array element
    else bindNamedType name true span
  | .mk name arguments span =>
    if name = arrayName then do
      report .arrayArguments span
      return .unresolved
    else bindNamedType name (!arguments.isEmpty) span

/-- The expression as one of type `target`; `explicit` tells whether the conversion is written out.
What is unresolved stays so and is not reported again. -/
def convert (e : Code.Expr) (target : Ty) (explicit : Bool) : BindM Code.Expr :=
  if e.type = .unresolved then return e
  else if target = .unresolved then return .unresolved e.span
  else
    match Conversion.classify e.type target with
    | .identity => return e
    | .implicit => return .conversion e target e.span
    | .explicit =>
      if explicit then return .conversion e target e.span
      else unresolvedAfter (.explicitOnly e.type target) e.span e.span
    | .impossible => unresolvedAfter (.noConversion e.type target) e.span e.span

/-! ### Parts of expressions -/

/-- A literal. A numeral with a point is a `float`, any other an `int`. -/
def bindLiteral (literal : Syntax.Literal) (span : Span) : BindM Code.Expr :=
  match literal with
  | .string value => return .literal (.string value) span
  | .bool value => return .literal (.bool value) span
  | .number text =>
    if text.toList.contains '.' then
      match Numeral.float32? text.toList with
      | some x => return .literal (.float x) span
      | none => unresolvedAfter (.malformedNumber text) span span
    else
      match Numeral.integer? .int text.toList with
      | some n => return .literal (.int n) span
      | none => unresolvedAfter (.malformedNumber text) span span

/-- A name, which refers to the innermost variable of this name. -/
def bindName (text : String) (span : Span) : BindM Code.Expr := do
  let scopes := (← get).scopes
  match scopes.lookup? text with
  | some v => return .name v span
  | none =>
    let suggestion := Text.closest text scopes.visibleNames
    unresolvedAfter (.unknownName text suggestion) span span

def bindUnary (op : Syntax.UnaryOp) (operand : Code.Expr) (span : Span) : BindM Code.Expr :=
  if operand.type = .unresolved then return .unresolved span
  else
    match resolveUnary op operand.type with
    | some meaning => return .unary meaning.op operand meaning.result span
    | none => unresolvedAfter (.noUnaryOperator op operand.type) span span

/-- A binary operator applied to two operands. -/
def bindBinary (op : Syntax.BinaryOp) (left right : Code.Expr) (span : Span) : BindM Code.Expr :=
  if left.type = .unresolved ∨ right.type = .unresolved then return .unresolved span
  else
    match resolveBinary op left.type right.type with
    | some meaning => do
      let left ← convert left meaning.operand false
      let right ← convert right meaning.operand false
      return .binary left meaning.op right meaning.result span
    | none => unresolvedAfter (.noBinaryOperator op left.type right.type) span span

/-- Reports an error in place of a function. -/
def notFound (cause : BindCause) (span : Span) : BindM (Option FunctionSymbol) := do
  report cause span
  return none

/-- The function of another package that a call from the current one names. Nothing is reported of a
package that may be named and is not there. -/
def qualifiedFunction (current : Package) (package name : Name) :
    BindM (Option FunctionSymbol) := do
  let b ← get
  let target? := b.catalog.package? package.text
  if current.canReference package.text then
    match target? with
    | none => return none
    | some target =>
      match target.function? name.text with
      | some f => return some f
      | none =>
        let suggestion := Text.closest name.text (target.functions.map (·.name))
        notFound (.unknownFunction (package.text ++ "::" ++ name.text) suggestion) name.span
  else if target?.isSome then notFound (.packageNotLoaded package.text b.package) package.span
  else notFound (.unknownPackage package.text none) package.span

/-- The packages in which unqualified calls are looked up: the current one, then those included. -/
def Catalog.searched (c : Catalog) (current : Package) : List Package :=
  (current.name :: current.includes).filterMap c.package?

/-- The function that a call names without a package. -/
def unqualifiedFunction (current : Package) (name : Name) : BindM (Option FunctionSymbol) := do
  let searched := (← get).catalog.searched current
  match searched.findSome? (·.function? name.text) with
  | some f => return some f
  | none =>
    let known := searched.flatMap fun p => p.functions.map (·.name)
    notFound (.unknownFunction name.text (Text.closest name.text known)) name.span

/-- The function that a call names. Nothing is reported if the current package is not there. -/
def calledFunction (package : Option Name) (name : Name) : BindM (Option FunctionSymbol) := do
  let b ← get
  match b.catalog.package? b.package with
  | none => return none
  | some current =>
    match package with
    | some package => qualifiedFunction current package name
    | none => unqualifiedFunction current name

/-- The method of a type that a call names. -/
def calledMethod (type : Ty) (name : Name) : BindM (Option FunctionSymbol) := do
  match (← get).catalog.container? type with
  | some container =>
    match container.method? name.text with
    | some f => return some f
    | none =>
      let suggestion := Text.closest name.text (container.methods.map (·.name))
      notFound (.unknownMethod type name.text suggestion) name.span
  | none => notFound (.noMethods type) name.span

/-- The function if it takes so many arguments. -/
def checkArity (f : FunctionSymbol) (count : Nat) (span : Span) :
    BindM (Option FunctionSymbol) :=
  if count = f.params.length then return some f
  else notFound (.arityMismatch f.qualifiedName f.params.length count) span

/-- The call of a function that was looked for. If it takes so many arguments, they are bound for
its parameters and it is called; otherwise they are bound only for the errors in them. -/
def bindInvocation (found : BindM (Option FunctionSymbol)) (count : Nat) (discard : BindM Unit)
    (bind : List Var → BindM (List Code.Expr))
    (make : FunctionSymbol → List Code.Expr → Code.Expr) (span : Span) : BindM Code.Expr := do
  let some f ← found
    | discard
      return .unresolved span
  let some f ← checkArity f count span
    | discard
      return .unresolved span
  let arguments ← bind f.params
  return make f arguments

/-- Whether an expression may stand before `<-`. -/
def isAssignable : Code.Expr → Bool
  | .name _ _ | .index _ _ _ _ => true
  | _ => false

/-- The error of an assignment to what cannot be assigned, unless it was reported already. -/
def reportTarget : Code.Expr → BindM Unit
  | .unresolved _ => return
  | target => report .invalidTarget target.span

/-- The error of an index into what is no array, unless it was reported already. -/
def reportIndexed (target : Code.Expr) : BindM Unit :=
  if target.type = .unresolved then return
  else report (.notAnArray target.type) target.span

/-- The type that a call with one argument converts to: an unqualified name of a type. -/
def conversionTarget? (catalog : Catalog) (package : Option Name) (name : Name) : Option Ty :=
  match package with
  | some _ => none
  | none => catalog.type? name.text

/-- A call of a function, or the conversion of the operand, if there is a single one, to the type of
the name. -/
def bindCall (package : Option Name) (name : Name) (operand? : Option (BindM Code.Expr))
    (count : Nat) (discard : BindM Unit) (bind : List Var → BindM (List Code.Expr)) (span : Span) :
    BindM Code.Expr := do
  match conversionTarget? (← get).catalog package name, operand? with
  | some target, some operand =>
    let operand ← operand
    let converted ← convert operand target true
    return converted.withSpan span
  | _, _ =>
    bindInvocation (calledFunction package name) count discard bind
      (fun f arguments => .call f arguments span) span

/-- The error of an array that cannot be made, unless its type was reported already. -/
def reportMake (type : Ty) (typeSpan span : Span) : BindM Unit :=
  if type = .unresolved then return
  else if type.element?.isNone then report (.notAnArrayType type) typeSpan
  else report .lengthOrElements span

/-! ### Expressions -/

mutual

/-- The expression that a piece of syntax stands for. -/
def bindExpr : Syntax.Expr → BindM Code.Expr
  | .literal value span => bindLiteral value span
  | .name text span => bindName text span
  | .paren inner span => do
    let inner ← bindExpr inner
    return .paren inner span
  | .assign target value span => do
    let target ← bindExpr target
    if isAssignable target then
      let value ← bindExpr value
      let value ← convert value target.type false
      return .assign target value span
    else
      reportTarget target
      let _ ← bindExpr value
      return .unresolved span
  | .unary op operand span => do
    let operand ← bindExpr operand
    bindUnary op operand span
  | .binary left op right span => do
    let left ← bindExpr left
    let right ← bindExpr right
    bindBinary op left right span
  | .call package name arguments span =>
    bindCall package name (bindSingle? arguments) arguments.length (discardAll arguments)
      (bindArguments arguments) span
  | .methodCall receiver name arguments span => do
    let receiver ← bindExpr receiver
    if receiver.type = .unresolved then
      discardAll arguments
      return .unresolved span
    else
      bindInvocation (calledMethod receiver.type name) arguments.length
        (discardAll arguments) (bindArguments arguments)
        (fun f arguments => .methodCall f receiver arguments span) span
  | .makeArray type (some length) none span => do
    let made ← bindType type
    match made.element? with
    | some _ => do
      let length ← bindExpr length
      let length ← convert length .int false
      return .makeLength length made span
    | none => do
      reportMake made type.span span
      let _ ← bindExpr length
      return .unresolved span
  | .makeArray type none (some elements) span => do
    let made ← bindType type
    match made.element? with
    | some element => do
      let elements ← bindElements element elements
      return .makeElements elements made span
    | none => do
      reportMake made type.span span
      discardAll elements
      return .unresolved span
  | .makeArray type length elements span => do
    let made ← bindType type
    reportMake made type.span span
    discard? length
    discardAll? elements
    return .unresolved span
  | .index target index span => do
    let target ← bindExpr target
    match target.type.element? with
    | some element => do
      let index ← bindExpr index
      let index ← convert index .int false
      return .index target index element span
    | none => do
      reportIndexed target
      let _ ← bindExpr index
      return .unresolved span

/-- The binding of an argument that is the only one. -/
def bindSingle? : List Syntax.Expr → Option (BindM Code.Expr)
  | [argument] => some (bindExpr argument)
  | _ => none

/-- Arguments as values of the types of the parameters. -/
def bindArguments : List Syntax.Expr → List Var → BindM (List Code.Expr)
  | argument :: arguments, param :: params => do
    let argument ← bindExpr argument
    let argument ← convert argument param.type false
    let arguments ← bindArguments arguments params
    return argument :: arguments
  | _, _ => return []

/-- Elements as values of a type. -/
def bindElements (type : Ty) : List Syntax.Expr → BindM (List Code.Expr)
  | [] => return []
  | element :: elements => do
    let element ← bindExpr element
    let element ← convert element type false
    let elements ← bindElements type elements
    return element :: elements

/-- Binds expressions only for the errors in them. -/
def discardAll : List Syntax.Expr → BindM Unit
  | [] => return
  | e :: rest => do
    let _ ← bindExpr e
    discardAll rest

/-- Binds an expression, if there is one, only for the errors in it. -/
def discard? : Option Syntax.Expr → BindM Unit
  | none => return
  | some e => do
    let _ ← bindExpr e

/-- Binds expressions, if there are any, only for the errors in them. -/
def discardAll? : Option (List Syntax.Expr) → BindM Unit
  | none => return
  | some exprs => discardAll exprs

end

/-- An expression as a value of a type that it has to have. -/
def bindAs (e : Syntax.Expr) (target : Ty) : BindM Code.Expr := do
  let e ← bindExpr e
  convert e target false

end Parcel
