import Parcel.Binding.Expr

/-!
# Binding of statements

Statements enter scopes and loops, leave them again, and declare variables in the innermost scope. A
statement that cannot be resolved becomes an unresolved expression.
-/

namespace Parcel

open BindM

/-- A statement in place of one that cannot be resolved. -/
def unresolvedStmt (span : Span) : Code.Stmt :=
  .expr (.unresolved span)

/-- The type and the initial value of a declared variable. -/
def bindVarDecl (decl : Syntax.VarDecl) : BindM (Ty × Option Code.Expr) := do
  let declared ← decl.type.mapM bindType
  let initializer ← decl.initializer.mapM bindExpr
  let (type, initializer) ←
    match declared, initializer with
    | some type, some e => do
      let e ← convert e type false
      pure (type, some e)
    | some type, none => pure (type, none)
    | none, some e => pure (e.type, some e)
    | none, none => do
      report (.untypedVariable decl.name.text) decl.span
      pure (.unresolved, none)
  if type = .void then
    report (.voidVariable decl.name.text) decl.span
    return (.unresolved, initializer)
  else
    return (type, initializer)

/-- Reports an error in place of a statement. -/
def unresolvedStmtAfter (cause : BindCause) (reported span : Span) : BindM Code.Stmt := do
  report cause reported
  return unresolvedStmt span

/-- A variable that is declared in the innermost scope. -/
def bindDeclaration (decl : Syntax.VarDecl) : BindM Code.Stmt := do
  let (type, initializer) ← bindVarDecl decl
  let v ← freshVar decl.name.text type .local
  if ← declare v then
    return .declare v initializer
  else
    unresolvedStmtAfter (.duplicateVariable decl.name.text) decl.name.span decl.span

/-- A `return` with a value, which has to be of the return type itself. -/
def bindReturnValue (f : FunctionSymbol) (value : Code.Expr) (valueSpan span : Span) :
    BindM Code.Stmt :=
  if f.returnType = .void then
    unresolvedStmtAfter (.unexpectedReturnValue f.name) valueSpan span
  else if value.type = .unresolved ∨ f.returnType = .unresolved then
    return unresolvedStmt span
  else if value.type = f.returnType then
    return .ret (some value)
  else
    unresolvedStmtAfter (.returnMismatch f.name f.returnType value.type) valueSpan span

/-- A `return` from the function whose body is bound. -/
def bindReturn (value : Option Syntax.Expr) (span : Span) : BindM Code.Stmt := do
  match (← get).function, value with
  | none, _ => unresolvedStmtAfter .returnOutsideFunction span span
  | some f, none =>
    if f.returnType = .void then return .ret none
    else unresolvedStmtAfter (.missingReturnValue f.name f.returnType) span span
  | some f, some value =>
    let bound ← bindExpr value
    bindReturnValue f bound value.span span

/-- A jump to one of the labels of the innermost loop. -/
def bindJump (label : Code.LoopLabels → Label) (cause : BindCause) (span : Span) :
    BindM Code.Stmt := do
  match (← get).loops with
  | labels :: _ => return .goto (label labels)
  | [] => unresolvedStmtAfter cause span span

/-- Whether an expression may stand as a statement. -/
def isStatement : Code.Expr → Bool
  | .call _ _ _ | .methodCall _ _ _ _ | .assign _ _ _ | .unresolved _ => true
  | _ => false

/-- An expression as a statement. -/
def bindExprStmt (value : Syntax.Expr) : BindM Code.Stmt := do
  let e ← bindExpr value
  if isStatement e then
    return .expr e
  else
    report .invalidStatement value.span
    return .expr e

/-- The name of the hidden variable of a loop that only counts. -/
def iteratorName : String := "__iterator"

mutual

/-- The statement that a piece of syntax stands for. -/
def bindStmt : Syntax.Stmt → BindM Code.Stmt
  | .declaration decl => bindDeclaration decl
  | .ret value span => bindReturn value span
  | .whileLoop condition body _ => do
    enter
    let labels ← freshLoopLabels
    let condition ← bindAs condition .bool
    enterLoop labels
    let body ← bindStmt body
    leaveLoop
    leave
    return .whileLoop condition body labels
  | .forLoop initial condition action body _ => do
    enter
    let labels ← freshLoopLabels
    let initial ← bindStmt initial
    let condition ← bindAs condition .bool
    let action ← bindStmt action
    enterLoop labels
    let body ← bindStmt body
    leaveLoop
    leave
    return .forLoop initial condition action body labels
  | .fromTo iterator lower upper body _ => do
    enter
    let labels ← freshLoopLabels
    let lower ← bindAs lower .int
    let upper ← bindAs upper .int
    let v ← freshVar iterator.text .int .local
    let _ ← declare v
    enterLoop labels
    let body ← bindStmt body
    leaveLoop
    leave
    return .fromTo v lower upper body labels
  | .loop count body _ => do
    enter
    let labels ← freshLoopLabels
    let count ← bindAs count .int
    let v ← freshVar iteratorName .int .local
    enterLoop labels
    let body ← bindStmt body
    leaveLoop
    leave
    return .loop v count body labels
  | .breakLoop span => bindJump (·.onBreak) .breakOutsideLoop span
  | .continueLoop span => bindJump (·.onContinue) .continueOutsideLoop span
  | .block stmts _ => do
    enter
    let stmts ← bindStmts stmts
    leave
    return .block stmts
  | .expr value => bindExprStmt value
  | .ifElse condition thenBranch elseBranch _ => do
    let condition ← bindAs condition .bool
    enter
    let thenBranch ← bindStmt thenBranch
    leave
    let elseBranch ← bindBranch elseBranch
    return .ifElse condition thenBranch elseBranch

/-- Statements in order. -/
def bindStmts : List Syntax.Stmt → BindM (List Code.Stmt)
  | [] => return []
  | stmt :: stmts => do
    let stmt ← bindStmt stmt
    let stmts ← bindStmts stmts
    return stmt :: stmts

/-- A branch that may be missing, in a scope of its own. -/
def bindBranch : Option Syntax.Stmt → BindM (Option Code.Stmt)
  | none => return none
  | some branch => do
    enter
    let branch ← bindStmt branch
    leave
    return some branch

end

end Parcel
