import Parcel.Symbol.Catalog

/-!
# The package `sys`

The functions that the machine provides itself are in a package `sys`; its methods belong to the
container `StringBuilder`, whose single field holds the text built so far.
-/

namespace Parcel

def sysName : String := "sys"

def builderName : String := "StringBuilder"

def builderType : Ty := .container builderName

/-- The name of the field that holds the text built so far. -/
def bufferName : String := "buffer"

def receiverName : String := "this"

namespace Native

/-- The functions of the package, in the order of registration. -/
def functions : List Native :=
  [print, write, exit, sqrt, abs, builder]

/-- The methods of the container, in the order of registration. -/
def methods : List Native :=
  [append, build, length, clear]

def name : Native → String
  | print => "Print"
  | write => "Write"
  | exit => "Exit"
  | sqrt => "Sqrt"
  | abs => "Abs"
  | builder => "Builder"
  | append => "Append"
  | build => "Build"
  | length => "Length"
  | clear => "Clear"

def params : Native → List (String × Ty)
  | print | write | append => [("text", .string)]
  | exit => [("code", .int)]
  | sqrt => [("x", .double)]
  | abs => [("n", .int)]
  | builder | build | length | clear => []

def returnType : Native → Ty
  | print | write | exit | append | clear => .void
  | sqrt => .double
  | abs | length => .int
  | builder => builderType
  | build => .string

def freshParam (param : String × Ty) : StateM Ids Var :=
  modifyGet fun ids => ids.freshVar param.1 param.2 .parameter

def freshReceiver (native : Native) : StateM Ids (Option Var) :=
  if native.isMethod then do
    let v ← modifyGet fun ids => ids.freshVar receiverName builderType .receiver
    return some v
  else return none

/-- The symbol, with fresh ids for the parameters, the receiver and itself. -/
def symbol (native : Native) : StateM Ids FunctionSymbol := do
  let params ← native.params.mapM freshParam
  let receiver ← native.freshReceiver
  let id ← modifyGet Ids.freshFunction
  return ⟨id, native.name, sysName, params, native.returnType, receiver, .native native⟩

end Native

/-- The container, with fresh ids for its field and its methods. -/
def builderContainer : StateM Ids Container := do
  let buffer ← modifyGet fun ids => ids.freshVar bufferName .string .field
  let methods ← Native.methods.mapM Native.symbol
  return ⟨builderType, [buffer], methods⟩

def sysSymbols : StateM Ids (List FunctionSymbol × Container) := do
  let functions ← Native.functions.mapM Native.symbol
  let container ← builderContainer
  return (functions, container)

/-- The catalog with the package `sys` and its container; names that are taken stay as they are. -/
def Catalog.withSys (c : Catalog) (ids : Ids) : Catalog × Ids :=
  let ((functions, container), ids) := sysSymbols.run ids
  let c := (c.registerContainer? container).getD c
  let c := functions.foldl (fun c f => (c.registerFunction? sysName f).getD c)
    (c.ensurePackage sysName)
  (c, ids)

end Parcel
