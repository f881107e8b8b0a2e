/-
ViewContract.Value.Registry — what an application brings, and how a class path finds a class.

A `Registry` lists what an application can import: modules, and in each the names that are bound.
A path without a dot names a built-in; any other path names a module, or a module and a name in it.
This is how pydantic's `ImportString` reads a path: blanks around it are dropped, a colon stands
between a module and a name, without a colon the last dot may stand there too, and of two failures
the first is worded. Importing a module does nothing else here; a module that fails to load, or a
name that is no attribute but made on demand, is left out.

The registry also says what the classes and functions of the application do. An abstract class may
count a value among its instances whose class does not lie below it: `claims`. What is called does
what it likes: `call`.
-/
import ViewContract.Text.Blank
import ViewContract.Text.Shown
import ViewContract.Value.Basic

namespace ViewContract

open Text

/-! ## 1. Modules -/

/-- What a name is bound to: a class, or something that is none. -/
inductive Binding where
  | ofClass (c : Class)
  | other
  deriving DecidableEq, Repr

/-- A module: its path, whether modules can lie inside it, and its names. -/
structure Module where
  path : Text
  isPackage : Bool := false
  bindings : List (Text × Binding) := []

/-- Why a call fails. -/
inductive CallFault where
  /-- The value, of a class with this name, is nothing that can be called. -/
  | notCallable (className : Text)
  /-- What is called fails in a way of its own. -/
  | raised
  deriving DecidableEq, Repr

/-- The wording of a failed call, where it has one that is known. -/
def CallFault.message : CallFault → String
  | .notCallable className => s!"'{asString className}' object is not callable"
  | .raised => "the call failed"

/-- What an application brings. -/
structure Registry where
  /-- What can be imported. -/
  modules : List Module := []
  /-- Whether a class counts a value among its instances by registration, or since the value
  has the methods that the class asks for. -/
  claims : Class → Value → Bool := fun _ _ => false
  /-- What a class, a function or an object gives for some arguments; `none` stands for an
  undefined value, among the arguments and as the answer. -/
  call : Value → List (Option Value) → Except CallFault (Option Value) :=
    fun _ _ => .error .raised

/-- The built-in classes with no built-in class above them but that of all objects, or
none that a value could lie below. -/
def builtinClassNames : List String := [
  "ArithmeticError", "AssertionError", "AttributeError", "BaseException", "BaseExceptionGroup",
  "BlockingIOError", "BrokenPipeError", "BufferError", "BytesWarning", "ChildProcessError",
  "ConnectionAbortedError", "ConnectionError", "ConnectionRefusedError", "ConnectionResetError",
  "DeprecationWarning", "EOFError", "EncodingWarning", "Exception", "ExceptionGroup",
  "FileExistsError", "FileNotFoundError", "FloatingPointError", "FutureWarning", "GeneratorExit",
  "ImportError", "ImportWarning", "IndentationError", "IndexError", "InterruptedError",
  "IsADirectoryError", "KeyError", "KeyboardInterrupt", "LookupError", "MemoryError",
  "ModuleNotFoundError", "NameError", "NotADirectoryError", "NotImplementedError", "OSError",
  "OverflowError", "PendingDeprecationWarning", "PermissionError", "ProcessLookupError",
  "RecursionError", "ReferenceError", "ResourceWarning", "RuntimeError", "RuntimeWarning",
  "StopAsyncIteration", "StopIteration", "SyntaxError", "SyntaxWarning", "SystemError",
  "SystemExit", "TabError", "TimeoutError", "TypeError", "UnboundLocalError",
  "UnicodeDecodeError", "UnicodeEncodeError", "UnicodeError", "UnicodeTranslateError",
  "UnicodeWarning", "UserWarning", "ValueError", "Warning", "ZeroDivisionError", "bytearray",
  "bytes", "classmethod", "complex", "dict", "enumerate", "filter", "float", "frozenset", "int",
  "list", "map", "memoryview", "property", "range", "reversed", "set", "slice", "staticmethod",
  "str", "super", "tuple", "type", "zip"]

/-- The built-in names of other things. -/
def builtinOtherNames : List String := [
  "Ellipsis", "False", "NotImplemented", "True", "__build_class__", "__debug__", "__doc__",
  "__import__", "__name__", "__package__", "__spec__", "abs", "aiter", "all", "anext", "any",
  "ascii", "bin", "breakpoint", "callable", "chr", "compile", "copyright", "credits", "delattr",
  "dir", "divmod", "eval", "exec", "exit", "format", "getattr", "globals", "hasattr", "hash",
  "help", "hex", "id", "input", "isinstance", "issubclass", "iter", "len", "license", "locals",
  "max", "min", "next", "oct", "open", "ord", "pow", "print", "quit", "repr", "round", "setattr",
  "sorted", "sum", "vars"]

/-- The names that need no import. Two classes have a second name. -/
def builtins : List (Text × Binding) :=
  [Class.object, Class.bool].map (fun c => (c.path, .ofClass c)) ++
  builtinClassNames.map (fun name => (name.toList, .ofClass (.builtin name))) ++
  [("EnvironmentError".toList, .ofClass (.builtin "OSError")),
    ("IOError".toList, .ofClass (.builtin "OSError"))] ++
  builtinOtherNames.map fun name => (name.toList, .other)

/-- The names that every module binds to things that are no classes. -/
def moduleNames : List String := [
  "__annotations__", "__builtins__", "__delattr__", "__dict__", "__dir__", "__doc__", "__eq__",
  "__format__", "__ge__", "__getattribute__", "__getstate__", "__gt__", "__hash__", "__init__",
  "__init_subclass__", "__le__", "__loader__", "__lt__", "__name__", "__ne__", "__new__",
  "__package__", "__reduce__", "__reduce_ex__", "__repr__", "__setattr__", "__sizeof__",
  "__spec__", "__str__", "__subclasshook__", "__file__", "__cached__"]

/-- What every module binds, its own class among it. -/
def moduleBindings : List (Text × Binding) :=
  ("__class__".toList, .ofClass (.builtin "module")) ::
    moduleNames.map fun name => (name.toList, .other)

/-- Why a class path names no class. -/
inductive ClassFault where
  /-- No built-in has the name. -/
  | noBuiltin
  /-- The first part of the module path that cannot be imported; `inside` is the
  module before it, if that one holds no modules. -/
  | noModule (missing : Text) (inside : Option Text)
  /-- The module does not bind the name. -/
  | noName (name : Text) (module : Text)
  | tooManyColons (path : Text)
  | emptyModule (path : Text)
  /-- The path names something that is not a class. -/
  | notClass
  deriving DecidableEq, Repr

/-- The wording of a class fault. -/
def ClassFault.message : ClassFault → String
  | .noBuiltin => "no such builtin"
  | .noModule missing none => s!"Invalid python path: No module named {shownString missing}"
  | .noModule missing (some package) =>
    s!"Invalid python path: No module named {shownString missing}; " ++
      s!"{shownString package} is not a package"
  | .noName name module =>
    s!"Invalid python path: cannot import name {shownString name} from {shownString module}"
  | .tooManyColons path =>
    "Invalid python path: Import strings should have at most one ':'; " ++
      s!"received {shownString path}"
  | .emptyModule path =>
    "Invalid python path: Import strings should have a nonempty module name; " ++
      s!"received {shownString path}"
  | .notClass => "not a class"

/-! ## 2. Paths -/

namespace Registry

/-- The module of a path. -/
def module? (r : Registry) (path : Text) : Option Module :=
  r.modules.find? (·.path = path)

/-- The first of the ever longer paths that is no module, below the module
`outer`. -/
def firstMissing? (r : Registry) (outer : Option Module) : List Text → Option ClassFault
  | [] => none
  | path :: longer =>
    match r.module? path with
    | some m => firstMissing? r (some m) longer
    | none =>
      let inside := outer.bind fun m => if m.isPackage then none else some m.path
      some (.noModule path inside)

/-- The beginnings of a dotted path, shortest first. -/
def pathBeginnings (path : Text) : List Text :=
  let parts := splitOn '.' path
  (List.range parts.length).map fun n => ['.'].intercalate (parts.take (n + 1))

/-- Import a module: every beginning of its path must be one. -/
def importModule (r : Registry) (path : Text) : Except ClassFault Module :=
  match r.firstMissing? none (pathBeginnings path) with
  | some fault => .error fault
  | none => (r.module? path).elim (.error (.noModule path none)) .ok

/-- What a module binds a name to. -/
def Module.lookup (m : Module) (name : Text) : Except ClassFault Binding :=
  (((m.bindings ++ moduleBindings).find? (·.1 = name)).map (·.2)).elim
    (.error (.noName name m.path)) .ok

/-- What a path names. Without a colon the whole path may be a module, and else
its last part may be a name in the module before it; if that fails too, the
first failure is reported. -/
def lookup (r : Registry) (path : Text) : Except ClassFault Binding :=
  match splitOn ':' (trim path) with
  | [] => .error (.emptyModule path)
  | [] :: rest =>
    if rest.length ≤ 1 then .error (.emptyModule path) else .error (.tooManyColons path)
  | [whole] =>
    match r.importModule whole with
    | .ok _ => .ok .other
    | .error fault =>
      let name := (whole.reverse.takeWhile (· ≠ '.')).reverse
      let module := dropEnd (name.length + 1) whole
      match r.importModule module >>= (Module.lookup · name) with
      | .ok binding => .ok binding
      | .error _ => .error fault
  | [module, name] => do
    let m ← r.importModule module
    Module.lookup m name
  | _ => .error (.tooManyColons path)

/-- The class that a path names. -/
def resolve (r : Registry) (path : Text) : Except ClassFault Class := do
  let binding ←
    if path.contains '.' then r.lookup path
    else ((builtins.find? (·.1 = path)).map (·.2)).elim (.error .noBuiltin) .ok
  match binding with
  | .ofClass c => pure c
  | .other => .error .notClass

end Registry

/-- The wording of a class path that names no class. -/
def unresolvedMessage (path : Text) (fault : ClassFault) : String :=
  s!"Cannot resolve class {asString path} ({fault.message})"

end ViewContract
