import WasmHost.Text.Hex

set_option autoImplicit false

/-! # Link errors

Everything that can go wrong before and around running code: modules that cannot be found, read,
parsed, bound or instantiated, requests in the wrong state, and failures of the dynamic loader. An
error has a cause and may carry related errors, so that all failing imports of a module are reported
together. -/

namespace WasmHost

/-- What went wrong. -/
inductive LinkError.Kind where
  | loadFailure (name : String)
  | moduleNotFound (name : String)
  | moduleReadFail (name reason : String)
  | parseError (name reason : String)
  | unresolvedImport (moduleName field : String)
  | unsupportedImport (moduleName field kind : String)
  | stubSignature (name signature : String)
  | instantiateFail (name reason : String)
  | nameNotFound (name : String)
  | missingEntry (moduleName entry : String)
  | badEntrySignature (moduleName entry : String)
  | memoryCreateFail (pages : Nat)
  | unsupportedFlag (flags : UInt32)
  | invalidHandle (handle : UInt32)
  | invalidSymbol
  | symbolNotFound (symbol library : String)
  | functionTableFull (symbol : String)
  | invalidState (state action : String)
deriving DecidableEq

/-- An error: what went wrong, and the errors behind it. -/
inductive LinkError where
  | mk (kind : LinkError.Kind) (related : List LinkError)

namespace LinkError

/-- What went wrong. -/
def kind : LinkError → Kind
  | mk k _ => k

/-- The errors behind it. -/
def related : LinkError → List LinkError
  | mk _ rs => rs

/-- An error without related errors. -/
def ofKind (k : Kind) : LinkError := mk k []

instance : Coe Kind LinkError := ⟨ofKind⟩

/-- The name of a kind of error. -/
def Kind.name : Kind → String
  | .loadFailure _ => "LoadFailure"
  | .moduleNotFound _ => "ModuleNotFound"
  | .moduleReadFail _ _ => "ModuleReadFail"
  | .parseError _ _ => "ParseError"
  | .unresolvedImport _ _ => "UnresolvedImport"
  | .unsupportedImport _ _ _ => "UnsupportedImport"
  | .stubSignature _ _ => "StubSignature"
  | .instantiateFail _ _ => "InstantiateFail"
  | .nameNotFound _ => "NameNotFound"
  | .missingEntry _ _ => "MissingEntry"
  | .badEntrySignature _ _ => "BadEntrySignature"
  | .memoryCreateFail _ => "MemoryCreateFail"
  | .unsupportedFlag _ => "UnsupportedFlag"
  | .invalidHandle _ => "InvalidHandle"
  | .invalidSymbol => "InvalidSymbol"
  | .symbolNotFound _ _ => "SymbolNotFound"
  | .functionTableFull _ => "FunctionTableFull"
  | .invalidState _ _ => "InvalidState"

/-- The text of what went wrong. -/
def Kind.message : Kind → String
  | .loadFailure name => "failed to load module " ++ name
  | .moduleNotFound name => "module not found: " ++ name
  | .moduleReadFail name reason => "failed to read module " ++ name ++ ": " ++ reason
  | .parseError name reason => "failed to parse module " ++ name ++ ": " ++ reason
  | .unresolvedImport moduleName field => "unresolved import '" ++ moduleName ++ "." ++ field ++ "'"
  | .unsupportedImport moduleName field kind =>
      "import '" ++ moduleName ++ "." ++ field ++ "' has unsupported kind " ++ kind
  | .stubSignature name signature =>
      "stub '" ++ name ++ "' cannot be bound to signature " ++ signature
  | .instantiateFail name reason => "failed to instantiate module " ++ name ++ ": " ++ reason
  | .nameNotFound name => "name not found: " ++ name
  | .missingEntry moduleName entry =>
      "module " ++ moduleName ++ " does not export entry point '" ++ entry ++ "'"
  | .badEntrySignature moduleName entry =>
      "entry point '" ++ entry ++ "' of module " ++ moduleName ++ " must have type [] -> [i32]"
  | .memoryCreateFail pages =>
      "failed to create a linear memory of " ++ toString pages ++ " pages"
  | .unsupportedFlag flags => "dlopen flags " ++ hex flags.toNat ++ " are not supported"
  | .invalidHandle handle => "invalid library handle " ++ toString handle.toNat
  | .invalidSymbol => "invalid symbol name"
  | .symbolNotFound symbol library =>
      "failed to find symbol '" ++ symbol ++ "' in '" ++ library ++ "'"
  | .functionTableFull symbol => "no room for '" ++ symbol ++ "' in the function table"
  | .invalidState state action => "cannot " ++ action ++ " while " ++ state

/-- The text of an error; related errors are not part of it. -/
def message (e : LinkError) : String := e.kind.message

/-- The text of an error followed by those of the errors right behind it. -/
def fullMessage (e : LinkError) : String :=
  String.intercalate ": " (e.message :: e.related.map message)

/-- Whether the error itself says that a module could not be loaded. -/
def isLoadFailure (e : LinkError) : Bool :=
  match e.kind with
  | .loadFailure _ | .moduleNotFound _ | .moduleReadFail _ _ | .parseError _ _ => true
  | _ => false

/-! ## Searching and collecting -/

mutual

/-- The first error whose kind satisfies `p`: the error itself, or else the first found in its
    related errors, from left to right. -/
def find? (p : Kind → Bool) : LinkError → Option LinkError
  | mk k rs => if p k then some (mk k rs) else findAny? p rs

/-- The first error found in a list of errors. -/
def findAny? (p : Kind → Bool) : List LinkError → Option LinkError
  | [] => none
  | e :: es =>
      match find? p e with
      | some found => some found
      | none => findAny? p es

end

/-- The values of a list of results, in order. -/
def values {α : Type} (results : List (Except LinkError α)) : List α :=
  results.filterMap fun r => r.toOption

/-- The failures of a list of results, in order. -/
def failures {α : Type} (results : List (Except LinkError α)) : List LinkError :=
  results.filterMap fun
    | .ok _ => none
    | .error e => some e

/-- All the values if nothing failed; otherwise all the failures together, under `parent`. -/
def collect {α : Type} (parent : Kind) (results : List (Except LinkError α)) :
    Except LinkError (List α) :=
  match failures results with
  | [] => .ok (values results)
  | errors => .error (mk parent errors)

end LinkError

end WasmHost
