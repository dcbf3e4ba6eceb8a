import WasmHost.Source.Basic

set_option autoImplicit false

/-! # Searching for modules in files

A module name is tried as a path first and then, unless it is absolute, below each search path in
order. The first path at which there is anything decides: its contents are the module, or, if it
cannot be read, that is the failure. How paths are read is a parameter. -/

namespace WasmHost

/-- Why a path could not be read. -/
inductive ReadError where
  /-- There is nothing at the path. -/
  | notFound
  /-- There is something, but it cannot be read. -/
  | failed (reason : String)
deriving DecidableEq

/-- Whether a path starts at the root. -/
def isAbsolutePath (path : String) : Bool := path.startsWith "/"

/-- The path of a relative name below a directory. -/
def joinPath (dir name : String) : String :=
  if dir.isEmpty || dir.endsWith "/" then dir ++ name else dir ++ "/" ++ name

/-- The paths at which a module is searched, in order. -/
def searchCandidates (searchPaths : List String) (name : String) : List String :=
  name :: if isAbsolutePath name then [] else searchPaths.map (joinPath · name)

/-- The contents of the first path that exists. -/
def readFirst {α : Type} (read : String → Except ReadError α) (name : String) :
    List String → Except LinkError α
  | [] => .error (LinkError.ofKind (.moduleNotFound name))
  | path :: paths =>
      match read path with
      | .ok contents => .ok contents
      | .error .notFound => readFirst read name paths
      | .error (.failed reason) =>
          .error (LinkError.ofKind (.moduleReadFail name (path ++ ": " ++ reason)))

/-- The modules that are found by searching files. -/
def ModuleSource.search {α : Type} (read : String → Except ReadError α)
    (searchPaths : List String) : ModuleSource α :=
  fun name => readFirst read name (searchCandidates searchPaths name)

end WasmHost
