import WasmHost.Assoc
import WasmHost.CommandLine

set_option autoImplicit false

/-! # The program

The process around the command line: it reads the variables of the environment and the files, and
writes the output and the diagnostic. What is written is decided by `CommandLine.respond`, which
reads files from a table; the program is run again whenever it has searched a path that is not in
the table yet. -/

namespace WasmHost.CommandLine

/-- What has been read from files, by path. -/
abbrev FileTable := Assoc String (Except ReadError ModuleObject)

/-- What is at a path; nothing is at a path that is not in the table. -/
def FileTable.read (files : FileTable) (path : String) : Except ReadError ModuleObject :=
  (files.get? path).getD (.error .notFound)

/-- The module in the file at a path. -/
def readModule (path : String) : IO (Except ReadError ModuleObject) := do
  match ← (IO.FS.readBinFile path).toBaseIO with
  | .ok contents => return .ok (.binary contents.toList)
  | .error (.noFileOrDirectory _ _ _) => return .error .notFound
  | .error err => return .error (.failed (toString err))

/-- The variables that stand in for options, as the process has them. -/
def readVariables : IO (Assoc String String) := do
  let mut env := Assoc.empty
  for name in ValueOption.all.filterMap ValueOption.variable? do
    if let some value ← IO.getEnv name then
      env := env.insert name value
  return env

/-- The answer to a command line, with all the files that it needs. -/
partial def respondWith (env : Assoc String String) (args : List String)
    (files : FileTable) : IO Response := do
  let response := respond env.get? files.read args
  match response.paths.filter fun path => !files.contains path with
  | [] => return response
  | missing =>
      let mut files := files
      for path in missing do
        files := files.insert path (← readModule path)
      respondWith env args files

end WasmHost.CommandLine

/-- Answer the command line of the process. -/
def main (args : List String) : IO UInt32 := do
  let env ← WasmHost.CommandLine.readVariables
  let response ← WasmHost.CommandLine.respondWith env args WasmHost.Assoc.empty
  let out ← IO.getStdout
  out.write ⟨response.output⟩
  out.flush
  if let some diagnostic := response.diagnostic then
    IO.eprintln ("error: " ++ diagnostic)
  return response.exitCode.toUInt32
