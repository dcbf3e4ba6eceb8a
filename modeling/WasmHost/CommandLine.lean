import WasmHost.Libc.Tables
import WasmHost.Run
import WasmHost.Source.Search

set_option autoImplicit false

/-! # The command line

    wasmrun [options] MAIN [EXTRA]...

Runs the entry point of a module that is linked against the C library and some further modules.
Options and module names may be mixed; after `--` everything is a module name. Short options can be
written together. The value of an option follows in the same argument or in the next one, which must
not look like an option. Two options can also be given by variables of the environment, which count
only if the option is absent.

The first thing wrong decides, and a request for help or for the version counts at once. -/

namespace WasmHost.CommandLine

/-! ## Options -/

/-- The options that take a value. -/
inductive ValueOption where
  | searchPath
  | heapPages
  | entry
deriving DecidableEq

/-- The long name of an option. -/
def ValueOption.name : ValueOption → String
  | .searchPath => "search-path"
  | .heapPages => "heap-pages"
  | .entry => "entry"

/-- All options that take a value. -/
def ValueOption.all : List ValueOption := [.searchPath, .heapPages, .entry]

/-- The variable of the environment that stands in for an option. -/
def ValueOption.variable? : ValueOption → Option String
  | .searchPath => some "WASMRUN_PATH"
  | .heapPages => some "WASMRUN_HEAP_PAGES"
  | .entry => none

/-- Why no program is run. -/
inductive Stop where
  | help
  | version
  | misuse (message : String)
deriving DecidableEq

/-- What has been given on the command line. -/
structure Given where
  /-- The names of modules. -/
  modules : List String
  searchPaths : Option (List String)
  heapPages : Option Nat
  entry : Option String
  verbosity : Nat

/-- Where the reader of the command line stands. -/
structure Reader where
  given : Given
  /-- The option whose value comes next. -/
  awaiting : Option ValueOption
  /-- Whether only names of modules follow. -/
  namesOnly : Bool

/-- Nothing has been given yet. -/
def Reader.initial : Reader := ⟨⟨[], none, none, none, 0⟩, none, false⟩

/-! ## Values -/

/-- The decimal number that a text without sign is. -/
def decimal? (digits : List Char) : Option Nat :=
  if digits.isEmpty || !digits.all Char.isDigit then none
  else some (digits.foldl (fun n c => n * 10 + (c.toNat - 48)) 0)

/-- A number of pages: a decimal integer below 2³², with or without a sign. -/
def parsePages? (text : String) : Option Nat :=
  let n := match text.toList with
    | '+' :: digits => decimal? digits
    | '-' :: digits => (decimal? digits).filter (· == 0)
    | digits => decimal? digits
  n.filter (· < UInt32.size)

/-- The directories in a list that is separated by colons. None of them may be empty. -/
def parseSearchPaths? (text : String) : Option (List String) :=
  let paths := text.splitOn ":"
  if paths.any String.isEmpty then none else some paths

/-- The text of a misused option. -/
def misused (opt : ValueOption) (what : String) : Stop :=
  .misuse (what ++ " for --" ++ opt.name)

/-- Give an option a value. Only search paths may be given more than once. -/
def Given.set (g : Given) (opt : ValueOption) (value : String) : Except Stop Given :=
  match opt with
  | .searchPath =>
      match parseSearchPaths? value with
      | some paths => .ok { g with searchPaths := some (g.searchPaths.getD [] ++ paths) }
      | none => .error (misused opt "empty value")
  | .heapPages =>
      match g.heapPages, parsePages? value with
      | none, some pages => .ok { g with heapPages := some pages }
      | _, none => .error (misused opt "invalid value")
      | some _, _ => .error (misused opt "more than one value")
  | .entry =>
      match g.entry with
      | none => .ok { g with entry := some value }
      | some _ => .error (misused opt "more than one value")

/-! ## Reading arguments -/

/-- Whether an argument looks like an option. -/
def looksLikeOption (arg : String) : Bool := arg.startsWith "-" && arg != "-"

/-- Give an option a value. -/
def Reader.set (r : Reader) (opt : ValueOption) (value : String) : Except Stop Reader :=
  (r.given.set opt value).map fun g => { r with given := g, awaiting := none }

/-- Ask for more messages about what happens. -/
def Reader.moreVerbose (r : Reader) : Reader :=
  { r with given := { r.given with verbosity := r.given.verbosity + 1 } }

/-- Read the letters of short options that are written together. -/
def Reader.readShort (r : Reader) : List Char → Except Stop Reader
  | [] => .ok r
  | 'v' :: rest => r.moreVerbose.readShort rest
  | 'h' :: _ => .error .help
  | 'V' :: _ => .error .version
  | ['L'] => .ok { r with awaiting := some .searchPath }
  | 'L' :: '=' :: value => r.set .searchPath (String.ofList value)
  | 'L' :: value => r.set .searchPath (String.ofList value)
  | c :: _ => .error (.misuse ("unexpected argument -" ++ c.toString))

/-- Read a long option: its name and the value in the same argument, if there is one. -/
def Reader.readLong (r : Reader) (name : String) (value : Option String) : Except Stop Reader :=
  match ValueOption.all.find? fun opt => opt.name == name with
  | some opt =>
      match value with
      | some value => r.set opt value
      | none => .ok { r with awaiting := some opt }
  | none =>
      match name, value with
      | "verbose", none => .ok r.moreVerbose
      | "help", none => .error .help
      | "version", none => .error .version
      | _, _ => .error (.misuse ("unexpected argument --" ++ name))

/-- A long option without its dashes: the text up to the first equals sign, and what follows it. -/
def splitValue (chars : List Char) : String × Option String :=
  let name := String.ofList (chars.takeWhile (· != '='))
  match chars.dropWhile (· != '=') with
  | [] => (name, none)
  | _ :: value => (name, some (String.ofList value))

/-- Read one argument. -/
def Reader.read (r : Reader) (arg : String) : Except Stop Reader :=
  let asName : Reader := { r with given := { r.given with modules := r.given.modules ++ [arg] } }
  if r.namesOnly then .ok asName
  else
    match r.awaiting, arg.toList with
    | some opt, _ =>
        if looksLikeOption arg then .error (misused opt "no value") else r.set opt arg
    | none, ['-', '-'] => .ok { r with namesOnly := true }
    | none, '-' :: '-' :: rest =>
        let (name, value) := splitValue rest
        r.readLong name value
    | none, '-' :: c :: rest => r.readShort (c :: rest)
    | none, _ => .ok asName

/-- What a list of arguments gives. -/
def readArguments (args : List String) : Except Stop Given := do
  let r ← args.foldlM Reader.read Reader.initial
  match r.awaiting with
  | some opt => throw (misused opt "no value")
  | none => return r.given

/-! ## The request -/

/-- What is asked for. -/
structure Request where
  main : String
  extra : List String
  config : Config
  verbosity : Nat
deriving DecidableEq

/-- Whether an option has a value. -/
def Given.has (g : Given) : ValueOption → Bool
  | .searchPath => g.searchPaths.isSome
  | .heapPages => g.heapPages.isSome
  | .entry => g.entry.isSome

/-- Give an option that is absent the value of its variable. -/
def Given.setFromEnvironment (env : String → Option String) (g : Given) (opt : ValueOption) :
    Except Stop Given :=
  match opt.variable?.bind env with
  | some value => if g.has opt then .ok g else g.set opt value
  | none => .ok g

/-- The request that a command line makes. -/
def parse (env : String → Option String) (args : List String) : Except Stop Request := do
  let g ← readArguments args
  let g ← ValueOption.all.foldlM (Given.setFromEnvironment env) g
  match g.modules with
  | [] => throw (.misuse "no module is given")
  | main :: extra =>
      return {
        main := main
        extra := extra
        config :=
          { Config.default with
            initialPages := g.heapPages.getD Config.default.initialPages
            entry := g.entry.getD Config.default.entry
            searchPaths := g.searchPaths.getD Config.default.searchPaths }
        verbosity := g.verbosity }

/-! ## Answering -/

/-- What the program writes for `--version`. -/
def versionText : String := "wasmrun 0.1.0\n"

/-- What the program writes for `--help`. -/
def helpText : String :=
  String.intercalate "\n" [
    "Run WebAssembly modules against a stub C library",
    "",
    "Usage: wasmrun [OPTIONS] <MAIN> [EXTRA]...",
    "",
    "  -L, --search-path DIRS    directories to search, separated by colons [env: WASMRUN_PATH]",
    "      --heap-pages PAGES    size of the initial memory [env: WASMRUN_HEAP_PAGES]",
    "      --entry ENTRY         name of the entry point",
    "  -v, --verbose             log more",
    "  -h, --help                print this text",
    "  -V, --version             print the version",
    ""]

/-- What the process does. -/
structure Response where
  exitCode : UInt8
  output : Array UInt8
  /-- What went wrong, if anything did. -/
  diagnostic : Option String
  /-- The paths at which modules have been searched. -/
  paths : List String

/-- The answer to a misused command line or to one that asks for help or the version. -/
def Stop.response : Stop → Response
  | .help => ⟨0, helpText.toUTF8.data, none, []⟩
  | .version => ⟨0, versionText.toUTF8.data, none, []⟩
  | .misuse message => ⟨2, #[], some message, []⟩

/-- The exit code for a run that is over: that of its outcome, 1 if it could not be started, and 101
    after a panic. -/
def exitCodeOf : Option (Except LinkError Outcome) → UInt8
  | some (.ok outcome) => outcome.exitCode
  | some (.error _) => 1
  | none => 101

/-- Why a run could not be started, or has no outcome. -/
def diagnosticOf : Option (Except LinkError Outcome) → Option String
  | some (.ok _) => none
  | some (.error err) => some err.fullMessage
  | none => some "the host panicked"

variable [Budget]

/-- Run a program with modules that are read from files. -/
def Request.run (q : Request) (read : String → Except ReadError ModuleObject) : Completed :=
  runProgram Libc.engine q.config (.search read q.config.searchPaths) .accepting Libc.libraries
    q.main q.extra

/-- The answer to a request. -/
def Request.respond (q : Request) (read : String → Except ReadError ModuleObject) : Response :=
  let done := q.run read
  { exitCode := exitCodeOf done.result
    output := done.sink.contents
    diagnostic := diagnosticOf done.result
    paths := done.requested.flatMap (searchCandidates q.config.searchPaths) }

/-- The answer to a command line. -/
def respond (env : String → Option String) (read : String → Except ReadError ModuleObject)
    (args : List String) : Response :=
  match parse env args with
  | .error stop => stop.response
  | .ok q => q.respond read

end WasmHost.CommandLine
