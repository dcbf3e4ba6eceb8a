import WasmHost.Assoc
import WasmHost.Source.Search

set_option autoImplicit false

/-! # File trees

A fixed tree of directories and files, with the usual rules for reading a path: components are
separated by slashes, `.` stays, `..` goes up, and everything but the last component must be a
directory. The contents of files are a parameter. -/

namespace WasmHost

/-- A place in a tree: the names on the way from the root. -/
abbrev Place := List String

/-- What is at a place. -/
inductive FileTree.Entry (α : Type) where
  | directory
  | file (contents : α)

/-- A tree of directories and files. -/
structure FileTree (α : Type) where
  entries : Assoc Place (FileTree.Entry α)

namespace FileTree

variable {α : Type}

/-- The tree that has a root only. -/
def empty : FileTree α := ⟨.empty⟩

/-- What is at a place; the root is a directory. -/
def entry? (t : FileTree α) (place : Place) : Option (Entry α) :=
  if place.isEmpty then some .directory else t.entries.get? place

/-- Make directories at a place and at all places on the way to it. -/
def addDirectory (t : FileTree α) (place : Place) : FileTree α :=
  (List.range (place.length + 1)).foldl (fun t n =>
    match t.entry? (place.take n) with
    | some _ => t
    | none => ⟨t.entries.insert (place.take n) .directory⟩) t

/-- Put a file at a place, in directories. -/
def addFile (t : FileTree α) (place : Place) (contents : α) : FileTree α :=
  let t := t.addDirectory place.dropLast
  ⟨t.entries.insert place (.file contents)⟩

/-! ## Reading paths -/

/-- The greatest length of a component in bytes. -/
def maxNameBytes : Nat := 255

/-- The greatest length of a path in bytes. -/
def maxPathBytes : Nat := 4095

/-- The place that is reached from a place by some components. -/
def walk (t : FileTree α) (place : Place) : List String → Except ReadError Place
  | [] => .ok place
  | name :: rest =>
      match t.entry? place with
      | none => .error .notFound
      | some (.file _) => .error (.failed "Not a directory")
      | some .directory =>
          if name = "" ∨ name = "." then t.walk place rest
          else if name = ".." then t.walk place.dropLast rest
          else if maxNameBytes < name.utf8ByteSize then .error (.failed "File name too long")
          else t.walk (place ++ [name]) rest

/-- The contents of the file at a path; relative paths start at `current`. -/
def read (t : FileTree α) (current : Place) (path : String) : Except ReadError α := do
  if path.contains '\x00' then throw (.failed "path contains a zero byte")
  if path.isEmpty then throw .notFound
  if maxPathBytes < path.utf8ByteSize then throw (.failed "File name too long")
  let start := if isAbsolutePath path then [] else current
  let place ← t.walk start (path.splitOn "/")
  match t.entry? place with
  | none => throw .notFound
  | some .directory => throw (.failed "Is a directory")
  | some (.file contents) => return contents

end FileTree

end WasmHost
