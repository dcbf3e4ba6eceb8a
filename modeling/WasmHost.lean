import WasmHost.Assoc
import WasmHost.Memory.Scan
import WasmHost.Memory.Linear
import WasmHost.Memory.Arena
import WasmHost.Heap
import WasmHost.Descriptors
import WasmHost.Output
import WasmHost.Outcome
import WasmHost.LinkError
import WasmHost.Number.Elementary
import WasmHost.Calling
import WasmHost.Module.Typing
import WasmHost.Module.WellFormed
import WasmHost.Module.Numeric
import WasmHost.Environment
import WasmHost.Store.Basic
import WasmHost.Library.Flags
import WasmHost.Library.Table
import WasmHost.Config
import WasmHost.Exec.Instr
import WasmHost.Value
import WasmHost.Loader.Binding
import WasmHost.Loader.Instantiation
import WasmHost.Loader.Load
import WasmHost.Engine
import WasmHost.Library.Opening
import WasmHost.Run
import WasmHost.Memory.Action
import WasmHost.Text.Latin1
import WasmHost.Libc.Character
import WasmHost.Libc.Integer
import WasmHost.Libc.Real
import WasmHost.Libc.Bytes
import WasmHost.Libc.Allocation
import WasmHost.Libc.Dynamic
import WasmHost.Libc.Function
import WasmHost.Libc.Tables
import WasmHost.Text.Utf8
import WasmHost.Source.Search
import WasmHost.Source.FileTree
import WasmHost.CommandLine
import WasmHost.Binary.Reader
import WasmHost.Binary.Decode
import WasmHost.Main
import WasmHost.Proofs.Linking.Startup
import WasmHost.Proofs.Libc.Output
import WasmHost.Proofs.Libc.Libraries
import WasmHost.Proofs.Run.Transcript
import WasmHost.Proofs.Heap.Blocks
import WasmHost.Proofs.Libc.Allocation
import WasmHost.Proofs.Libc.HeapSafety
import WasmHost.Proofs.Linking.Environment
import WasmHost.Proofs.Library.Counting
import WasmHost.Proofs.Run.Moments
import WasmHost.Proofs.Libc.Layout
import WasmHost.Proofs.Memory.Sharing
import WasmHost.Proofs.Libc.Failures
import WasmHost.Proofs.Libc.Replies
import WasmHost.Proofs.Libc.Names
import WasmHost.Proofs.Linking.Imports
import WasmHost.Proofs.Loader.Failing
import WasmHost.Proofs.Loader.Exports
import WasmHost.Proofs.Memory.Switching
import WasmHost.Proofs.Run.Calls
import WasmHost.Proofs.Libc.Pending
import WasmHost.Proofs.Libc.ErrorMessages
import WasmHost.Proofs.Heap.Room
import WasmHost.Proofs.Memory.Access
import WasmHost.Proofs.Libc.Reallocation
import WasmHost.Proofs.Libc.BoundedStrings
import WasmHost.Proofs.Libc.WordArithmetic
import WasmHost.Proofs.Libc.Pointers
import WasmHost.Proofs.Libc.StringCopies
import WasmHost.Proofs.Libc.Comparing
import WasmHost.Proofs.Libc.Searching
import WasmHost.Proofs.Libc.ExactAccess
import WasmHost.Proofs.Memory.StringWrites
import WasmHost.Proofs.Libc.FreshBlocks
import WasmHost.Proofs.Linking.BoundStubs
import WasmHost.Proofs.Libc.Words
import WasmHost.Proofs.Run.ExitCodes
import WasmHost.Proofs.Libc.Integers
import WasmHost.Proofs.Source.Candidates
import WasmHost.Proofs.Libc.Descriptors
