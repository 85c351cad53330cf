import Schematic.Cli.Answer

/-!
# The command

The command reads the files that it is told to read and carries out its answer.

* `main`: the command.
-/

namespace Schematic.Cli

/-- What went wrong, as a cause. -/
def causeOf : IO.Error → FileError
  | .noFileOrDirectory .. => .notFound
  | .permissionDenied .. => .permissionDenied
  | .inappropriateType _ code text =>
    if code = 20 then .notADirectory else if code = 21 then .isADirectory else .other text
  | error => .other (toString error)

/-- Bytes as text. -/
def textOf (bytes : ByteArray) : Except FileError String :=
  match String.fromUTF8? bytes with
  | some text => .ok text
  | none => .error .invalidText

/-- Read what an action yields, as text. -/
def readText (bytes : IO ByteArray) : BaseIO (Except FileError String) := do
  match ← bytes.toBaseIO with
  | .ok bytes => return textOf bytes
  | .error error => return .error (causeOf error)

/-- All bytes that a stream still has, behind those that were read. -/
partial def readRest (stream : IO.FS.Stream) (bytes : ByteArray) : IO ByteArray := do
  let chunk ← stream.read 65536
  if chunk.isEmpty then return bytes else readRest stream (bytes ++ chunk)

/-- The files that a command asks for. -/
def filesOf : Request → List String
  | .run o => o.config.toList ++ o.input.toList
  | .help => []

/-- Whether a command reads standard input. -/
def readsInput : Request → Bool
  | .run o => o.input.isNone
  | .help => false

/-- Read what a command asks for: its standard input and its files. -/
def gather (request : Request) :
    IO (Except FileError String × List (String × Except FileError String)) := do
  let files ← (filesOf request).mapM fun (path : String) => do
    return (path, ← readText (IO.FS.readBinFile path))
  let input ← if readsInput request then readText (do readRest (← IO.getStdin) .empty)
    else pure (.ok "")
  return (input, files)

/-- Write the file of an answer. An answer without a file, or whose file cannot be written,
is left to be printed. -/
def store (a : Answer) : IO Answer := do
  match a.file with
  | none => return a
  | some (path, text) =>
    match ← (IO.FS.writeFile path text).toBaseIO with
    | .ok () => return a
    | .error error => return a.writeFailure path (causeOf error)

end Schematic.Cli

open Schematic.Cli in
/-- **The command**: gather what it reads, write what it answers, and print. -/
def main (arguments : List String) : IO UInt32 := do
  let (input, files) ← match Request.ofArguments arguments with
    | .ok request => gather request
    | .error _ => pure (.ok "", [])
  let read := fun path => (files.lookup path).getD (.error .notFound)
  let a ← store (answer arguments input read)
  (← IO.getStdout).putStr a.output
  (← IO.getStderr).putStr a.errors
  return a.code.toUInt32
