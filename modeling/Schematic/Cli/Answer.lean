import Schematic.Cli.Options
import Schematic.Configuration
import Schematic.Journal
import Schematic.Source.Report

/-!
# Answers

A command is answered by what it prints, the file it writes and its exit code. The files
it reads are given, so that the answer is a function of the command and of them.

* `answer`: the answer to a command.
* `Answer.writeFailure`: the answer if the file cannot be written.
-/

namespace Schematic.Cli

/-- Why a file cannot be read or written. -/
inductive FileError where
  | notFound
  | permissionDenied
  | notADirectory
  | isADirectory
  | invalidText
  | other (text : String)
deriving DecidableEq, Repr

/-- The error in words. -/
def FileError.message : FileError → String
  | notFound => "No such file or directory (os error 2)"
  | permissionDenied => "Permission denied (os error 13)"
  | notADirectory => "Not a directory (os error 20)"
  | isADirectory => "Is a directory (os error 21)"
  | invalidText => "stream did not contain valid UTF-8"
  | other text => text

/-- What a command prints and writes, and its exit code. -/
structure Answer where
  output : String
  errors : String
  /-- The file that is written, and its text. -/
  file : Option (String × String)
  code : Nat
deriving DecidableEq, Repr

namespace Answer

/-- The answer that prints a text. -/
def print (output : String) : Answer := ⟨output, "", none, 0⟩

/-- The answer of a command that failed. -/
def failure (errors : String) : Answer := ⟨"", errors, none, 1⟩

/-- The answer that writes a file. -/
def write (path text : String) : Answer := ⟨"", "", some (path, text), 0⟩

/-- The answer with notes ahead of the errors. -/
def withNotes (a : Answer) (notes : String) : Answer := { a with errors := notes ++ a.errors }

/-- The answer if its file cannot be written. -/
def writeFailure (a : Answer) (path : String) (error : FileError) : Answer :=
  { a with
    errors := a.errors ++ "Error writing '" ++ path ++ "': " ++ error.message ++ "\n"
    file := none
    code := 1 }

end Answer

/-- A level of detail by name. -/
def levelName : EventLevel → String
  | .info => "INFO"
  | .debug => "DEBUG"
  | .trace => "TRACE"

/-- The journal as text, without what is only traced. -/
def notes (events : List (Event Float)) : String :=
  String.join ((events.filter (·.level != .trace)).map fun e =>
    "[" ++ levelName e.level ++ "] " ++ e.message ++ "\n")

/-- The last name of a path, if it has one. -/
def baseName (path : String) : String :=
  let names := (path.splitOn "/").filter fun name => name != "" && name != "."
  match names.getLast? with
  | some ".." | none => ""
  | some name => name

/-- **The file for the drawing of an input**: the part of its name before the first dot. -/
def svgFileName (input : String) : String :=
  let stem := (baseName input).toList.takeWhile (· != '.')
  if stem.isEmpty then "output.svg" else String.ofList stem ++ ".svg"

namespace Options

/-- What the source is called in reports. -/
def sourceName (o : Options) : String := o.input.getD "<stdin>"

/-- The file for the drawing; it is printed if there is none. -/
def target (o : Options) : Option String := o.output.orElse fun _ => o.input.map svgFileName

/-- What is said of a source that cannot be read. -/
def readFailure (o : Options) (error : FileError) : String :=
  match o.input with
  | some path => "Error reading file '" ++ path ++ "': " ++ error.message ++ "\n"
  | none => "Error reading from stdin: " ++ error.message ++ "\n"

end Options

/-- The settings of a configuration file, or what is said of it. -/
def settingsOf (path : String) (text : Except FileError String) :
    Except String (Settings Float) :=
  let refusal := fun reason => "Error loading config '" ++ path ++ "': " ++ reason ++ "\n"
  match text with
  | .error error => .error (refusal ("Failed to read config file: " ++ error.message))
  | .ok text =>
    match Settings.ofToml text with
    | .error position => .error (refusal ("Failed to parse config TOML: " ++ position.message))
    | .ok settings => .ok settings

/-- The settings of a command. -/
def Options.settings (o : Options) (read : String → Except FileError String) :
    Except String (Settings Float) :=
  match o.config with
  | some path => settingsOf path (read path)
  | none => .ok .standard

/-- What is said of a source without a drawing. -/
def describe (name source : String) : RenderError Float → String
  | .source errors => String.join (errors.map fun e => e.report source name)
  | .layout error => "Error: " ++ (RenderError.layout error).message ++ "\n"

/-- The answer for a drawing: its commands or its document, printed or to be written. -/
def Options.answerDrawing (o : Options) (settings : Settings Float) (d : Drawing Float) : Answer :=
  if o.commands then .print (String.join (d.commands.map (·.listing ++ "\n")))
  else match o.target with
    | some path => .write path (d.svg settings)
    | none => .print (d.svg settings)

/-- The answer for a source that was read. -/
def Options.answerSource (o : Options) (settings : Settings Float) (source : String) : Answer :=
  let progress := Progress.ofSource source settings
  let answer := match progress.result with
    | .ok drawing => o.answerDrawing settings drawing
    | .error error => .failure (describe o.sourceName source error)
  if o.verbose then answer.withNotes (notes progress.events) else answer

/-- **The answer to a command**, given its standard input and what files hold. The settings
are read first. -/
def answer (arguments : List String) (input : Except FileError String)
    (read : String → Except FileError String) : Answer :=
  match Request.ofArguments arguments with
  | .error error =>
    ⟨"", "error: " ++ error.message ++ "\n\n" ++ usage ++
      "\n\nFor more information, try '--help'.\n", none, 2⟩
  | .ok .help => .print helpText
  | .ok (.run o) =>
    match o.settings read with
    | .error text => .failure text
    | .ok settings =>
      match (match o.input with
        | some path => read path
        | none => input) with
      | .error error => .failure (o.readFailure error)
      | .ok source => o.answerSource settings source

end Schematic.Cli
