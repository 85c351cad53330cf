/-!
# Command line options

The program takes a source file, or reads standard input, and options that say where
the drawing goes and how it is made.

* `Request.ofArguments`: what the arguments of a command ask for.
-/

namespace Schematic.Cli

/-- What a command asks for. -/
structure Options where
  /-- The file with the source; standard input if there is none. -/
  input : Option String
  /-- The file for the drawing. -/
  output : Option String
  /-- The file with the settings. -/
  config : Option String
  /-- Whether draw commands are listed and no drawing is written. -/
  commands : Bool
  /-- Whether the journal is shown. -/
  verbose : Bool
deriving DecidableEq, Repr

/-- The options that have a value. -/
inductive Setting where
  | output
  | config
deriving DecidableEq, Repr

/-- The options that have none. -/
inductive Flag where
  | commands
  | verbose
deriving DecidableEq, Repr

/-- An option as it is written. -/
def Setting.text : Setting → String
  | output => "--output <OUTPUT>"
  | config => "--config <CONFIG>"

/-- An option as it is written. -/
def Flag.text : Flag → String
  | commands => "--commands"
  | verbose => "--verbose"

/-- Why arguments make up no command. -/
inductive UsageError where
  | unexpected (argument : String)
  | emptyInput
  | missingValue (setting : Setting)
  | needlessValue (flag : Flag) (value : String)
  | repeatedSetting (setting : Setting)
  | repeatedFlag (flag : Flag)
deriving DecidableEq, Repr

/-- The error in words. -/
def UsageError.message : UsageError → String
  | unexpected argument => "unexpected argument '" ++ argument ++ "' found"
  | emptyInput => "a value is required for '[INPUT]' but none was supplied"
  | missingValue setting =>
    "a value is required for '" ++ setting.text ++ "' but none was supplied"
  | needlessValue flag value =>
    "unexpected value '" ++ value ++ "' for '" ++ flag.text ++ "' found; no more were expected"
  | repeatedSetting setting => "the argument '" ++ setting.text ++ "' cannot be used multiple times"
  | repeatedFlag flag => "the argument '" ++ flag.text ++ "' cannot be used multiple times"

/-- A command: to draw, or to be told the options. -/
inductive Request where
  | run (options : Options)
  | help
deriving DecidableEq, Repr

namespace Options

/-- A command without options. -/
def bare : Options := ⟨.none, .none, .none, false, false⟩

/-- The options with a value for one of them. -/
def set (o : Options) (setting : Setting) (value : String) : Except UsageError Options :=
  if value.isEmpty then .error (.missingValue setting)
  else match setting, o.output, o.config with
    | .output, .none, _ => .ok { o with output := some value }
    | .config, _, .none => .ok { o with config := some value }
    | _, _, _ => .error (.repeatedSetting setting)

/-- The options with a flag. -/
def raise (o : Options) (flag : Flag) : Except UsageError Options :=
  match flag, o.commands, o.verbose with
  | .commands, false, _ => .ok { o with commands := true }
  | .verbose, _, false => .ok { o with verbose := true }
  | _, _, _ => .error (.repeatedFlag flag)

/-- The options with an input file. -/
def setInput (o : Options) (path : String) : Except UsageError Options :=
  match o.input with
  | .none => if path.isEmpty then .error .emptyInput else .ok { o with input := some path }
  | some _ => .error (.unexpected path)

end Options

/-- What an argument has come to: all is said, a value has to follow, or help is asked for. -/
inductive Step where
  | done (options : Options)
  | wants (setting : Setting) (options : Options)
  | help
deriving DecidableEq, Repr

/-- Read the letters of a short argument. What follows a letter that has a value is the
value. -/
def shortStep (o : Options) : List Char → Except UsageError Step
  | [] => .ok (.done o)
  | 'h' :: _ => .ok .help
  | 'v' :: rest =>
    match o.raise .verbose with
    | .ok o => shortStep o rest
    | .error error => .error error
  | c :: rest =>
    match (if c = 'o' then some Setting.output else if c = 'c' then some .config else none) with
    | none => .error (.unexpected (String.ofList ['-', c]))
    | some setting =>
      match rest with
      | [] => .ok (.wants setting o)
      | '=' :: value => Step.done <$> o.set setting (String.ofList value)
      | value => Step.done <$> o.set setting (String.ofList value)

/-- Read the name of a long argument, and its value if it has one after an equals sign. -/
def longStep (o : Options) (argument name : String) (value : Option String) :
    Except UsageError Step :=
  let setting := fun s => match value with
    | some value => Step.done <$> o.set s value
    | none => .ok (.wants s o)
  let flag := fun f => match value with
    | some value => .error (.needlessValue f value)
    | none => Step.done <$> o.raise f
  match name with
  | "output" => setting .output
  | "config" => setting .config
  | "commands" => flag .commands
  | "verbose" => flag .verbose
  | "help" => .ok .help
  | _ => .error (.unexpected argument)

/-- Read an argument that is not an input file. -/
def step (o : Options) (argument : String) : Except UsageError Step :=
  match argument.toList with
  | '-' :: '-' :: long =>
    let name := long.takeWhile (· != '=')
    let value := (long.drop name.length).tail?.map String.ofList
    longStep o (String.ofList ('-' :: '-' :: name)) (String.ofList name) value
  | '-' :: short => shortStep o short
  | _ => .error (.unexpected argument)

/-- Whether an argument is a file, or a value. -/
def isPlain (argument : String) : Bool :=
  match argument.toList with
  | ['-'] => true
  | '-' :: _ => false
  | _ => true

/-- Read arguments after some options, the last of which may wait for its value. Behind `--`
there are only files. -/
def readArguments (o : Options) (onlyFiles : Bool) (awaited : Option Setting) :
    List String → Except UsageError Request
  | [] =>
    match awaited with
    | some setting => .error (.missingValue setting)
    | none => .ok (.run o)
  | argument :: rest =>
    match awaited with
    | some setting =>
      if isPlain argument then
        match o.set setting argument with
        | .ok o => readArguments o false none rest
        | .error error => .error error
      else .error (.missingValue setting)
    | none =>
      if onlyFiles || isPlain argument then
        match o.setInput argument with
        | .ok o => readArguments o onlyFiles none rest
        | .error error => .error error
      else if argument = "--" then readArguments o true none rest
      else
        match step o argument with
        | .ok .help => .ok .help
        | .ok (.done o) => readArguments o false none rest
        | .ok (.wants setting o) => readArguments o false (some setting) rest
        | .error error => .error error

/-- **What the arguments of a command ask for.** -/
def Request.ofArguments (arguments : List String) : Except UsageError Request :=
  readArguments .bare false none arguments

/-- How the program is called. -/
def usage : String := "Usage: boxarr [OPTIONS] [INPUT]"

/-- What the program is told to do by which option. -/
def helpText : String :=
  "Generates a diagram from a boxes-and-arrows description\n\n" ++ usage ++ "\n\n" ++
    "Arguments:\n" ++
    "  [INPUT]  Input file (reads from stdin if not provided)\n\n" ++
    "Options:\n" ++
    "  -o, --output <OUTPUT>  Output file (defaults to the input name with an .svg extension)\n" ++
    "  -c, --config <CONFIG>  Render configuration file (TOML format)\n" ++
    "      --commands         Print the draw commands instead of writing SVG\n" ++
    "  -v, --verbose          Log pipeline stages to stderr\n" ++
    "  -h, --help             Print help\n"

end Schematic.Cli
