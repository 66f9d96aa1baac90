/-
  Repartee.CommandLine — the arguments of the program and what they start.

  One argument names a file or directory of rules; options say who chats, with which settings,
  and whether one message is answered or a session is held. An option's value follows it, or is
  joined to it; short flags can be joined to each other. The settings are read first, then the
  bot is made, then the rules are loaded.
-/

import Repartee.Settings.Document
import Repartee.Shell.Session

namespace Repartee

/-- What the arguments ask for. -/
structure Invocation where
  path : String
  /-- The settings document. -/
  config : Option String := none
  user : String := "localuser"
  /-- The one message to answer. -/
  message : Option String := none
  verbose : Bool := false
  seed : Option Nat := none
  strict : Bool := false
  color : Bool := false
  noColor : Bool := false
  deriving DecidableEq, Repr

/-- What is wrong with the arguments. -/
inductive UsageFault where
  | missingPath
  | unexpected (argument : String)
  | missingValue (option : String)
  | unexpectedValue (value option : String)
  | repeated (option : String)
  | notANumber (value : String)
  | conflict
  deriving DecidableEq, Repr

def UsageFault.message : UsageFault → String
  | .missingPath => "the following required arguments were not provided:"
  | .unexpected argument => "unexpected argument '" ++ argument ++ "' found"
  | .missingValue option => "a value is required for '" ++ option ++ "' but none was supplied"
  | .unexpectedValue value option => "unexpected value '" ++ value ++ "' for '" ++ option ++ "' found; no more were expected"
  | .repeated option => "the argument '" ++ option ++ "' cannot be used multiple times"
  | .notANumber value => "invalid value '" ++ value ++ "' for '--seed <SEED>': invalid digit found in string"
  | .conflict => "the argument '--color' cannot be used with '--no-color'"

namespace CommandLine

inductive Setting where
  | config
  | user
  | message
  | seed
  deriving DecidableEq, Repr

inductive Flag where
  | verbose
  | strict
  | color
  | noColor
  deriving DecidableEq, Repr

def Setting.usage : Setting → String
  | .config => "--config <CONFIG>"
  | .user => "--user <USER>"
  | .message => "--message <MESSAGE>"
  | .seed => "--seed <SEED>"

def Flag.usage : Flag → String
  | .verbose => "--verbose"
  | .strict => "--strict"
  | .color => "--color"
  | .noColor => "--no-color"

def longSettings : List (String × Setting) :=
  [("config", .config), ("user", .user), ("message", .message), ("seed", .seed)]

def longFlags : List (String × Flag) :=
  [("verbose", .verbose), ("strict", .strict), ("color", .color), ("no-color", .noColor)]

def shortSettings : List (Char × Setting) := [('c', .config), ('u', .user), ('m', .message)]

def shortFlags : List (Char × Flag) := [('v', .verbose)]

/-- The arguments cut into what they mean, in order. -/
inductive Part where
  | path (value : String)
  | setting (s : Setting) (value : String)
  | flag (f : Flag)
  deriving DecidableEq, Repr

/-- Whether an argument can be the value of an option before it. -/
def isValue (argument : String) : Bool :=
  match argument.toList with
  | '-' :: _ :: _ => false
  | _ => true

/-- What an argument means on its own, and the option that still needs its value. -/
inductive Reading where
  | parts (ps : List Part)
  | open_ (ps : List Part) (s : Setting)

/-- The short options after a hyphen. -/
def shorts (whole : String) (read : List Part) : List Char → Except UsageFault Reading
  | [] => .ok (.parts read.reverse)
  | c :: cs =>
    match shortFlags.lookup c, shortSettings.lookup c with
    | some f, _ => shorts whole (.flag f :: read) cs
    | none, some s =>
      match cs with
      | [] => .ok (.open_ read.reverse s)
      | '=' :: value => .ok (.parts (.setting s (.ofList value) :: read).reverse)
      | value => .ok (.parts (.setting s (.ofList value) :: read).reverse)
    | none, none => .error (.unexpected ("-" ++ c.toString))

def long (name : List Char) : Except UsageFault Reading :=
  let (name, value) := match Text.cutOnce (· == '=') name with
    | some (name, value) => (String.ofList name, some (String.ofList value))
    | none => (String.ofList name, none)
  match longFlags.lookup name, longSettings.lookup name, value with
  | some f, _, none => .ok (.parts [.flag f])
  | some f, _, some value => .error (.unexpectedValue value f.usage)
  | none, some s, some value => .ok (.parts [.setting s value])
  | none, some s, none => .ok (.open_ [] s)
  | none, none, _ => .error (.unexpected ("--" ++ name))

def reading (argument : String) : Except UsageFault Reading :=
  match argument.toList with
  | '-' :: '-' :: name => long name
  | '-' :: c :: cs => shorts argument [] (c :: cs)
  | _ => .ok (.parts [.path argument])

/-- Cut arguments into parts; after `--` all of them are paths. -/
def parts : List String → Except UsageFault (List Part)
  | [] => .ok []
  | argument :: rest =>
    if argument = "--" then .ok (rest.map .path)
    else
      match reading argument with
      | .error e => .error e
      | .ok (.parts ps) => (parts rest).map (ps ++ ·)
      | .ok (.open_ ps s) =>
        match rest with
        | [] => .error (.missingValue s.usage)
        | value :: rest =>
          if isValue value then (parts rest).map (ps ++ .setting s value :: ·)
          else .error (.missingValue s.usage)

/-- The invocation so far, with its path and the options it has had. -/
structure Draft where
  path : Option String := none
  given : List String := []
  invocation : Invocation := { path := "" }

/-- Note an option, which may be given once. -/
def Draft.give (d : Draft) (usage : String) : Except UsageFault Draft :=
  if d.given.contains usage then .error (.repeated usage) else .ok { d with given := usage :: d.given }

def Draft.add (d : Draft) : Part → Except UsageFault Draft
  | .path value =>
    if value = "" then .error (.missingValue "<PATH>")
    else if d.path.isSome then .error (.unexpected value)
    else .ok { d with path := some value }
  | .flag f => do
    let d ← d.give f.usage
    .ok { d with invocation := match f with
      | .verbose => { d.invocation with verbose := true }
      | .strict => { d.invocation with strict := true }
      | .color => { d.invocation with color := true }
      | .noColor => { d.invocation with noColor := true } }
  | .setting s value => do
    let d ← d.give s.usage
    match s with
    | .config =>
      if value = "" then .error (.missingValue s.usage)
      else .ok { d with invocation := { d.invocation with config := some value } }
    | .user => .ok { d with invocation := { d.invocation with user := value } }
    | .message => .ok { d with invocation := { d.invocation with message := some value } }
    | .seed =>
      match Decimal.natural Decimal.bound64 value.toList with
      | some n => .ok { d with invocation := { d.invocation with seed := some n } }
      | none => .error (.notANumber value)

/-- The settings document: the one among the arguments, or the one named outside of them. -/
def Draft.configOr (d : Draft) (outside : Option String) : Except UsageFault (Option String) :=
  match d.invocation.config, outside with
  | some path, _ => .ok (some path)
  | none, some "" => .error (.missingValue Setting.config.usage)
  | none, outside => .ok outside

/-- Read the arguments; `config` is the settings document named outside of them. -/
def read (config : Option String) (arguments : List String) : Except UsageFault Invocation := do
  let ps ← parts arguments
  let d ← ps.foldlM Draft.add {}
  let config ← d.configOr config
  if d.invocation.color && d.invocation.noColor then .error .conflict
  else
    match d.path with
    | none => .error .missingPath
    | some path => .ok { d.invocation with path, config }

/-! ## Starting -/

/-- Why no bot could be made. -/
inductive StartFault where
  | usage (fault : UsageFault)
  | unreadable (path : String)
  | settings (fault : SettingsFault)
  | load (error : LoadError)
  deriving DecidableEq, Repr

def StartFault.message : StartFault → String
  | .usage fault => fault.message
  | .unreadable path => "failed to read " ++ path
  | .settings fault => fault.message
  | .load error => error.message

/-- The settings of an invocation: those of its document, with its seed and strictness. -/
def settings (files : Files) (i : Invocation) : Except StartFault Settings := do
  let s ← match i.config with
    | none => .ok {}
    | some path =>
      match files.readText? path with
      | none => .error (.unreadable path)
      | some text => (Settings.ofToml text).mapError .settings
  .ok { s with seed := i.seed <|> s.seed, strict := s.strict || i.strict }

/-- A macro that says its arguments backwards. -/
def reverseMacro : Subroutine := fun c u => (.ok (.ofList (Text.spaced c.args).toList.reverse), u)

def load (b : Bot) (files : Files) (path : String) : Bot × Except LoadError Unit :=
  if files.isDirectory path then
    let (b, done) := b.loadDirectory files path
    (b, done.map fun _ => ())
  else b.loadFile files path

def start (files : Files) (i : Invocation) : Except StartFault Bot := do
  let s ← settings files i
  let b ← (Bot.new s).mapError .settings
  match load (b.setSubroutine "reverse" reverseMacro) files i.path with
  | (b, .ok ()) => .ok b
  | (_, .error e) => .error (.load e)

/-- Whether an invocation prints colours. -/
def usesColor (i : Invocation) (terminal : Bool) : Bool := !i.noColor && (i.color || terminal)

def session (i : Invocation) (terminal : Bool) (b : Bot) : Shell.Session :=
  { bot := b, user := i.user, verbose := i.verbose, color := usesColor i terminal }

/-- The exit code of a program that could not start. -/
def startFaultCode : Nat := 2

/-- What the program prints for an invocation and an input, with no terminal. It starts with `files`, and
line `n` of a session has `disk n`. -/
def runOn (files : Files) (disk : Nat → Files) (i : Invocation) (input : String) :
    Except StartFault (List Shell.Output) := do
  let b ← start files i
  let s := session i false b
  match i.message with
  | some message => .ok (s.say message).2
  | none => .ok (s.run disk input).2

/-- What it prints if no file changes. -/
def run (files : Files) (i : Invocation) (input : String) : Except StartFault (List Shell.Output) :=
  runOn files (fun _ => files) i input

end CommandLine

end Repartee
