/-
  Repartee.Bot.Load — loading rules.

  A load reads its texts, compiles them together with all sources loaded before, hands the
  objects of the new sources to their handlers, and only then adds the sources and publishes
  the rules. A failure leaves sources and rules as they were. Objects are handed over one by
  one, so those up to a rejected one stay with their handlers.
-/

import Repartee.Bot.Basic
import Repartee.Files
import Repartee.Script.Reader

namespace Repartee

namespace Bot

def readScript (b : Bot) (origin text : String) : Except LoadError Script :=
  (Script.read b.settings.strict origin text).mapError (.script origin)

def readFile (b : Bot) (files : Files) (path : String) : Except LoadError Source :=
  match files.readText? path with
  | none => .error (.unreadable path)
  | some text => do
    let script ← b.readScript path text
    .ok { place := .file path, script }

/-- Hand objects to their handlers, up to the first one that is rejected. An object in a language
without a handler is passed over. -/
def handOver (m : Macros) : List Script.Object → Macros × Except LoadError Unit
  | [] => (m, .ok ())
  | o :: os =>
    if m.hasHandler o.language then
      match m.loadObject o.name o.language o.code with
      | (m, .ok ()) => handOver m os
      | (m, .error e) => (m, .error (.object o.name o.language e))
    else handOver m os

/-- Make `sources` the bot's sources; `fresh` are those whose objects are new. -/
def adopt (b : Bot) (sources fresh : List Source) : Bot × Except LoadError Unit :=
  match Rulebook.build b.punctuation b.settings (sources.map (·.script)) with
  | .error e => (b, .error e)
  | .ok rules =>
    let (macros, handed) := handOver b.macros (fresh.flatMap (·.script.objects))
    match handed with
    | .error e => ({ b with macros }, .error e)
    | .ok () => ({ b with macros, sources, rules }, .ok ())

def addSources (b : Bot) (fresh : List Source) : Bot × Except LoadError Unit :=
  b.adopt (b.sources ++ fresh) fresh

/-- Load a rule text under a name. -/
def loadText (b : Bot) (name text : String) : Bot × Except LoadError Unit :=
  match b.readScript name text with
  | .error e => (b, .error e)
  | .ok script => b.addSources [{ place := .inline name, script }]

def loadFile (b : Bot) (files : Files) (path : String) : Bot × Except LoadError Unit :=
  match b.readFile files path with
  | .error e => (b, .error e)
  | .ok source => b.addSources [source]

/-- Extensions are compared without regard to the case of ASCII letters. -/
def isWanted (extensions : List String) (name : String) : Bool :=
  match Files.extension? name with
  | none => false
  | some ext => extensions.any fun x => x.toList.map Char.toLower == ext.toList.map Char.toLower

/-- Load the files of a directory that have a wanted extension, in ascending order of their names,
and tell how many there were. -/
def loadDirectory (b : Bot) (files : Files) (directory : String) : Bot × Except LoadError Nat :=
  match files.filesIn? directory with
  | none => (b, .error (.unreadable directory))
  | some names =>
    let paths := (names.filter (isWanted b.settings.extensions)).map (Files.member directory)
    match paths.mapM (b.readFile files) with
    | .error e => (b, .error e)
    | .ok sources =>
      let (b, done) := b.addSources sources
      (b, done.map fun () => sources.length)

/-- A source as it is now: a file is read again, a text given directly stays. -/
def reread (b : Bot) (files : Files) (source : Source) : Except LoadError Source :=
  match source.place with
  | .file path => b.readFile files path
  | .inline _ => .ok source

/-- Read the files of all sources again. -/
def reload (b : Bot) (files : Files) : Bot × Except LoadError Unit :=
  match b.sources.mapM (b.reread files) with
  | .error e => (b, .error e)
  | .ok sources => b.adopt sources sources

end Bot

end Repartee
