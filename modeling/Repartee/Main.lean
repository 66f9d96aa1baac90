/-
  Repartee.Main — the program: arguments, files and the terminal.

  The rule file or the files of the rule directory are read before the bot starts, and again
  before each line of a session, for the line may ask for a reload.
-/

import Repartee.CommandLine

namespace Repartee.Program

/-- Add a file to the files, if it can be read. -/
def takeFile (files : Files) (path : String) : IO Files := do
  match ← (IO.FS.readBinFile path).toBaseIO with
  | .ok bytes => return files.write path (String.fromUTF8? bytes)
  | .error _ => return files

/-- Add a file, or a directory with the files in it. -/
def take (files : Files) (path : String) : IO Files := do
  let place := (← IO.currentDir) / path
  if ← place.isDir then
    let mut files := files.makeDirectory (Files.resolve path)
    for entry in ← place.readDir do
      files ← takeFile files (Files.member path entry.fileName)
    return files
  else takeFile files path

def takeAll (i : Invocation) : IO Files := do
  let files ← take {} i.path
  match i.config with
  | some path => take files path
  | none => return files

/-- What is printed for a time that is not taken. -/
def untimed : String := "-"

/-- Print what an action gives, with the time that it took. A turn is one function, so its matching and its
rendering are not timed apart. -/
def showing {α : Type} (color : Bool) (act : Unit → α × List Shell.Output) : IO α := do
  let start ← IO.monoMsNow
  let (a, out) := act ()
  let stop ← IO.monoMsNow
  let times : Shell.Times := { total := toString (stop - start) ++ "ms", matching := untimed, render := untimed }
  IO.print (Shell.Output.render (times.text color) out)
  return a

/-- Hold a session with the lines of the terminal. -/
partial def chat (i : Invocation) (s : Shell.Session) : IO Unit := do
  IO.print Shell.Session.prompt
  (← IO.getStdout).flush
  let l ← (← IO.getStdin).getLine
  if l.isEmpty then
    IO.println ""
  else
    let files ← takeAll i
    match ← showing s.color fun () => s.perform files (Shell.Session.request l) with
    | some s => chat i s
    | none => return

def fail (e : CommandLine.StartFault) : IO UInt32 := do
  IO.eprintln ("error: " ++ e.message)
  return CommandLine.startFaultCode.toUInt32

def run (i : Invocation) : IO UInt32 := do
  let files ← takeAll i
  match CommandLine.start files i with
  | .error e => fail e
  | .ok b =>
    let s := CommandLine.session i (← (← IO.getStdout).isTty) b
    match i.message with
    | some message => discard (showing s.color fun () => s.say message)
    | none =>
      IO.print Shell.Session.greeting
      chat i s
    return 0

end Repartee.Program

def main (arguments : List String) : IO UInt32 := do
  match Repartee.CommandLine.read (← IO.getEnv "PARLEY_CONFIG") arguments with
  | .error e => Repartee.Program.fail (.usage e)
  | .ok i => Repartee.Program.run i
