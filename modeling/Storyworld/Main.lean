import Storyworld.Command.Check
import Storyworld.Command.Export
import Storyworld.Command.Play
import Storyworld.Text.Bytes

/-!
# The command line

    check FILE [--verbose]
    play FILE [--seed N] [--shuffle]
    export FILE [--output FILE]

The commands themselves are pure.  Here files are read and written, a game is
played line by line as the lines come, and failures become a line on the error
output and an exit code.
-/

namespace Storyworld

/-! ## Arguments -/

/-- What the command line asks for. -/
inductive Request where
  /-- Compile a story and report on it. -/
  | check (file : String) (verbose : Bool)
  /-- Play a story. -/
  | play (file : String) (settings : Settings)
  /-- Export a story. -/
  | export (file : String) (output : Option String)

/-- Flags and values read so far. -/
structure Arguments where
  /-- The story file. -/
  file : Option String := none
  /-- Whether to list factors and transitions. -/
  verbose : Bool := false
  /-- The settings of the session. -/
  settings : Settings := {}
  /-- The file to export to. -/
  output : Option String := none

/-- A seed: a number of 64 bits. -/
def seed? (s : String) : Option UInt64 := (numeral? s.toList).map .ofNat

/-- Read the arguments of a command, or give the first that is not understood. -/
def Arguments.read (command : String) (a : Arguments) : List String → Except String Arguments
  | [] => .ok a
  | flag :: rest =>
      if command = "check" ∧ (flag = "-v" ∨ flag = "--verbose") then
        read command { a with verbose := true } rest
      else if command = "play" ∧ flag = "--shuffle" then
        read command { a with settings := { a.settings with order := .shuffled } } rest
      else if command = "play" ∧ (flag = "-s" ∨ flag = "--seed") then
        match rest with
        | value :: rest =>
            match seed? value with
            | some seed => read command { a with settings := { a.settings with seed := seed } } rest
            | none => .error s!"invalid value '{value}' for '--seed <SEED>'"
        | [] => .error "a value is required for '--seed <SEED>'"
      else if command = "export" ∧ (flag = "-o" ∨ flag = "--output") then
        match rest with
        | value :: rest => read command { a with output := some value } rest
        | [] => .error "a value is required for '--output <OUTPUT>'"
      else if a.file.isNone ∧ !flag.startsWith "-" then
        read command { a with file := some flag } rest
      else .error s!"unexpected argument '{flag}' found"

/-- A long flag and its value may be one argument with an equals sign between them. -/
def separateValue (argument : String) : List String :=
  let cs := argument.toList
  let flag := cs.takeWhile (· != '=')
  if argument.startsWith "--" ∧ flag.length < cs.length then
    [String.ofList flag, String.ofList (cs.drop (flag.length + 1))]
  else [argument]

/-- What a command line asks for, or why it is not understood. -/
def Request.ofArguments : List String → Except String Request
  | [] => .error "a command is required: check, play or export"
  | command :: rest =>
      match ({} : Arguments).read command (rest.flatMap separateValue) with
      | .error reason => .error reason
      | .ok a =>
          match command, a.file with
          | "check", some file => .ok (.check file a.verbose)
          | "play", some file => .ok (.play file a.settings)
          | "export", some file => .ok (.export file a.output)
          | _, none => .error "a story file is required"
          | _, some _ => .error s!"unrecognized subcommand '{command}'"

/-! ## Files -/

/-- What is said of a file that can not be read or written. -/
def failureText : IO.Error → String
  | .noFileOrDirectory .. => "No such file or directory (os error 2)"
  | .permissionDenied .. => "Permission denied (os error 13)"
  | .inappropriateType .. => "Is a directory (os error 21)"
  | e => toString e

/-- Read a story file. -/
def readStory (name : String) : IO StoryFile := do
  try
    let bytes ← IO.FS.readBinFile name
    return ⟨name, decodeText bytes.toList⟩
  catch e => return ⟨name, .error (failureText e)⟩

/-- Save a text to a file. -/
def saveText (name text : String) : IO (Except String Unit) := do
  try
    IO.FS.writeFile name text
    return .ok ()
  catch e => return .error (failureText e)

/-! ## Running -/

/-- Write what a command says and give its exit code. -/
def finish (outcome : CommandOutcome) : IO UInt32 := do
  IO.eprint outcome.err.painted
  IO.print outcome.out
  (← IO.getStdout).flush
  match outcome.result with
  | .ok () => return 0
  | .error reason =>
      IO.eprintln s!"error: {reason}"
      return 1

/-- Read bytes up to a line feed or the end of the input. -/
partial def readLine (input : IO.FS.Stream) (line : List UInt8) : IO (List UInt8) := do
  let bytes ← input.read 1
  match bytes.toList with
  | [] => return line.reverse
  | b :: _ => if b = lineFeed then return (b :: line).reverse else readLine input (b :: line)

/-- Show events as they come. -/
def showEvents (events : List Event) : IO Unit := do
  IO.print (String.join (events.map Event.text))
  (← IO.getStdout).flush

/-- Answer the questions of a game with the lines of the input. -/
partial def converse {G : Type} [Generator G] (g : Game G) : IO (Except String Unit) := do
  let line ← readLine (← IO.getStdin) []
  if line.isEmpty then return .ok ()
  match decodeText line with
  | .error reason => return .error reason
  | .ok line =>
      match g.answer line with
      | .ends => return .ok ()
      | .fails reason => return .error reason
      | .asks shown =>
          showEvents shown.events
          converse shown.game

/-- Do what the command line asks for. -/
def Request.run : Request → IO UInt32
  | .check file verbose => do finish ((← readStory file).check verbose)
  | .export file output => do
      let story ← readStory file
      match story.outlineText.2, output with
      | .ok text, some path => finish (story.export (some ⟨path, ← saveText path text⟩))
      | _, _ => finish (story.export none)
  | .play file settings => do
      match (← readStory file).load with
      | (err, .error reason) => finish ⟨"", err, .error reason⟩
      | (err, .ok c) =>
          IO.eprint err.painted
          IO.print (greeting file settings.seed)
          let shown := (c.game settings).opening
          showEvents shown.events
          finish ⟨"", [], ← converse shown.game⟩

end Storyworld

/-- Run the command that the arguments ask for. -/
def main (arguments : List String) : IO UInt32 := do
  match Storyworld.Request.ofArguments arguments with
  | .ok request => request.run
  | .error reason =>
      IO.eprintln s!"error: {reason}"
      return 2
