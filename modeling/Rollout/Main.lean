import Rollout.Cli.App
import Rollout.View.Layout
import Std.Time.DateTime.Timestamp

/-!
# Command line

The program as it is started from a shell. The stack file and the stored state are read before the
command is carried out, and the files that it has changed are written after it.
-/

namespace Rollout.CommandLine

/-- The file at an absolute path, if it can be read. -/
def fileAt (p : FilePath) : IO Files := do
  try
    let content ← IO.FS.readBinFile p.text
    return Files.write p.names (.file content) []
  catch _ => return []

/-- The files that an order needs: its stack file and the stored state of the stack. -/
def filesFor (directory : FilePath) (words : List String) : IO Files := do
  match Cli.Request.ofArguments? words with
  | some (.order o) =>
    let project := directory.within o.project
    let files ← fileAt (StackFile.path project o.config)
    match StackFile.load project o.config files with
    | .ok s =>
      match (Store.mk (some project) "").path s.normalizedName with
      | .ok path => return files ++ (← fileAt path)
      | .error _ => return files
    | .error _ => return files
  | _ => return []

/-- Random choices. -/
def randomChance : IO Chance := do
  let picks ← (List.range 2).mapM fun _ => IO.rand 0 0xFFFFFF
  let digits ← IO.rand 0 0xFFFF
  return Chance.start (picks.map Int.ofNat) [String.ofList (Text.hexText 4 digits)]

/-- The present time in universal time. -/
def presentTime : IO String := do
  let now ← Std.Time.Timestamp.now
  let seconds := now.toSecondsSinceUnixEpoch.val
  let moment : Timestamp := ⟨⟨1970, 1, 1⟩, 0, 0, 0, 0⟩
  return ((moment.shift seconds).getD moment).text "T" ++ "+00:00"

/-- Write the files that differ from what they were. -/
def writeChanged (before after : Files) : IO Unit :=
  after.forM fun (place, item) => do
    if before.at? place != some item then
      let path := (FilePath.mk .root place).text
      match item with
      | .folder => IO.FS.createDirAll path
      | .file content => IO.FS.writeBinFile path content

/-- Carry out what the words after the name of the program ask for. -/
def perform (words : List String) : IO UInt32 := do
  let directory := FilePath.ofText (← IO.currentDir).toString
  let files ← filesFor directory words
  let stdout ← IO.getStdout
  let done := Cli.App.run words
    ⟨directory, ← stdout.isTty, files, ← randomChance, ← presentTime⟩
  writeChanged files done.files
  stdout.putStr done.written
  (View.layOut none done.shown).forM fun line => stdout.putStrLn line
  match done.crash with
  | some c => (← IO.getStderr).putStrLn c.message
  | none => pure ()
  return UInt32.ofNat done.exitCode.toNat

end Rollout.CommandLine

def main (words : List String) : IO UInt32 := Rollout.CommandLine.perform words
