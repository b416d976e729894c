import Rollout.Cli.Arguments
import Rollout.Command.Pipeline
import Rollout.View.Graph
import Rollout.View.Phases

/-!
# The program

The program reads its arguments, carries out a command in a directory, and shows what the command
reports: on a terminal as tables, elsewhere line by line, or as one document if that is asked for.

**Types.** `Surroundings`, `Finished`.

**Operations.** `App.run`.
-/

namespace Rollout.Cli

/-- What surrounds the program. -/
structure Surroundings where
  /-- The working directory. -/
  directory : FilePath
  terminal : Bool
  files : Files
  chance : Chance
  /-- The time that is written into saved states. -/
  stamp : String

/-- What the program leaves. -/
structure Finished where
  exitCode : Int
  shown : List View.Output := []
  /-- What is written without being shown as a report. -/
  written : String := ""
  /-- The crash that ended the program. -/
  crash : Option Crash := none
  files : Files
  chance : Chance

namespace App

/-- The renderer of a command. -/
def renderer (o : Order) (terminal : Bool) : View.Renderer :=
  if o.command = .graph then
    if o.json then View.graphDocument else if terminal then View.graphTable else View.graphLines
  else if o.json then View.phaseDocument
  else if terminal then View.phaseTables terminal
  else View.phaseLines

/-- The command that is carried out. -/
def job (o : Order) (s : Surroundings) : Job where
  command := o.command
  project := s.directory.within o.project
  config := o.config
  maxWorkers := .int o.workers
  changed := o.paths.map FilePath.text
  debug := o.debug
  stamp := s.stamp

/-- Whether a crash is reported, and not left as it is. -/
def reportsCrash (o : Order) : Bool := !(o.command == .graph) && !o.debug

def crashLine (c : Crash) : View.Output :=
  .line ("[red]Unexpected error:[/red] " ++ c.message)

def carryOut (o : Order) (s : Surroundings) : Finished :=
  let course := (job o s).run s.files s.chance
  let shown := (renderer o s.terminal).display course.events
  match course.crash with
  | none =>
    { exitCode := View.exitCode course.events, shown := shown, files := course.files,
      chance := course.chance }
  | some c =>
    if reportsCrash o then
      { exitCode := 3, shown := shown ++ [crashLine c], files := course.files,
        chance := course.chance }
    else
      { exitCode := 1, shown := shown, crash := some c, files := course.files,
        chance := course.chance }

/-- The exit code after words that make no sense. -/
def usageError : Int := 2

/-- Do what the words after the name of the program ask for. -/
def run (words : List String) (s : Surroundings) : Finished :=
  match Request.ofArguments? words with
  | none => { exitCode := usageError, files := s.files, chance := s.chance }
  | some .help => { exitCode := 0, files := s.files, chance := s.chance }
  | some .version =>
    { exitCode := 0, written := View.programVersion ++ "\n", files := s.files, chance := s.chance }
  | some (.order o) => carryOut o s

end App

end Rollout.Cli
