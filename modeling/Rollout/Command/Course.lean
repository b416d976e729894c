import Rollout.Command.Stage
import Rollout.Event.Basic
import Rollout.Executor.Basic
import Rollout.Failure
import Rollout.Files.Tree
import Rollout.Stack.Release

/-!
# Courses of commands

A command goes through its stages. A stage is started, and completed or failed; a command whose stage
has failed is completed at once. A crash leaves no trace of the stage in which it happens.

**Types.** `StageResult`, `Course`.

**Operations.** `runStage`, `Course.after`, `Course.calling`, `Course.throughStage`.
-/

namespace Rollout

/-- What a stage comes to: its events, and what it yields unless it has failed. -/
structure StageResult (α : Type) where
  events : List Event
  value : Option α

def stageStarted (command stage : String) : Event :=
  .of command (.stageStarted stage (stageLabel command stage))

def stageFailed (command stage : String) (ms : Rat) (f : Failure) : Event :=
  .of command (.stageFailed stage ms f.kind.code f.message f.kind.hint?)

def stageCompleted (command stage : String) (ms : Rat) (status : String) : Event :=
  .of command (.stageCompleted stage ms status)

/-- The events around the work of a stage, which yields a value and events of its own. -/
def runStage {α : Type} (command stage : String) (work : Except Trouble (α × List Event)) :
    Except Crash (StageResult α) :=
  match work with
  | .ok (value, extra) =>
    .ok ⟨stageStarted command stage :: extra ++ [stageCompleted command stage 0 "success"],
      some value⟩
  | .error (.failure f) =>
    .ok ⟨[stageStarted command stage, stageFailed command stage 0 f], none⟩
  | .error (.crash c) => .error c

/-- The event with which a command ends. -/
def commandCompleted (command : String) (exitCode : Int) : Event :=
  .of command (.commandCompleted (decide (exitCode = 0)) exitCode)

/-- What a command reports up to its end, and what it leaves. -/
structure Course where
  events : List Event
  /-- What has ended the command before its last event. -/
  crash : Option Crash := none
  files : Files
  chance : Chance
  /-- The contexts that executors were handed, in order. -/
  contexts : List UnitContext := []

namespace Course

def after (events : List Event) (c : Course) : Course := { c with events := events ++ c.events }

/-- The course of a command whose executors have been handed contexts before. -/
def calling (contexts : List UnitContext) (c : Course) : Course :=
  { c with contexts := contexts ++ c.contexts }

/-- The course of a command that ends here. -/
def done (command : String) (exitCode : Int) (files : Files) (chance : Chance) : Course :=
  { events := [commandCompleted command exitCode], files := files, chance := chance }

/-- The course of a command that crashes here. -/
def crashed (c : Crash) (files : Files) (chance : Chance) : Course :=
  { events := [], crash := some c, files := files, chance := chance }

/-- Go through a stage, and on with what it yields. The files are those after its work. -/
def throughStage {α : Type} (command : String) (stage : Stage)
    (work : Except Trouble (α × List Event)) (files : Files) (chance : Chance)
    (next : α → Course) : Course :=
  match runStage command stage.id work with
  | .error c => crashed c files chance
  | .ok ⟨events, none⟩ => (done command 2 files chance).after events
  | .ok ⟨events, some value⟩ => (next value).after events

theorem events_after (events : List Event) (c : Course) :
    (c.after events).events = events ++ c.events := rfl

end Course

end Rollout
