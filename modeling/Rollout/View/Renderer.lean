import Rollout.Event.Basic
import Rollout.View.Output

/-!
# Renderers

A renderer shows events one by one. It keeps what it has to remember in a state of its own, and
clears up when no more events come.

**Types.** `Renderer`.

**Operations.** `Renderer.display`, `Renderer.silent`, `exitCode`, `header`.
-/

namespace Rollout.View

/-- Shows events one by one. -/
structure Renderer where
  /-- What the renderer remembers. -/
  State : Type
  start : State
  /-- What an event makes it show. -/
  handle : State → Event → State × List Output
  /-- What is shown when no more events come. -/
  close : State → List Output := fun _ => []

namespace Renderer

def showFrom (r : Renderer) (s : r.State) : List Event → List Output
  | [] => r.close s
  | e :: rest => (r.handle s e).2 ++ r.showFrom (r.handle s e).1 rest

def display (r : Renderer) (events : List Event) : List Output := r.showFrom r.start events

/-- Shows nothing. -/
def silent : Renderer := { State := Unit, start := (), handle := fun _ _ => ((), []) }

end Renderer

/-- The exit code that events ask for: that of the last completed command. -/
def exitCode (events : List Event) : Int :=
  events.foldl
    (fun code e =>
      match e.body with
      | .commandCompleted _ c => c
      | _ => code)
    0

/-- The version of the program. -/
def version : String := "0.4.0"

def programVersion : String := "stackctl v" ++ version

/-- The line with which the report about a command starts. -/
def header (project config : Option FilePath) : Output :=
  let project := project.getD ⟨.relative, []⟩
  let config := config.getD ⟨.relative, ["stack.yaml"]⟩
  .line (programVersion ++ " | project: " ++ project.text ++ " | config: " ++ config.text ++ "\n" ++
    String.ofList (List.replicate 64 '-'))

end Rollout.View
