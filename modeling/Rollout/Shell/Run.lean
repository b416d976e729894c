import Rollout.Shell.Programs

/-!
# Running scripts and programs

A script runs in a session. What its parts write is collected in the order in which it is written,
and redirections send it elsewhere. A program is started by its words; the shell itself is one of
the programs.

**Types.** `Sink`, `Routes`, `Job`, `StartFault`.

**Operations.** `run`, `launch`.
-/

namespace Rollout.Shell

/-- Where something written goes. -/
inductive Sink
  | output
  | error
  | nowhere
  | file (place : List String)
  deriving DecidableEq, Inhabited

/-- What the redirections of a command lead to. -/
structure Routes where
  session : Session
  input : Bytes
  output : Sink := .output
  error : Sink := .error
  /-- The complaint about a file that cannot be opened. -/
  complaint : Option String := none

/-- The sink for writing to a file, which is emptied unless one appends to it. -/
def openFile (s : Session) (append : Bool) (word : String) : Except String (Session × Sink) :=
  if word = "/dev/null" then .ok (s, .nowhere)
  else if word = "/dev/stderr" then .ok (s, .error)
  else if word = "/dev/stdout" then .ok (s, .output)
  else
    match s.files.item? (s.path word), placeOf? s word with
    | some .folder, _ => .error ("cannot create " ++ word ++ ": Is a directory")
    | _, none => .error ("cannot create " ++ word ++ ": Directory nonexistent")
    | some (.file _), some place =>
      let s := if append then s else { s with files := s.files.put place (.file ByteArray.empty) }
      .ok (s, .file place)
    | none, some place =>
      .ok ({ s with files := s.files.put place (.file ByteArray.empty) }, .file place)

def Routes.follow (expandWord : List Char → String) (r : Routes) (redirect : Redirect) : Routes :=
  if r.complaint.isSome then r
  else
    match redirect with
    | .input raw =>
      let word := expandWord raw
      if word = "/dev/null" then { r with input := [] }
      else
        match contentOf r.session word with
        | .ok bytes => { r with input := bytes }
        | .error _ => { r with complaint := some ("cannot open " ++ word ++ ": No such file") }
    | .output channel append raw =>
      match openFile r.session append (expandWord raw) with
      | .error text => { r with complaint := some text }
      | .ok (s, sink) =>
        if channel = 2 then { r with session := s, error := sink }
        else { r with session := s, output := sink }
    | .duplicate channel raw =>
      let target := match expandWord raw with
        | "2" => r.error
        | "-" => .nowhere
        | _ => r.output
      if channel = 2 then { r with error := target } else { r with output := target }

/-- Send what a command has written to where its outputs lead. -/
def Routes.send (r : Routes) (ran : Ran) : Ran :=
  ran.chunks.foldl (fun done chunk =>
    match (if chunk.toError then r.error else r.output) with
    | .output => { done with chunks := done.chunks ++ [⟨false, chunk.bytes⟩] }
    | .error => { done with chunks := done.chunks ++ [⟨true, chunk.bytes⟩] }
    | .nowhere => done
    | .file place =>
      let before := match done.session.files.at? place with
        | some (.file content) => content
        | _ => ByteArray.empty
      let after := before ++ ByteArray.mk chunk.bytes.toArray
      { done with session := { done.session with
          files := done.session.files.put place (.file after) } })
    { ran with chunks := [] }

/-- Carry out something with its outputs sent along routes. -/
def Routes.carry (r : Routes) (body : Bytes → Session → Ran) : Ran :=
  match r.complaint with
  | some text => complain r.session 2 ("sh: 1: " ++ text)
  | none => r.send (body r.input r.session)

/-- The directories in which programs are. -/
def programFolders : List String := ["/bin", "/usr/bin"]

/-- Whether programs are found by their names alone: without a search path they are. -/
def Session.findsPrograms (s : Session) : Bool :=
  let folders := ((Table.get? "PATH" s.environment).getD "/bin:/usr/bin").splitOn ":"
  folders.any programFolders.contains

/-- The name of the program that a word stands for, if it stands for one. -/
def programName? (s : Session) (word : String) : Option String :=
  if word.toList.contains '/' then
    (programFolders.find? fun d => (d ++ "/").isPrefixOf word).map fun d =>
      String.ofList (word.toList.drop (d.length + 1))
  else if s.findsPrograms then some word
  else none

def shellNames : List String := ["sh", "dash", "bash"]

/-- A script to be run in a session of its own. -/
structure Job where
  text : String
  arguments : List String
  strict : Bool
  deriving DecidableEq, Inhabited

/-- What a call of the shell asks for, or a complaint; options add to those seen before. -/
def jobOf (s : Session) (input : Bytes) (strict fromText : Bool) :
    List String → Except String Job
  | [] =>
    if fromText then .error "sh: 0: -c requires an argument"
    else .ok ⟨textOf input, ["sh"], strict⟩
  | a :: rest =>
    if a.startsWith "-" then
      jobOf s input (strict || a.toList.contains 'e') (fromText || a.toList.contains 'c') rest
    else if fromText then .ok ⟨a, if rest.isEmpty then ["sh"] else rest, strict⟩
    else
      match contentOf s a with
      | .ok bytes => .ok ⟨textOf bytes, a :: rest, strict⟩
      | .error _ => .error ("sh: 0: cannot open " ++ a ++ ": No such file")

/-- Whether a word sets a variable. -/
def isAssignment (raw : List Char) : Bool :=
  let name := raw.takeWhile isNameChar
  !name.isEmpty && !(name.head?.map Char.isDigit).getD true &&
    (raw.drop name.length).head? == some '='

/-- What is left of a session after a part of it that ran on its own. -/
def Session.after (s part : Session) : Session :=
  { s with
    files := part.files
    slept := part.slept
    ended := match part.ended with
      | some n => if n < 0 then some n else s.ended
      | none => s.ended }

/-- The status with which a part of a session ends. -/
def Ran.exitStatus (r : Ran) : Int := r.session.ended.getD r.status

/-- Remember the status of what has been done; a strict session ends with a failure. -/
def Ran.settled (r : Ran) : Ran :=
  let s := { r.session with status := r.status }
  if s.strict && r.status != 0 && s.ended.isNone then
    { r with session := { s with ended := some r.status } }
  else { r with session := s }

/-- Carry out something that may fail: its failure does not end the session. -/
def Session.trying (s : Session) (body : Session → Ran) : Ran :=
  let r := body { s with strict := false }
  { r with session := { r.session with strict := s.strict } }

mutual

/-- Run a script on some input. -/
def run : Nat → Script → Bytes → Session → Ran
  | 0, _, _, s => ⟨s, [], 0⟩
  | fuel + 1, script, input, s =>
    /- One part after another, unless the session has ended. -/
    let next (first : Ran) (second : Session → Ran) : Ran :=
      if first.session.ended.isSome then first
      else
        let r := second first.session
        { r with chunks := first.chunks ++ r.chunks }
    match script with
    | .empty => ⟨s, [], 0⟩
    | .simple words redirects =>
      let substitute := output fuel s
      let routes := redirects.foldl (Routes.follow (expandText s substitute))
        { session := s, input := input }
      let settings := words.takeWhile isAssignment
      let fields := (words.drop settings.length).flatMap (expand s substitute)
      let set (s : Session) : Session := (assign (settings.map (expandText s substitute)) [] s).session
      (routes.carry fun input s =>
        match fields with
        | [] => ⟨set s, [], 0⟩
        | name :: args =>
          let r := call fuel name args input (set s)
          if settings.isEmpty then r
          else { r with session := { r.session with environment := s.environment } }).settled
    | .pipe left right =>
      let l := run fuel left input s
      let s := s.after l.session
      let r := run fuel right (written false l.chunks) s
      (⟨s.after r.session, l.chunks.filter (·.toError) ++ r.chunks, r.exitStatus⟩ : Ran).settled
    | .both left right =>
      let l := s.trying (run fuel left input)
      if l.status = 0 then next l (run fuel right input) else l
    | .either left right =>
      let l := s.trying (run fuel left input)
      if l.status = 0 then l else next l (run fuel right input)
    | .sequence left right => next (run fuel left input s) (run fuel right input)
    | .negate body =>
      s.trying fun s =>
        let r := run fuel body input s
        { r with status := if r.status = 0 then 1 else 0 }.settled
    | .group body redirects =>
      let routes := redirects.foldl (Routes.follow (expandText s (output fuel s)))
        { session := s, input := input }
      routes.carry (run fuel body)
    | .subshell body redirects =>
      let routes := redirects.foldl (Routes.follow (expandText s (output fuel s)))
        { session := s, input := input }
      (routes.carry fun input s =>
        let r := run fuel body input s
        ⟨s.after r.session, r.chunks, r.exitStatus⟩).settled
    | .branch condition yes no =>
      let c := s.trying (run fuel condition input)
      next c (run fuel (if c.status = 0 then yes else no) input)

/-- The output of a script that stands in a word, without the line breaks at its end. -/
def output : Nat → Session → List Char → List Char
  | 0, _, _ => []
  | fuel + 1, s, text =>
    match Script.ofText text with
    | .error _ => []
    | .ok script =>
      let r := run fuel script [] s
      ((textOf (written false r.chunks)).toList.reverse.dropWhile (· == '\n')).reverse

/-- Call a command by its name. -/
def call : Nat → String → List String → Bytes → Session → Ran
  | 0, _, _, _, s => ⟨s, [], 0⟩
  | fuel + 1, name, args, input, s =>
    match builtin? name with
    | some p => p args input s
    | none =>
      if name = "exec" then
        match args with
        | [] => ⟨s, [], 0⟩
        | name :: args =>
          let r := start fuel "exec: " name args input s
          { r with session := { r.session with ended := some r.exitStatus } }
      else start fuel "" name args input s

/-- Start a program by its name; complaints about the name are introduced by a text. -/
def start : Nat → String → String → List String → Bytes → Session → Ran
  | 0, _, _, _, _, s => ⟨s, [], 0⟩
  | fuel + 1, front, name, args, input, s =>
    let missing (_ : Unit) : Ran :=
      if name.toList.contains '/' && s.files.isThere (s.path name) then
        complain s 126 ("sh: 1: " ++ front ++ name ++ ": Permission denied")
      else complain s 127 ("sh: 1: " ++ front ++ name ++ ": not found")
    match programName? s name with
    | none => missing ()
    | some program =>
      if shellNames.contains program then
        match jobOf s input false false args with
        | .error text => complain s 2 text
        | .ok job => nested fuel job input s
      else if program = "env" then
        let (vs, words) := changedVariables args s.environment
        let inner := { s with environment := vs }
        let r := match words with
          | [] => environment [] input inner
          | name :: args => start fuel "" name args input inner
        { r with session := { r.session with environment := s.environment } }
      else
        match program? program with
        | some p => p args input s
        | none => missing ()

/-- Run a script in a session of its own. -/
def nested : Nat → Job → Bytes → Session → Ran
  | 0, _, _, s => ⟨s, [], 0⟩
  | fuel + 1, job, input, s =>
    match Script.ofText job.text.toList with
    | .error fault => complain s 2 ("sh: 1: " ++ fault.message)
    | .ok script =>
      let r := run fuel script input
        { s with arguments := job.arguments, status := 0, strict := job.strict }
      ⟨s.after r.session, r.chunks, r.exitStatus⟩

end

/-- Why a program cannot be started. -/
inductive StartFault
  | missing (name : String)
  | denied (name : String)
  | noFolder (path : FilePath)
  | notFolder (path : FilePath)
  deriving DecidableEq, Inhabited

/-- The message of the system. -/
def StartFault.message : StartFault → String
  | .missing name => "[Errno 2] No such file or directory: " ++ Text.quote name
  | .denied name => "[Errno 13] Permission denied: " ++ Text.quote name
  | .noFolder path =>
    "[Errno 2] No such file or directory: PosixPath(" ++ Text.quote path.text ++ ")"
  | .notFolder path => "[Errno 20] Not a directory: PosixPath(" ++ Text.quote path.text ++ ")"

/-- A bound on how deeply scripts nest. -/
def depth (words : List String) : Nat := words.foldl (fun n w => n + w.length) 200

def isProgram (name : String) : Bool :=
  shellNames.contains name || name == "env" || (program? name).isSome

/-- Why a program cannot be started by its name, if it cannot. -/
def startFault? (s : Session) (name : String) : Option StartFault :=
  if name.toList.contains '/' then
    if s.files.isThere (s.path name) then some (.denied name)
    else if (programName? s name).any isProgram then none
    else some (.missing name)
  else if !s.findsPrograms then some (.missing name)
  else if ["", ".", ".."].contains name then some (.denied name)
  else if isProgram name then none
  else some (.missing name)

/-- Start a program by its words. -/
def launch (words : List String) (input : Bytes) (s : Session) : Except StartFault Ran :=
  match s.files.item? s.folder with
  | none => .error (.noFolder s.folder)
  | some (.file _) => .error (.notFolder s.folder)
  | some .folder =>
    let name := words.headD ""
    match startFault? s name with
    | some fault => .error fault
    | none => .ok (start (depth words) "" name (words.drop 1) input s)

end Rollout.Shell
