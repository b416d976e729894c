import Rollout.Shell.Session

/-!
# Programs

The programs that scripts call. Each is given its arguments, its input and the session, and gives
what it writes to its two outputs, its status, and the session as it leaves it.

**Types.** `Chunk`, `Ran`.

**Operations.** `program?`.
-/

namespace Rollout.Shell

/-- Something that a command has written, to its output or to its error output. -/
structure Chunk where
  toError : Bool
  bytes : Bytes
  deriving DecidableEq, Inhabited

/-- What a command has done. -/
structure Ran where
  session : Session
  chunks : List Chunk := []
  status : Int := 0
  deriving Inhabited

/-- What a command has written to one of its outputs. -/
def written (toError : Bool) (chunks : List Chunk) : Bytes :=
  (chunks.filter fun c => c.toError == toError).flatMap Chunk.bytes

/-- A program: what it does with arguments, input and session. -/
abbrev Program := List String → Bytes → Session → Ran

/-- A program that writes a text. -/
def say (s : Session) (text : String) : Ran := ⟨s, [⟨false, bytesOf text⟩], 0⟩

def complain (s : Session) (status : Int) (text : String) : Ran :=
  ⟨s, [⟨true, bytesOf (text ++ "\n")⟩], status⟩

/-- A character after a backslash, in texts with escapes. -/
def escapeByte? : Char → Option UInt8
  | 'a' => some 7
  | 'b' => some 8
  | 'f' => some 12
  | 'n' => some 10
  | 'r' => some 13
  | 't' => some 9
  | 'v' => some 11
  | '\\' => some 92
  | _ => none

/-- The value of octal digits. -/
def octal (digits : List Char) : UInt8 :=
  UInt8.ofNat (digits.foldl (fun n d => n * 8 + (d.toNat - 48)) 0)

/-- The bytes of a text with escapes; an octal number may have three digits, after a zero if it must
be marked by one. The second part tells whether the text asks to stop. -/
def unescape (marked : Bool) : Nat → List Char → Bytes × Bool
  | 0, _ => ([], false)
  | _, [] => ([], false)
  | fuel + 1, c :: rest =>
    let more (front : Bytes) (rest : List Char) : Bytes × Bool :=
      let (others, stop) := unescape marked fuel rest
      (front ++ others, stop)
    if c = '\\' then
      match rest with
      | 'c' :: _ => ([], true)
      | d :: after =>
        match escapeByte? d with
        | some b => more [b] after
        | none =>
          let start := if marked then after else rest
          let digits := (start.take 3).takeWhile fun x => '0' ≤ x && x ≤ '7'
          if (d = '0' ∧ marked) ∨ (!marked ∧ !digits.isEmpty) then
            more [octal digits] (start.drop digits.length)
          else if d = '"' ∧ !marked then more [34] after
          else more [92] rest
      | [] => more [92] []
    else more (bytesOf (String.singleton c)) rest

/-- Write the arguments, with escapes if they are asked for. -/
def echo (escapes : Bool) : Program := fun args _ s =>
  let (line, args) := match args with
    | "-n" :: rest => (false, rest)
    | args => (true, args)
  let text := " ".intercalate args
  let (body, stop) :=
    if escapes then unescape true (text.length + 1) text.toList else (bytesOf text, false)
  ⟨s, [⟨false, body ++ (if line && !stop then [10] else [])⟩], 0⟩

/-- Write a format once; each directive takes one argument. -/
def formatOnce : Nat → List Char → List String → Bytes × List String
  | 0, _, args => ([], args)
  | _, [], args => ([], args)
  | fuel + 1, '%' :: d :: rest, args =>
    let (front, args) : Bytes × List String :=
      match d with
      | '%' => ([37], args)
      | 'b' =>
        let a := args.headD ""
        ((unescape true (a.length + 1) a.toList).1, args.drop 1)
      | 'd' => (bytesOf (if args.isEmpty then "0" else args.headD ""), args.drop 1)
      | _ => (bytesOf (args.headD ""), args.drop 1)
    let (others, args) := formatOnce fuel rest args
    (front ++ others, args)
  | fuel + 1, c :: rest, args =>
    let body := if c = '\\' then 2 else 1
    let digits := if c = '\\' then
        ((rest.take 3).takeWhile fun x => '0' ≤ x && x ≤ '7').length else 0
    let width := max body (digits + 1)
    let front := (unescape false (width + 1) ((c :: rest).take width)).1
    let (others, args) := formatOnce fuel (rest.drop (width - 1)) args
    (front ++ others, args)

/-- Write a format as often as arguments are left. -/
def formatAll (format : List Char) : Nat → List String → Bytes
  | 0, _ => []
  | fuel + 1, args =>
    let (front, rest) := formatOnce (format.length + 1) format args
    if rest.isEmpty || rest.length = args.length then front else front ++ formatAll format fuel rest

def printf : Program := fun args _ s =>
  match args with
  | [] => complain s 2 "sh: 1: printf: usage: printf format [arg ...]"
  | format :: args =>
    ⟨s, [⟨false, formatAll format.toList (args.length + 1) args⟩], 0⟩

/-- The content of a file, or the complaint about it. -/
def contentOf (s : Session) (word : String) : Except String Bytes :=
  match s.files.item? (s.path word) with
  | some (.file content) => .ok content.toList
  | some .folder => .error (word ++ ": Is a directory")
  | none => .error (word ++ ": No such file or directory")

/-- Write the input, or some files one after the other. -/
def cat : Program := fun args input s =>
  if args.isEmpty then ⟨s, [⟨false, input⟩], 0⟩
  else
    args.foldl (fun ran word =>
      if word = "-" then { ran with chunks := ran.chunks ++ [⟨false, input⟩] }
      else
        match contentOf s word with
        | .ok bytes => { ran with chunks := ran.chunks ++ [⟨false, bytes⟩] }
        | .error text =>
          { ran with
            chunks := ran.chunks ++ [⟨true, bytesOf ("cat: " ++ text ++ "\n")⟩], status := 1 })
      (⟨s, [], 0⟩ : Ran)

/-- The seconds that a word stands for. -/
def secondsOf (word : String) : Rat :=
  let digits (cs : List Char) : Nat := cs.foldl (fun n d => n * 10 + (d.toNat - 48)) 0
  let whole := word.toList.takeWhile Char.isDigit
  let fraction := ((word.toList.drop whole.length).drop 1).takeWhile Char.isDigit
  (digits whole : Rat) + (digits fraction : Rat) / (Nat.pow 10 fraction.length : Nat)

/-- Whether a word is a number of seconds: digits with at most one point among them. -/
def isDuration (word : String) : Bool :=
  let cs := word.toList
  cs.any Char.isDigit && (cs.filter fun c => !c.isDigit).all (· == '.') && cs.count '.' ≤ 1

/-- Sleep for the sum of the given times. -/
def sleep : Program := fun args _ s =>
  let hint := "\nTry 'sleep --help' for more information."
  if args.isEmpty then complain s 1 ("sleep: missing operand" ++ hint)
  else
    match args.filter fun a => !isDuration a with
    | [] => ⟨{ s with slept := args.foldl (fun t a => t + secondsOf a) s.slept }, [], 0⟩
    | wrong =>
      complain s 1 ("\n".intercalate (wrong.map fun a =>
        "sleep: invalid time interval '" ++ a ++ "'") ++ hint)

/-- The integer that a word stands for. -/
def intOf? (word : String) : Option Int :=
  match word.toList with
  | '-' :: rest => if rest.isEmpty || !rest.all Char.isDigit then none else word.toInt?
  | cs => if cs.isEmpty || !cs.all Char.isDigit then none else word.toInt?

/-- Whether a test holds. -/
def holds (s : Session) : List String → Bool
  | [] => false
  | [a] => a != ""
  | ["!", a] => a == ""
  | ["-n", a] => a != ""
  | ["-z", a] => a == ""
  | ["-e", a] => s.files.isThere (s.path a)
  | ["-f", a] => match s.files.item? (s.path a) with | some (.file _) => true | _ => false
  | ["-d", a] => s.files.item? (s.path a) == some .folder
  | ["-s", a] => match contentOf s a with | .ok bytes => !bytes.isEmpty | .error _ => false
  | [a, "=", b] | [a, "==", b] => a == b
  | [a, "!=", b] => a != b
  | [a, "-eq", b] => intOf? a == intOf? b
  | [a, "-ne", b] => intOf? a != intOf? b
  | [a, "-lt", b] => decide ((intOf? a).getD 0 < (intOf? b).getD 0)
  | [a, "-le", b] => decide ((intOf? a).getD 0 ≤ (intOf? b).getD 0)
  | [a, "-gt", b] => decide ((intOf? b).getD 0 < (intOf? a).getD 0)
  | [a, "-ge", b] => decide ((intOf? b).getD 0 ≤ (intOf? a).getD 0)
  | "!" :: rest => !holds s rest
  | _ => false

def test (bracket : Bool) : Program := fun args _ s =>
  let args := if bracket then args.dropLast else args
  ⟨s, [], if holds s args then 0 else 1⟩

/-- The place of a path whose directory is there. -/
def placeOf? (s : Session) (word : String) : Option (List String) :=
  let p := s.path word
  match s.files.item? p.parent with
  | some .folder => s.files.locate? p
  | _ => none

/-- Make directories, with those above them if that is asked for. -/
def mkdir : Program := fun args _ s =>
  let parents := args.contains "-p"
  (args.filter fun a => !a.startsWith "-").foldl (fun ran word =>
    let s := ran.session
    let refuse (reason : String) : Ran :=
      { ran with
        chunks := ran.chunks ++
          [⟨true, bytesOf ("mkdir: cannot create directory '" ++ word ++ "': " ++ reason ++ "\n")⟩]
        status := 1 }
    if parents then
      match s.files.makeFolders (s.path word).normalize.names with
      | .ok files => { ran with session := { s with files := files } }
      | .error (.present _) => refuse "File exists"
      | .error _ => refuse "Not a directory"
    else if s.files.isThere (s.path word) then refuse "File exists"
    else
      match placeOf? s word with
      | some place => { ran with session := { s with files := s.files.put place .folder } }
      | none => refuse "No such file or directory") (⟨s, [], 0⟩ : Ran)

/-- Make files that are not there yet. -/
def touch : Program := fun args _ s =>
  args.foldl (fun ran word =>
    let s := ran.session
    if s.files.isThere (s.path word) then ran
    else
      match placeOf? s word with
      | some place =>
        { ran with session := { s with files := s.files.put place (.file ByteArray.empty) } }
      | none =>
        { ran with
          chunks := ran.chunks ++ [⟨true, bytesOf ("touch: cannot touch '" ++ word ++
            "': No such file or directory\n")⟩]
          status := 1 }) (⟨s, [], 0⟩ : Ran)

/-- Remove files, and directories with all below them if that is asked for. -/
def remove : Program := fun args _ s =>
  let options := (args.filter fun a => a.startsWith "-").flatMap String.toList
  (args.filter fun a => !a.startsWith "-").foldl (fun ran word =>
    let s := ran.session
    let refuse (reason : String) : Ran :=
      { ran with
        chunks := ran.chunks ++
          [⟨true, bytesOf ("rm: cannot remove '" ++ word ++ "': " ++ reason ++ "\n")⟩]
        status := 1 }
    match s.files.item? (s.path word), s.files.locate? (s.path word) with
    | some item, some place =>
      if item = .folder ∧ !options.contains 'r' ∧ !options.contains 'R' then
        refuse "Is a directory"
      else { ran with session := { s with files := s.files.remove place } }
    | _, _ => if options.contains 'f' then ran else refuse "No such file or directory")
    (⟨s, [], 0⟩ : Ran)

/-- List a directory or a file. -/
def list : Program := fun args _ s =>
  let words := args.filter fun a => !a.startsWith "-"
  let word := words.headD "."
  match s.files.item? (s.path word), s.files.locate? (s.path word) with
  | some .folder, some place =>
    let names := (s.files.below place).filterMap fun e =>
      match e.1 with
      | [n] => if n.startsWith "." && !args.contains "-a" then none else some n
      | _ => none
    say s (String.join ((Sorting.texts names).map fun n => n ++ "\n"))
  | some _, _ => say s (word ++ "\n")
  | none, _ => complain s 2 ("ls: cannot access '" ++ word ++ "': No such file or directory")

def signalNumber (word : String) : Int :=
  match word with
  | "HUP" | "SIGHUP" => 1
  | "INT" | "SIGINT" => 2
  | "QUIT" | "SIGQUIT" => 3
  | "ABRT" | "SIGABRT" => 6
  | "KILL" | "SIGKILL" => 9
  | "USR1" | "SIGUSR1" => 10
  | "SEGV" | "SIGSEGV" => 11
  | "USR2" | "SIGUSR2" => 12
  | "PIPE" | "SIGPIPE" => 13
  | "ALRM" | "SIGALRM" => 14
  | "TERM" | "SIGTERM" => 15
  | other => (intOf? other).getD 15

/-- Send a signal; the session itself ends by it. -/
def kill : Program := fun args _ s =>
  let (signal, targets) : Int × List String :=
    match args with
    | "-s" :: name :: rest => (signalNumber name, rest)
    | a :: rest =>
      if a.startsWith "-" then (signalNumber (String.ofList (a.toList.drop 1)), rest)
      else (15, a :: rest)
    | [] => (15, [])
  if targets.contains processNumber then
    if signal = 0 then ⟨s, [], 0⟩ else ⟨{ s with ended := some (-signal) }, [], 128 + signal⟩
  else complain s 1 "sh: 1: kill: No such process"

/-- Change the current directory. -/
def changeFolder : Program := fun args _ s =>
  let word := args.headD "/root"
  match s.files.item? (s.path word) with
  | some .folder => ⟨{ s with folder := (s.path word).normalize }, [], 0⟩
  | _ => complain s 2 ("sh: 1: cd: can't cd to " ++ word)

/-- A part of a pattern: one character, or as many as fit. -/
structure Atom where
  /-- The character; any one if there is none. -/
  char : Option Char
  repeated : Bool
  deriving DecidableEq, Inhabited

/-- A pattern of characters, points, stars and the marks of the two ends. -/
def atomsOf : List Char → List Atom
  | [] => []
  | '\\' :: c :: '*' :: rest => ⟨some c, true⟩ :: atomsOf rest
  | '\\' :: c :: rest => ⟨some c, false⟩ :: atomsOf rest
  | c :: '*' :: rest => ⟨if c = '.' then none else some c, true⟩ :: atomsOf rest
  | c :: rest => ⟨if c = '.' then none else some c, false⟩ :: atomsOf rest

/-- The length of the longest match in front of characters, which must reach the end if asked. -/
def matchLength? (toEnd : Bool) : List Atom → List Char → Option Nat
  | [], cs => if toEnd && !cs.isEmpty then none else some 0
  | a :: atoms, [] =>
    if a.repeated then matchLength? toEnd atoms [] else none
  | a :: atoms, c :: cs =>
    let fits := match a.char with | some x => x == c | none => true
    if a.repeated then
      match (if fits then matchLength? toEnd (a :: atoms) cs else none) with
      | some n => some (n + 1)
      | none => matchLength? toEnd atoms (c :: cs)
    else if fits then (matchLength? toEnd atoms cs).map (· + 1)
    else none
termination_by atoms cs => atoms.length + cs.length

/-- A pattern with the marks of its ends taken off. -/
structure Pattern where
  fromStart : Bool
  toEnd : Bool
  atoms : List Atom
  deriving DecidableEq, Inhabited

def Pattern.ofText (cs : List Char) : Pattern :=
  let fromStart := cs.head? == some '^'
  let cs := if fromStart then cs.drop 1 else cs
  let toEnd := cs.getLast? == some '$'
  ⟨fromStart, toEnd, atomsOf (if toEnd then cs.dropLast else cs)⟩

/-- The first match in characters: what stands before it, the match, and what follows. -/
def Pattern.find? (p : Pattern) (before : List Char) (cs : List Char) :
    Option (List Char × List Char × List Char) :=
  match matchLength? p.toEnd p.atoms cs with
  | some n => some (before, cs.take n, cs.drop n)
  | none =>
    match cs with
    | [] => none
    | c :: rest => if p.fromStart then none else p.find? (before ++ [c]) rest

/-- A replacement with the match put in. -/
def filled (found : List Char) : List Char → List Char
  | [] => []
  | '\\' :: c :: rest => c :: filled found rest
  | '&' :: rest => found ++ filled found rest
  | c :: rest => c :: filled found rest

/-- Replace the first match, or all matches, of a pattern in a line. -/
def replaceIn (p : Pattern) (by_ : List Char) (all : Bool) : Nat → List Char → List Char
  | 0, line => line
  | fuel + 1, line =>
    match p.find? [] line with
    | none => line
    | some (before, found, rest) =>
      let here := before ++ filled found by_
      if !all then here ++ rest
      else
        match found, rest with
        | [], [] => here
        | [], c :: rest => here ++ c :: replaceIn p by_ all fuel rest
        | _, rest =>
          if rest.isEmpty || p.fromStart then here ++ rest
          else here ++ replaceIn p by_ all fuel rest

/-- Characters up to a mark that no backslash precedes, and those after it. -/
def upTo (mark : Char) : List Char → List Char × List Char
  | [] => ([], [])
  | '\\' :: c :: rest =>
    let (front, others) := upTo mark rest
    (if c = mark then c :: front else '\\' :: c :: front, others)
  | c :: rest =>
    if c = mark then ([], rest)
    else
      let (front, others) := upTo mark rest
      (c :: front, others)

def linesOf (text : String) : List (List Char) :=
  let parts := text.toList.splitOnP (· == '\n')
  if parts.getLast? == some [] then parts.dropLast else parts

/-- Edit every line of the input by a substitution. -/
def edit : Program := fun args input s =>
  match args.filter fun a => a != "-e" && a != "-E" with
  | script :: _ =>
    match script.toList with
    | 's' :: mark :: rest =>
      let (pattern, rest) := upTo mark rest
      let (replacement, flags) := upTo mark rest
      let p := Pattern.ofText pattern
      say s (String.join ((linesOf (textOf input)).map fun l =>
        String.ofList (replaceIn p replacement (flags.contains 'g') (l.length + 1) l) ++ "\n"))
    | _ => complain s 1 ("sed: -e expression #1, char 1: unknown command: '" ++ script ++ "'")
  | [] => complain s 1 "Usage: sed [OPTION]... {script-only-if-no-other-script} [input-file]..."

/-- Keep the lines of the input, or of a file, that a pattern matches. -/
def search : Program := fun args input s =>
  let quiet := args.contains "-q"
  let words := args.filter fun a => !a.startsWith "-"
  let p := Pattern.ofText (words.headD "").toList
  let content : Except String Bytes := match words.drop 1 with
    | [] => .ok input
    | file :: _ => contentOf s file
  match content with
  | .error text => complain s 2 ("grep: " ++ text)
  | .ok bytes =>
    let kept := (linesOf (textOf bytes)).filter fun l => (p.find? [] l).isSome
    let chunks := if quiet then [] else
      [⟨false, bytesOf (String.join (kept.map fun l => String.ofList l ++ "\n"))⟩]
    ⟨s, chunks, if kept.isEmpty then 1 else 0⟩

/-- Keep the first lines of the input. -/
def firstLines : Program := fun args input s =>
  let count : Nat := match args with
    | "-n" :: n :: _ => (intOf? n).getD 10 |>.toNat
    | a :: _ =>
      if a.startsWith "-" then ((intOf? (String.ofList (a.toList.drop 1))).getD 10).toNat else 10
    | [] => 10
  say s (String.join (((linesOf (textOf input)).take count).map fun l => String.ofList l ++ "\n"))

/-- Show the variables. -/
def environment : Program := fun _ _ s =>
  say s (String.join (s.environment.map fun e => e.1 ++ "=" ++ e.2 ++ "\n"))

/-- Follow the words in front of a command that change its variables. -/
def changedVariables : List String → Table String String → Table String String × List String
  | [], vs => (vs, [])
  | a :: rest, vs =>
    if a = "-i" ∨ a = "-" then changedVariables rest []
    else
      let name := a.toList.takeWhile (· ≠ '=')
      if name.length = a.length then (vs, a :: rest)
      else
        changedVariables rest
          (Table.set (String.ofList name) (String.ofList (a.toList.drop (name.length + 1))) vs)

/-- Leave the session. -/
def exit : Program := fun args _ s =>
  let code := match args with
    | a :: _ => ((intOf? a).getD 2) % 256
    | [] => s.status
  ⟨{ s with ended := some code }, [], code⟩

/-- Set variables that later commands see. -/
def assign : Program := fun args _ s =>
  let set (vs : Table String String) (a : String) : Table String String :=
    let name := a.toList.takeWhile (· ≠ '=')
    if name.length = a.length then vs
    else Table.set (String.ofList name) (String.ofList (a.toList.drop (name.length + 1))) vs
  ⟨{ s with environment := args.foldl set s.environment }, [], 0⟩

/-- Change whether the session ends with a command that fails. -/
def settings : Program := fun args _ s =>
  args.foldl (fun ran a =>
    let s := ran.session
    if a.startsWith "-" && a.toList.contains 'e' then
      { ran with session := { s with strict := true } }
    else if a.startsWith "+" && a.toList.contains 'e' then
      { ran with session := { s with strict := false } }
    else ran) (⟨s, [], 0⟩ : Ran)

/-- Show the current directory. -/
def currentFolder : Program := fun _ _ s => say s (s.folder.text ++ "\n")

def nothing (status : Int) : Program := fun _ _ s => ⟨s, [], status⟩

/-- The programs that are found by their names alone. -/
def program? (name : String) : Option Program :=
  match name with
  | "true" => some (nothing 0)
  | "false" => some (nothing 1)
  | "echo" => some (echo false)
  | "printf" => some printf
  | "cat" => some cat
  | "pwd" => some currentFolder
  | "sleep" => some sleep
  | "test" => some (test false)
  | "[" => some (test true)
  | "mkdir" => some mkdir
  | "touch" => some touch
  | "rm" => some remove
  | "ls" => some list
  | "kill" => some kill
  | "sed" => some edit
  | "grep" => some search
  | "head" => some firstLines
  | _ => none

/-- The commands of the session itself, which come before the programs. -/
def builtin? (name : String) : Option Program :=
  match name with
  | ":" | "true" => some (nothing 0)
  | "false" => some (nothing 1)
  | "echo" => some (echo true)
  | "printf" => some printf
  | "pwd" => some currentFolder
  | "test" => some (test false)
  | "[" => some (test true)
  | "kill" => some kill
  | "cd" => some changeFolder
  | "exit" => some exit
  | "export" => some assign
  | "set" => some settings
  | "unset" => some fun args _ s =>
    ⟨{ s with environment := s.environment.filter fun e => !args.contains e.1 }, [], 0⟩
  | _ => none

end Rollout.Shell
