/-!
# Shell scripts

A script is read in two steps: its characters become words, operators and redirections, and these
become commands joined by pipes, conditions and sequence. Words keep their quotes; they are expanded
when the command runs.

**Types.** `Token`, `Redirect`, `Script`.

**Operations.** `tokens`, `Script.ofText`.
-/

namespace Rollout.Shell

/-- A redirection of an output or of the input. -/
inductive Redirect
  /-- The input comes from a file. -/
  | input (word : List Char)
  /-- An output goes to a file, at its end if it is to be appended. -/
  | output (channel : Nat) (append : Bool) (word : List Char)
  /-- An output goes where another one goes. -/
  | duplicate (channel : Nat) (word : List Char)
  deriving DecidableEq, Inhabited

/-- A part of a script. -/
inductive Token
  | word (raw : List Char)
  | operator (text : String)
  | redirect (channel : Nat) (mark : String)
  deriving DecidableEq, Inhabited

/-- Why a script cannot be read. -/
inductive SyntaxFault
  | unterminated
  | unexpected (text : String)
  deriving DecidableEq, Inhabited

def SyntaxFault.message : SyntaxFault → String
  | .unterminated => "Syntax error: Unterminated quoted string"
  | .unexpected text => "Syntax error: " ++ text ++ " unexpected"

/-- The characters up to the one that closes what has been opened, and those after it; quotes and
nested openings are stepped over. -/
def closing (opening close : Char) : Nat → Nat → List Char → Option (List Char × List Char)
  | 0, _, _ => none
  | _, _, [] => none
  | fuel + 1, depth, c :: rest =>
    let more (front : List Char) (depth : Nat) (rest : List Char) :
        Option (List Char × List Char) :=
      (closing opening close fuel depth rest).map fun r => (front ++ r.1, r.2)
    if c = '\\' then
      match rest with
      | d :: rest => more [c, d] depth rest
      | [] => none
    else if c = '\'' then
      let body := rest.takeWhile (· ≠ '\'')
      more (c :: body ++ ['\'']) depth (rest.drop (body.length + 1))
    else if c = close then
      if depth = 0 then some ([], rest) else more [c] (depth - 1) rest
    else if c = opening then more [c] (depth + 1) rest
    else more [c] depth rest

/-- A quoted part of a word up to its closing quote, which is kept, and what follows it. -/
def quotedPart : Nat → List Char → Option (List Char × List Char)
  | 0, _ => none
  | _, [] => none
  | fuel + 1, c :: rest =>
    if c = '"' then some ([c], rest)
    else if c = '\\' then
      match rest with
      | d :: rest => (quotedPart fuel rest).map fun r => (c :: d :: r.1, r.2)
      | [] => none
    else if c = '$' ∧ rest.head? = some '(' then
      match closing '(' ')' fuel 0 (rest.drop 1) with
      | some (body, rest) =>
        (quotedPart fuel rest).map fun r => (c :: '(' :: body ++ ')' :: r.1, r.2)
      | none => none
    else (quotedPart fuel rest).map fun r => (c :: r.1, r.2)

def endsWord (c : Char) : Bool := " \t\n;&|<>()".toList.contains c

/-- The rest of a word with its quotes, and what follows the word. -/
def wordPart : Nat → List Char → Option (List Char × List Char)
  | 0, cs => some ([], cs)
  | _, [] => some ([], [])
  | fuel + 1, c :: rest =>
    let more (front : List Char) (rest : List Char) : Option (List Char × List Char) :=
      (wordPart fuel rest).map fun r => (front ++ r.1, r.2)
    if c = '\\' then
      match rest with
      | d :: rest => more [c, d] rest
      | [] => some ([c], [])
    else if c = '\'' then
      let body := rest.takeWhile (· ≠ '\'')
      if body.length = rest.length then none
      else more (c :: body ++ ['\'']) (rest.drop (body.length + 1))
    else if c = '"' then
      match quotedPart (rest.length + 1) rest with
      | some (body, rest) => more (c :: body) rest
      | none => none
    else if c = '$' ∧ rest.head? = some '(' then
      match closing '(' ')' (rest.length + 1) 0 (rest.drop 1) with
      | some (body, rest) => more (c :: '(' :: body ++ [')']) rest
      | none => none
    else if c = '$' ∧ rest.head? = some '\x7b' then
      match closing '\x7b' '\x7d' (rest.length + 1) 0 (rest.drop 1) with
      | some (body, rest) => more (c :: '\x7b' :: body ++ ['\x7d']) rest
      | none => none
    else if endsWord c then some ([], c :: rest)
    else more [c] rest

/-- The operators, the longer ones first. -/
def operators : List String := ["&&", "||", ";;", ";", "&", "|", "(", ")", "\n"]

/-- The marks of redirections, the longer ones first. -/
def redirectMarks : List String := [">>", ">&", "<&", ">|", ">", "<"]

/-- The first of some texts with which characters begin, and what follows it. -/
def leading? (texts : List String) (cs : List Char) : Option (String × List Char) :=
  texts.findSome? fun t => if t.toList.isPrefixOf cs then some (t, cs.drop t.length) else none

def tokens : Nat → List Char → Except SyntaxFault (List Token)
  | 0, _ => .ok []
  | _, [] => .ok []
  | fuel + 1, c :: rest =>
    if c = ' ' ∨ c = '\t' then tokens fuel rest
    else if c = '\\' ∧ rest.head? = some '\n' then tokens fuel (rest.drop 1)
    else if c = '#' then tokens fuel (rest.dropWhile (· ≠ '\n'))
    else
      let digits := (c :: rest).takeWhile Char.isDigit
      let after := (c :: rest).drop digits.length
      match leading? redirectMarks after with
      | some (mark, rest) => do
        let others ← tokens fuel rest
        let channel := if digits.isEmpty then (if mark.startsWith "<" then 0 else 1)
          else digits.foldl (fun n d => n * 10 + (d.toNat - 48)) 0
        return .redirect channel mark :: others
      | none =>
        match leading? operators (c :: rest) with
        | some (op, rest) => do
          let others ← tokens fuel rest
          return .operator op :: others
        | none =>
          match wordPart (rest.length + 2) (c :: rest) with
          | none => .error .unterminated
          | some (raw, rest) => do
            let others ← tokens fuel rest
            return .word raw :: others

/-- A script. -/
inductive Script
  | empty
  | simple (words : List (List Char)) (redirects : List Redirect)
  | pipe (left right : Script)
  | both (left right : Script)
  | either (left right : Script)
  | sequence (left right : Script)
  | negate (body : Script)
  | group (body : Script) (redirects : List Redirect)
  | subshell (body : Script) (redirects : List Redirect)
  | branch (condition yes no : Script)
  deriving Inhabited

namespace Script

/-- The words that end a list of commands. -/
def enders : List String := ["\x7d", "then", "elif", "else", "fi", "do", "done"]

/-- Whether a list of commands ends in front of tokens. -/
def atEnd : List Token → Bool
  | [] => true
  | .operator ")" :: _ => true
  | .word raw :: _ => enders.contains (String.ofList raw)
  | _ => false

/-- The text of the first token, as complaints name it. -/
def shown : List Token → String
  | .word raw :: _ => "word (\"" ++ String.ofList raw ++ "\")"
  | .operator "\n" :: _ => "newline"
  | .operator op :: _ => "\"" ++ op ++ "\""
  | .redirect .. :: _ => "redirection"
  | [] => "end of file"

/-- The redirections in front of tokens. -/
def redirects : Nat → List Token → Except SyntaxFault (List Redirect × List Token)
  | fuel + 1, .redirect channel mark :: .word raw :: rest => do
    let (others, rest) ← redirects fuel rest
    let r : Redirect :=
      if mark = "<" then .input raw
      else if mark = ">&" ∨ mark = "<&" then .duplicate channel raw
      else .output channel (mark == ">>") raw
    return (r :: others, rest)
  | _, .redirect .. :: rest => .error (.unexpected (shown rest))
  | _, ts => .ok ([], ts)

/-- The words and redirections of a simple command. -/
def simpleParts : Nat → List Token →
    Except SyntaxFault (List (List Char) × List Redirect × List Token)
  | 0, ts => .ok ([], [], ts)
  | fuel + 1, .word raw :: rest => do
    let (words, rs, rest) ← simpleParts fuel rest
    return (raw :: words, rs, rest)
  | fuel + 1, .redirect channel mark :: rest => do
    let (some_, rest) ← redirects 1 (.redirect channel mark :: rest)
    let (words, rs, rest) ← simpleParts fuel rest
    return (words, some_ ++ rs, rest)
  | _, ts => .ok ([], [], ts)

def expect (word : String) : List Token → Except SyntaxFault (List Token)
  | .word raw :: rest =>
    if String.ofList raw = word then .ok rest else .error (.unexpected (shown (.word raw :: rest)))
  | ts => .error (.unexpected (shown ts))

mutual

/-- A list of commands. -/
def readList : Nat → List Token → Except SyntaxFault (Script × List Token)
  | 0, ts => .ok (.empty, ts)
  | fuel + 1, ts =>
    match ts with
    | .operator "\n" :: rest => readList fuel rest
    | _ =>
      if atEnd ts then .ok (.empty, ts)
      else do
        let (first, rest) ← readChain fuel ts
        match rest with
        | .operator ";" :: more | .operator "\n" :: more | .operator "&" :: more =>
          let (others, rest) ← readList fuel more
          return (match others with | .empty => first | others => .sequence first others, rest)
        | rest => return (first, rest)

/-- Pipelines joined by conditions, from the left. -/
def readChain : Nat → List Token → Except SyntaxFault (Script × List Token)
  | 0, ts => .ok (.empty, ts)
  | fuel + 1, ts => do
    let (first, rest) ← readPipeline fuel ts
    readConditions fuel first rest

/-- The conditions after a pipeline. -/
def readConditions : Nat → Script → List Token → Except SyntaxFault (Script × List Token)
  | 0, left, ts => .ok (left, ts)
  | fuel + 1, left, ts =>
    match ts with
    | .operator "&&" :: rest => do
      let (right, rest) ← readPipeline fuel (rest.dropWhile (· == .operator "\n"))
      readConditions fuel (.both left right) rest
    | .operator "||" :: rest => do
      let (right, rest) ← readPipeline fuel (rest.dropWhile (· == .operator "\n"))
      readConditions fuel (.either left right) rest
    | ts => .ok (left, ts)

/-- Commands joined by pipes. -/
def readPipeline : Nat → List Token → Except SyntaxFault (Script × List Token)
  | 0, ts => .ok (.empty, ts)
  | fuel + 1, ts =>
    match ts with
    | .word ['!'] :: rest => do
      let (body, rest) ← readPipeline fuel rest
      return (.negate body, rest)
    | ts => do
      let (first, rest) ← readCommand fuel ts
      match rest with
      | .operator "|" :: rest =>
        let (others, rest) ← readPipeline fuel (rest.dropWhile (· == .operator "\n"))
        return (.pipe first others, rest)
      | rest => return (first, rest)

def readCommand : Nat → List Token → Except SyntaxFault (Script × List Token)
  | 0, ts => .ok (.empty, ts)
  | fuel + 1, ts =>
    match ts with
    | .operator "(" :: rest => do
      let (body, rest) ← readList fuel rest
      match rest with
      | .operator ")" :: rest =>
        let (rs, rest) ← redirects rest.length rest
        return (.subshell body rs, rest)
      | rest => .error (.unexpected (shown rest))
    | .word ['\x7b'] :: rest => do
      let (body, rest) ← readList fuel rest
      let rest ← expect "\x7d" rest
      let (rs, rest) ← redirects rest.length rest
      return (.group body rs, rest)
    | .word ['i', 'f'] :: rest => readBranch fuel rest
    | ts => do
      let (words, rs, rest) ← simpleParts ts.length ts
      if words.isEmpty && rs.isEmpty then .error (.unexpected (shown ts))
      else return (.simple words rs, rest)

/-- A branch after its first word. -/
def readBranch : Nat → List Token → Except SyntaxFault (Script × List Token)
  | 0, ts => .ok (.empty, ts)
  | fuel + 1, ts => do
    let (condition, rest) ← readList fuel ts
    let rest ← expect "then" rest
    let (yes, rest) ← readList fuel rest
    match rest with
    | .word ['e', 'l', 'i', 'f'] :: rest =>
      let (no, rest) ← readBranch fuel rest
      return (.branch condition yes no, rest)
    | .word ['e', 'l', 's', 'e'] :: rest =>
      let (no, rest) ← readList fuel rest
      let rest ← expect "fi" rest
      return (.branch condition yes no, rest)
    | rest =>
      let rest ← expect "fi" rest
      return (.branch condition yes .empty, rest)

end

/-- The script that a text holds. -/
def ofText (cs : List Char) : Except SyntaxFault Script := do
  let ts ← tokens (cs.length + 1) cs
  let (script, rest) ← readList (8 * (ts.length + 1)) ts
  match rest with
  | [] => return script
  | rest => .error (.unexpected (shown rest))

end Script

end Rollout.Shell
