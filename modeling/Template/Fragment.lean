import Template.Text.Blank
import Template.Text.Quoted

/-!
# Source fragments

A fragment is a piece of JavaScript source that is carried through unchanged, so
all that has to be known of it is where its brackets, strings, template strings
and comments lie. One character is read at a time with one character of
lookahead; the state remembers what the character stands in and which brackets
are open.

Two questions are answered from the reading: where the bracket that opens a
fragment is closed (`matchingClose?`), and how a fragment falls apart at a
separator outside all brackets, strings and comments (`topLevelParts?`).
-/

namespace Template.Fragment

open Template.Text

/-- What the next character stands in. -/
inductive Mode where
  | code
  | quoted (mark : Char)
  | template
  | lineComment
  | blockComment
  deriving DecidableEq, Repr

/-- An open bracket: one that waits for its closing character, or a substitution
in a template string, whose closing brace leads back into the string. -/
inductive Frame where
  | bracket (closer : Char)
  | substitution
  deriving DecidableEq, Repr

/-- The state between two characters. When `held` is set the next character
belongs to the token just read and is passed over. -/
structure State where
  mode : Mode := .code
  stack : List Frame := []
  held : Bool := false
  deriving DecidableEq, Repr

/-- What a character turns out to be: code that counts, a part of a string, a
comment or one of their delimiters, or a closing bracket that nothing waits for. -/
inductive Reading where
  | visible (next : State)
  | hidden (next : State)
  | broken
  deriving DecidableEq, Repr

/-- The closing bracket of an opening one. -/
def closer? (char : Char) : Option Char :=
  if char == '(' then some ')'
  else if char == '[' then some ']'
  else if char == '{' then some '}'
  else none

/-- Whether a character is a closing bracket. -/
def isCloser (char : Char) : Bool :=
  char == ')' || char == ']' || char == '}'

namespace State

/-- Read a closing bracket in code. -/
def close (state : State) (char : Char) : Reading :=
  match state.stack with
  | [] => .broken
  | .bracket closer :: stack =>
      if closer == char then .visible { state with stack } else .broken
  | .substitution :: stack =>
      if char == '}' then .hidden { state with mode := .template, stack } else .broken

/-- Read a character in code. -/
def readCode (state : State) (char : Char) (next : Option Char) : Reading :=
  if char == doubleQuote || char == singleQuote then
    .hidden { state with mode := .quoted char }
  else if char == backtick then
    .hidden { state with mode := .template }
  else if char == '/' && next == some '/' then
    .hidden { state with mode := .lineComment, held := true }
  else if char == '/' && next == some '*' then
    .hidden { state with mode := .blockComment, held := true }
  else if isCloser char then
    state.close char
  else
    match closer? char with
    | some closer => .visible { state with stack := .bracket closer :: state.stack }
    | none => .visible state

/-- The state after a character of a quoted string. -/
def readQuoted (state : State) (mark char : Char) : State :=
  if char == backslash then { state with held := true }
  else if char == mark then { state with mode := .code }
  else state

/-- The state after a character of a template string. -/
def readTemplate (state : State) (char : Char) (next : Option Char) : State :=
  if char == backslash then { state with held := true }
  else if char == backtick then { state with mode := .code }
  else if char == '$' && next == some '{' then
    { mode := .code, stack := .substitution :: state.stack, held := true }
  else state

/-- Read one character, knowing the one that follows it. -/
def read (state : State) (char : Char) (next : Option Char) : Reading :=
  if state.held then .hidden { state with held := false }
  else
    match state.mode with
    | .code => state.readCode char next
    | .quoted mark => .hidden (state.readQuoted mark char)
    | .template => .hidden (state.readTemplate char next)
    | .lineComment =>
        .hidden (if char == '\n' then { state with mode := .code } else state)
    | .blockComment =>
        .hidden (if char == '*' && next == some '/' then
          { state with mode := .code, held := true } else state)

end State

/-- Read on until a closing bracket leaves no bracket open: the text before that
bracket and the text after it. -/
def untilClose (state : State) : List Char → Option (List Char × List Char)
  | [] => none
  | char :: rest =>
    match state.read char rest.head? with
    | .broken => none
    | .hidden next => (untilClose next rest).map fun (before, after) => (char :: before, after)
    | .visible next =>
        if next.stack.isEmpty && isCloser char then some ([], rest)
        else (untilClose next rest).map fun (before, after) => (char :: before, after)

/-- For a text that starts with an opening bracket, the text up to the bracket
that closes it, and the text after that bracket. -/
def spanClose? (text : List Char) : Option (List Char × List Char) :=
  match text with
  | [] => none
  | opener :: _ => if (closer? opener).isSome then untilClose {} text else none

/-- The byte position of the bracket that closes the one a source starts with. -/
def matchingClose? (source : String) : Option Nat :=
  (spanClose? source.toList).map fun (before, _) => byteSize before

/-- Put a character in front of the first part. -/
def consPart (char : Char) : List (List Char) → List (List Char)
  | [] => [[char]]
  | part :: parts => (char :: part) :: parts

/-- Read on to the end, cutting at each separator that stands outside all
brackets; `none` if a closing bracket does not fit. -/
def partsFrom (separator : Char) (state : State) : List Char → Option (List (List Char))
  | [] => some [[]]
  | char :: rest =>
    match state.read char rest.head? with
    | .broken => none
    | .hidden next => (partsFrom separator next rest).map (consPart char)
    | .visible next =>
        if next.stack.isEmpty && char == separator then
          (partsFrom separator next rest).map ([] :: ·)
        else (partsFrom separator next rest).map (consPart char)

/-- The parts of a source between the separators outside all brackets, strings
and comments; `none` if a closing bracket does not fit. -/
def topLevelParts? (separator : Char) (source : String) : Option (List String) :=
  (partsFrom separator {} source.toList).map (·.map String.ofList)

/-- The sources of the elements of an array literal; `none` if the source is not
one array literal. Holes and a trailing comma give no element. -/
def arrayElements? (source : String) : Option (List String) :=
  match strip source.toList with
  | '[' :: rest =>
    match untilClose {} ('[' :: rest) with
    | some (_ :: inside, []) =>
        (partsFrom ',' {} inside).map fun parts =>
          ((parts.map strip).filter fun part => !part.isEmpty).map String.ofList
    | _ => none
  | _ => none

end Template.Fragment
