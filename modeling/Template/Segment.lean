import Template.Fragment
import Template.Program

/-!
# Interpolated text

The text of a template may hold markers: `#` or `!` with a fragment in braces. A
backslash in front makes a marker plain text. `Segment.ofText` cuts a text into
segments, and `Segment.sentinels` turns the segments into sentinels: plain text
and `#` expressions gather in one text, and each `!` expression is a sentinel of
its own.
-/

namespace Template

/-- The two kinds of markers: the value is escaped, or put out as it is. -/
inductive Sigil where
  | escaped
  | raw
  deriving DecidableEq, Repr

namespace Sigil

/-- The character of a marker. -/
def char : Sigil → Char
  | .escaped => '#'
  | .raw => '!'

/-- The marker that a character begins. -/
def ofChar? (char : Char) : Option Sigil :=
  if char == '#' then some .escaped
  else if char == '!' then some .raw
  else none

/-- The marker that a text starts with: its character and an opening brace. -/
def ofText? : List Char → Option Sigil
  | char :: '{' :: _ => ofChar? char
  | _ => none

end Sigil

/-- A segment of an interpolated text. -/
inductive Segment where
  /-- Characters without a marker. -/
  | chunk (text : List Char)
  /-- A marker that a backslash makes plain text. -/
  | guarded (sigil : Sigil)
  /-- A marker with the fragment between its braces. -/
  | marked (sigil : Sigil) (raw : List Char)
  /-- The rest of the text, from a marker whose brace is not closed. -/
  | unclosed (text : List Char)
  deriving DecidableEq, Repr

namespace Segment

/-- Put a character in front of segments, in a chunk. -/
def consChar (char : Char) : List Segment → List Segment
  | .chunk text :: rest => .chunk (char :: text) :: rest
  | segments => .chunk [char] :: segments

/-- Cut a text into segments, passing over the first `skipped` characters. -/
def segmentsFrom : (skipped : Nat) → List Char → List Segment
  | _, [] => []
  | skipped + 1, _ :: rest => segmentsFrom skipped rest
  | 0, char :: rest =>
    match Sigil.ofText? (char :: rest) with
    | some sigil =>
      match Fragment.spanClose? rest with
      | some (before, _) => .marked sigil before.tail :: segmentsFrom (before.length + 1) rest
      | none => [.unclosed (char :: rest)]
    | none =>
      match (if char == Text.backslash then Sigil.ofText? rest else none) with
      | some sigil => .guarded sigil :: segmentsFrom 2 rest
      | none => consChar char (segmentsFrom 0 rest)

/-- The segments of a text. -/
def ofText (text : List Char) : List Segment := segmentsFrom 0 text

/-- A text as a sentinel, unless it is empty. -/
def flush (buffer : Concatenation) : List Sentinel :=
  if buffer.isEmpty then [] else [.text buffer]

/-- The sentinels of segments, where `buffer` is the text gathered so far. A
fragment of blanks only gives nothing. -/
def gather (buffer : Concatenation) : List Segment → List Sentinel
  | [] => flush buffer
  | .chunk text :: rest => gather (buffer.appendText (String.ofList text)) rest
  | .guarded sigil :: rest =>
      gather (buffer.appendText (String.ofList [sigil.char, '{'])) rest
  | .unclosed text :: rest => gather (buffer.appendText (String.ofList text)) rest
  | .marked sigil raw :: rest =>
      let source := Text.strip raw
      if source.isEmpty then gather buffer rest
      else
        match sigil with
        | .escaped => gather (buffer.appendExpr (String.ofList source)) rest
        | .raw =>
            flush buffer ++
              .unescape (String.ofList source) :: gather Concatenation.start rest

/-- The sentinels of a list of segments, at least one. -/
def sentinels (segments : List Segment) : List Sentinel :=
  match gather Concatenation.start segments with
  | [] => [.text Concatenation.start]
  | sentinels => sentinels

/-- The sentinels of an interpolated text. -/
def sentinelsOfText (text : String) : List Sentinel :=
  sentinels (ofText text.toList)

end Segment

end Template
