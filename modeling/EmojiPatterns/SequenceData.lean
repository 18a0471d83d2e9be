import EmojiPatterns.Table
import EmojiPatterns.Text.Line

/-!
# Emoji sequence data files

A data file has one entry on a line,

    code points ; property ; description # comment

where the first field is a sequence of hexadecimal code points with blanks between them or a range
`A..B`, which stands for each code point in it.  A comment `# Version: 15.1` gives the version of
the data.  Files are added to `SequenceData` line by line; the first fault ends the file, and what
the lines before it gave is kept.
-/

namespace EmojiPatterns

/-- What data files have listed so far. -/
structure SequenceData where
  version : Option Version
  lists : NamedLists
deriving DecidableEq

/-- What a line of a data file says. -/
inductive DataLine where
  | blank
  | header (version : Version)
  | entry (name : String) (codePoints : List Char)

namespace DataLine

/-- The text after `# Version:`, if a line starts with that. -/
def headerValue? : List Char → Option (List Char)
  | '#' :: rest => (dropPrefix? "Version:".toList (trimStart rest)).map trim
  | _ => none

/-- The trimmed fields of a line, its comment left out. -/
def fields (line : List Char) : List (List Char) :=
  ((line.takeWhile (· ≠ '#')).splitOn ';').map trim

/-- Reads a line.  A version is looked for on the whole line, comment included. -/
def read (line : List Char) : Except LineFault DataLine :=
  match headerValue? line with
  | some value =>
    match Version.read? value with
    | some version => .ok (.header version)
    | none => .error (.version (String.ofList value))
  | none =>
    if trim (line.takeWhile (· ≠ '#')) = [] then .ok .blank
    else
      match fields line with
      | codePoints :: name :: _ =>
        if name = [] then .error .name else .ok (.entry (String.ofList name) codePoints)
      | _ => .error .fields

end DataLine

/-- The sequences that a field of code points adds, and the fault that ended its reading. -/
structure FieldReading where
  sequences : List Sequence
  failure : Option (LineFault ⊕ SequenceError)

namespace FieldReading

/-- The code point that a hexadecimal text stands for. -/
def codePoint (text : List Char) : Except LineFault Nat :=
  match Numeral.readCodePoint? text with
  | some codePoint => .ok codePoint
  | none => .error (.codePoint (String.ofList text))

/-- The code points that words stand for. -/
def codePoints : List (List Char) → Except LineFault (List Nat)
  | [] => .ok []
  | word :: rest =>
    match codePoint word with
    | .error fault => .error fault
    | .ok first => (codePoints rest).map (first :: ·)

/-- The single code points of a range, up to the first that is no scalar value. -/
def range (lo hi : Nat) : FieldReading :=
  let stop := min (Unicode.firstInvalid lo) (hi + 1)
  { sequences := (List.range' lo (stop - lo)).filterMap fun codePoint =>
      (Unicode.scalar? codePoint).map Sequence.singleton
    failure :=
      if Unicode.firstInvalid lo ≤ hi then
        some (.inr (.invalidCodePoint (Unicode.firstInvalid lo)))
      else none }

/-- Reads a field that is a range if it holds `..`, and one sequence if not. -/
def ofField (field : List Char) : FieldReading :=
  match splitAtDots? field with
  | some (lo, hi) =>
    match codePoint (trim lo), codePoint (trim hi) with
    | .error fault, _ => ⟨[], some (.inl fault)⟩
    | .ok _, .error fault => ⟨[], some (.inl fault)⟩
    | .ok lo, .ok hi => if hi < lo then ⟨[], some (.inl (.range lo hi))⟩ else range lo hi
  | none =>
    match codePoints (wordsOf field) with
    | .error fault => ⟨[], some (.inl fault)⟩
    | .ok codePoints =>
      match Sequence.ofCodePoints codePoints with
      | .error error => ⟨[], some (.inr error)⟩
      | .ok sequence => ⟨[sequence], none⟩

end FieldReading

namespace SequenceData

def empty : SequenceData :=
  ⟨none, .empty⟩

/-- The sequences listed for a name, in the order of the files. -/
def sequences? (data : SequenceData) (name : String) : Option (List Sequence) :=
  data.lists.get? name

/-- Takes note of a version, which has to be that of the data so far. -/
def declare (data : SequenceData) (found : Version) : SequenceData × Option DataError :=
  match data.version with
  | none => ({ data with version := some found }, none)
  | some expected =>
    if expected = found then (data, none) else (data, some (.versionMismatch expected found))

/-- Adds an entry.  Its name is listed even if its code points cannot be read, and of a range the
part before an invalid code point is kept. -/
def addEntry (data : SequenceData) (number : Nat) (name : String) (field : List Char) :
    SequenceData × Option DataError :=
  let reading := FieldReading.ofField field
  ({ data with lists := data.lists.append name reading.sequences },
    reading.failure.map fun
      | .inl fault => .line number fault
      | .inr error => .badSequence error)

/-- Adds the line with a given number. -/
def addLine (data : SequenceData) (number : Nat) (line : List Char) :
    SequenceData × Option DataError :=
  match DataLine.read line with
  | .error fault => (data, some (.line number fault))
  | .ok .blank => (data, none)
  | .ok (.header version) => data.declare version
  | .ok (.entry name codePoints) => data.addEntry number name codePoints

/-- Adds lines that are numbered from `number` on, up to the first with a fault. -/
def addLines (data : SequenceData) (number : Nat) :
    List (List Char) → SequenceData × Option DataError
  | [] => (data, none)
  | line :: rest =>
    match data.addLine number line with
    | (data, none) => data.addLines (number + 1) rest
    | (data, some error) => (data, some error)

/-- Adds the lines of a file, and tells what the first fault was. -/
def addFile (data : SequenceData) (text : List Char) : SequenceData × Option DataError :=
  data.addLines 1 (linesOf text)

/-- The data of one file without a fault. -/
def ofFile (text : List Char) : Except DataError SequenceData :=
  match empty.addFile text with
  | (data, none) => .ok data
  | (_, some error) => .error error

/-- The table of the data, which may not be for another version than the one asked for. -/
def table (data : SequenceData) (version : Version) : Except DataError Table :=
  match data.version with
  | none => Table.ofLists data.lists version
  | some found =>
    if found = version then Table.ofLists data.lists version
    else .error (.versionMismatch version found)

end SequenceData

end EmojiPatterns
