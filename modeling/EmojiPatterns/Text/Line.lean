import EmojiPatterns.Unicode.WhiteSpace

/-!
# Lines and fields

How a text is cut into lines, a line into fields and a field into words.  A line ends at a line
feed, and a carriage return right before that line feed belongs to the line's end.
-/

namespace EmojiPatterns

/-- A line without the carriage return that may stand at its end. -/
def dropReturn (line : List Char) : List Char :=
  if line.getLast? = some '\r' then line.dropLast else line

/-- The lines of a text.  Only what a line feed closes loses its carriage return, and what
follows the last line feed is a line if it is not empty. -/
def linesOf (text : List Char) : List (List Char) :=
  let pieces := text.splitOn '\n'
  pieces.dropLast.map dropReturn ++ pieces.getLast?.toList.filter (· ≠ [])

/-- A text without white space at its start. -/
def trimStart (text : List Char) : List Char :=
  text.dropWhile Unicode.isWhiteSpace

/-- A text without white space at its end. -/
def trimEnd (text : List Char) : List Char :=
  (text.reverse.dropWhile Unicode.isWhiteSpace).reverse

/-- A text without white space at either end. -/
def trim (text : List Char) : List Char :=
  trimEnd (trimStart text)

/-- The parts of a text between its runs of white space. -/
def wordsOf (text : List Char) : List (List Char) :=
  (text.splitOnP Unicode.isWhiteSpace).filter (· ≠ [])

/-- What stands before and after the first `..`. -/
def splitAtDots? : List Char → Option (List Char × List Char)
  | [] => none
  | '.' :: '.' :: rest => some ([], rest)
  | c :: rest => (splitAtDots? rest).map fun (front, back) => (c :: front, back)

/-- What follows `word` at the start of a text. -/
def dropPrefix? : (word text : List Char) → Option (List Char)
  | [], text => some text
  | _ :: _, [] => none
  | x :: word, y :: text => if x = y then dropPrefix? word text else none

theorem dropPrefix?_eq_some_iff {word text rest : List Char} :
    dropPrefix? word text = some rest ↔ text = word ++ rest := by
  fun_induction dropPrefix? word text with
  | case1 text => simp [eq_comm]
  | case2 => simp
  | case3 word y text ih => simp [ih]
  | case4 x word y text hne => simp [Ne.symm hne]

example : linesOf "a\r\n\r\r\nb\r".toList = ["a".toList, "\r".toList, "b\r".toList] := by decide

example : splitAtDots? "1...2".toList = some ("1".toList, ".2".toList) := by decide

end EmojiPatterns
