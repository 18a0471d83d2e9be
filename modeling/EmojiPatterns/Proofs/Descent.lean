import EmojiPatterns.Pattern.Draft

/-!
# Parsing by recursive descent over byte offsets

A parser that keeps no more than a byte offset into the source.  It cuts the rest of the source, and
the name or the digits of an escape, out of the text anew each time, and it gets stuck if a cut does
not fall between two characters, if an item of a class is no set of characters, or if its steps run
out.  Nothing in its form rules these out.  Main statement: a text can be cut at an offset exactly
if that is a boundary between characters (`cut?_eq_some_iff`).
-/

namespace EmojiPatterns

/-! ### Cutting at byte offsets -/

/-- The two parts of a text before and after a byte offset.  There are none if the offset is inside
of a character or behind the end. -/
def cut? : List Char → Nat → Option (List Char × List Char)
  | text, 0 => some ([], text)
  | [], _ + 1 => none
  | x :: rest, offset + 1 =>
    if x.utf8Size ≤ offset + 1 then
      (cut? rest (offset + 1 - x.utf8Size)).map fun (front, back) => (x :: front, back)
    else none

/-- The byte offset of the first `stop` in a text. -/
def offsetOf? (stop : Char) : List Char → Option Nat
  | [] => none
  | x :: rest => if x = stop then some 0 else (offsetOf? stop rest).map (x.utf8Size + ·)

theorem cut?_append (front back : List Char) :
    cut? (front ++ back) (utf8Length front) = some (front, back) := by
  induction front with
  | nil => cases back <;> rfl
  | cons x rest ih =>
    obtain ⟨length, hlength⟩ : ∃ length, utf8Length (x :: rest) = length + 1 :=
      Nat.exists_eq_add_one.mpr (Nat.add_pos_left x.utf8Size_pos _)
    rw [hlength, List.cons_append, cut?, ← hlength, utf8Length_cons, if_pos (Nat.le_add_right _ _),
      Nat.add_sub_cancel_left, ih]
    rfl

/-- A text can be cut just between two characters. -/
theorem cut?_eq_some_iff {text front back : List Char} {offset : Nat} :
    cut? text offset = some (front, back) ↔ front ++ back = text ∧ utf8Length front = offset := by
  constructor
  · intro hcut
    fun_induction cut? text offset generalizing front with
    | case1 text =>
      cases hcut
      exact ⟨rfl, rfl⟩
    | case2 => cases hcut
    | case3 x rest offset hle ih =>
      obtain ⟨⟨left, right⟩, hrest, heq⟩ := Option.map_eq_some_iff.mp hcut
      cases heq
      obtain ⟨rfl, hlength⟩ := ih hrest
      refine ⟨rfl, ?_⟩
      rw [utf8Length_cons, hlength]
      omega
    | case4 => cases hcut
  · rintro ⟨rfl, rfl⟩
    exact cut?_append front back

/-- A text can be cut at every place. -/
theorem Cursor.exists_cut?_eq_some {text : List Char} (c : Cursor text) :
    ∃ behind, cut? text c.offset = some (behind, c.ahead) := by
  obtain ⟨behind, htext, hoffset⟩ := c.split
  exact ⟨behind, cut?_eq_some_iff.mpr ⟨htext, hoffset⟩⟩

/-! ### The parser -/

namespace Descent

/-- Goes from one offset to another with a value, or fails; gives nothing at all if it is stuck. -/
def Parse (α : Type) : Type :=
  Nat → Option (Except PatternError (α × Nat))

namespace Parse

variable {α β : Type}

instance : Monad Parse where
  pure a := fun offset => some (.ok (a, offset))
  bind p f := fun offset =>
    match p offset with
    | none => none
    | some (.error error) => some (.error error)
    | some (.ok (a, offset)) => f a offset

/-- What must never be done. -/
def stuck : Parse α :=
  fun _ => none

def fail (fault : SyntaxFault) (start stop : Nat) : Parse α :=
  fun _ => some (.error (.malformed ⟨fault, ⟨start, stop⟩⟩))

/-- Takes over what was found out otherwise. -/
def lift (result : Except PatternError α) : Parse α :=
  fun offset => some (result.map fun a => (a, offset))

/-- The present offset. -/
def here : Parse Nat :=
  fun offset => some (.ok (offset, offset))

def move (bytes : Nat) : Parse Unit :=
  fun offset => some (.ok ((), offset + bytes))

/-- The front of a text, up to a byte offset in that text. -/
def front (text : List Char) (length : Nat) : Parse (List Char) :=
  fun offset => (cut? text length).map fun (front, _) => .ok (front, offset)

end Parse

open Parse

variable (source : List Char)

/-- What lies ahead, cut out of the source. -/
def rest : Parse (List Char) :=
  fun offset => (cut? source offset).map fun (_, back) => .ok (back, offset)

def peek : Parse (Option Char) := do
  return (← rest source).head?

/-- Goes over one character, if there is one. -/
def bump : Parse (Option Char) := do
  match ← peek source with
  | none => return none
  | some x =>
    move x.utf8Size
    return some x

/-- Goes over a word, if that is what lies ahead. -/
def tryConsume (word : List Char) : Parse Bool := do
  if word.isPrefixOf (← rest source) then
    move (utf8Length word)
    return true
  else return false

/-! ### Escapes -/

/-- What stands before the next closing brace, cut out of the source, and its length. -/
def braced (unclosed : SyntaxFault) (begin : Nat) : Parse (List Char × Nat) := do
  let text ← rest source
  match offsetOf? '\x7d' text with
  | none => fail unclosed begin (utf8Length source)
  | some length => return (← front text length, length)

/-- The name between braces behind the letter of an escape. -/
def propertyReference (begin : Nat) (negated : Bool) (enclosure : Enclosure) :
    Parse PropertyReference := do
  if ← tryConsume source ['\x7b'] then
    let (name, length) ← braced source .unclosedProperty begin
    if name = [] then fail .emptyPropertyName begin ((← here) + 1)
    else
      move (length + 1)
      return ⟨String.ofList name, negated, enclosure, ⟨begin, ← here⟩⟩
  else fail .propertyBrace begin (← here)

/-- The character between braces behind `u`. -/
def codePoint (begin : Nat) : Parse Char := do
  if ← tryConsume source ['\x7b'] then
    let (digits, length) ← braced source .unclosedCodePoint begin
    move (length + 1)
    match (Numeral.readCodePoint? digits).bind Unicode.scalar? with
    | some x => return x
    | none => fail .invalidCodePoint begin (← here)
  else fail .codePointBrace begin (← here)

def charEscape (begin : Nat) : Parse Char := do
  match ← bump source with
  | none => fail .trailingBackslash begin (← here)
  | some 'n' => return '\n'
  | some 'r' => return '\r'
  | some 't' => return '\t'
  | some 'u' => codePoint source begin
  | some x =>
    if Unicode.isAsciiPunctuation x then return x
    else fail (.unknownEscape x) begin (← here)

/-- Whether the letter that announces a name is a capital, if it is such a letter. -/
def capital? : Option Char → Option Bool
  | some 'p' => some false
  | some 'P' => some true
  | _ => none

variable (resolver : Resolver)

/-- What a named property stands for.  Resolving refuses those that may not stand where they do. -/
def propertyEscape (begin : Nat) (negated : Bool) (enclosure : Enclosure) : Parse Node := do
  let reference ← propertyReference source begin negated enclosure
  lift (Draft.resolve resolver reference)

/-- What follows a backslash outside of classes. -/
def escape (begin : Nat) : Parse Node := do
  match capital? (← peek source) with
  | some negated =>
    let _ ← bump source
    propertyEscape source resolver begin negated .topLevel
  | none => return .char (← charEscape source begin)

/-! ### Classes -/

/-- Whether a text begins with a hyphen that makes a range. -/
def startsRange (text : List Char) : Bool :=
  ['-'].isPrefixOf text && !(['-', ']'].isPrefixOf text)

/-- The upper end of a range that starts with `lo`, or `lo` itself if there is no range. -/
def upper (classBegin itemBegin : Nat) (negated : Bool) (lo : Char) : Parse Char := do
  if startsRange (← rest source) then
    let _ ← bump source
    let begin ← here
    match ← bump source with
    | none => fail .unclosedClass classBegin (← here)
    | some '\\' =>
      match capital? (← peek source) with
      | some capital =>
        let _ ← bump source
        let _ ← propertyEscape source resolver begin capital (.characterClass negated)
        fail .rangeToProperty itemBegin (← here)
      | none => charEscape source begin
    | some hi => return hi
  else return lo

/-- A set with the range that starts with `lo`. -/
def range (classBegin itemBegin : Nat) (set : CharSet) (lo : Char) : Parse CharSet := do
  let hi ← upper source resolver classBegin itemBegin set.negated lo
  if lo ≤ hi then return { set with chars := set.chars.insert ⟨lo, hi⟩ }
  else fail .rangeOutOfOrder itemBegin (← here)

/-- The items of a class up to its bracket, in a number of steps. -/
def classItems (classBegin : Nat) : Nat → CharSet → Parse Node
  | 0, _ => stuck
  | steps + 1, set => do
    let itemBegin ← here
    match ← bump source with
    | none => fail .unclosedClass classBegin (← here)
    | some ']' => return .set set
    | some '\\' =>
      match capital? (← peek source) with
      | some capital =>
        let _ ← bump source
        match ← propertyEscape source resolver itemBegin capital (.characterClass set.negated) with
        | .set inner =>
          classItems classBegin steps { set with properties := set.properties ++ inner.properties }
        | _ => stuck
      | none =>
        let lo ← charEscape source itemBegin
        classItems classBegin steps (← range source resolver classBegin itemBegin set lo)
    | some lo => classItems classBegin steps (← range source resolver classBegin itemBegin set lo)

/-- What follows the bracket of a class. -/
def charClass (begin steps : Nat) : Parse Node := do
  let negated ← tryConsume source ['^']
  classItems source resolver begin steps ⟨negated, .empty, []⟩

/-! ### Groups and branches -/

/-- What follows the parenthesis of a group, before its body. -/
def opening (begin : Nat) : Parse GroupKind := do
  if ← tryConsume source ['?', ':'] then return .plain
  else if ← tryConsume source ['?', '='] then return .look false
  else if ← tryConsume source ['?', '!'] then return .look true
  else if (← peek source) = some '?' then fail .unsupportedGroup begin ((← here) + 1)
  else return .plain

/-- What stands between the parentheses of a group, read by `body`. -/
def group (body : Parse Node) (begin : Nat) : Parse Node := do
  let kind ← opening source begin
  let node ← body
  if ← tryConsume source [')'] then return kind.wrap node
  else fail .unclosedGroup begin (← here)

/-- The quantifier that a sign stands for. -/
def quantifier? : Option Char → Option Quantifier
  | some '*' => some .anyNumber
  | some '+' => some .oneOrMore
  | some '?' => some .atMostOne
  | _ => none

/-- One atom.  It is only asked for where there is a character. -/
def atom (body : Parse Node) (steps : Nat) : Parse Node := do
  let begin ← here
  match ← bump source with
  | none => stuck
  | some '.' => return .anyChar
  | some '^' => return .textStart
  | some '$' => return .textEnd
  | some '(' => group source body begin
  | some '[' => charClass source resolver begin steps
  | some '\\' => escape source resolver begin
  | some x =>
    if (quantifier? (some x)).isSome then fail .nothingToRepeat begin (← here)
    else return .char x

/-- The signs behind an atom that begins at `begin`, in a number of steps. -/
def quantifiers (begin : Nat) : Nat → Node → Parse Node
  | 0, _ => stuck
  | steps + 1, node => do
    match quantifier? (← peek source) with
    | none => return node
    | some quantifier =>
      if node.repeatable then
        let _ ← bump source
        quantifiers begin steps (.iterate node quantifier)
      else fail .nothingToRepeat begin ((← here) + 1)

def quantified (body : Parse Node) (steps : Nat) : Parse Node := do
  let begin ← here
  let node ← atom source resolver body steps
  quantifiers source begin steps node

/-- The rest of a branch that already has some items, in a number of steps. -/
def branchItems (body : Parse Node) (bound : Nat) : Nat → List Node → Parse Node
  | 0, _ => stuck
  | steps + 1, nodes => do
    match ← peek source with
    | none | some '|' | some ')' => return Node.sequence nodes
    | some _ =>
      let node ← quantified source resolver body bound
      branchItems body bound steps (nodes ++ [node])

/-- The branches behind the first, in a number of steps. -/
def laterBranches (body : Parse Node) (bound : Nat) (first : Node) :
    Nat → List Node → Parse Node
  | 0, _ => stuck
  | steps + 1, later => do
    if ← tryConsume source ['|'] then
      let branch ← branchItems source resolver body bound bound []
      laterBranches body bound first steps (later ++ [branch])
    else return Node.choice first later

/-- An alternation, whose groups are nested at most so deep.  Each of its loops takes at most
`bound` steps. -/
def alternation (bound : Nat) : Nat → Parse Node
  | 0 => stuck
  | depth + 1 => do
    let first ← branchItems source resolver (alternation bound depth) bound bound []
    laterBranches source resolver (alternation bound depth) bound first bound []

/-- The tree of a whole source.  Only a parenthesis can be left over. -/
def parse : Parse Node := do
  let bound := source.length + 1
  let node ← alternation source resolver bound bound
  if (← here) < utf8Length source then fail .unmatchedClose (← here) ((← here) + 1)
  else return node

/-- What compiling gives, if the parser does not get stuck. -/
def compile? : Option (Except PatternError Node) :=
  (parse source resolver 0).map fun result => result.map (·.1)

end Descent

end EmojiPatterns
