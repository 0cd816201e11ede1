/-!
# Placed characters

The text of a document as a list of characters with their places, which the layout rules of block
collections need. Every line break becomes a line feed on the way, except the Unicode line and
paragraph separators, which stay what they are.
-/

namespace PolicyGraph.Yaml

/-- A character with its place: the count of characters, lines and columns before it. -/
structure Glyph where
  char : Char
  index : Nat
  line : Nat
  column : Nat
  deriving DecidableEq, Repr, Inhabited

/-- The byte order mark, which counts for nothing at the start of a line. -/
def byteOrderMark : Char := '\uFEFF'

/-- The characters a document may hold: the printable ones, tab, line breaks and the byte order
mark. -/
def isAllowed (c : Char) : Bool :=
  let n := c.toNat
  n == 0x09 || n == 0x0A || n == 0x0D || (0x20 ≤ n && n ≤ 0x7E) || n == 0x85 ||
    (0xA0 ≤ n && n ≤ 0xD7FF) || (0xE000 ≤ n && n ≤ 0xFFFD) || 0x10000 ≤ n

/-- A line break, once the forms of a line feed have become one. -/
def isBreak (c : Char) : Bool :=
  c == '\n' || c == '\u2028' || c == '\u2029'

/-- A space or a tab. -/
def isSpacing (c : Char) : Bool :=
  c == ' ' || c == '\t'

/-- Whether a character can end a word: spacing or a line break. -/
def endsWord (c : Char) : Bool :=
  isSpacing c || isBreak c

/-- Carriage returns, with or without a line feed after them, and next-line characters become line
feeds. -/
def unifyBreaks : List Char → List Char
  | '\r' :: '\n' :: cs => '\n' :: unifyBreaks cs
  | '\r' :: cs => '\n' :: unifyBreaks cs
  | '\u0085' :: cs => '\n' :: unifyBreaks cs
  | c :: cs => c :: unifyBreaks cs
  | [] => []

namespace Glyph

/-- Gives each character its place, starting from the place given. -/
def place (index line column : Nat) : List Char → List Glyph
  | [] => []
  | c :: cs =>
    ⟨c, index, line, column⟩ ::
      if isBreak c then place (index + 1) (line + 1) 0 cs else place (index + 1) line (column + 1) cs

/-- The placed characters of a text, if it holds none that a document may not. -/
def ofText? (text : String) : Option (List Glyph) :=
  let cs := unifyBreaks text.toList
  if cs.all isAllowed then some (place 0 0 0 cs) else none

/-- Whether the text is at its end or at a character that ends a word. -/
def atWordEnd : List Glyph → Bool
  | [] => true
  | g :: _ => endsWord g.char

/-- Whether the text is at its end or at a line break. -/
def atLineEnd : List Glyph → Bool
  | [] => true
  | g :: _ => isBreak g.char

/-- Whether three marks `c` at the start of a line stand alone. -/
def isMarker (c : Char) : List Glyph → Bool
  | a :: b :: d :: rest => a.column == 0 && a.char == c && b.char == c && d.char == c && atWordEnd rest
  | _ => false

/-- Whether a line starts here that opens or closes a document. -/
def atDocumentMarker (gs : List Glyph) : Bool :=
  isMarker '-' gs || isMarker '.' gs

/-- The text of placed characters. -/
def text (gs : List Glyph) : String :=
  String.ofList (gs.map char)

end Glyph

end PolicyGraph.Yaml
