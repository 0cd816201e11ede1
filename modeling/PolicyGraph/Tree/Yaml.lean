import PolicyGraph.Tree
import PolicyGraph.Yaml.Glyph
import PolicyGraph.Yaml.Scalar

/-!
# Trees in YAML

Block collections, indented by two; the items of a list stand in the column of the key they belong
to. A text is plain where it reads back as that text, a literal block if it has line feeds, and quoted
otherwise, with escapes only where nothing else can hold it.
-/

namespace PolicyGraph.Tree.Yaml

open PolicyGraph.Yaml (Meaning isBreak isSpacing byteOrderMark)

/-- A line break in the text itself, before any form of it has been unified. -/
def breaksLine (c : Char) : Bool :=
  isBreak c || c == '\r' || c == '\u0085'

/-- Spacing, a line break or the end of the text. -/
def isGap : Option Char → Bool
  | none => true
  | some c => isSpacing c || breaksLine c || c == '\x00'

/-- The characters that may stand for themselves outside of double quotes. -/
def isPrintable (c : Char) : Bool :=
  let n := c.toNat
  n == 0x0A || (0x20 ≤ n && n ≤ 0x7E) || (0xA0 ≤ n && n ≤ 0xD7FF) ||
    (0xE000 ≤ n && n ≤ 0xFFFD && c != byteOrderMark) || 0x10000 ≤ n

/-- Whether a mark of the syntax opens the text. -/
def opensWithMark : List Char → Bool
  | '-' :: '-' :: '-' :: _ => true
  | '.' :: '.' :: '.' :: _ => true
  | c :: rest =>
    "#,[]\x7b\x7d&*!|>'\"%@`".contains c || ((c == '?' || c == ':' || c == '-') && isGap rest.head?)
  | [] => false

/-- Whether a colon before a gap, or a number sign after one, stands after the character `before`. -/
def holdsMarkAfter : Char → List Char → Bool
  | _, [] => false
  | before, c :: rest =>
    (c == ':' && isGap rest.head?) || (c == '#' && isGap (some before)) || holdsMarkAfter c rest

def holdsMark : List Char → Bool
  | [] => false
  | c :: rest => opensWithMark (c :: rest) || holdsMarkAfter c rest

/-- Whether some character is followed by one that stands in the relation to it. -/
def anyPair (p : Char → Char → Bool) (cs : List Char) : Bool :=
  (cs.zip cs.tail).any fun (a, b) => p a b

/-- Whether only double quotes keep the text: it has unprintable characters or a space before a line
break. -/
def needsEscapes (cs : List Char) : Bool :=
  cs.any (!isPrintable ·) || anyPair (fun a b => a == ' ' && breaksLine b) cs

/-- How a text is written. -/
inductive Style
  | plain | single | double | literal
  deriving DecidableEq, Repr

/-- Whether the text would read back as something else, or looks like a padded number. -/
def isAmbiguous (s : String) : Bool :=
  (match Meaning.ofPlain s with
    | .text _ => false
    | _ => true) || Meaning.isZeroPadded s.toList

/-- The style that suits the text, before it is clear what that style can hold. -/
def wantedStyle (s : String) : Style :=
  if s.toList.contains '\n' then .literal else if isAmbiguous s then .single else .plain

def holdsPlain (cs : List Char) : Bool :=
  !holdsMark cs && !cs.any breaksLine && cs.head? != some ' ' && cs.getLast? != some ' '

/-- The style in which the text is written. -/
def style (s : String) : Style :=
  let cs := s.toList
  let quotes := if needsEscapes cs || anyPair (fun a b => breaksLine a && b == ' ') cs then .double else .single
  match wantedStyle s with
  | .literal => if needsEscapes cs || cs.getLast? == some ' ' then .double else .literal
  | .plain => if needsEscapes cs || !holdsPlain cs then quotes else .plain
  | _ => quotes

/-- The letter of a short escape. -/
def escapeLetter? : Char → Option Char
  | '\x00' => some '0'
  | '\x07' => some 'a'
  | '\x08' => some 'b'
  | '\t' => some 't'
  | '\n' => some 'n'
  | '\x0b' => some 'v'
  | '\x0c' => some 'f'
  | '\r' => some 'r'
  | '\x1b' => some 'e'
  | '"' => some '"'
  | '\\' => some '\\'
  | '\u0085' => some 'N'
  | '\u00a0' => some '_'
  | '\u2028' => some 'L'
  | '\u2029' => some 'P'
  | _ => none

/-- A character by its number, in two, four or eight upper-case hexadecimal digits. -/
def numericEscape (c : Char) : String :=
  let n := c.toNat
  let (letter, width) := if n ≤ 0xFF then ('x', 2) else if n ≤ 0xFFFF then ('u', 4) else ('U', 8)
  let digits := (Nat.toDigits 16 n).map Char.toUpper
  String.ofList ('\\' :: letter :: (List.replicate (width - digits.length) '0' ++ digits))

/-- A character between double quotes. -/
def escape (c : Char) : String :=
  if isPrintable c && !breaksLine c && c != '"' && c != '\\' then c.toString
  else match escapeLetter? c with
    | some letter => "\\" ++ letter.toString
    | none => numericEscape c

def spaces (n : Nat) : String := String.ofList (List.replicate n ' ')

/-- Writes lines of text, indenting those that are not empty. -/
def writeLines (indent : Nat) (char : Char → String) : Bool → List Char → String
  | _, [] => ""
  | atStart, c :: rest =>
    if breaksLine c then c.toString ++ writeLines indent char true rest
    else (if atStart then spaces indent else "") ++ char c ++ writeLines indent char false rest

/-- The marks after the bar of a literal block: the indentation, if the text does not show it, and what
becomes of the final line breaks. -/
def literalMarks (cs : List Char) : String :=
  let indentation := if cs.head?.any fun c => c == ' ' || breaksLine c then "2" else ""
  let chomping := match cs.reverse with
    | [] => "-"
    | [c] => if breaksLine c then "+" else "-"
    | c :: d :: _ => if !breaksLine c then "-" else if breaksLine d then "+" else ""
  indentation ++ chomping

/-- A text in the style that holds it, its further lines indented. -/
def scalar (indent : Nat) (s : String) : String :=
  let cs := s.toList
  match style s with
  | .plain => s
  | .single =>
    let double (c : Char) : String := if c == '\'' then "''" else c.toString
    let closing := if cs.getLast?.any breaksLine then spaces indent else ""
    "'" ++ writeLines indent double false cs ++ closing ++ "'"
  | .double => "\"" ++ String.join (cs.map escape) ++ "\""
  | .literal => "|" ++ literalMarks cs ++ "\n" ++ writeLines indent Char.toString true cs

/-- A tree that takes no lines of its own. -/
def inlined (indent : Nat) : Tree → String
  | .null => "null"
  | .bool b => toString b
  | .integer n => toString n
  | .float x => Decimal.Layout.data.write x
  | .text s => scalar indent s
  | .list _ => "[]"
  | .object _ => "\x7b\x7d"

/-- Goes to a column on a new line, or on the line that has just begun. -/
def newLine (column : Nat) (out : String) : String :=
  (if out.back?.all breaksLine then out else out ++ "\n") ++ spaces column

mutual

/-- Writes a tree that begins in the given column, after what is written already. -/
def writeHere (column : Nat) (out : String) : Tree → String
  | .list (t :: rest) => writeItems column (writeHere (column + 2) (out ++ "- ") t) rest
  | .object ((name, t) :: rest) =>
    writeFields column (writeAfterKey column (out ++ scalar column name ++ ":") t) rest
  | t => out ++ inlined column t

/-- Writes the tree of a field after its key: on the same line if it takes no lines of its own. -/
def writeAfterKey (column : Nat) (out : String) : Tree → String
  | .list (t :: rest) =>
    writeItems column (writeHere (column + 2) (newLine column out ++ "- ") t) rest
  | .object ((name, t) :: rest) =>
    let out := newLine (column + 2) out ++ scalar (column + 2) name ++ ":"
    writeFields (column + 2) (writeAfterKey (column + 2) out t) rest
  | t => out ++ " " ++ inlined (column + 2) t

/-- Writes the items of a list, each on a line of its own. -/
def writeItems (column : Nat) (out : String) : List Tree → String
  | [] => out
  | t :: rest => writeItems column (writeHere (column + 2) (newLine column out ++ "- ") t) rest

/-- Writes the fields of an object, each on a line of its own. -/
def writeFields (column : Nat) (out : String) : List (String × Tree) → String
  | [] => out
  | (name, t) :: rest =>
    writeFields column (writeAfterKey column (newLine column out ++ scalar column name ++ ":") t) rest

end

/-- The whole document, which ends with a line break. -/
def document (t : Tree) : String := newLine 0 (writeHere 0 "" t)

end PolicyGraph.Tree.Yaml
