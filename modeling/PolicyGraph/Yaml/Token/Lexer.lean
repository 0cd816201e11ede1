import PolicyGraph.Yaml.Token
import PolicyGraph.Yaml.Token.Scalar
import PolicyGraph.Yaml.Token.Tag

/-!
# From text to tokens

The lexer goes through the placed characters once. A key of a block mapping is only recognised by the
colon after it, so the lexer remembers where a key could have started and puts the key mark, and the
start of a mapping if the key opens one, in front of the tokens read since.
-/

namespace PolicyGraph.Yaml

/-- A place where a key may have started. A key ends on the line it starts on, within 1024
characters. -/
structure KeyStart where
  /-- Whether the layout leaves no other reading: the place is at the indentation of a mapping. -/
  required : Bool
  /-- How many tokens were read before it. -/
  count : Nat
  glyph : Glyph

/-- The state of the lexer between two tokens. -/
structure Lexer where
  rest : List Glyph
  /-- The tokens read, newest first, and their number. -/
  tokens : List Token := []
  count : Nat := 0
  /-- The columns of the open block collections, innermost first. -/
  indents : List Nat := []
  /-- Whether a key may start at the next token. -/
  keyAllowed : Bool := true
  /-- The possible key of the innermost collection. -/
  keyStart : Option KeyStart := none
  /-- The possible keys around each open flow collection, innermost first. -/
  outerKeys : List (Option KeyStart) := []

namespace Lexer

def inFlow (l : Lexer) : Bool := !l.outerKeys.isEmpty

def emit (token : Token) (l : Lexer) : Lexer :=
  { l with tokens := token :: l.tokens, count := l.count + 1 }

/-- Puts a token in front of all that were read after the first `count`. -/
def emitAt (count : Nat) (token : Token) (l : Lexer) : Lexer :=
  let (newer, older) := l.tokens.splitAt (l.count - count)
  { l with tokens := newer ++ token :: older, count := l.count + 1 }

/-- Drops spacing, comments, line breaks and the byte order marks that start a line before the next
token. In a block collection a line break makes a key possible, and where a key is possible a tab is no
spacing. -/
def skipFrom (inFlow inComment keyAllowed : Bool) : List Glyph → List Glyph × Bool
  | [] => ([], keyAllowed)
  | g :: rest =>
    if isBreak g.char then skipFrom inFlow false (keyAllowed || !inFlow) rest
    else if inComment then skipFrom inFlow true keyAllowed rest
    else if g.char == ' ' || (g.char == '\t' && (inFlow || !keyAllowed)) ||
        (g.char == byteOrderMark && g.column == 0) then
      skipFrom inFlow false keyAllowed rest
    else if g.char == '#' then skipFrom inFlow true keyAllowed rest
    else (g :: rest, keyAllowed)

def skip (l : Lexer) : Lexer :=
  let (rest, keyAllowed) := skipFrom l.inFlow false l.keyAllowed l.rest
  { l with rest, keyAllowed }

/-- Whether a key that started there can still end at `g`. -/
def KeyStart.reaches (k : KeyStart) (g : Glyph) : Bool :=
  k.glyph.line == g.line && g.index ≤ k.glyph.index + 1024

/-- Forgets a possible key that was passed by; one that was required makes the text malformed. -/
def forgetUnless (live : KeyStart → Bool) : Option KeyStart → Option (Option KeyStart)
  | none => some none
  | some k => if live k then some (some k) else if k.required then none else some none

/-- Forgets the possible keys that cannot end at the next character any more. -/
def dropStale (l : Lexer) : Option Lexer := do
  let live (k : KeyStart) : Bool := match l.rest with
    | [] => false
    | g :: _ => KeyStart.reaches k g
  let keyStart ← forgetUnless live l.keyStart
  let outerKeys ← l.outerKeys.mapM (forgetUnless live)
  return { l with keyStart, outerKeys }

def dropKey (l : Lexer) : Option Lexer := do
  let keyStart ← forgetUnless (fun _ => false) l.keyStart
  return { l with keyStart }

/-- Remembers that a key may start at `g`. -/
def saveKey (g : Glyph) (l : Lexer) : Option Lexer :=
  if l.keyAllowed then do
    let l ← l.dropKey
    let required := !l.inFlow && l.indents.head? == some g.column
    return { l with keyStart := some ⟨required, l.count, g⟩ }
  else some l

/-- Closes the block collections that are indented deeper than the next token. -/
def unindent (deeper : Nat → Bool) (l : Lexer) : Lexer :=
  if l.inFlow then l
  else
    let closed := l.indents.takeWhile deeper
    { l with
      indents := l.indents.dropWhile deeper
      tokens := List.replicate closed.length .blockEnd ++ l.tokens
      count := l.count + closed.length }

/-- Opens a block collection at a column, in front of the tokens after the first `count`, unless one
is open there. -/
def indent (column count : Nat) (token : Token) (l : Lexer) : Lexer :=
  if !l.inFlow && l.indents.head?.all (· < column) then
    { l.emitAt count token with indents := column :: l.indents }
  else l

/-- A mark that only counts where a key may start, such as the dash of an item. -/
def startMark (g : Glyph) (opening : Token) (l : Lexer) : Option Lexer :=
  if l.inFlow then some l
  else if l.keyAllowed then some (l.indent g.column l.count opening)
  else none

/-- The line that opens or closes a document ends all block collections. -/
def documentMark (token : Token) (rest : List Glyph) (l : Lexer) : Option Lexer := do
  let l ← (l.unindent fun _ => true).dropKey
  return { l with keyAllowed := false, rest }.emit token

/-- A directive line, from the character after the percent sign. -/
def directive (rest : List Glyph) (l : Lexer) : Option Lexer := do
  let l ← (l.unindent fun _ => true).dropKey
  let (token, rest) ← readDirective rest
  return { l with keyAllowed := false, rest }.emit token

def openFlow (g : Glyph) (token : Token) (rest : List Glyph) (l : Lexer) : Option Lexer := do
  let l ← l.saveKey g
  return { l with
    outerKeys := l.keyStart :: l.outerKeys, keyStart := none, keyAllowed := true, rest }.emit token

def closeFlow (token : Token) (rest : List Glyph) (l : Lexer) : Option Lexer := do
  let l ← l.dropKey
  let l := match l.outerKeys with
    | [] => l
    | key :: outer => { l with keyStart := key, outerKeys := outer }
  return { l with keyAllowed := false, rest }.emit token

def comma (rest : List Glyph) (l : Lexer) : Option Lexer := do
  let l ← l.dropKey
  return { l with keyAllowed := true, rest }.emit .comma

def item (g : Glyph) (rest : List Glyph) (l : Lexer) : Option Lexer := do
  let l ← (← l.startMark g .blockSequence).dropKey
  return { l with keyAllowed := true, rest }.emit .item

def explicitKey (g : Glyph) (rest : List Glyph) (l : Lexer) : Option Lexer := do
  let l ← (← l.startMark g .blockMapping).dropKey
  return { l with keyAllowed := !l.inFlow, rest }.emit .key

/-- A colon turns the possible key before it into one. -/
def value (g : Glyph) (rest : List Glyph) (l : Lexer) : Option Lexer :=
  match l.keyStart with
  | some k =>
    let l := (l.emitAt k.count .key).indent k.glyph.column k.count .blockMapping
    some ({ l with keyStart := none, keyAllowed := false, rest }.emit .value)
  | none => do
    let l ← l.startMark g .blockMapping
    return { l with keyAllowed := !l.inFlow, rest }.emit .value

/-- A token that can begin a key and leaves no room for another on its line. -/
def keyToken (g : Glyph) (read : Option (Token × List Glyph)) (l : Lexer) : Option Lexer := do
  let l ← l.saveKey g
  let (token, rest) ← read
  return { l with keyAllowed := false, rest }.emit token

def blockScalar (folded : Bool) (rest : List Glyph) (l : Lexer) : Option Lexer := do
  let l ← l.dropKey
  let (text, rest) ← readBlock folded l.indents.head? rest
  return { l with keyAllowed := true, rest }.emit (.scalar (if folded then .folded else .literal) text)

def plainScalar (g : Glyph) (l : Lexer) : Option Lexer := do
  let l ← l.saveKey g
  let least := (l.indents.head?.map (· + 1)).getD 0
  let scalar ← readPlain ⟨l.inFlow, least⟩ l.rest
  return { l with keyAllowed := scalar.brokeLine, rest := scalar.rest }.emit (.scalar .plain scalar.text)

/-- The characters that a plain scalar does not begin with, three of them only before spacing. -/
def isIndicator (c : Char) : Bool :=
  "-?:,[]\x7b\x7d#&*!|>'\"%@`".contains c

/-- Whether a plain scalar begins here. -/
def beginsPlain (inFlow : Bool) (g : Glyph) (rest : List Glyph) : Bool :=
  (!endsWord g.char && !isIndicator g.char) ||
    (g.char == '-' && !rest.head?.any (isSpacing ·.char)) ||
    (!inFlow && (g.char == '?' || g.char == ':') && !Glyph.atWordEnd rest)

/-- Reads the token that begins at the next character. -/
def next (g : Glyph) (rest : List Glyph) (l : Lexer) : Option Lexer :=
  let here := g :: rest
  let alone := Glyph.atWordEnd rest
  if g.column == 0 && g.char == '%' then l.directive rest
  else if Glyph.isMarker '-' here then l.documentMark .documentStart (rest.drop 2)
  else if Glyph.isMarker '.' here then l.documentMark .documentEnd (rest.drop 2)
  else match g.char with
    | '[' => l.openFlow g .flowSequence rest
    | '\x7b' => l.openFlow g .flowMapping rest
    | ']' => l.closeFlow .flowSequenceEnd rest
    | '\x7d' => l.closeFlow .flowMappingEnd rest
    | ',' => l.comma rest
    | '*' => l.keyToken g do let (name, rest) ← readAnchorName rest; return (.alias name, rest)
    | '&' => l.keyToken g do let (name, rest) ← readAnchorName rest; return (.anchor name, rest)
    | '!' => l.keyToken g (readTag l.inFlow rest)
    | '\'' => l.keyToken g do let (text, rest) ← readQuoted .single rest; return (.scalar .quoted text, rest)
    | '"' => l.keyToken g do let (text, rest) ← readQuoted .double rest; return (.scalar .quoted text, rest)
    | c =>
      if c == '-' && alone then l.item g rest
      else if c == '?' && (l.inFlow || alone) then l.explicitKey g rest
      else if c == ':' && (l.inFlow || alone) then l.value g rest
      else if c == '|' && !l.inFlow then l.blockScalar false rest
      else if c == '>' && !l.inFlow then l.blockScalar true rest
      else if beginsPlain l.inFlow g rest then l.plainScalar g
      else none

/-- Reads tokens to the end of the text. Every token takes at least one character. -/
def run (l : Lexer) : Option (List Token) := do
  let l' ← l.skip.dropStale
  match l'.rest with
  | [] =>
    let l' ← (l'.unindent fun _ => true).dropKey
    return l'.tokens.reverse
  | g :: rest =>
    let l'' ← (l'.unindent (g.column < ·)).next g rest
    if l''.rest.length < l.rest.length then run l'' else none
termination_by l.rest.length

end Lexer

/-- The tokens of a text, unless it breaks the rules of layout or spelling. -/
def Token.ofText? (text : String) : Option (List Token) := do
  Lexer.run { rest := ← Glyph.ofText? text }

end PolicyGraph.Yaml
