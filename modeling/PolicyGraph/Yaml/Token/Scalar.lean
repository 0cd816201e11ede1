import PolicyGraph.Decimal.Numeral
import PolicyGraph.Yaml.Glyph

/-!
# Reading scalars

Plain, quoted and block scalars, read from the character after their opening mark (a plain scalar has
none). Each reader goes once through the placed characters and answers the text and what follows it,
or nothing when the scalar is malformed.
-/

namespace PolicyGraph.Yaml

open Decimal (numeral? digitIn?)

/-- The spacing read since the last visible character of a flow scalar. -/
inductive Gap
  /-- Spaces and tabs on one line, newest first. -/
  | spacing (newestFirst : List Char)
  /-- Line breaks: the first, unless it was escaped, and the others, newest first. -/
  | breaks (first : Option Char) (newestFirst : List Char)
  deriving Repr

namespace Gap

def none : Gap := .spacing []

/-- Spacing next to a line break is dropped. -/
def addSpacing (c : Char) : Gap → Gap
  | .spacing cs => .spacing (c :: cs)
  | gap => gap

def addBreak (c : Char) : Gap → Gap
  | .spacing _ => .breaks (some c) []
  | .breaks first more => .breaks first (c :: more)

def hasBreak : Gap → Bool
  | .spacing _ => false
  | .breaks .. => true

def isNone : Gap → Bool
  | .spacing cs => cs.isEmpty
  | .breaks .. => false

/-- Folding: spacing stays, one line feed becomes a space, and of several the first is dropped. The
result is newest first and goes before `out`. -/
def fold (gap : Gap) (out : List Char) : List Char :=
  match gap with
  | .spacing cs => cs ++ out
  | .breaks (some '\n') [] => ' ' :: out
  | .breaks (some '\n') more => more ++ out
  | .breaks (some c) more => more ++ c :: out
  | .breaks Option.none more => more ++ out

end Gap

/-! ## Plain scalars -/

/-- What is known where a plain scalar stands: whether it is inside a flow collection, and the least
column its continuation lines may have outside of one. -/
structure PlainContext where
  inFlow : Bool
  leastColumn : Nat

/-- The characters that end a plain scalar inside a flow collection. -/
def endsFlowWord (c : Char) : Bool :=
  c == ',' || c == '[' || c == ']' || c == '\x7b' || c == '\x7d'

/-- A plain scalar as read: its text, whether a line break follows it, and the rest. -/
structure PlainScalar where
  text : String
  brokeLine : Bool
  rest : List Glyph

/-- Reads a plain scalar on from the characters in `out`. -/
def readPlainFrom (ctx : PlainContext) (out : List Char) (gap : Gap) (gs : List Glyph) :
    Option PlainScalar :=
  let done : PlainScalar := ⟨String.ofList out.reverse, gap.hasBreak, gs⟩
  match gs with
  | [] => some done
  | g :: tail =>
    if isSpacing g.char then
      if gap.hasBreak && g.column < ctx.leastColumn && g.char == '\t' then none
      else readPlainFrom ctx out (gap.addSpacing g.char) tail
    else if isBreak g.char then readPlainFrom ctx out (gap.addBreak g.char) tail
    else if !gap.isNone &&
        ((!ctx.inFlow && g.column < ctx.leastColumn) || Glyph.atDocumentMarker gs || g.char == '#') then
      some done
    else if ctx.inFlow && g.char == ':' &&
        tail.head?.any fun next => endsFlowWord next.char || next.char == '?' then
      none
    else if (g.char == ':' && Glyph.atWordEnd tail) || (ctx.inFlow && endsFlowWord g.char) then
      some done
    else readPlainFrom ctx (g.char :: gap.fold out) .none tail

/-- Reads a plain scalar from its first character. -/
def readPlain (ctx : PlainContext) (gs : List Glyph) : Option PlainScalar :=
  readPlainFrom ctx [] .none gs

/-! ## Quoted scalars -/

/-- Single quotes know one escape, the doubled quote; double quotes know many. -/
inductive Quote
  | single | double
  deriving DecidableEq

def Quote.mark : Quote → Char
  | .single => '\''
  | .double => '"'

/-- The character that a one-letter escape stands for. -/
def letterEscape? : Char → Option Char
  | '0' => some '\x00'
  | 'a' => some '\x07'
  | 'b' => some '\x08'
  | 't' => some '\t'
  | '\t' => some '\t'
  | 'n' => some '\n'
  | 'v' => some '\x0b'
  | 'f' => some '\x0c'
  | 'r' => some '\r'
  | 'e' => some '\x1b'
  | ' ' => some ' '
  | '"' => some '"'
  | '/' => some '/'
  | '\\' => some '\\'
  | 'N' => some '\u0085'
  | '_' => some '\u00a0'
  | 'L' => some '\u2028'
  | 'P' => some '\u2029'
  | _ => none

/-- How many hexadecimal digits follow the letter of a numeric escape. -/
def numericEscapeWidth? : Char → Option Nat
  | 'x' => some 2
  | 'u' => some 4
  | 'U' => some 8
  | _ => none

/-- The character with a code point, if there is one. -/
def charAt? (n : Nat) : Option Char :=
  if n.isValidChar then some (Char.ofNat n) else none

/-- What a quoted scalar is in the middle of. -/
inductive QuoteState
  | text
  /-- After a quote that may end the scalar or be the first of a doubled one. -/
  | quoteSeen
  /-- After a backslash. -/
  | escape
  /-- Inside a numeric escape: digits still to come, value so far. -/
  | digits (left : Nat) (value : Nat)

/-- Reads a quoted scalar on, up to and including its closing quote. -/
def readQuotedFrom (quote : Quote) (state : QuoteState) (out : List Char) (gap : Gap)
    (gs : List Glyph) : Option (String × List Glyph) :=
  let done : String × List Glyph := (String.ofList out.reverse, gs)
  match gs with
  | [] => match state with
    | .quoteSeen => some done
    | _ => none
  | g :: tail =>
    match state with
    | .quoteSeen =>
      if g.char = '\'' then readQuotedFrom quote .text ('\'' :: out) .none tail else some done
    | .escape =>
      if isBreak g.char then readQuotedFrom quote .text out (.breaks none []) tail
      else match letterEscape? g.char, numericEscapeWidth? g.char with
        | some c, _ => readQuotedFrom quote .text (c :: out) .none tail
        | none, some width => readQuotedFrom quote (.digits width 0) out .none tail
        | none, none => none
    | .digits left value =>
      match digitIn? 16 g.char with
      | none => none
      | some d =>
        let value := value * 16 + d
        if left ≤ 1 then
          match charAt? value with
          | some c => readQuotedFrom quote .text (c :: out) .none tail
          | none => none
        else readQuotedFrom quote (.digits (left - 1) value) out .none tail
    | .text =>
      if isSpacing g.char then readQuotedFrom quote .text out (gap.addSpacing g.char) tail
      else if isBreak g.char then readQuotedFrom quote .text out (gap.addBreak g.char) tail
      else if Glyph.atDocumentMarker gs then none
      else
        let out := gap.fold out
        if g.char = quote.mark then
          match quote with
          | .single => readQuotedFrom quote .quoteSeen out .none tail
          | .double => some (String.ofList out.reverse, tail)
        else if quote = .double ∧ g.char = '\\' then readQuotedFrom quote .escape out .none tail
        else readQuotedFrom quote .text (g.char :: out) .none tail

/-- Reads a quoted scalar from the character after its opening quote. -/
def readQuoted (quote : Quote) (gs : List Glyph) : Option (String × List Glyph) :=
  readQuotedFrom quote .text [] .none gs

/-! ## Block scalars -/

/-- What becomes of the line breaks at the end of a block scalar. -/
inductive Chomping
  | strip | clip | keep
  deriving DecidableEq

/-- The header of a block scalar: folded or literal, chomping, and the indentation, if written. -/
structure BlockHeader where
  folded : Bool
  chomping : Chomping := .clip
  indentation : Option Nat := none

namespace BlockHeader

/-- A chomping mark. -/
def chomping? : Char → Option Chomping
  | '+' => some .keep
  | '-' => some .strip
  | _ => none

/-- Reads the marks of a header, in either order; an indentation of zero is malformed. -/
def readMarks (folded : Bool) : List Glyph → Option (BlockHeader × List Glyph)
  | [] => some ({ folded }, [])
  | g :: tail =>
    match chomping? g.char, digitIn? 10 g.char with
    | some chomping, _ =>
      match tail with
      | [] => some ({ folded, chomping }, [])
      | h :: rest =>
        match digitIn? 10 h.char with
        | some 0 => none
        | some n => some ({ folded, chomping, indentation := some n }, rest)
        | none => some ({ folded, chomping }, tail)
    | none, some 0 => none
    | none, some n =>
      match tail with
      | [] => some ({ folded, indentation := some n }, [])
      | h :: rest =>
        match chomping? h.char with
        | some chomping => some ({ folded, chomping, indentation := some n }, rest)
        | none => some ({ folded, indentation := some n }, tail)
    | none, none => some ({ folded }, g :: tail)

/-- Reads a whole header line: marks, spacing, perhaps a comment, and the end of the line. -/
def read (folded : Bool) (gs : List Glyph) : Option (BlockHeader × List Glyph) := do
  let (header, gs) ← readMarks folded gs
  let gs := gs.dropWhile fun g => isSpacing g.char
  let gs := if gs.head?.any (·.char == '#') then gs.dropWhile fun g => !isBreak g.char else gs
  if Glyph.atLineEnd gs then some (header, gs.drop 1) else none

end BlockHeader

/-- A block scalar in the making. -/
structure BlockBuilder where
  /-- The text so far, newest first. -/
  out : List Char := []
  /-- The break that ended the last line with text. -/
  lineBreak : Option Char := none
  /-- The empty lines since, newest first. -/
  emptyLines : List Char := []
  /-- Whether the last line with text began with spacing. -/
  spaced : Bool := false

namespace BlockBuilder

/-- Starts a line with text. Folding turns the break before it into a space, or drops it when empty
lines follow, unless one of the two lines begins with spacing. -/
def startLine (folded : Bool) (first : Char) (b : BlockBuilder) : BlockBuilder :=
  let joined :=
    if folded && b.lineBreak == some '\n' && !b.spaced && !isSpacing first then
      if b.emptyLines.isEmpty then ' ' :: b.out else b.out
    else b.lineBreak.toList ++ b.out
  { out := first :: (b.emptyLines ++ joined), spaced := isSpacing first }

/-- The finished text, its final breaks treated as the chomping says. -/
def finish (chomping : Chomping) (b : BlockBuilder) : String :=
  let out := match chomping with
    | .strip => b.out
    | .clip => b.lineBreak.toList ++ b.out
    | .keep => b.emptyLines ++ (b.lineBreak.toList ++ b.out)
  String.ofList out.reverse

end BlockBuilder

/-- Where the reader of a block scalar is: within a line of text, or before the text of a line. The
indentation is unknown until the first line with text, which sets it. -/
inductive BlockState
  | text (indentation : Nat)
  | lead (indentation : Nat)
  | firstLead (widest : Nat)

/-- Reads the lines of a block scalar. `least` is the least indentation that its first line may set. -/
def readBlockFrom (header : BlockHeader) (least : Nat) (state : BlockState) (b : BlockBuilder)
    (gs : List Glyph) : Option (String × List Glyph) :=
  let done : String × List Glyph := (b.finish header.chomping, gs)
  match gs with
  | [] => some done
  | g :: tail =>
    let lead (indentation : Nat) : Option (String × List Glyph) :=
      if g.column = indentation then
        readBlockFrom header least (.text indentation) (b.startLine header.folded g.char) tail
      else some done
    match state with
    | .text indentation =>
      if isBreak g.char then
        readBlockFrom header least (.lead indentation) { b with lineBreak := some g.char } tail
      else readBlockFrom header least state { b with out := g.char :: b.out } tail
    | .lead indentation =>
      if g.column < indentation && g.char == ' ' then readBlockFrom header least state b tail
      else if g.column < indentation && g.char == '\t' then none
      else if isBreak g.char then
        readBlockFrom header least state { b with emptyLines := g.char :: b.emptyLines } tail
      else lead indentation
    | .firstLead widest =>
      if g.char = ' ' then readBlockFrom header least state b tail
      else if g.char = '\t' then none
      else
        let widest := max widest g.column
        if isBreak g.char then
          readBlockFrom header least (.firstLead widest)
            { b with emptyLines := g.char :: b.emptyLines } tail
        else lead (max widest least)

/-- Reads a block scalar from the character after its opening mark. `parent` is the indentation of
the collection around it, if there is one. -/
def readBlock (folded : Bool) (parent : Option Nat) (gs : List Glyph) :
    Option (String × List Glyph) := do
  let (header, gs) ← BlockHeader.read folded gs
  let state := match header.indentation with
    | some n => .lead (parent.getD 0 + n)
    | none => .firstLead 0
  readBlockFrom header (max 1 ((parent.map (· + 1)).getD 0)) state {} gs

end PolicyGraph.Yaml
