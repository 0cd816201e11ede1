import PolicyGraph.Decimal.Numeral
import PolicyGraph.Yaml.Glyph
import PolicyGraph.Yaml.Token

/-!
# Reading names, tags and directives

The parts of a document that are neither scalars nor marks: the names of anchors, tags in their three
spellings, and the two directives.
-/

namespace PolicyGraph.Yaml

open Decimal (digitIn? numeral? isDigit)

/-- Letters, digits, the dash and the underscore. -/
def isNameChar (c : Char) : Bool :=
  ('0' ≤ c && c ≤ '9') || ('A' ≤ c && c ≤ 'Z') || ('a' ≤ c && c ≤ 'z') || c == '_' || c == '-'

/-- Splits off the characters of a name. -/
def readName (gs : List Glyph) : String × List Glyph :=
  (Glyph.text (gs.takeWhile (isNameChar ·.char)), gs.dropWhile (isNameChar ·.char))

/-- Reads the name of an anchor, which must be followed by the end of a word or by a mark. -/
def readAnchorName (gs : List Glyph) : Option (String × List Glyph) :=
  let (name, rest) := readName gs
  if name.isEmpty then none
  else match rest with
    | [] => some (name, rest)
    | g :: _ => if endsWord g.char || "?:,]\x7d%@`".contains g.char then some (name, rest) else none

/-- The characters of a tag apart from escapes. Brackets and the comma belong to whole tags only. -/
def isTagChar (whole : Bool) (c : Char) : Bool :=
  isNameChar c || ";/?:@&=+$.!~*'()".contains c || (whole && ",[]".contains c)

/-- A character in the making from percent escapes: bytes still to come and the value so far. -/
structure EscapedBytes where
  left : Nat
  value : Nat

/-- The value that the first byte of a character begins with, and how many bytes follow it. -/
def firstByte? (b : Nat) : Option EscapedBytes :=
  if b < 0x80 then some ⟨0, b⟩
  else if 0xC0 ≤ b ∧ b < 0xE0 then some ⟨1, b - 0xC0⟩
  else if 0xE0 ≤ b ∧ b < 0xF0 then some ⟨2, b - 0xE0⟩
  else if 0xF0 ≤ b ∧ b < 0xF8 then some ⟨3, b - 0xF0⟩
  else none

/-- Reads the characters of a tag, newest first in `out`. Percent escapes spell the bytes of a
character; one that breaks off is malformed. -/
def readTagCharsFrom (whole : Bool) (pending : Option EscapedBytes) (out : List Char) :
    List Glyph → Option (List Char × List Glyph)
  | ⟨'%', _, _, _⟩ :: a :: b :: rest => do
    let byte := (← digitIn? 16 a.char) * 16 + (← digitIn? 16 b.char)
    let bytes ← match pending with
      | none => firstByte? byte
      | some p => if 0x80 ≤ byte ∧ byte < 0xC0 then some ⟨p.left - 1, p.value * 64 + (byte - 0x80)⟩ else none
    if bytes.left = 0 then
      if bytes.value.isValidChar then readTagCharsFrom whole none (Char.ofNat bytes.value :: out) rest
      else none
    else readTagCharsFrom whole (some bytes) out rest
  | gs@(g :: rest) =>
    if pending.isSome || g.char == '%' then none
    else if isTagChar whole g.char then readTagCharsFrom whole none (g.char :: out) rest
    else some (out, gs)
  | [] => if pending.isSome then none else some (out, [])

/-- Reads the characters of a tag after those of `start`. -/
def readTagChars (whole : Bool) (start : String) (gs : List Glyph) : Option (String × List Glyph) := do
  let (out, rest) ← readTagCharsFrom whole none [] gs
  return (start ++ String.ofList out.reverse, rest)

/-- Reads a handle from the character after its exclamation mark: a name and a second mark, or as much
of that as is there. -/
def readHandle (gs : List Glyph) : String × List Glyph :=
  let (name, rest) := readName gs
  match rest with
  | ⟨'!', _, _, _⟩ :: after => ("!" ++ name ++ "!", after)
  | _ => ("!" ++ name, rest)

/-- Whether a handle has its second mark. -/
def isClosedHandle (handle : String) : Bool :=
  2 ≤ handle.length && handle.endsWith "!"

/-- Reads a tag from the character after its exclamation mark. A lone mark is a tag of its own. -/
def readTagParts (gs : List Glyph) : Option (Token × List Glyph) :=
  match gs with
  | ⟨'<', _, _, _⟩ :: rest => do
    let (tag, rest) ← readTagChars true "" rest
    if tag.isEmpty then none
    else match rest with
      | ⟨'>', _, _, _⟩ :: after => some (.tag "" tag, after)
      | _ => none
  | _ => do
    let (handle, rest) := readHandle gs
    if isClosedHandle handle then
      let (suffix, rest) ← readTagChars false "" rest
      if suffix.isEmpty then none else some (.tag handle suffix, rest)
    else
      let (suffix, rest) ← readTagChars false (handle.drop 1).toString rest
      some (if suffix.isEmpty then .tag "" "!" else .tag "!" suffix, rest)

/-- Reads a tag, which must be followed by the end of a word, or by a comma in a flow collection. -/
def readTag (inFlow : Bool) (gs : List Glyph) : Option (Token × List Glyph) := do
  let (token, rest) ← readTagParts gs
  if Glyph.atWordEnd rest || (inFlow && rest.head?.any (·.char == ',')) then some (token, rest) else none

/-- Reads one number of a version, of at most nine digits. -/
def readVersionNumber (gs : List Glyph) : Option (Nat × List Glyph) := do
  let digits := gs.takeWhile (isDigit ·.char)
  if 9 < digits.length then none
  let n ← numeral? 10 (digits.map Glyph.char)
  return (n, gs.dropWhile (isDigit ·.char))

/-- Drops spaces and tabs. -/
def skipSpacing (gs : List Glyph) : List Glyph :=
  gs.dropWhile (isSpacing ·.char)

/-- Drops the rest of a line, but not its break. -/
def skipLine (gs : List Glyph) : List Glyph :=
  gs.dropWhile fun g => !isBreak g.char

/-- Reads a directive from the character after its percent sign, with the end of its line. -/
def readDirective (gs : List Glyph) : Option (Token × List Glyph) := do
  let (name, rest) := readName gs
  if !Glyph.atWordEnd rest then none
  let (token, rest) ← match name with
    | "YAML" => do
      let (major, rest) ← readVersionNumber (skipSpacing rest)
      match rest with
      | ⟨'.', _, _, _⟩ :: rest => do
        let (minor, rest) ← readVersionNumber rest
        pure (Token.version major minor, rest)
      | _ => none
    | "TAG" =>
      match skipSpacing rest with
      | ⟨'!', _, _, _⟩ :: rest => do
        let (handle, rest) := readHandle rest
        if !isClosedHandle handle && handle != "!" then none
        if !rest.head?.any (isSpacing ·.char) then none
        let (expansion, rest) ← readTagChars true "" (skipSpacing rest)
        if expansion.isEmpty || !Glyph.atWordEnd rest then none
        pure (Token.shorthand handle expansion, rest)
      | _ => none
    | _ => none
  let rest := skipSpacing rest
  let rest := if rest.head?.any (·.char == '#') then skipLine rest else rest
  if Glyph.atLineEnd rest then some (token, rest.drop 1) else none

end PolicyGraph.Yaml
