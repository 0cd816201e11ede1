import PolicyGraph.Text.Hidden

/-!
# Quoted text

The form in which a message shows a text: between double quotes, with the quote and the backslash
escaped, the common control characters by letter, and every other hidden character by its number.
-/

namespace PolicyGraph.Text

/-- The code point in hexadecimal, without leading zeros, in braces. -/
def numberEscape (c : Char) : String :=
  "\\u\x7b" ++ String.ofList (Nat.toDigits 16 c.toNat) ++ "\x7d"

/-- How one character stands inside a quoted text. -/
def quotedChar (c : Char) : String :=
  match c with
  | '\x00' => "\\0"
  | '\t' => "\\t"
  | '\n' => "\\n"
  | '\r' => "\\r"
  | '"' => "\\\""
  | '\\' => "\\\\"
  | c => if isHidden c then numberEscape c else c.toString

/-- The text between double quotes, on one line and with nothing hidden. -/
def quoted (s : String) : String :=
  "\"" ++ String.join (s.toList.map quotedChar) ++ "\""

end PolicyGraph.Text
