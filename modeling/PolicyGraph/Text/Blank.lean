/-!
# Blank characters

The characters that may surround a value without being part of it, and the text that is left once
they are stripped from both ends. `trim_pad` says that padding a tight text and trimming it gives the
text back.
-/

namespace PolicyGraph.Text

/-- A character is blank when it has the Unicode property `White_Space`. -/
def isBlank (c : Char) : Bool :=
  let n := c.toNat
  (0x09 ≤ n && n ≤ 0x0D) || n == 0x20 || n == 0x85 || n == 0xA0 || n == 0x1680 ||
    (0x2000 ≤ n && n ≤ 0x200A) || n == 0x2028 || n == 0x2029 || n == 0x202F || n == 0x205F ||
    n == 0x3000

/-- Strips the blank characters at both ends. -/
def trimChars (cs : List Char) : List Char :=
  ((cs.dropWhile isBlank).reverse.dropWhile isBlank).reverse

/-- The text without the blank characters around it. -/
def trim (s : String) : String :=
  String.ofList (trimChars s.toList)

/-- A text is blank when nothing is left of it once trimmed. -/
def isBlankText (s : String) : Bool :=
  s.toList.all isBlank

/-- A text is tight when neither its first nor its last character is blank. -/
def Tight (cs : List Char) : Prop :=
  (∀ c ∈ cs.head?, isBlank c = false) ∧ (∀ c ∈ cs.getLast?, isBlank c = false)

theorem dropWhile_append_of_all {p : Char → Bool} {front rest : List Char}
    (all : ∀ c ∈ front, p c = true) : (front ++ rest).dropWhile p = rest.dropWhile p := by
  induction front with
  | nil => rfl
  | cons c front ih =>
    have hc : p c = true := all c List.mem_cons_self
    simpa [List.dropWhile_cons, hc] using ih fun d hd => all d (List.mem_cons_of_mem c hd)

theorem dropWhile_eq_self {p : Char → Bool} {cs : List Char}
    (first : ∀ c ∈ cs.head?, p c = false) : cs.dropWhile p = cs := by
  cases cs with
  | nil => rfl
  | cons c cs =>
    have hc : p c = false := first c (by simp)
    simp [hc]

/-- Blank characters around a tight text are exactly what trimming removes. -/
theorem trim_pad {before cs after : List Char} (tight : Tight cs) (nonempty : cs ≠ [])
    (left : ∀ c ∈ before, isBlank c = true) (right : ∀ c ∈ after, isBlank c = true) :
    trimChars (before ++ cs ++ after) = cs := by
  have front : (before ++ cs ++ after).dropWhile isBlank = cs ++ after := by
    rw [List.append_assoc, dropWhile_append_of_all left]
    refine dropWhile_eq_self ?_
    cases cs with
    | nil => exact absurd rfl nonempty
    | cons c cs => simpa using tight.1
  have back : (cs ++ after).reverse.dropWhile isBlank = cs.reverse := by
    have blank : ∀ c ∈ after.reverse, isBlank c = true := by simpa using right
    rw [List.reverse_append, dropWhile_append_of_all blank]
    exact dropWhile_eq_self (by simpa using tight.2)
  rw [trimChars, front, back, List.reverse_reverse]

example : trim "  a b\n" = "a b" := by decide +kernel

end PolicyGraph.Text
