import Mathlib
import PolicyGraph.Proofs.Readers
import PolicyGraph.Settings

/-!
# Which texts name a segment

A text names a segment if a decimal numeral with at most one sign is left of it once the blank characters
around it are gone, and the number fits in 32 bits (`Segment.Names`). Such a text is read as the number,
and every other one is reported and read as the default (`parses_exactly_names`).
-/

namespace PolicyGraph

open Yaml (Reader Document)

/-! ## Signed numerals -/

namespace Decimal

variable {cs : List Char} {v n : Nat}

/-- One or more decimal digits. -/
def IsDigits (cs : List Char) : Prop := cs ≠ [] ∧ ∀ c ∈ cs, c.isDigit = true

/-- The number that a decimal numeral with at most one sign denotes. -/
inductive Denotes : List Char → Int → Prop
  | bare {ds : List Char} : IsDigits ds → Denotes ds (Nat.ofDigitChars 10 ds 0)
  | plus {ds : List Char} : IsDigits ds → Denotes ('+' :: ds) (Nat.ofDigitChars 10 ds 0)
  | minus {ds : List Char} : IsDigits ds → Denotes ('-' :: ds) (-Nat.ofDigitChars 10 ds 0)

theorem digitIn?_ten (c : Char) :
    digitIn? 10 c = if c.isDigit then some (c.toNat - '0'.toNat) else none := by
  have hdigit : ('0' ≤ c ∧ c ≤ '9') ↔ c.isDigit = true := by simp [Char.isDigit, Char.le_def]
  unfold digitIn? digitValue
  split
  · next h =>
    have hle : c.toNat ≤ '9'.toNat := h.2
    have hlt : c.toNat - '0'.toNat < 10 := by
      simp only [Char.reduceToNat] at hle ⊢
      omega
    rw [if_pos (hdigit.mp h), Option.filter_some, if_pos (decide_eq_true hlt)]
  · next h =>
    -- A letter counts for ten at least.
    rw [if_neg (mt hdigit.mpr h)]
    split
    · simp
    · split <;> simp

theorem digitsFrom?_eq_some_iff :
    digitsFrom? 10 v cs = some n ↔
      (∀ c ∈ cs, c.isDigit = true) ∧ Nat.ofDigitChars 10 cs v = n := by
  induction cs generalizing v with
  | nil => simp [digitsFrom?]
  | cons c rest ih =>
    rw [digitsFrom?, digitIn?_ten, List.forall_mem_cons, Nat.ofDigitChars_cons, Nat.mul_comm 10 v]
    by_cases hc : c.isDigit = true
    · simp only [hc, if_true, Option.bind_eq_bind, Option.bind_some, ih, true_and]
    · simp [hc]

theorem numeral?_eq_some_iff :
    numeral? 10 cs = some n ↔ IsDigits cs ∧ Nat.ofDigitChars 10 cs 0 = n := by
  unfold numeral? IsDigits
  cases cs with
  | nil => simp
  | cons c rest => simp [digitsFrom?_eq_some_iff, and_assoc]

theorem map_numeral?_eq_some_iff {f : Nat → Int} {z : Int} :
    (numeral? 10 cs).map f = some z ↔ IsDigits cs ∧ f (Nat.ofDigitChars 10 cs 0) = z := by
  rw [Option.map_eq_some_iff]
  simp only [numeral?_eq_some_iff, and_assoc, exists_and_left, exists_eq_left']

theorem signedNumeral?_of_isDigits (h : IsDigits cs) :
    signedNumeral? cs = (numeral? 10 cs).map Int.ofNat := by
  unfold signedNumeral?
  split
  · exact absurd (h.2 '+' List.mem_cons_self) (by decide)
  · exact absurd (h.2 '-' List.mem_cons_self) (by decide)
  · rfl

theorem signedNumeral?_eq_some_iff {z : Int} : signedNumeral? cs = some z ↔ Denotes cs z := by
  constructor
  · intro h
    unfold signedNumeral? at h
    split at h <;> obtain ⟨hdigits, rfl⟩ := map_numeral?_eq_some_iff.mp h
    · exact .plus hdigits
    · exact .minus hdigits
    · exact .bare hdigits
  · rintro (h | h | h)
    · rw [signedNumeral?_of_isDigits h]
      exact map_numeral?_eq_some_iff.mpr ⟨h, rfl⟩
    · exact map_numeral?_eq_some_iff.mpr ⟨h, rfl⟩
    · exact map_numeral?_eq_some_iff.mpr ⟨h, rfl⟩

theorem denotes_toString (z : Int) : Denotes (toString z).toList z := by
  have hdigits : ∀ n : Nat, IsDigits (Nat.toDigits 10 n) := fun n =>
    ⟨Nat.toDigits_ne_nil, fun c hc => Nat.isDigit_of_mem_toDigits (by decide) (by decide) hc⟩
  have hvalue : ∀ n : Nat, Nat.ofDigitChars 10 (Nat.toDigits 10 n) 0 = n := fun n =>
    Nat.ofDigitChars_ten_toDigits
  rw [Int.toString_eq_repr]
  cases z with
  | ofNat n =>
    have h := Denotes.bare (hdigits n)
    rw [hvalue, ← Nat.toList_repr] at h
    exact h
  | negSucc n =>
    have h := Denotes.minus (hdigits (n + 1))
    rw [hvalue, ← Nat.toList_repr] at h
    rw [Int.repr, String.toList_append]
    exact h

theorem isBlank_of_isDigit {c : Char} (h : c.isDigit = true) : Text.isBlank c = false := by
  simp only [Char.isDigit, Bool.and_eq_true, decide_eq_true_eq] at h
  have hlow : 48 ≤ c.toNat := h.1
  have hhigh : c.toNat ≤ 57 := h.2
  simp only [Text.isBlank, Bool.or_eq_false_iff, Bool.and_eq_false_iff, decide_eq_false_iff_not,
    beq_eq_false_iff_ne]
  omega

theorem Denotes.not_blank {z : Int} (h : Denotes cs z) : ∀ c ∈ cs, Text.isBlank c = false := by
  cases h with
  | bare hd => exact fun c hc => isBlank_of_isDigit (hd.2 c hc)
  | plus hd | minus hd =>
    exact List.forall_mem_cons.mpr ⟨by decide, fun c hc => isBlank_of_isDigit (hd.2 c hc)⟩

end Decimal

/-! ## Blank characters around a text -/

namespace Text

/-- The characters that are left once the blank ones are gone at both ends. -/
def Stripped (cs t : List Char) : Prop :=
  ∃ before after, cs = before ++ t ++ after ∧ (∀ c ∈ before, isBlank c = true) ∧
    (∀ c ∈ after, isBlank c = true) ∧ Tight t

variable {cs t : List Char}

theorem trimChars_of_all (h : ∀ c ∈ cs, isBlank c = true) : trimChars cs = [] := by
  have hdrop : (cs ++ []).dropWhile isBlank = [] := dropWhile_append_of_all h
  rw [List.append_nil] at hdrop
  rw [trimChars, hdrop]
  rfl

theorem isBlank_of_mem_takeWhile {c : Char} (h : c ∈ cs.takeWhile isBlank) : isBlank c = true :=
  List.all_eq_true.mp (List.all_takeWhile) c h

theorem isBlank_head?_dropWhile {c : Char} (h : c ∈ (cs.dropWhile isBlank).head?) :
    isBlank c = false := by
  have hnot := List.head?_dropWhile_not isBlank cs
  rw [Option.mem_def.mp h] at hnot
  exact hnot

theorem stripped_trimChars (cs : List Char) : Stripped cs (trimChars cs) := by
  obtain ⟨rest, hrest⟩ : ∃ rest, rest = cs.dropWhile isBlank := ⟨_, rfl⟩
  have htrim : trimChars cs = (rest.reverse.dropWhile isBlank).reverse := by rw [trimChars, hrest]
  have hafter : trimChars cs ++ (rest.reverse.takeWhile isBlank).reverse = rest := by
    rw [htrim, ← List.reverse_append, List.takeWhile_append_dropWhile, List.reverse_reverse]
  refine ⟨cs.takeWhile isBlank, (rest.reverse.takeWhile isBlank).reverse, ?_, ?_, ?_, ?_, ?_⟩
  · rw [List.append_assoc, hafter, hrest, List.takeWhile_append_dropWhile]
  · exact fun c hc => isBlank_of_mem_takeWhile hc
  · exact fun c hc => isBlank_of_mem_takeWhile (List.mem_reverse.mp hc)
  · intro c hc
    have hhead : c ∈ rest.head? := by
      rw [← hafter]
      exact List.mem_head?_append_of_mem_head? hc
    rw [hrest] at hhead
    exact isBlank_head?_dropWhile hhead
  · intro c hc
    rw [htrim, List.getLast?_reverse] at hc
    exact isBlank_head?_dropWhile hc

/-- Trimming strips the blank characters and nothing else. -/
theorem stripped_iff : Stripped cs t ↔ trimChars cs = t := by
  constructor
  · rintro ⟨before, after, rfl, hbefore, hafter, htight⟩
    by_cases ht : t = []
    · subst ht
      apply trimChars_of_all
      simp only [List.append_nil, List.mem_append]
      rintro c (hc | hc)
      · exact hbefore c hc
      · exact hafter c hc
    · exact trim_pad htight ht hbefore hafter
  · rintro rfl
    exact stripped_trimChars cs

end Text

/-! ## Segments -/

namespace Segment

open Decimal (Denotes)
open Text (Stripped)

/-- The text is a numeral for the number, with blank characters around it or none, and the number has 32
bits. -/
def Names (s : String) (z : Int) : Prop :=
  (∃ t, Stripped s.toList t ∧ Denotes t z) ∧ -2 ^ 31 ≤ z ∧ z ≤ 2 ^ 31 - 1

variable {s : String} {z : Int}

theorem inRange_iff : inRange z = true ↔ -2 ^ 31 ≤ z ∧ z ≤ 2 ^ 31 - 1 := by
  have hpow : Int.pow 2 31 = 2 ^ 31 := rfl
  simp only [inRange, hpow, Bool.and_eq_true, decide_eq_true_eq]
  omega

theorem read?_eq_some_iff : read? s = some z ↔ Names s z := by
  simp only [read?, Option.filter_eq_some_iff, Decimal.signedNumeral?_eq_some_iff, inRange_iff, Names,
    Text.stripped_iff, exists_eq_left']

theorem parse_of_names (h : Names s z) : parse s = ⟨z, []⟩ := by
  rw [parse, read?_eq_some_iff.mpr h]
  rfl

theorem parse_of_not_names (h : ¬ ∃ z, Names s z) : parse s = ⟨220, [.segmentRejected s 220]⟩ := by
  have hnone : read? s = none := by
    rw [Option.eq_none_iff_forall_ne_some]
    exact fun z hz => h ⟨z, read?_eq_some_iff.mp hz⟩
  rw [parse, hnone]
  rfl

/-- Blank characters around the decimal text of a number do not matter. -/
theorem names_pad {before after : String} (hz : -2 ^ 31 ≤ z ∧ z ≤ 2 ^ 31 - 1)
    (hbefore : ∀ c ∈ before.toList, Text.isBlank c = true)
    (hafter : ∀ c ∈ after.toList, Text.isBlank c = true) :
    Names (before ++ toString z ++ after) z := by
  have hdenotes := Decimal.denotes_toString z
  have htight : Text.Tight (toString z).toList :=
    ⟨fun c hc => hdenotes.not_blank c (List.mem_of_mem_head? hc),
      fun c hc => hdenotes.not_blank c (List.mem_of_mem_getLast? hc)⟩
  refine ⟨⟨_, ⟨before.toList, after.toList, ?_, hbefore, hafter, htight⟩, hdenotes⟩, hz⟩
  rw [String.toList_append, String.toList_append]

theorem names_toString (hz : -2 ^ 31 ≤ z ∧ z ≤ 2 ^ 31 - 1) : Names (toString z) z := by
  have hnone : ∀ c ∈ "".toList, Text.isBlank c = true := by simp
  have h := names_pad hz hnone hnone
  rwa [String.empty_append, String.append_empty] at h

end Segment

/-! ## Segments of settings files -/

/-- The segment of a settings file is the text of its value. -/
theorem scalar_segment_of_settings {raw : RawSettings} {s : Settings} (h : raw.settings = .ok s) :
    raw.scalar .segment = .ok s.segment := by
  obtain ⟨segment, hsegment, h⟩ := bind_eq_ok_iff.mp h
  obtain ⟨interface, -, h⟩ := bind_eq_ok_iff.mp h
  obtain ⟨dump, -, h⟩ := bind_eq_ok_iff.mp h
  obtain ⟨useInterface, -, h⟩ := bind_eq_ok_iff.mp h
  obtain ⟨ruleFile, -, h⟩ := bind_eq_ok_iff.mp h
  rw [← Except.ok.inj h]
  exact hsegment

theorem segment_ofYaml {π σ : Type} {r : Reader π σ} {text : String} {raw : RawSettings} {s : Settings}
    {z : Int} (hblank : Text.isBlankText text = false)
    (hdecode : r.decode text (RawSettings.ofPlace r) = .ok raw)
    (hraw : raw.segment = some (.number (.integer z))) (hs : Settings.ofYaml r text = .ok s) :
    s.segment = toString z := by
  simp only [Settings.ofYaml, hblank, hdecode, Bool.false_eq_true, if_false] at hs
  have hscalar := scalar_segment_of_settings hs
  rw [RawSettings.scalar, RawSettings.value?, hraw] at hscalar
  exact (Except.ok.inj hscalar).symm

open Segment

/-- A text that names a segment is read as its number without a report. Every other text is read as 220,
with one warning that shows the text as it was. So the decimal text of any number of 32 bits, with blank
characters around it or none, is read as the number, and settings whose file has the number for their
segment have that segment, whatever reader the file is read with. -/
theorem parses_exactly_names :
    (∀ s z, Segment.Names s z → Segment.parse s = ⟨z, []⟩) ∧
    (∀ s, (¬ ∃ z, Segment.Names s z) → ∃ e, Segment.parse s = ⟨220, [e]⟩ ∧
      e.level = .warn ∧ e.fields = [("value", s)]) ∧
    ∀ z : Int, -2 ^ 31 ≤ z ∧ z ≤ 2 ^ 31 - 1 →
      (∀ before after : String, (∀ c ∈ before.toList, Text.isBlank c = true) →
        (∀ c ∈ after.toList, Text.isBlank c = true) →
        Segment.parse (before ++ toString z ++ after) = ⟨z, []⟩) ∧
      ∀ (π σ : Type) (r : Reader π σ) text raw s, Text.isBlankText text = false →
        r.decode text (RawSettings.ofPlace r) = .ok raw →
        raw.segment = some (.number (.integer z)) → Settings.ofYaml r text = .ok s →
        s.segmentId = ⟨z, []⟩ := by
  refine ⟨fun s z => parse_of_names, fun s h => ⟨_, parse_of_not_names h, rfl, rfl⟩, fun z hz => ⟨?_, ?_⟩⟩
  · exact fun before after hbefore hafter => parse_of_names (names_pad hz hbefore hafter)
  · intro π σ r text raw s hblank hdecode hraw hs
    rw [Settings.segmentId, segment_ofYaml hblank hdecode hraw hs]
    exact parse_of_names (names_toString hz)

/-- A settings file with a negative segment. -/
def negativeText : String := "segment: -4"

/-- The document of that file. -/
def negativeDocument : Document :=
  .ofRoot (.mapping {} [(.scalar {} .plain "segment", .scalar {} .plain "-4")])

theorem decode_negativeText :
    Document.reader.decode negativeText (RawSettings.ofPlace Document.reader) =
      .ok { segment := some (.number (.integer (-4))) } := by
  have hdoc : Document.ofText? negativeText = some negativeDocument :=
    Document.ofText?_of_tokens (by cbv) (by cbv)
  have hread : (RawSettings.ofPlace Document.reader ⟨negativeDocument, [], negativeDocument.root⟩).run
      negativeDocument.aliasLimit =
        .ok ({ segment := some (.number (.integer (-4))) }, negativeDocument.aliasLimit) := by
    cbv
  exact Document.decode_eq_ok hdoc hread

theorem negativeText_segment :
    ∃ s, Settings.ofYaml Document.reader negativeText = .ok s ∧ s.segmentId = ⟨-4, []⟩ := by
  have hblank : Text.isBlankText negativeText = false := by decide
  have hs : Settings.ofYaml Document.reader negativeText = .ok { segment := "-4" } := by
    simp only [Settings.ofYaml, hblank, decode_negativeText, Bool.false_eq_true, if_false]
    rfl
  exact ⟨_, hs,
    (parses_exactly_names.2.2 (-4) (by decide)).2 _ _ _ _ _ _ hblank decode_negativeText rfl hs⟩

end PolicyGraph
