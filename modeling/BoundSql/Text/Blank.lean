/-!
# Blank characters

The characters that separate words without being seen, as Unicode lists them
under the property White_Space. Trimming removes them from the ends of a
text, and a text is blank when it holds nothing else.
-/

namespace BoundSql.Text

/-- Whether a character has the property White_Space. -/
def isBlank (c : Char) : Bool :=
  let n := c.toNat
  (9 ≤ n && n ≤ 13) || n == 0x20 || n == 0x85 || n == 0xA0 || n == 0x1680
    || (0x2000 ≤ n && n ≤ 0x200A) || n == 0x2028 || n == 0x2029 || n == 0x202F
    || n == 0x205F || n == 0x3000

/-- The characters without the blanks at their end. -/
def dropBlankEnd (cs : List Char) : List Char :=
  (cs.reverse.dropWhile isBlank).reverse

/-- A text without the blanks at its end. -/
def trimEnd (s : String) : String :=
  String.ofList (dropBlankEnd s.toList)

/-- A text without the blanks at either end. -/
def trim (s : String) : String :=
  String.ofList (dropBlankEnd (s.toList.dropWhile isBlank))

/-- Whether a text holds nothing but blanks. -/
def allBlank (s : String) : Bool :=
  s.toList.all isBlank

/-- The trimmed text, unless nothing is left of it. -/
def nonBlank? (text : Option String) : Option String :=
  (text.map trim).filter fun t => !t.isEmpty

/-- Nothing is dropped from a text that does not end in a blank. -/
theorem dropBlankEnd_concat {cs : List Char} {c : Char} (h : isBlank c = false) :
    dropBlankEnd (cs ++ [c]) = cs ++ [c] := by
  simp [dropBlankEnd, h]

/-- A text that does not end in a blank loses nothing. -/
theorem trimEnd_eq_self {s : String} (h : ∀ c ∈ s.toList.getLast?, isBlank c = false) :
    trimEnd s = s := by
  rcases List.eq_nil_or_concat s.toList with hs | ⟨cs, c, hs⟩
  · simp [trimEnd, dropBlankEnd, hs, ← String.toList_inj]
  · have hc : isBlank c = false := h c (by simp [hs])
    rw [trimEnd, hs, List.concat_eq_append, dropBlankEnd_concat hc, ← List.concat_eq_append, ← hs,
      String.ofList_toList]

end BoundSql.Text
