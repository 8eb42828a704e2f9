import MediaRange.Unicode.Ranges

/-!
# Blanks

`isBlank` is the class of white space of all scripts. `trim` takes the blanks off both ends of a
text: `leading_append_trim_append_trailing` shows that nothing else is lost.
-/

namespace MediaRange.Unicode

/-- White space: the controls from tab to carriage return, the space, and its kin. -/
def blankRanges : Ranges :=
  [(0x9, 0xD), (0x20, 0x20), (0x85, 0x85), (0xA0, 0xA0), (0x1680, 0x1680), (0x2000, 0x200A),
   (0x2028, 0x2029), (0x202F, 0x202F), (0x205F, 0x205F), (0x3000, 0x3000)]

def isBlank (c : Char) : Bool := blankRanges.has c.toNat

def leadingBlanks (text : List Char) : List Char := text.takeWhile isBlank

def trimLeft (text : List Char) : List Char := text.dropWhile isBlank

def trimRight (text : List Char) : List Char := (trimLeft text.reverse).reverse

def trim (text : List Char) : List Char := trimRight (trimLeft text)

def trailingBlanks (text : List Char) : List Char := (leadingBlanks text.reverse).reverse

theorem leadingBlanks_append_trimLeft (text : List Char) :
    leadingBlanks text ++ trimLeft text = text := List.takeWhile_append_dropWhile

theorem trimRight_append_trailingBlanks (text : List Char) :
    trimRight text ++ trailingBlanks text = text := by
  rw [trimRight, trailingBlanks, ← List.reverse_append, leadingBlanks_append_trimLeft,
    List.reverse_reverse]

/-- A text is its leading blanks, its trimmed part and the blanks after that, in this order. -/
theorem leading_append_trim_append_trailing (text : List Char) :
    leadingBlanks text ++ (trim text ++ trailingBlanks (trimLeft text)) = text := by
  rw [trim, trimRight_append_trailingBlanks, leadingBlanks_append_trimLeft]

end MediaRange.Unicode
