import MediaRange.Unicode.Printable

/-!
# Quoted texts

`quoted` writes a text between double quotes so that every character of it can be seen: controls,
marks that attach to other characters and unassigned code points are escaped.
-/

namespace MediaRange.Unicode

/-- A character by its code point, as in `\u{301}`. -/
def codeEscape (c : Char) : List Char := "\\u\x7b".toList ++ Nat.toDigits 16 c.toNat ++ ['}']

def quotedChar (c : Char) : List Char :=
  match c with
  | '\x00' => ['\\', '0']
  | '\t' => ['\\', 't']
  | '\r' => ['\\', 'r']
  | '\n' => ['\\', 'n']
  | '\\' => ['\\', '\\']
  | '"' => ['\\', '"']
  | c => if !extendsGrapheme c && isPrintable c then [c] else codeEscape c

def quoted (text : List Char) : List Char := '"' :: text.flatMap quotedChar ++ ['"']

end MediaRange.Unicode
