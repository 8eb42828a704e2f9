import MediaRange.Stylesheet.Scanner

/-!
# Rewriting stylesheets

`Stylesheet.process` rewrites the preludes of all media rules in a stylesheet and keeps every other
character. The blanks around the parameters stay too.
-/

namespace MediaRange

/-- A rule that was rewritten, with the line of its `@`. -/
structure RuleChange where
  line : Nat
  name : List Char
  before : List Char
  after : List Char
  rewrites : List Rewrite
  deriving DecidableEq, Repr

/-- A stylesheet after rewriting. -/
structure Processed where
  css : List Char
  changes : List RuleChange
  deriving DecidableEq, Repr

namespace Processed

def isChanged (p : Processed) : Bool := !p.changes.isEmpty

def rewriteCount (p : Processed) : Nat := (p.changes.flatMap (·.rewrites)).length

end Processed

namespace Stylesheet

def newlines (text : List Char) : Nat := text.count '\n'

def processPiece (engine : Engine) (line : Nat) : Piece → Logged Processed
  | .verbatim c => ⟨⟨[c], []⟩, []⟩
  | .prelude name raw =>
    let params := Unicode.trim raw
    if params.isEmpty then ⟨⟨raw, []⟩, []⟩
    else
      let ⟨outcome, log⟩ := engine.rewriteRule ⟨name, params⟩
      match outcome with
      | .rewritten after rewrites =>
        ⟨⟨Unicode.leadingBlanks raw ++ after ++ Unicode.trailingBlanks (Unicode.trimLeft raw),
          [⟨line, name, params, after, rewrites⟩]⟩, log⟩
      | _ => ⟨⟨raw, []⟩, log⟩

def processPieces (engine : Engine) (line : Nat) : List Piece → Logged Processed
  | [] => ⟨⟨[], []⟩, []⟩
  | piece :: pieces =>
    let first := processPiece engine line piece
    let rest := processPieces engine (line + newlines piece.text) pieces
    ⟨⟨first.value.css ++ rest.value.css, first.value.changes ++ rest.value.changes⟩,
      first.log ++ rest.log⟩

/-- Rewrites every media rule of a stylesheet. -/
def process (engine : Engine) (css : List Char) : Logged Processed :=
  processPieces engine 1 (Scanner.pieces {} css)

end Stylesheet

end MediaRange
