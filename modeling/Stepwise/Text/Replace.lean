/-!
# Replacing pieces of a text

A replacement rule looks at the rest of a text and says what becomes of a piece at its front: how many
characters the piece has and what is written for it. The rule then goes on behind the piece, so pieces
never overlap.
-/

namespace Stepwise.Text

/-- A piece at the front of a text, and what is written in its place. -/
structure Piece where
  length : Nat
  written : List Char
  deriving DecidableEq

/-- The first `count` characters, kept as they are. -/
def Piece.keep (count : Nat) (text : List Char) : Piece where
  length := count
  written := text.take count

/-- Replaces the pieces of what is left of a text after its next `skip` characters, which belong to a
piece that has been written already. An empty piece counts as one of one character. -/
def replaceAfter (rule : List Char → Piece) : Nat → List Char → List Char
  | _, [] => []
  | skip + 1, _ :: rest => replaceAfter rule skip rest
  | 0, c :: rest =>
    let piece := rule (c :: rest)
    piece.written ++ replaceAfter rule (piece.length - 1) rest

/-- Replaces the pieces of a text by a rule, from left to right. -/
def replace (rule : List Char → Piece) (text : List Char) : List Char :=
  replaceAfter rule 0 text

end Stepwise.Text
