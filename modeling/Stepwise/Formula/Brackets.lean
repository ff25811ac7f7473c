/-!
# Balanced brackets

A text is balanced if its round brackets match: no closing bracket comes before its opening one, and
none is left open.
-/

namespace Stepwise.Formula

/-- Do the brackets of a text match, when `depth` brackets are open already? -/
def balancedWithin : Nat → List Char → Bool
  | depth, [] => depth = 0
  | depth, c :: rest =>
    if c = '(' then balancedWithin (depth + 1) rest
    else if c = ')' then
      match depth with
      | 0 => false
      | depth + 1 => balancedWithin depth rest
    else balancedWithin depth rest

/-- Do the brackets of a text match? -/
def balanced (text : List Char) : Bool :=
  balancedWithin 0 text

end Stepwise.Formula
