/-!
# Exponents of numbers

An exponent is an `e` or `E`, an optional sign, and at least one digit. Where no digit follows, the
letter is not an exponent but a name of its own.
-/

namespace Stepwise.Text

/-- The exponent at the front of a text, or nothing if there is none. -/
def exponentAtFront (isDigit : Char → Bool) (text : List Char) : List Char :=
  match text with
  | [] => []
  | e :: rest =>
    if e = 'e' ∨ e = 'E' then
      let sign := (rest.take 1).filter fun c => c = '+' ∨ c = '-'
      let digits := (rest.drop sign.length).takeWhile isDigit
      if digits.isEmpty then [] else e :: (sign ++ digits)
    else []

end Stepwise.Text
