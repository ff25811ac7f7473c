/-!
# Names in formulas

A formula can use three kinds of names: the variable `x`, two constants, and eight functions of one
argument. No other name means anything, so a formula cannot reach beyond them.
-/

namespace Stepwise.Formula

/-- A named constant. -/
inductive Constant where
  | pi
  | e
  deriving DecidableEq

/-- A function that a formula can call. -/
inductive Function where
  | sin
  | cos
  | tan
  | exp
  | log
  | log10
  | sqrt
  | abs
  deriving DecidableEq

namespace Constant

/-- The name of a constant in a formula. -/
def name : Constant → String
  | pi => "pi"
  | e => "e"

/-- The double nearest to a constant. -/
def value : Constant → Float
  | pi => 3.141592653589793
  | e => 2.718281828459045

/-- All constants. -/
def all : List Constant :=
  [pi, e]

/-- The constant of a name. -/
def ofName? (name : String) : Option Constant :=
  all.find? (·.name = name)

end Constant

namespace Function

/-- The name of a function in a formula. -/
def name : Function → String
  | sin => "sin"
  | cos => "cos"
  | tan => "tan"
  | exp => "exp"
  | log => "log"
  | log10 => "log10"
  | sqrt => "sqrt"
  | abs => "abs"

/-- All functions, in the order in which they are listed to users. -/
def all : List Function :=
  [sin, cos, tan, exp, log, log10, sqrt, abs]

/-- The function of a name. -/
def ofName? (name : String) : Option Function :=
  all.find? (·.name = name)

end Function

/-- The name of the variable. -/
def variableName : String :=
  "x"

/-- What a name in a formula stands for. -/
inductive Symbol where
  | variable
  | constant (c : Constant)
  | function (f : Function)
  deriving DecidableEq

/-- The meaning of a name, if it has one. -/
def Symbol.ofName? (name : String) : Option Symbol :=
  if name = variableName then some .variable
  else
    match Constant.ofName? name with
    | some c => some (.constant c)
    | none => (Function.ofName? name).map .function

/-- The name of a symbol. -/
def Symbol.name : Symbol → String
  | .variable => variableName
  | .constant c => c.name
  | .function f => f.name

/-- The constant of a name has that name. -/
theorem Constant.name_of_ofName? {name : String} {c : Constant}
    (h : Constant.ofName? name = some c) : c.name = name := by
  simpa using List.find?_some (p := fun c : Constant => c.name = name) h

/-- The function of a name has that name. -/
theorem Function.name_of_ofName? {name : String} {f : Function}
    (h : Function.ofName? name = some f) : f.name = name := by
  simpa using List.find?_some (p := fun f : Function => f.name = name) h

/-- A symbol is what its name stands for. -/
theorem Symbol.ofName?_name : (symbol : Symbol) → Symbol.ofName? symbol.name = some symbol
  | .variable => rfl
  | .constant c => by cases c <;> rfl
  | .function f => by cases f <;> rfl

/-- What a name stands for has that name. -/
theorem Symbol.name_of_ofName? {name : String} {symbol : Symbol}
    (h : Symbol.ofName? name = some symbol) : symbol.name = name := by
  unfold Symbol.ofName? at h
  split at h
  case isTrue e => cases h; exact e.symm
  case isFalse =>
    split at h
    case h_1 c hc => cases h; exact Constant.name_of_ofName? hc
    case h_2 =>
      obtain ⟨f, hf, rfl⟩ := Option.map_eq_some_iff.mp h
      exact Function.name_of_ofName? hf

end Stepwise.Formula
