import Houdinny.Lib.Text

/-!
# JSON values

The values that JSON texts stand for (`Json`), with numbers of any type `ν`. A library
that reads and writes the texts is a `Json.Format`.

Nothing is said of the texts, but that they are written in one line (`Format.OneLine`). So a
program over JSON is verified for any library: what it looks at is in the values, and a
reply is on a line of its own.
-/

/-- A JSON value. The members of an object are listed with their keys, each key once. -/
inductive Json (ν : Type)
  | null
  | bool (b : Bool)
  | number (n : ν)
  | string (s : Text)
  | array (vs : List (Json ν))
  | object (members : List (Text × Json ν))

namespace Json

variable {ν : Type}

/-- The member of an object with a key: nothing, of any other value. -/
def get (key : Text) : Json ν → Option (Json ν)
  | object members => members.lookup key
  | _ => none

/-- The text of a string: nothing, of any other value. -/
def asStr : Json ν → Option Text
  | string s => some s
  | _ => none

/-- Is the value an object? -/
def isObject : Json ν → Bool
  | object _ => true
  | _ => false

/-- A library that reads and writes JSON texts. -/
structure Format (ν : Type) where
  /-- The value that a text stands for, if it is valid JSON. -/
  parse : Text → Option (Json ν)
  /-- The compact text of a value. -/
  print : Json ν → Text
  /-- Integers, as numbers. -/
  ofInt : ℤ → ν

/-- The texts are written in one line. -/
def Format.OneLine (f : Format ν) : Prop := ∀ v, '\n' ∉ f.print v

end Json
