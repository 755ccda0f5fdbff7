import Houdinny.Lib.Toml

/-!
# Scalars

The TOML values that are written without quotes: booleans, integers in four
bases, floats, and dates and times (`scalar`). An integer has 64 bits, and the
fields of a date or time are in their ranges.
-/

namespace Toml

/-! ## Numbers -/

/-- The digits of a number, between which there may be single underscores. -/
def digits (isDigit : Char → Bool) (s : Text) : Option Text :=
  let groups := s.splitOn '_'
  if groups.all fun g => !g.isEmpty && g.all isDigit then some groups.flatten else none

/-- A hexadecimal digit. -/
def isHex (c : Char) : Bool := c.isDigit || ('a' ≤ c && c ≤ 'f') || ('A' ≤ c && c ≤ 'F')

/-- The value of a hexadecimal digit. -/
def digitValue (c : Char) : ℕ :=
  if c.isDigit then c.toNat - 48 else if 'a' ≤ c then c.toNat - 87 else c.toNat - 55

/-- The value of a sequence of digits. -/
def valueOf (base : ℕ) (s : Text) : ℕ := s.foldl (fun n c => base * n + digitValue c) 0

/-- A sign, if there is one, and what it is the sign of. -/
def sign : Text → Bool × Text
  | '-' :: s => (true, s)
  | '+' :: s => (false, s)
  | s => (false, s)

/-- A decimal number without sign and leading zeros. -/
def decimal (s : Text) : Option ℕ :=
  if s = ['0'] then some 0
  else if s.head? = some '0' then none
  else (digits Char.isDigit s).map (valueOf 10)

/-- A number with the prefix of its base, or a decimal one. -/
def anyInteger : Text → Option ℤ
  | '0' :: 'x' :: s => (digits isHex s).map fun d => (valueOf 16 d : ℤ)
  | '0' :: 'o' :: s => (digits (fun c => '0' ≤ c && c ≤ '7') s).map fun d => (valueOf 8 d : ℤ)
  | '0' :: 'b' :: s => (digits (fun c => c = '0' || c = '1') s).map fun d => (valueOf 2 d : ℤ)
  | s => (decimal (sign s).2).map fun n => if (sign s).1 then -(n : ℤ) else n

/-- An integer of 64 bits. -/
def integer (s : Text) : Option ℤ :=
  (anyInteger s).filter fun n => -9223372036854775808 ≤ n && n ≤ 9223372036854775807

/-- A number with a fractional part, an exponent, or both. -/
def isFloat (s : Text) : Bool :=
  let number := (sign s).2
  let lower := number.map fun c => if c = 'E' then 'e' else c
  let (mantissa, exponent) := match Text.splitOnce ['e'] lower with
    | some (m, e) => (m, some (sign e).2)
    | none => (lower, none)
  let mantissaOk := match Text.splitOnce ['.'] mantissa with
    | some (int, frac) => (decimal int).isSome && (digits Char.isDigit frac).isSome
    | none => (decimal mantissa).isSome && exponent.isSome
  number = "inf".toList || number = "nan".toList ||
    (mantissaOk && exponent.all fun e => (digits Char.isDigit e).isSome)

/-! ## Dates and times -/

/-- A number of two decimal digits, if it is in a range. -/
def isField (lo hi : ℕ) (s : Text) : Bool :=
  s.length = 2 && s.all Char.isDigit && lo ≤ valueOf 10 s && valueOf 10 s ≤ hi

/-- A year with a 29th of February. -/
def isLeapYear (y : ℕ) : Bool := y % 4 = 0 && (y % 100 ≠ 0 || y % 400 = 0)

/-- The number of days of a month. -/
def daysInMonth (y m : ℕ) : ℕ :=
  if m = 2 then if isLeapYear y then 29 else 28
  else if m = 4 || m = 6 || m = 9 || m = 11 then 30
  else 31

/-- `YYYY-MM-DD`. -/
def isDate (s : Text) : Bool :=
  match s.splitOn '-' with
  | [y, m, d] => y.length = 4 && y.all Char.isDigit && isField 1 12 m &&
      isField 1 (daysInMonth (valueOf 10 y) (valueOf 10 m)) d
  | _ => false

/-- `HH:MM:SS`, possibly with a fraction of a second. -/
def isTime (s : Text) : Bool :=
  let (whole, fraction) := match Text.splitOnce ['.'] s with
    | some (w, f) => (w, some f)
    | none => (s, none)
  (match whole.splitOn ':' with
    | [h, m, sec] => isField 0 23 h && isField 0 59 m && isField 0 60 sec
    | _ => false) && fraction.all fun f => !f.isEmpty && f.all Char.isDigit

/-- `Z`, or the distance from it. -/
def isOffset : Text → Bool
  | ['Z'] | ['z'] => true
  | '+' :: s | '-' :: s => match s.splitOn ':' with
    | [h, m] => isField 0 23 h && isField 0 59 m
    | _ => false
  | _ => false

/-- A date, a time, or both, the latter possibly with an offset. -/
def isDatetime (s : Text) : Bool :=
  isDate s || isTime s ||
    (isDate (s.take 10) && match s.drop 10 with
      | c :: rest =>
        let (time, offset) := rest.span fun c => c.isDigit || c = ':' || c = '.'
        (c = 'T' || c = 't' || c = ' ') && isTime time && (offset.isEmpty || isOffset offset)
      | [] => false)

/-- The value that is written without quotes as `s`. -/
def scalar (s : Text) : Option Value :=
  if s = "true".toList then some (.boolean true)
  else if s = "false".toList then some (.boolean false)
  else match integer s with
    | some n => some (.integer n)
    | none =>
      if isFloat s then some (.float s) else if isDatetime s then some (.datetime s) else none

end Toml
