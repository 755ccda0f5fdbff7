import Houdinny.Lib.Run
import Houdinny.Lib.Toml.Item
import Houdinny.Lib.Toml.Scalar

/-!
# Reading TOML

TOML 1.0 is read from left to right, one character at a time (`Mode.step`). A
mode says what has been read of the innermost construct: a line, a comment, a
key, a value, a string. Reading a character leads to another mode, and may
complete parts of the document, each of which is an action on the draft
(`Reader.step`).

A document ends like a line: it is read with a newline after its last line
(`parse`). Newlines in strings are read as line feeds, whatever they are in the
text, and a byte order mark is dropped.

As the reader goes from left to right, what it does on a text does not depend on
what comes after it: `Run.run` of the reader on `s ++ t` is that on `t` after that
on `s`.

There is a step function for each kind of mode (`stepLine`, `stepKey`, `stepValue`,
`stepString` and so on), and `Mode.step` dispatches to them. A value without quotes is known
to be complete only by the character after it, which is then read again after the value
(`complete`), and so is a string that ends in quotes which might have gone on
(`closeBefore`).

The proofs about the reader, in `Lib.Toml.Strings`, `Lib.Toml.Render` and
`Lib.Toml.Values`, are about single steps and about runs of them.
-/

namespace Toml

/-- What is open around a value, innermost first. -/
inductive Bracket
  | array
  | braces
  deriving DecidableEq

/-- What a key is read for: a pair, outside or inside of braces, the header of a
    table, or that of an element of an array. -/
inductive Use
  | pair (outer : List Bracket)
  | table
  | element
  deriving DecidableEq

/-- What a string is read for. -/
inductive Purpose
  | key (use : Use) (ks : List Text)
  | value (outer : List Bracket) (slot : Slot)
  deriving DecidableEq

/-- Strings with escapes, and without. -/
inductive Quote
  | basic
  | literal
  deriving DecidableEq

/-- The character that such a string is written with. -/
def Quote.char : Quote → Char
  | basic => '"'
  | literal => '\''

/-- What has been read of a string, of which the characters `acc` are known. -/
inductive Reading
  /-- The first quote. -/
  | opened
  /-- Two quotes: the empty string, or the start of a multi-line string. -/
  | empty
  /-- Characters of a string of one line. -/
  | single (acc : Text)
  /-- A backslash. -/
  | escape (multi : Bool) (acc : Text)
  /-- An escaped character, of which `n` digits are to be read, up to them. -/
  | unicode (multi : Bool) (acc : Text) (n code : ℕ)
  /-- The three quotes that a multi-line string starts with. -/
  | multiStart
  /-- Characters of a multi-line string. -/
  | multi (acc : Text)
  /-- One or two quotes in a multi-line string. -/
  | quotes (acc : Text) (two : Bool)
  /-- Three quotes, or four, of which one belongs to the string. -/
  | closed (acc : Text) (four : Bool)
  /-- A backslash at the end of a line, up to the newline, and after it. -/
  | trimLine (acc : Text)
  | trim (acc : Text)
  deriving DecidableEq

/-- What has been read. -/
inductive Mode
  /-- Nothing. -/
  | start
  /-- The start of a line. -/
  | line
  /-- A comment, after which it goes on with `back` on the next line. -/
  | comment (back : Mode)
  /-- A carriage return, after which there is a line feed. -/
  | cr (back : Mode)
  /-- The first bracket of a header. -/
  | bracket
  /-- A key up to its next part. -/
  | key (use : Use) (ks : List Text)
  /-- A key, of which the last part `k` is bare and may go on. -/
  | bare (use : Use) (ks : List Text) (k : Text)
  /-- A key, of which the last part is complete. -/
  | keyEnd (use : Use) (ks : List Text) (k : Text)
  /-- The header of an element of an array up to its last bracket. -/
  | bracketEnd (ks : List Text) (k : Text)
  /-- What comes before a value. -/
  | value (outer : List Bracket) (slot : Slot)
  /-- A brace, after which there is a pair, or none. -/
  | braces (outer : List Bracket)
  | string (q : Quote) (purpose : Purpose) (r : Reading)
  /-- Characters of a value without quotes. -/
  | token (outer : List Bracket) (slot : Slot) (s : Text)
  /-- A date and a space, after which there may be a time. -/
  | date (outer : List Bracket) (slot : Slot) (s : Text)
  /-- A value, or a header. -/
  | after (outer : List Bracket)
  deriving DecidableEq

/-- A character that may stand between the parts of a line. -/
def isBlank (c : Char) : Bool := c = ' ' || c = '\t'

/-- A character of a value without quotes. -/
def isToken (c : Char) : Bool := c.isAlphanum || "+-_.:".toList.contains c

/-- What a character leads to. -/
abbrev Outcome := Option (Mode × List Action)

/-- Another mode, and no action. -/
def goTo (m : Mode) : Outcome := some (m, [])

namespace Mode

/-- What comes on the next line after a value. -/
def nextLine : List Bracket → Option Mode
  | [] => some line
  | .array :: outer => some (after (.array :: outer))
  | .braces :: _ => none

/-- A comment goes on to the end of the line. -/
def stepComment (back : Mode) (c : Char) : Outcome :=
  if c = '\n' then goTo back
  else if c = '\r' then goTo (cr back)
  else if isControl c then none
  else goTo (comment back)

/-- After a value: the line ends, or what is open around the value goes on or is closed. -/
def stepAfter (outer : List Bracket) (c : Char) : Outcome :=
  if isBlank c then goTo (after outer)
  else if c = '\n' then (nextLine outer).map (·, [])
  else if c = '\r' then (nextLine outer).map (cr ·, [])
  else if c = '#' then (nextLine outer).map (comment ·, [])
  else match outer with
    | [] => none
    | .array :: rest =>
      if c = ',' then goTo (value outer .item)
      else if c = ']' then some (after rest, [.close])
      else none
    | .braces :: rest =>
      if c = ',' then goTo (key (.pair outer) [])
      else if c = '\x7d' then some (after rest, [.close])
      else none

/-- A value is complete before the next character. -/
def complete (outer : List Bracket) (slot : Slot) (v : Value) (c : Char) : Outcome :=
  (stepAfter outer c).map fun p => (p.1, .put slot v :: p.2)

/-- At the start of a key, or of a part of a dotted key. -/
def stepKey (use : Use) (ks : List Text) (c : Char) : Outcome :=
  if isBlank c then goTo (key use ks)
  else if isBare c then goTo (bare use ks [c])
  else if c = '"' then goTo (string .basic (.key use ks) .opened)
  else if c = '\'' then goTo (string .literal (.key use ks) .opened)
  else none

/-- After a key, or a part of one. -/
def stepKeyEnd (use : Use) (ks : List Text) (k : Text) (c : Char) : Outcome :=
  if isBlank c then goTo (keyEnd use ks k)
  else if c = '.' then goTo (key use (ks ++ [k]))
  else match use with
    | .pair outer => if c = '=' then goTo (value outer (.pair ks k)) else none
    | .table => if c = ']' then some (after [], [.table ks k]) else none
    | .element => if c = ']' then goTo (bracketEnd ks k) else none

/-- At the start of a line. -/
def stepLine (c : Char) : Outcome :=
  if isBlank c then goTo line
  else if c = '\n' then goTo line
  else if c = '\r' then goTo (cr line)
  else if c = '#' then goTo (comment line)
  else if c = '[' then goTo bracket
  else stepKey (.pair []) [] c

/-- At the start of a value. -/
def stepValue (outer : List Bracket) (slot : Slot) (c : Char) : Outcome :=
  if isBlank c then goTo (value outer slot)
  else if c = '"' then goTo (string .basic (.value outer slot) .opened)
  else if c = '\'' then goTo (string .literal (.value outer slot) .opened)
  else if c = '[' then some (value (.array :: outer) .item, [.openArray slot])
  else if c = '\x7b' then some (braces (.braces :: outer), [.openTable slot])
  else if isToken c then goTo (token outer slot [c])
  else match slot, outer with
    -- An array may be empty, or have a comma after its last item.
    | .item, .array :: rest =>
      if c = '\n' then goTo (value outer slot)
      else if c = '\r' then goTo (cr (value outer slot))
      else if c = '#' then goTo (comment (value outer slot))
      else if c = ']' then some (after rest, [.close])
      else none
    | _, _ => none

/-- After an opening brace: a key, or the closing brace. -/
def stepBraces (outer : List Bracket) (c : Char) : Outcome :=
  if isBlank c then goTo (braces outer)
  else if c = '\x7d' then some (after outer.tail, [.close])
  else stepKey (.pair outer) [] c

/-- Within a value without quotes. -/
def stepToken (outer : List Bracket) (slot : Slot) (s : Text) (c : Char) : Outcome :=
  if isToken c then goTo (token outer slot (s ++ [c]))
  else if c = ' ' ∧ isDate s then goTo (date outer slot s)
  else (scalar s).bind fun v => complete outer slot v c

/-- After the date of a value that may go on with a time, after a blank. -/
def stepDate (outer : List Bracket) (slot : Slot) (s : Text) (c : Char) : Outcome :=
  if c.isDigit then goTo (token outer slot (s ++ [' ', c]))
  else complete outer slot (.datetime s) c

end Mode

/-! ## Strings -/

/-- The character that is escaped by a letter. -/
def unescape (c : Char) : Option Char :=
  [('b', '\x08'), ('t', '\t'), ('n', '\n'), ('f', '\x0c'), ('r', '\r'), ('"', '"'),
    ('\\', '\\')].lookup c

/-- The character of a code, if there is one. -/
def ofCode (n : ℕ) : Option Char := if h : n.isValidChar then some (Char.ofNatAux n h) else none

namespace Mode

/-- Characters of a string of one line, or of several. -/
def body (multi : Bool) (acc : Text) : Reading := if multi then .multi acc else .single acc

/-- A string is complete. -/
def close (acc : Text) : Purpose → Outcome
  | .key use ks => goTo (keyEnd use ks acc)
  | .value outer slot => some (after outer, [.put slot (.string acc)])

/-- A string is complete before the next character. -/
def closeBefore (acc : Text) (c : Char) : Purpose → Outcome
  | .key use ks => stepKeyEnd use ks acc c
  | .value outer slot => complete outer slot (.string acc) c

variable (q : Quote) (p : Purpose)

/-- Within a string of one line. -/
def stepSingle (acc : Text) (c : Char) : Outcome :=
  if c = q.char then close acc p
  else if c = '\\' ∧ q = .basic then goTo (string q p (.escape false acc))
  else if isControl c then none
  else goTo (string q p (.single (acc ++ [c])))

/-- Within a string of several lines. -/
def stepMulti (acc : Text) (c : Char) : Outcome :=
  if c = q.char then goTo (string q p (.quotes acc false))
  else if c = '\\' ∧ q = .basic then goTo (string q p (.escape true acc))
  else if c = '\n' then goTo (string q p (.multi (acc ++ ['\n'])))
  else if c = '\r' then goTo (cr (string q p (.multi (acc ++ ['\n']))))
  else if isControl c then none
  else goTo (string q p (.multi (acc ++ [c])))

/-- After a backslash: an escaped character, or the end of a line. -/
def stepEscape (multi : Bool) (acc : Text) (c : Char) : Outcome :=
  match unescape c with
  | some x => goTo (string q p (body multi (acc ++ [x])))
  | none =>
    if c = 'u' then goTo (string q p (.unicode multi acc 4 0))
    else if c = 'U' then goTo (string q p (.unicode multi acc 8 0))
    else if multi ∧ isBlank c then goTo (string q p (.trimLine acc))
    else if multi ∧ c = '\n' then goTo (string q p (.trim acc))
    else if multi ∧ c = '\r' then goTo (cr (string q p (.trim acc)))
    else none

/-- Within the code of an escaped character, of which `n` digits are left. -/
def stepUnicode (multi : Bool) (acc : Text) (n code : ℕ) (c : Char) : Outcome :=
  if isHex c then
    let code := 16 * code + digitValue c
    if n ≤ 1 then (ofCode code).map fun x => (string q p (body multi (acc ++ [x])), [])
    else goTo (string q p (.unicode multi acc (n - 1) code))
  else none

/-- Within a string: what it is read for does not matter until it is closed. -/
def stepString : Reading → Char → Outcome
  | .opened, c =>
    if c = q.char then
      match p with
      | .key use ks => goTo (keyEnd use ks [])
      | .value .. => goTo (string q p .empty)
    else stepSingle q p [] c
  | .empty, c => if c = q.char then goTo (string q p .multiStart) else closeBefore [] c p
  | .single acc, c => stepSingle q p acc c
  | .escape multi acc, c => stepEscape q p multi acc c
  | .unicode multi acc n code, c => stepUnicode q p multi acc n code c
  | .multiStart, c =>
    -- A newline right after the quotes is dropped.
    if c = '\n' then goTo (string q p (.multi []))
    else if c = '\r' then goTo (cr (string q p (.multi [])))
    else stepMulti q p [] c
  | .multi acc, c => stepMulti q p acc c
  | .quotes acc false, c =>
    if c = q.char then goTo (string q p (.quotes acc true)) else stepMulti q p (acc ++ [q.char]) c
  | .quotes acc true, c =>
    if c = q.char then goTo (string q p (.closed acc false))
    else stepMulti q p (acc ++ [q.char, q.char]) c
  | .closed acc false, c =>
    if c = q.char then goTo (string q p (.closed (acc ++ [c]) true)) else closeBefore acc c p
  | .closed acc true, c => if c = q.char then close (acc ++ [c]) p else closeBefore acc c p
  | .trimLine acc, c =>
    if isBlank c then goTo (string q p (.trimLine acc))
    else if c = '\n' then goTo (string q p (.trim acc))
    else if c = '\r' then goTo (cr (string q p (.trim acc)))
    else none
  | .trim acc, c =>
    if isBlank c ∨ c = '\n' then goTo (string q p (.trim acc))
    else if c = '\r' then goTo (cr (string q p (.trim acc)))
    else stepMulti q p acc c

/-- What a character leads to. -/
def step : Mode → Char → Outcome
  | start, c => if c = '\ufeff' then goTo line else stepLine c
  | line, c => stepLine c
  | comment back, c => stepComment back c
  | cr back, c => if c = '\n' then goTo back else none
  | bracket, c => if c = '[' then goTo (key .element []) else stepKey .table [] c
  | key use ks, c => stepKey use ks c
  | bare use ks k, c => if isBare c then goTo (bare use ks (k ++ [c])) else stepKeyEnd use ks k c
  | keyEnd use ks k, c => stepKeyEnd use ks k c
  | bracketEnd ks k, c => if c = ']' then some (after [], [.element ks k]) else none
  | value outer slot, c => stepValue outer slot c
  | braces outer, c => stepBraces outer c
  | string q p r, c => stepString q p r c
  | token outer slot s, c => stepToken outer slot s c
  | date outer slot s, c => stepDate outer slot s c
  | after outer, c => stepAfter outer c

end Mode

/-! ## Documents -/

/-- The reader within a document. -/
structure Reader where
  mode : Mode
  draft : Draft

namespace Reader

/-- The reader before the first character. -/
def new : Reader := ⟨.start, .new⟩

/-- What is done by actions, if they are allowed. -/
def execs (d : Draft) (as : List Action) : Option Draft := as.foldlM Draft.exec d

/-- A character is read. -/
def step (r : Reader) (c : Char) : Option Reader :=
  (r.mode.step c).bind fun p => (execs r.draft p.2).map fun d => ⟨p.1, d⟩

end Reader

/-- The reader after a text. -/
def scan (s : Text) : Option Reader := Run.run Reader.step .new s

/-- The document with the given text: its entries, marked by how they came about. -/
def document (s : Text) : Option Entries :=
  if s.getLast? = some '\r' then none
  else match scan (s ++ ['\n']) with
    | some ⟨.line, ⟨.table _ es, _, _⟩⟩ => some es
    | _ => none

/-- The value of the document with the given text. -/
def parse (s : Text) : Option Table := (document s).map entriesToTable

end Toml
