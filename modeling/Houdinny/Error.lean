import Houdinny.Lib.Text

/-!
# Errors

The error type that the library modules share. A message is the formatted text
of the source; the errors of the operating system are their texts.

The constructors are the variants of the source's enumeration. Errors that `anyhow` wraps are
texts where they are returned.
-/

namespace Houdinny

/-- An error of an I/O operation. -/
abbrev IoError := Text

/-- Core error types. -/
inductive Error
  | noHealthyTunnels
  | tunnelConnect (msg : Text)
  | tunnelProvision (msg : Text)
  | proxy (msg : Text)
  | config (msg : Text)
  | payment (msg : Text)
  | io (e : IoError)
  deriving DecidableEq

end Houdinny
