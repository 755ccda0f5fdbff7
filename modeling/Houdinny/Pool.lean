import Houdinny.Lib.Text

/-!
# The tunnel pool

The transports that can be picked, in the order in which they were added. The pool is
generic in its transports `α`, of which it reads two things, both at the time of the call:

* the identifier, by which a transport is looked up (`Pool.get`) and removed
  (`Pool.remove`). Nothing makes identifiers distinct: `remove` takes out every transport
  with the identifier, and `get` returns the first one;
* the health flag, by which `Pool.healthyTransportsSync` filters. It is called from the
  picker, which must not wait: where a writer holds the lock, it returns nothing.

Here a call is one step. What comes between the steps of a call, where flags drop and
writers wait for the lock, is modelled in `Houdinny.Picker` and `Houdinny.Status`.
-/

namespace Houdinny

/-- A pool of tunnel transports. -/
structure Pool (α : Type) where
  transports : List α

namespace Pool

variable {α : Type} (id : α → Text) (healthy : α → Bool)

/-- Create a new pool from a list of transports. -/
def new (transports : List α) : Pool α := ⟨transports⟩

/-- Add a transport to the pool at runtime. -/
def add (p : Pool α) (transport : α) : Pool α := ⟨p.transports ++ [transport]⟩

/-- Remove a transport by its ID: the pool after it, and whether there was one. -/
def remove (p : Pool α) (i : Text) : Pool α × Bool :=
  let kept := p.transports.filter fun t => id t ≠ i
  (⟨kept⟩, kept.length < p.transports.length)

/-- Look up a transport by its ID. -/
def get (p : Pool α) (i : Text) : Option α := p.transports.find? fun t => id t = i

/-- Return the number of transports in the pool, healthy or not. -/
def len (p : Pool α) : ℕ := p.transports.length

/-- Return all transports in the pool. -/
def all (p : Pool α) : List α := p.transports

/-- Return only healthy transports: none, if the lock is held by a writer. -/
def healthyTransportsSync (contended : Bool) (p : Pool α) : List α :=
  if contended then [] else p.transports.filter healthy

end Pool

end Houdinny
