import Sigil.Fault

/-!
# Failures

A fault together with what is known about it: the text it points into, the place there, a hint and
the deeper reason.
-/

namespace Sigil

/-- A range of bytes in a text. -/
structure Span where
  start : Nat
  stop : Nat
deriving DecidableEq, Repr

namespace Span

/-- The number of bytes in a range; a range that ends before it starts has none. -/
def length (s : Span) : Nat := s.stop - s.start

/-- A range without bytes. -/
def isEmpty (s : Span) : Bool := s.length == 0

end Span

/-- A text that diagnostics point into. -/
structure Source where
  name : String
  text : String
deriving DecidableEq, Repr

/-- The deeper reason of a failure. -/
inductive Origin where
  | grammar
  | device (reason : String)
  | fault (f : Fault)
deriving DecidableEq

/-- The reason in words. -/
def Origin.text : Origin → String
  | .grammar => "parser"
  | .device reason => reason
  | .fault f => f.fullMessage

/-- A fault with its context. -/
structure Failure where
  fault : Fault
  source : Option Source := none
  span : Option Span := none
  hint : Option String := none
  origin : Option Origin := none
deriving DecidableEq

/-- A mark under the place that a failure points at. -/
structure Label where
  start : Nat
  length : Nat
  text : String
deriving DecidableEq, Repr

namespace Failure

/-- A fault that points nowhere. -/
def plain (fault : Fault) : Failure := { fault, hint := fault.hint? }

/-- A fault at a place in a text. -/
def located (fault : Fault) (source : Source) (span : Span) : Failure :=
  { fault, source := some source, span := some span, hint := fault.hint? }

/-- A failure with a given hint in place of its own. -/
def withHint (f : Failure) (hint : String) : Failure := { f with hint := some hint }

/-- A failure with a deeper reason. -/
def withOrigin (f : Failure) (origin : Origin) : Failure := { f with origin := some origin }

/-- A failure of a device, which is its own deeper reason. -/
def ofDevice (reason : String) : Failure :=
  (plain (.device reason)).withOrigin (.device reason)

/-- The mark for a failure that has a text and a place in it, at least one byte long. -/
def label? (f : Failure) : Option Label :=
  match f.source, f.span with
  | some _, some span => some ⟨span.start, max span.length 1, f.fault.message⟩
  | _, _ => none

end Failure

end Sigil
