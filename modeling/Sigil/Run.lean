import Sigil.Datum.Reading
import Sigil.Evaluation
import Sigil.Rendering
import Sigil.Sink

/-!
# Runs

What a directive can do: read from the input and give characters back, use and change the macros,
write to the output, and fail.  Nothing keeps a directive from giving back more than it has read.
-/

namespace Sigil

/-- What a run works on. -/
structure RunState where
  input : Input
  registry : Registry
  sink : Sink

/-- A part of a run. -/
def Run (α : Type) : Type := RunState → Except Failure α × RunState

namespace Run

variable {α β : Type}

instance : Monad Run where
  pure a s := (.ok a, s)
  bind x f s :=
    match x s with
    | (.error e, t) => (.error e, t)
    | (.ok a, t) => f a t

/-- Fails. -/
def fail (f : Failure) : Run α := fun s => (.error f, s)

/-- What the run works on at this moment. -/
def state : Run RunState := fun s => (.ok s, s)

/-- A result or a failure that needs nothing of the run. -/
def ofExcept : Except Failure α → Run α
  | .ok a => pure a
  | .error f => fail f

/-- Something done to the input. -/
def onInput (f : Input → Except Failure α × Input) : Run α :=
  fun s => ((f s.input).1, { s with input := (f s.input).2 })

/-- Reads the next character. -/
def next : Run (Option Char) := onInput Input.next

/-- Gives a character back, to be read next. -/
def unread (c : Char) : Run Unit := onInput fun i => (.ok (), i.unread c)

/-- Reads one expression. -/
def read (casing : Text.Casing) : Run Expr := onInput (Datum.read casing)

/-- Writes a text. -/
def emit (text : String) : Run Unit := fun s =>
  ((s.sink.emit text).1, { s with sink := (s.sink.emit text).2 })

/-- Evaluates with the macros of the run. -/
def evaluate (x : Evaluating α) : Run α := fun s =>
  ((x s.registry).1, { s with registry := (x s.registry).2 })

/-- The expansion of an expression by the macros of the run. -/
def expand (settings : Settings) (e : Expr) : Run Expr := do
  let s ← state
  ofExcept (s.registry.expand settings e)

/-- The rendering of an expression by the macros of the run. -/
def render (settings : Settings) (e : Expr) : Run String := do
  let s ← state
  ofExcept (s.registry.render settings e)

end Run

end Sigil
