import Sigil.Sigils

/-!
# Processing documents

A document is copied to the output character by character, except where a sigil stands: there its
directive runs.  Definitions made by one directive hold for every later one, also in later
documents.
-/

namespace Sigil

/-- What follows from trying the table at the character `c`: the document is over, or it goes on. -/
def settled (c : Char) : Except Failure Bool × RunState →
    (Except Failure Unit × RunState) ⊕ RunState
  | (.error f, t) => .inl (.error f, t)
  | (.ok true, t) => .inr t
  | (.ok false, t) =>
    match t.sink.emitChar c with
    | (.error f, sink) => .inl (.error f, { t with sink })
    | (.ok (), sink) => .inr { t with sink }

/-- One round of a document: it is over, or it goes on.  The mark is set before each character, so
diagnostics show no more than the directive at hand. -/
def advance (cx : Context) (table : List Entry) (s : RunState) :
    (Except Failure Unit × RunState) ⊕ RunState :=
  match s.input.setMark.next with
  | (.error f, i) => .inl (.error f, { s with input := i })
  | (.ok none, i) => .inl (s.sink.flush, { s with input := i })
  | (.ok (some c), i) => settled c (dispatch cx table c { s with input := i })

/-- Processes a document from where the run stands, round by round.  A directive that always gives
back what it has read keeps its document from ever coming to an end. -/
def processFrom (cx : Context) (table : List Entry) (s : RunState) :
    Except Failure Unit × RunState :=
  have : Nonempty (Except Failure Unit × RunState) := ⟨.ok (), s⟩
  -- `repeatM` goes on from what stands on the left
  Id.run (repeatM (fun t => pure (advance cx table t).swap) s)

/-- Everything that lasts from one document to the next. -/
structure Processor where
  context : Context
  table : List Entry
  registry : Registry := .empty

namespace Processor

/-- A processor with the evaluator of definitions. -/
def make (settings : Settings) (table : List Entry) : Processor :=
  { context := { settings, host := .definitions settings }, table }

/-- The processor with the built-in sigils and settings. -/
def standard : Processor := make {} standardTable

/-- Processes an input into a sink. -/
def process (p : Processor) (input : Input) (sink : Sink) : Except Failure Unit × RunState :=
  processFrom p.context p.table { input, registry := p.registry, sink }

/-- The processor after a run. -/
def after (p : Processor) (s : RunState) : Processor := { p with registry := s.registry }

/-- The name of an input that is a text. -/
def textName : String := "<string>"

/-- The name of an input that has no other. -/
def inputName : String := "<input>"

/-- Processes a text into a text. -/
def processText (p : Processor) (text : String) : Except Failure String × Processor :=
  match p.process (.ofText textName text) (.text "") with
  | (.ok (), s) => (.ok s.sink.contents, p.after s)
  | (.error f, s) => (.error f, p.after s)

end Processor

end Sigil
