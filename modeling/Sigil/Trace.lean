import Sigil.Expansion
import Sigil.Text.WordDiff

/-!
# Traces

The steps of an expansion as text: a header for each step, then the difference between the
expression before it and the one after it.  On a colour terminal, codes are put in front of what
they colour.
-/

namespace Sigil

/-- The colours of a trace. -/
inductive Shade where
  | plain
  | header
  | added
  | removed

/-- The codes that switch a shade on; they begin by switching off the one before. -/
def Shade.codes : Shade → String
  | .plain => "\x1b[0m"
  | .header => "\x1b[0m\x1b[1m\x1b[33m"
  | .added => "\x1b[0m\x1b[32m"
  | .removed => "\x1b[0m\x1b[31m"

namespace Trace

/-- The codes of a shade, if colours are wanted. -/
def shade (colour : Bool) (s : Shade) : String := if colour then s.codes else ""

/-- The line of one piece of a difference. -/
def changeText (colour : Bool) : Text.Change → String
  | .same text => shade colour .plain ++ " " ++ text ++ "\n"
  | .added text => shade colour .added ++ "+" ++ text ++ "\n"
  | .removed text => shade colour .removed ++ "-" ++ text ++ "\n"

/-- The block of one step. -/
def stepText (colour : Bool) (index : Nat) (step : Step) : String :=
  shade colour .header ++ s!"--- Step {index}: " ++ step.name ++ " (" ++ step.kind.label
    ++ ") ---\n" ++ shade colour .plain
    ++ String.join ((Text.wordDiff step.before.printed step.after.printed).map (changeText colour))
    ++ shade colour .plain ++ "\n"

/-- The blocks of steps that are counted from `index`. -/
def textFrom (colour : Bool) (index : Nat) : List Step → String
  | [] => ""
  | step :: steps => stepText colour index step ++ textFrom colour (index + 1) steps

/-- The steps of an expansion as text. -/
def text (colour : Bool) (steps : List Step) : String := textFrom colour 0 steps

end Trace

end Sigil
