import Sigil.Command.Directory
import Sigil.Main
import Sigil.Proofs.PlainReading
import Sigil.Proofs.Scopes
import Sigil.Proofs.Grammar
import Sigil.Proofs.Printing
import Sigil.Proofs.Language
import Sigil.Proofs.Matching
import Sigil.Proofs.Driver
import Sigil.Proofs.Depth
import Sigil.Proofs.DefinitionFree
import Sigil.Proofs.Cursor
import Sigil.Proofs.Reaching
import Sigil.Proofs.LineEnds
import Sigil.Proofs.Placing
import Sigil.Proofs.Cutting
import Sigil.Proofs.Output
import Sigil.Proofs.PrintedReading
import Sigil.Proofs.OneDatum
import Sigil.Proofs.Locality
import Sigil.Proofs.Standing
import Sigil.Proofs.Recording
import Sigil.Proofs.RenderedExpansion
import Sigil.Proofs.Agreement
import Sigil.Proofs.Preservation
import Sigil.Proofs.CutOut
import Sigil.Proofs.Reloading
import Sigil.Proofs.Nesting
import Sigil.Proofs.Culprits
import Sigil.Proofs.Failing
import Sigil.Proofs.Unlocated
import Sigil.Proofs.Diagnostics
import Sigil.Proofs.Tracing
import Sigil.Proofs.CallsLeft
import Sigil.Proofs.ParameterNames
import Sigil.Proofs.Unreadable
import Sigil.Proofs.NamesMet
import Sigil.Proofs.RenderedReading
import Sigil.Proofs.Chains
import Sigil.Proofs.FoldedDefinitions
import Sigil.Proofs.TableOrder
