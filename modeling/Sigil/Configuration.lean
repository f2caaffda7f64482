import Sigil.Processor
import Sigil.Yaml.Node
import Sigil.Yaml.Scalar

/-!
# Configurations

A run is configured by a YAML text with four optional fields: `recursive`, `case_fold`,
`max_expansion_depth` and `prefixes`.  A text is decoded in the order in which it is written, so its
first fault is the one reported, also if the text breaks a rule of YAML further on.
-/

namespace Sigil

/-- What a configuration says. -/
structure Configuration where
  recursive : Bool := false
  fold : Text.Fold := .lower
  maxDepth : Nat := 128
  sigils : List (String × Handler) := standardSigils
deriving DecidableEq, Repr

namespace Configuration

/-! ## Decoding -/

/-- Why a text is no configuration. -/
inductive Issue where
  /-- The text breaks a rule of YAML. -/
  | badText
  /-- The text says something that a configuration does not. -/
  | badContent (path message : String)

namespace Issue

/-- The issue in words, if there are any. -/
def detail? : Issue → Option String
  | .badText => none
  | .badContent path message => some (if path.isEmpty then message else path ++ ": " ++ message)

end Issue

/-- A part of a configuration, or why there is none. -/
abbrev Decoded := Except Issue

open Yaml (Node Value)

/-- What a node is, in words. -/
def described : Node → Option String
  | .scalar text plain => some (Value.ofScalar text plain).described
  | .sequence .. => some "sequence"
  | .mapping .. => some "map"
  | .cut => none

/-- The issue of a node that is not what was expected. -/
def unexpected {α : Type} (path : String) (node : Node) (expected : String) : Decoded α :=
  match described node with
  | some found => .error (.badContent path ("invalid type: " ++ found ++ ", expected " ++ expected))
  | none => .error .badText

/-- Names as they are listed in messages. -/
def listed : List String → String
  | [] => "there are no fields"
  | [a] => "expected `" ++ a ++ "`"
  | [a, b] => "expected `" ++ a ++ "` or `" ++ b ++ "`"
  | names => "expected one of " ++ ", ".intercalate (names.map fun n => "`" ++ n ++ "`")

/-- A truth value. -/
def bool (path : String) (node : Node) : Decoded Bool :=
  match node with
  | .scalar text true =>
    match Value.ofPlain text with
    | .bool b => .ok b
    | _ => unexpected path node "a boolean"
  | _ => unexpected path node "a boolean"

/-- A natural number of 64 binary digits. -/
def nat (path : String) (node : Node) : Decoded Nat :=
  match node with
  | .scalar text true =>
    match Value.ofPlain text with
    | .int n =>
      if 0 ≤ n ∧ n < (1 <<< 64 : Nat) ∧ text.toList.head? ≠ some '-' then .ok n.toNat
      else unexpected path node "usize"
    | _ => unexpected path node "usize"
  | _ => unexpected path node "usize"

/-- A text; any scalar is one. -/
def text (path : String) (node : Node) : Decoded String :=
  match node with
  | .scalar text _ => .ok text
  | _ => unexpected path node "a string"

/-- One of several names. -/
def oneOf {α : Type} (path : String) (names : List String) (ofName? : String → Option α)
    (node : Node) : Decoded α :=
  match node with
  | .scalar name _ =>
    match ofName? name with
    | some a => .ok a
    | none => .error (.badContent path ("unknown variant `" ++ name ++ "`, " ++ listed names))
  | _ => unexpected path node "a YAML tag starting with '!'"

/-- The name of a field. -/
def fieldName (path : String) (node : Node) : Decoded String :=
  match node with
  | .scalar name _ => .ok name
  | _ => unexpected path node "field identifier"

/-- Decodes the pairs of a mapping in turn.  `set` takes a value into the record; a field must be
one of `fields` and occur once. -/
def pairsInto {ρ : Type} (path : String) (fields : List String)
    (set : String → Node → ρ → Decoded ρ) (seen : List String) (record : ρ) :
    List (Node × Node) → Decoded ρ
  | [] => .ok record
  | (key, value) :: more => do
    let name ← fieldName path key
    if !fields.contains name then
      throw (.badContent path ("unknown field `" ++ name ++ "`, " ++ listed fields))
    if seen.contains name then throw (.badContent path ("duplicate field `" ++ name ++ "`"))
    let record ← set name value record
    pairsInto path fields set (name :: seen) record more

/-- Decodes a mapping into a record.  A missing value is a mapping without pairs. -/
def mappingInto {ρ : Type} (path expected : String) (fields : List String)
    (set : String → Node → ρ → Decoded ρ) (record : ρ) (node : Node) : Decoded ρ :=
  match node with
  | .scalar "" true => .ok record
  | .mapping pairs closed => do
    let record ← pairsInto path fields set [] record pairs
    if closed then return record else throw .badText
  | node => unexpected path node expected

/-- An entry of the table, of which both fields are still open. -/
structure Draft where
  sigil : Option String := none
  handler : Option Handler := none

/-- An entry of the table. -/
def entry (path : String) (node : Node) : Decoded (String × Handler) := do
  let set := fun (name : String) (value : Node) (draft : Draft) =>
    if name = "prefix" then do
      return { draft with sigil := some (← text (path ++ ".prefix") value) }
    else do
      let labels := Handler.all.map Handler.label
      let handler ← oneOf (path ++ ".handler") labels Handler.ofLabel? value
      return { draft with handler := some handler }
  let draft ← mappingInto path "struct PrefixSpec" ["prefix", "handler"] set {} node
  match draft.sigil, draft.handler with
  | some sigil, some handler => return (sigil, handler)
  | none, _ => throw (.badContent path "missing field `prefix`")
  | _, none => throw (.badContent path "missing field `handler`")

/-- Entries of the table, counted from `index`. -/
def entriesFrom (path : String) (index : Nat) : List Node → Decoded (List (String × Handler))
  | [] => .ok []
  | node :: nodes => do
    let first ← entry s!"{path}[{index}]" node
    let others ← entriesFrom path (index + 1) nodes
    return first :: others

/-- The entries of the table.  A missing value is a table without entries. -/
def entries (path : String) (node : Node) : Decoded (List (String × Handler)) :=
  match node with
  | .scalar "" true => .ok []
  | .sequence nodes closed => do
    let entries ← entriesFrom path 0 nodes
    if closed then return entries else throw .badText
  | node => unexpected path node "a sequence"

/-- The fields of a configuration. -/
def fields : List String := ["recursive", "case_fold", "max_expansion_depth", "prefixes"]

/-- Takes a field into a configuration. -/
def setField (name : String) (value : Node) (c : Configuration) : Decoded Configuration :=
  match name with
  | "recursive" => do return { c with recursive := ← bool name value }
  | "case_fold" => do
    return { c with fold := ← oneOf name ["lower", "upper"] Text.Fold.ofLabel? value }
  | "max_expansion_depth" => do return { c with maxDepth := ← nat name value }
  | _ => do return { c with sigils := ← entries name value }

/-- The configuration that a text describes. -/
def decode (text : String) : Decoded Configuration := do
  let (node, whole) := Node.ofText text
  let c ← mappingInto "" "struct Config" fields setField {} node
  if whole then return c else throw .badText

/-! ## Use -/

/-- Checks what a text can say and a run cannot use. -/
def validate (c : Configuration) : Except Failure Unit :=
  if c.sigils.isEmpty then .error (.plain .emptyTable)
  else if c.maxDepth = 0 then .error (.plain .zeroDepth)
  else
    match c.sigils.findIdx? (·.1.isEmpty) with
    | some i => .error (.plain (.emptySigilAt (i + 1)))
    | none => .ok ()

/-- The configuration that a text describes, checked.  A text of blanks describes the defaults. -/
def ofText (text : String) : Except Failure Configuration := do
  let c ← match decode text with
    | .ok c => pure c
    | .error issue =>
      if Text.allBlank text then pure {} else throw (.plain (.badConfiguration issue.detail?))
  c.validate
  return c

/-- The settings of a configuration. -/
def settings (c : Configuration) : Settings :=
  { recursive := c.recursive, fold := c.fold, maxDepth := c.maxDepth }

/-- The table of a configuration. -/
def table (c : Configuration) : Except Failure (List Entry) :=
  sigilTable (c.sigils.map fun (sigil, handler) => (sigil, handler.directive))

/-- A processor for a configuration. -/
def processor (c : Configuration) : Except Failure Processor := do
  c.validate
  let table ← c.table
  return .make c.settings table

end Configuration

end Sigil
